import Mathlib.Algebra.BigOperators.Group.Finset.Piecewise
import EndpointControl.Proofs.Ledger
import EndpointControl.Proofs.Stacks

/-!
# One attempt, one registration

An attempt at an endpoint is accepted once at most, and once at most the endpoint
is counted as registered: that is what the phases of its account say
(`Machine.Run.counted_le`). The counters of workers and bosses are sums
of that over the endpoints. A worker has registered as many as have been counted
among the endpoints bound to it, and a boss has accepted as many attempts as there
are endpoints of its factory on which `connect` returned without failure, so the
counters compare as the accounts do.
-/

open Finset

namespace EndpointControl

/-! ## The endpoints of a worker, and of a factory -/

namespace Store

/-- The endpoints whose home is such a loop. -/
def endpointsOf (s : Store) (p : LoopId → Bool) : Finset EndpointId :=
  (range s.endpoints.size).filter fun e => (s.endpoints[e]?.map Endpoint.home).any p

/-- The endpoints bound to a worker. -/
def boundTo (s : Store) (f : FactoryId) (w : Nat) : Finset EndpointId :=
  s.endpointsOf (· = ⟨f, .worker w⟩)

/-- The endpoints of a factory. -/
def ofFactory (s : Store) (f : FactoryId) : Finset EndpointId := s.endpointsOf (·.factory = f)

variable {s s' : Store} {p : LoopId → Bool} {e : EndpointId}

theorem mem_endpointsOf :
    e ∈ s.endpointsOf p ↔ ∃ r, s.endpoints[e]? = some r ∧ p r.home = true := by
  rw [endpointsOf, mem_filter, mem_range]
  constructor
  · rintro ⟨hlt, h⟩
    rw [Array.getElem?_eq_getElem hlt] at h
    exact ⟨s.endpoints[e], Array.getElem?_eq_getElem hlt, by simpa using h⟩
  · rintro ⟨r, hr, h⟩
    exact ⟨(Array.getElem?_eq_some_iff.mp hr).1, by simpa [hr] using h⟩

theorem size_notMem_endpointsOf (s : Store) (p : LoopId → Bool) :
    s.endpoints.size ∉ s.endpointsOf p := by
  simp [endpointsOf]

theorem SameBindings.endpointsOf (h : s.SameBindings s') (p : LoopId → Bool) :
    s'.endpointsOf p = s.endpointsOf p := by
  ext e
  rw [mem_endpointsOf, mem_endpointsOf]
  have he := h e
  constructor
  · rintro ⟨r', hr', hp⟩
    rw [hr', Option.map_some] at he
    obtain ⟨r, hr, hhome⟩ := Option.map_eq_some_iff.mp he.symm
    exact ⟨r, hr, hhome ▸ hp⟩
  · rintro ⟨r, hr, hp⟩
    rw [hr, Option.map_some] at he
    obtain ⟨r', hr', hhome⟩ := Option.map_eq_some_iff.mp he
    exact ⟨r', hr', hhome ▸ hp⟩

/-- A new endpoint is one more for its worker. -/
theorem endpointsOf_enroll (s : Store) (f : FactoryId) (w : Nat) (n : UInt64)
    (p : LoopId → Bool) : (s.enroll f w n).endpointsOf p
      = if p ⟨f, .worker w⟩ then insert s.endpoints.size (s.endpointsOf p)
        else s.endpointsOf p := by
  ext e
  rw [mem_endpointsOf, enroll, Array.getElem?_push]
  by_cases he : e = s.endpoints.size
  · subst he
    have hnot := s.size_notMem_endpointsOf p
    cases hp : p ⟨f, .worker w⟩ <;> simp [hp, hnot, Endpoint.home]
  · rw [if_neg he, ← mem_endpointsOf]
    split <;> simp [he]

/-- What waits in a queue is on its way, and nothing else. -/
theorem queued_eq_zero (s : Store) (e : EndpointId) (σ : Stage) (h : σ ≠ .travelling) :
    s.queued e σ = 0 := by
  rw [queued, count_cargo, if_neg h]

/-- Nobody waits in a queue for an acknowledgement. -/
theorem queued_acknowledging (s : Store) (e : EndpointId) : s.queued e .acknowledging = 0 :=
  s.queued_eq_zero e .acknowledging nofun

end Store

/-! ## Who has been accepted -/

/-- **A connection attempt that returned without failure**: the thread was started
for it and ended so. -/
def Machine.Accepted (m : Machine) (is : List Incident) (e : EndpointId) (t : ThreadId) : Prop :=
  (∃ a, CarriesOut is t (.connect e a)) ∧ m.control? t = some (.finished (.connected (.ok ())))

/-- It counts one for such a thread. -/
def settled (is : List Incident) (e : EndpointId) (t : ThreadId) : Control → Nat
  | .finished (.connected (.ok ())) =>
    match (origins is)[t]? with
    | some (some (.connect e' _)) => if e' = e then 1 else 0
    | _ => 0
  | _ => 0

theorem settled_running (is : List Incident) (e : EndpointId) (t : ThreadId) (st : List Frame) :
    settled is e t (.running st) = 0 := rfl

theorem settled_of_carriesOut {is : List Incident} {e e' : EndpointId} {t : ThreadId}
    {a : Address} (h : CarriesOut is t (.connect e' a)) :
    settled is e t (.finished (.connected (.ok ()))) = if e' = e then 1 else 0 := by
  rw [settled, show (origins is)[t]? = some (some (.connect e' a)) from h]

theorem Machine.Accepted.settled {m : Machine} {is : List Incident} {e : EndpointId}
    {t : ThreadId} (h : m.Accepted is e t) :
    settled is e t (.finished (.connected (.ok ()))) = 1 := by
  obtain ⟨⟨a, ha⟩, -⟩ := h
  rw [settled_of_carriesOut ha, if_pos rfl]

theorem settled_ne_zero {is : List Incident} {e : EndpointId} {t : ThreadId} {c : Control}
    (h : settled is e t c ≠ 0) :
    c = .finished (.connected (.ok ())) ∧ ∃ a, CarriesOut is t (.connect e a) := by
  unfold settled at h
  split at h
  · split at h
    · rename_i e' a ho
      split at h
      · rename_i he
        exact ⟨rfl, a, he ▸ ho⟩
      · exact absurd rfl h
    · exact absurd rfl h
  · exact absurd rfl h

/-- What a thread was started for does not change. -/
theorem settled_append {is is' : List Incident} {e : EndpointId} {t : ThreadId} {c : Control}
    (h : t < (origins is).length) : settled (is ++ is') e t c = settled is e t c := by
  unfold settled
  rw [origins_append, List.getElem?_append_left h]

section Procedures

variable {s : Store} {t : ThreadId} {c c' : Control} {g : Store → Store} {ns : List Note}

/-- **Only one point returns without failure.** -/
theorem Control.Sound.connect_of_accepted (hc : c.Sound s)
    (h : c.move s t = .act g (.finished (.connected (.ok ()))) ns) :
    ∃ e a, c = .running [.connect e a .count] := by
  obtain ⟨fr, below, rfl, hgoes⟩ := Control.goes_of_act h
  generalize hd : Control.finished (.connected (.ok ())) = d at hgoes
  cases hgoes with
  | within | calls => exact absurd hd nofun
  | returns hroot =>
    obtain ⟨caller, rest, rfl, -⟩ := hc.2.2.exists_caller hroot
    exact absurd hd nofun
  | ends hroot ho =>
    obtain rfl := Control.finished.inj hd
    obtain rfl := hc.2.2.eq_nil hroot
    cases fr <;> simp [Frame.operation?, Outcome.endsFor] at ho
    rename_i e a p
    cases Control.moves_of_running h with
    | connect found hp =>
      cases p <;> simp [ConnectPoint.move] at hp
      · split at hp <;> simp at hp
      · exact ⟨e, a, rfl⟩

theorem Control.accepted_of_connect {e : EndpointId} {a : Address} {below : List Frame}
    (h : (Control.running (.connect e a .count :: below)).move s t = .act g c' ns) :
    c' = .finished (.connected (.ok ())) := by
  cases Control.moves_of_running h with
  | connect found hp =>
    simp [ConnectPoint.move] at hp
    exact hp.2.1

/-- Nothing is at two stages of waiting for an acknowledgement. -/
theorem Leg.count_acknowledging (leg : Leg) :
    leg.puts.count .acknowledging = leg.takes.count .committed
      ∧ leg.takes.count .acknowledging = if leg = .acknowledge then 1 else 0 := by
  cases leg with
  | enroll fl => cases fl <;> exact ⟨rfl, rfl⟩
  | _ => exact ⟨rfl, rfl⟩

/-- **An attempt that is accepted is acknowledged once**: while it is not, its
client holds that against it, and then the client has ended. -/
theorem Control.settled_of_act {is : List Incident} {o : Option Operation} (hc : c.Sound s)
    (ho : (origins is)[t]? = some o) (hfrom : c.From o) (hs : s.Sound)
    (h : c.move s t = .act g c' ns) (e : EndpointId) :
    c'.cargo.count (e, .acknowledging) + settled is e t c'
      = c.cargo.count (e, .acknowledging) + ns.countP (Note.accepts e) := by
  obtain ⟨leg, p⟩ := passes_of_act hs hc h e
  have hcarried := p.carried .acknowledging
  rw [Store.queued_acknowledging, Store.queued_acknowledging, leg.count_acknowledging.1,
    leg.count_acknowledging.2, ← p.accepted] at hcarried
  -- nothing of this waits in a queue, so all that counts is whether the client is told
  suffices settled is e t c' = if leg = .acknowledge then 1 else 0 by omega
  by_cases hleg : leg = .acknowledge
  · have hplace := p.place
    rw [hleg] at hplace
    obtain ⟨a, below, rfl⟩ := hplace
    obtain rfl := hc.2.2.eq_nil rfl
    obtain rfl := accepted_of_connect h
    have hcarries : CarriesOut is t (.connect e a) := by
      rw [CarriesOut, ho, ← show Control.operation? _ = o from hfrom]
      rfl
    rw [settled_of_carriesOut hcarries, if_pos rfl, if_pos hleg]
  · rw [if_neg hleg]
    -- only the client of an attempt ends so, and it has just acknowledged it
    by_contra hne
    obtain ⟨rfl, a, ha⟩ := settled_ne_zero hne
    obtain ⟨e', a', rfl⟩ := hc.connect_of_accepted h
    have hop : some (Operation.connect e' a') = o := hfrom
    rw [CarriesOut, ho, ← hop] at ha
    obtain ⟨rfl, rfl⟩ := Operation.connect.inj (Option.some.inj (Option.some.inj ha))
    simp [Frame.cargo, hleg] at hcarried
    omega

/-- An endpoint that comes about has no accepted attempt. -/
theorem Control.settled_size {is : List Incident} {o : Option Operation} (hc : c.Sound s)
    (ho : (origins is)[t]? = some o) (hfrom : c.From o) (h : c.move s t = .act g c' ns) :
    settled is s.endpoints.size t c' = 0 := by
  by_contra hne
  obtain ⟨rfl, a, ha⟩ := settled_ne_zero hne
  obtain ⟨e, a', rfl⟩ := hc.connect_of_accepted h
  have hop : some (Operation.connect e a') = o := hfrom
  rw [CarriesOut, ho, ← hop] at ha
  obtain ⟨rfl, rfl⟩ := Operation.connect.inj (Option.some.inj (Option.some.inj ha))
  obtain ⟨r, hr⟩ := hc.1
  simp at hr

/-- **A boss counts an attempt** where its client is told, and nowhere else. -/
theorem Control.attempts_of_act {is : List Incident} {o : Option Operation} (hc : c.Sound s)
    (ho : (origins is)[t]? = some o) (hfrom : c.From o) (h : c.move s t = .act g c' ns)
    (hboss : ∀ e a r, c = .running [.connect e a .count] → s.endpoints[e]? = some r →
      (s.loop? r.boss).isSome) (f : FactoryId) :
    (g s).attempts f = s.attempts f + ∑ e ∈ s.ofFactory f, settled is e t c' := by
  by_cases hcount : ∃ e a below, c = .running (.connect e a .count :: below)
  · obtain ⟨e₀, a, below, rfl⟩ := hcount
    obtain rfl := hc.2.2.eq_nil rfl
    obtain rfl := accepted_of_connect h
    have hop : some (Operation.connect e₀ a) = o := hfrom
    have hcarries : CarriesOut is t (.connect e₀ a) := by rw [CarriesOut, ho, hop]
    cases moves_of_running h with
    | @connect _ r _ _ found hp =>
      simp [ConnectPoint.move] at hp
      obtain ⟨rfl, -⟩ := hp
      -- the boss is the one of the endpoint's factory, whose counter goes up by one
      have hmem : e₀ ∈ s.ofFactory f ↔ r.factory = f := by
        rw [Store.ofFactory, Store.mem_endpointsOf]
        simp only [found, Option.some.injEq, exists_eq_left', Endpoint.home]
        exact decide_eq_true_iff
      rw [Store.attempts_count _ (hboss e₀ a r rfl found)]
      simp only [settled_of_carriesOut hcarries, sum_ite_eq, hmem]
  · have hzero (e : EndpointId) : settled is e t c' = 0 := by
      by_contra hne
      obtain ⟨rfl, -⟩ := settled_ne_zero hne
      obtain ⟨e', a, rfl⟩ := hc.connect_of_accepted h
      exact hcount ⟨e', a, [], rfl⟩
    simp only [hzero, sum_const_zero, Nat.add_zero]
    exact (counts_of_act h).attempts_eq (fun e a b h => hcount ⟨e, a, b, h⟩) f

end Procedures

namespace Machine

variable {m m' : Machine} {i : Incident} {is : List Incident} {e : EndpointId}

theorem total_settled_append (h : m.threads.size ≤ (origins is).length) (is' : List Incident) :
    m.total (settled (is ++ is') e) = m.total (settled is e) :=
  total_congr rfl fun _ _ hc => settled_append ((lt_size_of_control? hc).trans_le h)

/-- **As many attempts have been accepted as clients know of, or are about to.** -/
theorem Run.total_settled (r : Run is m) (e : EndpointId) :
    m.total (settled is e) + m.tokens e .acknowledging = accepted is e := by
  refine r.induction (motive := fun is m =>
    m.total (settled is e) + m.tokens e .acknowledging = accepted is e) ?empty ?advance
  case empty => rw [tokens, Store.queued_acknowledging, total_empty, total_empty, accepted_nil]
  case advance =>
    intro is m i m' r ih a
    obtain ⟨hs, hsound⟩ := r.reachable.sound
    have hsize := r.originates.1.ge
    rw [tokens, Store.queued_acknowledging] at ih ⊢
    rw [accepted_append, accepted_singleton]
    cases a with
    | @act t c c' g ns hc hmove =>
      obtain ⟨o, ho, hfrom⟩ := r.originates.2 t c hc
      have hstep := Control.settled_of_act (hsound t c hc) ho hfrom hs hmove e
      -- a thread that moves has not ended
      have hzero : settled is e t c = 0 := by
        obtain ⟨fr, below, rfl, -⟩ := Control.moves_of_act hmove
        rfl
      have hset := total_act (settled is e) hc g c'
      have hcargo := total_act (fun _ c => c.cargo.count (e, .acknowledging)) hc g c'
      rw [total_settled_append (by simpa [Machine.act, Machine.setControl] using hsize)]
      simp only [Incident.notes]
      omega
    | @answer t c q after hc hmove reply =>
      obtain ⟨fr, fr', below, rfl, -, hafter⟩ := Control.goes_of_ask reply hmove
      have hset := total_answer (w := settled (is ++ [.stepped t (.answered q reply)]) e) hc
        (fun _ _ _ => rfl) after reply
      have hcargo := total_answer (w := fun _ c => c.cargo.count (e, .acknowledging)) hc
        (fun _ _ _ => rfl) after reply
      rw [Control.cargo_of_ask reply hmove] at hcargo
      rw [hafter, settled_running, settled_running, total_settled_append hsize] at hset
      simp only [Incident.notes, List.countP_nil]
      omega
    | call home o =>
      have hnew : settled (is ++ [.called home o]) e m.threads.size o.control = 0 := by
        cases o <;> rfl
      rw [total_spawn, total_spawn, hnew, total_settled_append hsize, Operation.cargo_control]
      simpa [Incident.notes] using ih
    | build b =>
      rw [total_build, total_build, total_settled_append hsize]
      simpa [Incident.notes] using ih

/-- **No endpoint is counted more often than an attempt at it is accepted**, unless
it is a datagram endpoint, and none more than once. -/
theorem Run.counted_le (r : Run is m) (e : EndpointId) :
    counted is e ≤ 1 ∧ accepted is e ≤ 1
      ∧ (m.store.flavor? e = some .client → counted is e ≤ accepted is e) :=
  (r.inOrder e).at_most_once

/-- Nothing has happened to an endpoint that has not come about. -/
theorem Run.unborn (r : Run is m) (h : m.store.endpoints[e]? = none) :
    accepted is e = 0 ∧ counted is e = 0 := by
  have horder := r.inOrder e
  rw [Account.InOrder, show (m.account is e).flavor = none by simp [account, Store.flavor?, h]]
    at horder
  exact ⟨horder.accepted, horder.counted⟩

/-- **`connect` returns without failure once at most.** -/
theorem Run.accepted_unique (r : Run is m) {t t' : ThreadId} (h : m.Accepted is e t)
    (h' : m.Accepted is e t') : t = t' := by
  by_contra hne
  have htotal := r.total_settled e
  have hle := (r.counted_le e).2.1
  have htwo := weightOf_add_le_total (settled is e) hne h.2 h'.2
  rw [h.settled, h'.settled] at htwo
  omega

end Machine

/-! ## What the counters count -/

/-- A thread about to let the endpoint of a worker come about, which the worker
has counted. -/
def binding (l : LoopId) : Control → Nat
  | .running (.create f (.announceBound w _) :: _) => if ⟨f, .worker w⟩ = l then 1 else 0
  | .running (.create f (.enroll w _) :: _) => if ⟨f, .worker w⟩ = l then 1 else 0
  | _ => 0

section Procedures

variable {s : Store} {t : ThreadId} {c c' : Control} {g : Store → Store} {ns : List Note}

theorem binding_of_isRoot {fr : Frame} (h : fr.isRoot = false) (below : List Frame) (l : LoopId) :
    binding l (.running (fr :: below)) = 0 := by
  cases fr <;> first | rfl | exact absurd h nofun

/-- A caller that goes on has still to count. -/
theorem binding_resume {fr caller : Frame} (h : Frame.Calls fr caller) (r : Except Failure Unit)
    (below : List Frame) (l : LoopId) : binding l (.running (caller.resume r :: below)) = 0 := by
  cases h <;> cases r <;> rfl

/-- **Binding begins where the worker counts**, and ends where the endpoint comes
about. -/
theorem CreatePoint.binding_of_move {f : FactoryId} {fac : Factory} {p : CreatePoint}
    {below : List Frame} (h : p.move s below f fac = .act g c' ns) (l : LoopId) :
    (∃ w n, p = .count w n ∧ binding l c' = if ⟨f, .worker w⟩ = l then 1 else 0)
      ∨ (∃ w n, p = .enroll w n ∧ binding l c' = 0)
      ∨ ((∀ w n, p ≠ .count w n) ∧ (∀ w n, p ≠ .enroll w n)
        ∧ binding l c' = binding l (.running (.create f p :: below))) := by
  cases p <;> simp [CreatePoint.move] at h
  case count w n =>
    refine .inl ⟨w, n, rfl, ?_⟩
    rw [h.2.1]
    rfl
  case enroll w n =>
    refine .inr (.inl ⟨w, n, rfl, ?_⟩)
    rw [h.2.1]
    cases fac.flavor <;> rfl
  case readReleased =>
    refine .inr (.inr ⟨by simp, by simp, ?_⟩)
    rw [h.2.1]
    split <;> rfl
  case submit e | announce e =>
    split at h <;> simp at h
    refine .inr (.inr ⟨by simp, by simp, ?_⟩)
    rw [h.2.1]
    rfl
  all_goals
    refine .inr (.inr ⟨by simp, by simp, ?_⟩)
    rw [h.2.1]
    rfl

/-- Nobody else binds an endpoint. -/
theorem Control.binding_of_act (hc : c.Sound s) (h : c.move s t = .act g c' ns)
    (hcreate : ∀ f p below, c ≠ .running (.create f p :: below)) (l : LoopId) :
    binding l c' = 0 ∧ binding l c = 0 := by
  obtain ⟨fr, below, rfl, hgoes⟩ := goes_of_act h
  -- a frame of another procedure binds nothing, before the step or after it
  have hnot {fr' : Frame} (hsame : fr.SameCall fr') (below : List Frame) :
      binding l (.running (fr' :: below)) = 0 := by
    cases hsame with
    | create => exact absurd rfl (hcreate _ _ _)
    | _ => rfl
  refine ⟨?_, hnot (by cases fr <;> constructor) _⟩
  cases hgoes with
  | within hsame => exact hnot hsame _
  | calls hsame hnew => exact binding_of_isRoot (Frame.isRoot_of_isNew hnew) _ _
  | ends => rfl
  | returns hroot =>
    obtain ⟨caller, rest, rfl, hcall, -⟩ := hc.2.2.exists_caller hroot
    exact binding_resume hcall _ _ _

theorem binding_of_ask {q : Request} {after : q.Reply → Control} (reply : q.Reply)
    (h : c.move s t = .ask q after) (l : LoopId) :
    binding l (after reply) = 0 ∧ binding l c = 0 := by
  obtain ⟨fr, below, rfl, ha⟩ := Control.asks h
  cases ha with
  | openNew => cases reply <;> exact ⟨rfl, rfl⟩
  | wakeSubmit => cases reply <;> exact ⟨rfl, rfl⟩
  | wakeSignal => cases reply <;> exact ⟨rfl, rfl⟩
  | _ => exact ⟨rfl, rfl⟩

theorem Frame.eq_of_counting {fr : Frame} {e : EndpointId} (h : (e, Stage.counting) ∈ fr.cargo) :
    fr = .registration e .count := by
  cases fr with
  | submit l j p => cases j <;> cases p <;> simp [Frame.cargo, SubmitPoint.stages] at h
  | serve l m p => cases p <;> simp [Frame.cargo, Job.cargo] at h
  | attempt e' a p => cases p <;> simp [Frame.cargo] at h
  | registration e' p =>
    cases p <;> simp [Frame.cargo] at h
    rw [h]
  | create f p => cases p <;> simp [Frame.cargo] at h
  | connect e' a p => cases p <;> simp [Frame.cargo] at h
  | _ => simp [Frame.cargo] at h

/-- Nothing stands on a registration. -/
theorem Frame.Below.notMem_registration {fr : Frame} {below : List Frame} (hb : fr.Below s below)
    {e : EndpointId} {p : RegistrationPoint} : .registration e p ∉ below := by
  induction below generalizing fr with
  | nil => exact List.not_mem_nil
  | cons caller rest ih =>
    rw [List.mem_cons, not_or]
    refine ⟨?_, ih hb.2.2⟩
    rintro rfl
    cases hb.1

/-- **An endpoint is counted at one point only.** -/
theorem Control.registration_of_counted (hs : s.Sound) (hc : c.Sound s)
    (h : c.move s t = .act g c' ns) {e : EndpointId} (hk : ns.count (.counted e) ≠ 0) :
    ∃ below, c = .running (.registration e .count :: below) := by
  obtain ⟨leg, p⟩ := Control.passes_of_act hs hc h e
  have hcarried := p.carried .counting
  have hqueued (s : Store) : s.queued e .counting = 0 := by
    rw [Store.queued, count_cargo, if_neg (by decide)]
  rw [p.counted] at hk
  obtain rfl : leg = .count := by cases leg <;> first | rfl | exact absurd rfl hk
  rw [hqueued, hqueued] at hcarried
  simp [Leg.takes, Leg.puts] at hcarried
  -- the leg takes a token that the queues do not have, so this thread holds it
  have hmem : (e, Stage.counting) ∈ c.cargo := List.count_pos_iff.mp (by omega)
  obtain ⟨fr, below, rfl, -⟩ := Control.moves_of_act h
  obtain ⟨fr', hfr', hcargo⟩ := List.mem_flatMap.mp (show _ ∈ (fr :: below).flatMap _ from hmem)
  obtain rfl := Frame.eq_of_counting hcargo
  rcases List.mem_cons.mp hfr' with rfl | hbelow
  · exact ⟨below, rfl⟩
  · exact absurd hbelow hc.2.2.notMem_registration

/-- An endpoint that comes about is not being counted. -/
theorem Control.count_counted_size (hs : s.Sound) (hc : c.Sound s)
    (h : c.move s t = .act g c' ns) : ns.count (.counted s.endpoints.size) = 0 := by
  by_contra hne
  obtain ⟨below, rfl⟩ := registration_of_counted hs hc h hne
  obtain ⟨r, hr⟩ := hc.1
  simp at hr

/-- **A step registers with a worker what it counts** among the endpoints bound to
it. -/
theorem Control.registered_of_act (hs : s.Sound) (hc : c.Sound s) (h : c.move s t = .act g c' ns)
    (f : FactoryId) (w : Nat) :
    (g s).registered f w = s.registered f w + ∑ e ∈ s.boundTo f w, ns.count (.counted e) := by
  by_cases hcount : ∃ e below, c = .running (.registration e .count :: below)
  · obtain ⟨e₀, below, rfl⟩ := hcount
    cases moves_of_running h with
    | @registration _ q _ found hp =>
      simp [RegistrationPoint.move] at hp
      obtain ⟨rfl, -, rfl⟩ := hp
      -- the worker is the one the endpoint is bound to
      have hmem : e₀ ∈ s.boundTo f w ↔ q.home = ⟨f, .worker w⟩ := by
        rw [Store.boundTo, Store.mem_endpointsOf]
        simp [found]
      have hone (e : EndpointId) :
          [Note.counted e₀].count (.counted e) = if e₀ = e then 1 else 0 := by
        simp [List.count_singleton]
      rw [Store.registered_count _ (hs.bound found).isSome_worker?]
      simp only [hone, sum_ite_eq, hmem]
      rfl
  · have hzero (e : EndpointId) : ns.count (.counted e) = 0 := by
      by_contra hne
      obtain ⟨below, hb⟩ := registration_of_counted hs hc h hne
      exact hcount ⟨e, below, hb⟩
    simp only [hzero, sum_const_zero, Nat.add_zero]
    exact (counts_of_act h).registered_eq (fun e b h => hcount ⟨e, b, h⟩) f w

/-- **What a step assigns to a worker** is bound to it or about to be. -/
theorem Control.assigned_of_act (hc : c.Sound s) (h : c.move s t = .act g c' ns) (f : FactoryId)
    (w : Nat) : (g s).assigned f w + (#(s.boundTo f w) + binding ⟨f, .worker w⟩ c)
      = s.assigned f w + (#((g s).boundTo f w) + binding ⟨f, .worker w⟩ c') := by
  have hcounts := counts_of_act h
  by_cases hcreate : ∃ id p below, c = .running (.create id p :: below)
  · obtain ⟨id, p, below, rfl⟩ := hcreate
    cases moves_of_running h with
    | create found hp =>
      rcases CreatePoint.binding_of_move hp ⟨f, .worker w⟩ with
        ⟨w', n, rfl, hb⟩ | ⟨w', n, rfl, hb⟩ | ⟨hcount, henroll, hb⟩
      · -- the worker counts an endpoint that is now about to come about
        simp [CreatePoint.move] at hp
        obtain ⟨rfl, -, -⟩ := hp
        have hzero : binding ⟨f, .worker w⟩ (.running (.create id (.count w' n) :: below)) = 0 :=
          rfl
        rw [Store.assigned_count _ (Store.Started.isSome_worker? hc.1), hb, hzero]
        show _ = _ + (#(s.boundTo f w) + _)
        omega
      · -- it comes about
        simp [CreatePoint.move] at hp
        obtain ⟨rfl, -, -⟩ := hp
        have hone : binding ⟨f, .worker w⟩ (.running (.create id (.enroll w' n) :: below))
            = if (⟨id, .worker w'⟩ : LoopId) = ⟨f, .worker w⟩ then 1 else 0 := rfl
        have hcard : #((s.enroll id w' n).boundTo f w) = #(s.boundTo f w)
            + if (⟨id, .worker w'⟩ : LoopId) = ⟨f, .worker w⟩ then 1 else 0 := by
          simp only [Store.boundTo, Store.endpointsOf_enroll, decide_eq_true_eq]
          split
          · rw [card_insert_of_notMem (s.size_notMem_endpointsOf _)]
          · rfl
        rw [hcard, hb, hone]
        show s.assigned f w + _ = _
        omega
      · have hpoint {f' : FactoryId} {p' : CreatePoint} {below' : List Frame}
            (h : Control.running (.create id p :: below) = .running (.create f' p' :: below')) :
            p = p' :=
          (Frame.create.inj (List.cons.inj (Control.running.inj h)).1).2
        have hsame : s.SameBindings (g s) :=
          hcounts.bindings fun _ w' n _ h => henroll w' n (hpoint h)
        rw [hcounts.assigned_eq (fun _ w' n _ h => hcount w' n (hpoint h)) f w, Store.boundTo,
          Store.boundTo, hsame.endpointsOf, hb]
  · have hother (id : FactoryId) (p : CreatePoint) (below : List Frame) :
        c ≠ .running (.create id p :: below) := fun h => hcreate ⟨id, p, below, h⟩
    obtain ⟨hafter, hbefore⟩ := binding_of_act hc h hother ⟨f, .worker w⟩
    have hsame : s.SameBindings (g s) := hcounts.bindings fun _ _ _ _ => hother _ _ _
    rw [hcounts.assigned_eq (fun _ _ _ _ => hother _ _ _) f w, Store.boundTo, Store.boundTo,
      hsame.endpointsOf, hafter, hbefore]

end Procedures

namespace Machine

variable {m m' : Machine} {i : Incident} {is : List Incident}

/-- No step loses an endpoint of a worker, and it gains one only where one comes
about. -/
theorem Advance.endpointsOf (h : m.Advance i m') (p : LoopId → Bool) :
    m'.store.endpointsOf p = m.store.endpointsOf p
      ∨ m'.store.endpointsOf p = insert m.store.endpoints.size (m.store.endpointsOf p) := by
  cases h with
  | @act t c c' g ns hc hmove =>
    rw [store_act]
    generalize hg : g m.store = s'
    cases hg ▸ Control.counts_of_act hmove with
    | nothing h => exact .inl (h.bindings.endpointsOf p)
    | enrolled =>
      rw [Store.endpointsOf_enroll]
      split
      · exact .inr rfl
      · exact .inl rfl
    | _ => exact .inl rfl
  | answer => exact .inl (by rw [store_answer])
  | call => exact .inl rfl
  | build => exact .inl rfl

/-- A sum over the endpoints of a worker is the same after a step, if it is of
something that is nothing for an endpoint that comes about. -/
theorem Advance.sum_endpointsOf (h : m.Advance i m') (p : LoopId → Bool) {v : EndpointId → Nat}
    (hv : v m.store.endpoints.size = 0) :
    ∑ e ∈ m'.store.endpointsOf p, v e = ∑ e ∈ m.store.endpointsOf p, v e := by
  rcases h.endpointsOf p with h | h <;> rw [h]
  rw [sum_insert (m.store.size_notMem_endpointsOf p), hv, Nat.zero_add]

/-- In the empty machine there is nothing to count. -/
theorem endpointsOf_empty (p : LoopId → Bool) : Machine.empty.store.endpointsOf p = ∅ := by
  simp [Store.endpointsOf, Machine.empty, Store.empty]

/-- **A worker has registered as many as have been counted** among the endpoints
bound to it. -/
theorem Run.registered_eq (r : Run is m) (f : FactoryId) (w : Nat) :
    m.store.registered f w = ∑ e ∈ m.store.boundTo f w, counted is e := by
  refine r.induction (motive := fun is m =>
    m.store.registered f w = ∑ e ∈ m.store.boundTo f w, counted is e) ?empty ?advance
  case empty => rw [Store.boundTo, endpointsOf_empty]; rfl
  case advance =>
    intro is m i m' r ih a
    obtain ⟨hs, hsound⟩ := r.reachable.sound
    have hold : ∑ e ∈ m'.store.boundTo f w, counted is e
        = ∑ e ∈ m.store.boundTo f w, counted is e :=
      a.sum_endpointsOf _ (r.unborn (e := m.store.endpoints.size) (by simp)).2
    simp only [counted_append, counted_singleton]
    rw [sum_add_distrib, hold, ← ih]
    cases a with
    | @act t c c' g ns hc hmove =>
      have hnew : ∑ e ∈ (g m.store).boundTo f w, ns.count (.counted e)
          = ∑ e ∈ m.store.boundTo f w, ns.count (.counted e) :=
        (Advance.act hc hmove).sum_endpointsOf _
          (Control.count_counted_size hs (hsound t c hc) hmove)
      exact (Control.registered_of_act hs (hsound t c hc) hmove f w).trans (congrArg _ hnew.symm)
    | answer => rw [store_answer]; simp [Incident.notes]
    | call => simp [Incident.notes]
    | build b =>
      refine ((m.store.sameCounters_build b).registered f w).trans ?_
      simp [Incident.notes]

/-- **A worker has been assigned the endpoints bound to it**, and those that are
about to come about. -/
theorem Run.assigned_eq (r : Run is m) (f : FactoryId) (w : Nat) :
    m.store.assigned f w
      = (m.store.boundTo f w).card + m.total fun _ => binding ⟨f, .worker w⟩ := by
  refine r.induction (motive := fun _ m => m.store.assigned f w
      = (m.store.boundTo f w).card + m.total fun _ => binding ⟨f, .worker w⟩) ?empty ?advance
  case empty => rw [Store.boundTo, endpointsOf_empty, total_empty]; rfl
  case advance =>
    intro is m i m' r ih a
    obtain ⟨-, hsound⟩ := r.reachable.sound
    cases a with
    | @act t c c' g ns hc hmove =>
      have htotal := total_act (fun _ => binding ⟨f, .worker w⟩) hc g c'
      have hstep := Control.assigned_of_act (hsound t c hc) hmove f w
      rw [store_act]
      omega
    | @answer t c q after hc hmove reply =>
      have hb := binding_of_ask reply hmove ⟨f, .worker w⟩
      have htotal := total_answer (w := fun _ => binding ⟨f, .worker w⟩) hc (fun _ _ _ => rfl)
        after reply
      rw [store_answer]
      omega
    | call home o =>
      rw [total_spawn, store_spawn, ih]
      cases o <;> rfl
    | build b =>
      have hassigned := (m.store.sameCounters_build b).assigned f w
      have htotal := total_build (fun _ => binding ⟨f, .worker w⟩) m b
      exact hassigned.trans (ih.trans (congrArg _ htotal.symm))

/-- An endpoint with an accepted attempt has a boss. -/
theorem Run.isSome_boss (r : Run is m) {e : EndpointId} {q : Endpoint}
    (found : m.store.endpoints[e]? = some q) (h : 0 < accepted is e) :
    (m.store.loop? ⟨q.factory, .boss⟩).isSome := by
  obtain ⟨fac, hfac⟩ := r.reachable.sound.1.factory found
  have hflavor : m.store.flavor? e = some fac.flavor := by
    rw [Store.flavor?, found, Option.bind_some, hfac, Option.map_some]
  rw [Store.loop?, hfac, Option.bind_some, Factory.isSome_loop?]
  cases hb : fac.boss with
  | some b => rfl
  | none =>
    have horder := r.inOrder e
    rw [Account.InOrder, show (m.account is e).flavor = some .datagram by
      rw [account, hflavor, Factory.flavor, hb]] at horder
    exact absurd h (Nat.not_lt.mpr horder.accepted.le)

/-- The boss of an attempt that is about to be counted is there. -/
theorem Run.isSome_boss_of_count (r : Run is m) {t : ThreadId} {a : Address} {q : Endpoint}
    {e : EndpointId} (hc : m.control? t = some (.running [.connect e a .count]))
    (found : m.store.endpoints[e]? = some q) : (m.store.loop? q.boss).isSome := by
  refine r.isSome_boss found ?_
  have htotal := r.total_settled e
  have hle := weightOf_le_total (fun _ c => c.cargo.count (e, .acknowledging)) hc
  rw [tokens, Store.queued_acknowledging] at htotal
  simp [Frame.cargo] at hle
  omega

/-- **A boss has accepted as many attempts as clients have been told of.** -/
theorem Run.attempts_eq (r : Run is m) (f : FactoryId) :
    m.store.attempts f = ∑ e ∈ m.store.ofFactory f, m.total (settled is e) := by
  refine r.induction (motive := fun is m =>
    m.store.attempts f = ∑ e ∈ m.store.ofFactory f, m.total (settled is e)) ?empty ?advance
  case empty => rw [Store.ofFactory, endpointsOf_empty]; rfl
  case advance =>
    intro is m i m' r ih a
    obtain ⟨-, hsound⟩ := r.reachable.sound
    -- an endpoint that comes about adds nothing to the sum
    have hnew : m.total (settled is m.store.endpoints.size) = 0 := by
      have htotal := r.total_settled m.store.endpoints.size
      have hunborn := (r.unborn (e := m.store.endpoints.size) (by simp)).1
      omega
    have hold (e : EndpointId) : m.total (settled (is ++ [i]) e) = m.total (settled is e) :=
      total_settled_append r.originates.1.ge _
    -- where nobody is told, the sum is the old one
    have hquiet (hattempts : m'.store.attempts f = m.store.attempts f)
        (htotal : ∀ e, m'.total (settled (is ++ [i]) e) = m.total (settled (is ++ [i]) e)) :
        m'.store.attempts f = ∑ e ∈ m'.store.ofFactory f, m'.total (settled (is ++ [i]) e) := by
      simp only [htotal, hold]
      rw [hattempts, ih, Store.ofFactory, Store.ofFactory]
      exact (a.sum_endpointsOf _ (v := fun e => m.total (settled is e)) hnew).symm
    cases a with
    | @act t c c' g ns hc hmove =>
      obtain ⟨o, ho, hfrom⟩ := r.originates.2 t c hc
      have hstep := Control.attempts_of_act (hsound t c hc) ho hfrom hmove
        (fun e a q heq found => r.isSome_boss_of_count (heq ▸ hc) found) f
      have htotal (e : EndpointId) :
          (m.act t g c').total (settled (is ++ [.stepped t (.acted ns)]) e)
            = m.total (settled is e) + settled is e t c' := by
        have hact := total_act (settled (is ++ [.stepped t (.acted ns)]) e) hc g c'
        have hlt : t < (origins is).length := r.originates.1 ▸ lt_size_of_control? hc
        obtain ⟨fr, below, rfl, -⟩ := Control.moves_of_act hmove
        rw [settled_running, settled_append hlt, hold] at hact
        exact hact
      simp only [htotal]
      rw [store_act, hstep, ih, ← sum_add_distrib]
      refine ((Advance.act hc hmove).sum_endpointsOf _
        (v := fun e => m.total (settled is e) + settled is e t c') ?_).symm
      rw [hnew, Control.settled_size (hsound t c hc) ho hfrom hmove]
    | @answer t c q after hc hmove reply =>
      refine hquiet (by rw [store_answer]) fun e => ?_
      obtain ⟨fr, fr', below, rfl, -, hafter⟩ := Control.goes_of_ask reply hmove
      have htotal := total_answer (w := settled (is ++ [.stepped t (.answered q reply)]) e) hc
        (fun _ _ _ => rfl) after reply
      rw [hafter, settled_running, settled_running] at htotal
      exact htotal
    | call home o =>
      refine hquiet rfl fun e => ?_
      rw [total_spawn]
      cases o <;> rfl
    | build b =>
      exact hquiet ((m.store.sameCounters_build b).attempts f) fun e => total_build _ _ _

end Machine

/-! ## While nobody connects -/

/-- The thread carries out a connection attempt for a client. -/
def Control.isConnecting (c : Control) : Bool :=
  match c.operation? with
  | some (.connect ..) => true
  | _ => false

/-- **Nobody is connecting.** -/
def Machine.NoConnect (m : Machine) : Prop := ∀ th ∈ m.threads, th.control.isConnecting = false

instance (m : Machine) : Decidable m.NoConnect :=
  inferInstanceAs (Decidable (∀ th ∈ m.threads, _))

section Procedures

variable {s : Store} {e : EndpointId} {fr : Frame} {below : List Frame}

/-- **Only the client of an attempt has this in its hands.** -/
def Stage.isClients : Stage → Bool
  | .entering | .committed | .acknowledging => true
  | _ => false

theorem Control.operation?_cons (h : fr.operation? = none) :
    (Control.running (fr :: below)).operation? = (Control.running below).operation? := by
  simp only [operation?, List.findSome?_cons, h]

/-- **Whoever has an attempt in hand, or owes an acknowledgement of it, is its
client.** -/
theorem Frame.Below.connects (hb : fr.Below s below) {σ : Stage} (hσ : σ.isClients = true)
    (h : (e, σ) ∈ (fr :: below).flatMap Frame.cargo) :
    ∃ a, (Control.running (fr :: below)).operation? = some (.connect e a) := by
  induction below generalizing fr with
  -- the client itself, before its submission or after it has returned
  | nil =>
    rw [List.flatMap_cons, List.flatMap_nil, List.append_nil] at h
    have hroot : fr.isRoot = true := by
      by_contra hroot
      exact absurd (hb.exists_caller (Bool.eq_false_iff.mpr hroot)) (by simp)
    cases fr with
    | connect e' a p =>
      obtain rfl : e = e' := by cases p <;> simp [cargo] at h <;> exact h.1
      exact ⟨a, rfl⟩
    | create f p => cases p <;> simp [cargo] at h; grind [Stage.isClients]
    | serve l m p => cases p <;> simp [cargo, Job.cargo] at h <;> grind [Stage.isClients]
    | close | release => simp [cargo] at h
    | _ => cases hroot
  -- above its client a submission may hold it, and nothing else
  | cons caller rest ih =>
    obtain ⟨hcall, -, hrest⟩ := hb
    rw [Control.operation?_cons (operation?_of_not_root (by cases hcall <;> rfl))]
    rcases List.mem_append.mp h with hhere | hbelow
    · cases hcall with
      | @submitConnect l e' a p =>
        obtain rfl : e = e' := by
          obtain ⟨_, -, heq⟩ := List.mem_map.mp hhere
          exact (Prod.mk.inj heq).1.symm
        exact ⟨a, rfl⟩
      | @submitCreate _ _ _ p | @submitAttempt _ _ _ p =>
        cases p <;> simp [cargo, SubmitPoint.stages] at hhere <;> grind [Stage.isClients]
      | @attemptServe _ _ p =>
        cases p <;> simp [cargo] at hhere <;> grind [Stage.isClients]
      | @registrationServe _ p =>
        cases p <;> simp [cargo] at hhere <;> grind [Stage.isClients]
      | startSubmit | startCreate | signalRelease => simp [cargo] at hhere
      | dropSubmit | dropAttempt | dropServe => simp [cargo] at hhere; grind [Stage.isClients]
    · exact ih hrest hbelow

/-- **Whoever owes an acknowledgement is connecting.** -/
theorem Frame.Below.isConnecting (hb : fr.Below s below)
    (h : (e, Stage.acknowledging) ∈ (fr :: below).flatMap Frame.cargo) :
    (Control.running (fr :: below)).isConnecting = true := by
  obtain ⟨a, ha⟩ := hb.connects rfl h
  rw [Control.isConnecting, ha]

end Procedures

namespace Machine

variable {m : Machine} {is : List Incident} {e : EndpointId} {f : FactoryId}

theorem Reachable.acknowledging_eq_zero (hm : m.Reachable) (h : m.NoConnect) (e : EndpointId) :
    m.tokens e .acknowledging = 0 := by
  rw [tokens, Store.queued_acknowledging, total_eq_zero_iff.mpr]
  intro t c hc
  refine List.count_eq_zero.mpr fun hmem => ?_
  obtain ⟨th, hth, rfl⟩ := Option.map_eq_some_iff.mp hc
  have hno := h th (Array.mem_of_getElem? hth)
  have hsound := hm.sound.2 t _ hc
  generalize th.control = c at hmem hno hsound
  cases c with
  | finished o => exact absurd hmem List.not_mem_nil
  | running stack =>
    cases stack with
    | nil => exact absurd hmem List.not_mem_nil
    | cons fr below =>
      obtain ⟨_, _, hb⟩ := hsound
      rw [hb.isConnecting hmem] at hno
      cases hno

/-! ## The counters compared -/

/-- An attempt was accepted if some thread ended so. -/
theorem exists_accepted_iff : (∃ t, m.Accepted is e t) ↔ 0 < m.total (settled is e) := by
  constructor
  · rintro ⟨t, h⟩
    have hle := weightOf_le_total (settled is e) h.2
    rw [h.settled] at hle
    exact hle
  · intro h
    -- a positive sum has a positive summand, and its thread ended so
    obtain ⟨t, c, hc, hpos⟩ := exists_of_total_pos h
    obtain ⟨rfl, a, ha⟩ := settled_ne_zero hpos.ne'
    exact ⟨t, ⟨a, ha⟩, hc⟩

instance (m : Machine) (is : List Incident) (e : EndpointId) :
    Decidable (∃ t, m.Accepted is e t) :=
  decidable_of_iff _ exists_accepted_iff.symm

theorem Run.total_settled_eq (r : Run is m) (e : EndpointId) :
    m.total (settled is e) = if ∃ t, m.Accepted is e t then 1 else 0 := by
  have htotal := r.total_settled e
  have hle := (r.counted_le e).2.1
  split
  · rename_i h
    have hpos := exists_accepted_iff.mp h
    omega
  · rename_i h
    exact Nat.eq_zero_of_not_pos fun hpos => h (exists_accepted_iff.mpr hpos)

theorem mem_ofFactory_of_mem_boundTo {s : Store} {w : Nat} (h : e ∈ s.boundTo f w) :
    e ∈ s.ofFactory f := by
  rw [Store.boundTo, Store.mem_endpointsOf] at h
  obtain ⟨r, hr, hhome⟩ := h
  rw [Store.ofFactory, Store.mem_endpointsOf]
  exact ⟨r, hr, by rw [of_decide_eq_true hhome]; exact decide_eq_true rfl⟩

/-- The endpoints of a factory are bound to one worker each. -/
theorem disjoint_boundTo (s : Store) (f : FactoryId) {w w' : Nat} (h : w ≠ w') :
    Disjoint (s.boundTo f w) (s.boundTo f w') := by
  refine disjoint_left.mpr fun e he he' => h ?_
  rw [Store.boundTo, Store.mem_endpointsOf] at he he'
  obtain ⟨r, hr, hhome⟩ := he
  obtain ⟨r', hr', hhome'⟩ := he'
  obtain rfl := Option.some.inj (hr.symm.trans hr')
  have heq := (of_decide_eq_true hhome).symm.trans (of_decide_eq_true hhome')
  exact Seat.worker.inj (LoopId.mk.inj heq).2

/-- Every endpoint of a factory with a boss is a stream endpoint. -/
theorem flavor?_of_boss {s : Store} (h : e ∈ s.ofFactory f)
    (hb : (s.factories[f]?.bind Factory.boss).isSome) : s.flavor? e = some .client := by
  rw [Store.ofFactory, Store.mem_endpointsOf] at h
  obtain ⟨r, hr, hf⟩ := h
  obtain ⟨b, hb⟩ := Option.isSome_iff_exists.mp hb
  obtain ⟨fac, hfac, hboss⟩ := Option.bind_eq_some_iff.mp hb
  have hfactory : r.factory = f := of_decide_eq_true hf
  rw [Store.flavor?, hr, Option.bind_some, hfactory, hfac, Option.map_some, Factory.flavor, hboss]

/-- At rest, a registered endpoint has been counted. -/
theorem Run.counted_of_registered (r : Run is m) (rest : m.AtRest)
    (h : m.store.state? e = some .registered) : counted is e = 1 := by
  obtain ⟨q, found, -⟩ := Option.map_eq_some_iff.mp h
  have hzero := (r.reachable.tokens_of_atRest rest found).2 .counting (by decide) (by decide)
  exact (r.inOrder e).counted_of_registered h hzero

/-- **Whatever happens counts one at most**, with each counter. -/
theorem Advance.ticks (a : m.Advance i m') : m.store.Ticks m'.store := by
  cases a with
  | act hc hmove => exact (Control.counts_of_act hmove).ticks
  | answer => rw [store_answer]; exact (Store.SameCounters.refl _).ticks
  | call => exact (Store.SameCounters.refl _).ticks
  | build b => exact (m.store.sameCounters_build b).ticks

/-- **No counter is ahead of what has happened.** -/
theorem Run.counters_le (r : Run is m) (f : FactoryId) (w : Nat) :
    m.store.registered f w ≤ is.length ∧ m.store.assigned f w ≤ is.length
      ∧ m.store.attempts f ≤ is.length := by
  refine r.induction (motive := fun is m => m.store.registered f w ≤ is.length
    ∧ m.store.assigned f w ≤ is.length ∧ m.store.attempts f ≤ is.length)
    ⟨Nat.le_refl 0, Nat.le_refl 0, Nat.le_refl 0⟩ ?_
  intro is m i m' _ ih a
  have hregistered := a.ticks.registered f w
  have hassigned := a.ticks.assigned f w
  have hattempts := a.ticks.attempts f
  rw [List.length_append, List.length_singleton]
  omega

/-- **What attempts and registrations have come to** after a history. -/
structure Acceptance (m : Machine) (is : List Incident) : Prop where
  /-- `connect` returned without failure once at most for every endpoint. -/
  accepted : ∀ e t t', m.Accepted is e t → m.Accepted is e t' → t = t'
  /-- Every endpoint was counted once at most, -/
  counted : ∀ e, counted is e ≤ 1
  /-- and that is what its worker has registered. -/
  registered : ∀ f w, m.store.registered f w
    = ∑ e ∈ m.store.boundTo f w, EndpointControl.counted is e
  /-- No worker has registered more endpoints than it was assigned. -/
  assigned : ∀ f w, m.store.registered f w ≤ m.store.assigned f w
  /-- At rest, a worker has registered all its endpoints that are registered. -/
  current : m.AtRest → ∀ f w,
    #{e ∈ m.store.boundTo f w | m.store.state? e = some .registered} ≤ m.store.registered f w
  /-- A boss has accepted as many attempts as endpoints have been connected. -/
  attempts : ∀ f, m.store.attempts f = #{e ∈ m.store.ofFactory f | ∃ t, m.Accepted is e t}
  /-- While nobody connects, those are enough for all that its workers have registered. -/
  enough : m.NoConnect → ∀ (f : FactoryId) (fac : Factory), m.store.factories[f]? = some fac →
    fac.boss.isSome → ∑ w ∈ range fac.workers.size, m.store.registered f w ≤ m.store.attempts f
  /-- Words that are counted up in place of the counters show the same numbers, as long as fewer
  than 2^64 things have happened. -/
  words : is.length < 2 ^ 64 → ∀ f w,
    (UInt64.ofNat (m.store.registered f w)).toNat = m.store.registered f w
      ∧ (UInt64.ofNat (m.store.assigned f w)).toNat = m.store.assigned f w
      ∧ (UInt64.ofNat (m.store.attempts f)).toNat = m.store.attempts f

/-- **An attempt at an endpoint is accepted once, and an endpoint is registered
once**, in every history. -/
theorem Run.acceptance (r : Run is m) : m.Acceptance is where
  accepted e t t' := r.accepted_unique
  counted e := (r.counted_le e).1
  registered := r.registered_eq
  assigned f w := by
    have hle : ∑ e ∈ m.store.boundTo f w, EndpointControl.counted is e
        ≤ #(m.store.boundTo f w) := by
      rw [card_eq_sum_ones]
      exact sum_le_sum fun e _ => (r.counted_le e).1
    rw [r.registered_eq, r.assigned_eq]
    omega
  current rest f w := by
    rw [card_filter, r.registered_eq]
    refine sum_le_sum fun e _ => ?_
    split
    · rename_i h
      rw [r.counted_of_registered rest h]
    · exact Nat.zero_le _
  attempts f := by
    rw [r.attempts_eq, card_filter]
    exact sum_congr rfl fun e _ => r.total_settled_eq e
  enough h f fac hfac hboss := by
    have hboss : (m.store.factories[f]?.bind Factory.boss).isSome := by rwa [hfac]
    have hle (e : EndpointId) (he : e ∈ m.store.ofFactory f) :
        EndpointControl.counted is e ≤ m.total (settled is e) := by
      have htotal := r.total_settled e
      have hack := r.reachable.acknowledging_eq_zero h e
      have hcounted := (r.counted_le e).2.2 (flavor?_of_boss he hboss)
      omega
    calc ∑ w ∈ range fac.workers.size, m.store.registered f w
        = ∑ w ∈ range fac.workers.size, ∑ e ∈ m.store.boundTo f w, EndpointControl.counted is e :=
          sum_congr rfl fun w _ => r.registered_eq f w
      _ = ∑ e ∈ (range fac.workers.size).biUnion (m.store.boundTo f),
            EndpointControl.counted is e :=
          (sum_biUnion fun w _ w' _ hne => disjoint_boundTo _ _ hne).symm
      _ ≤ ∑ e ∈ m.store.ofFactory f, EndpointControl.counted is e := by
          refine sum_le_sum_of_subset fun e he => ?_
          obtain ⟨w, -, hw⟩ := mem_biUnion.mp he
          exact mem_ofFactory_of_mem_boundTo hw
      _ ≤ ∑ e ∈ m.store.ofFactory f, m.total (settled is e) := sum_le_sum hle
      _ = m.store.attempts f := (r.attempts_eq f).symm
  words hlength f w := by
    obtain ⟨hregistered, hassigned, hattempts⟩ := r.counters_le f w
    exact ⟨UInt64.toNat_ofNat_of_lt' (hregistered.trans_lt hlength),
      UInt64.toNat_ofNat_of_lt' (hassigned.trans_lt hlength),
      UInt64.toNat_ofNat_of_lt' (hattempts.trans_lt hlength)⟩

/-- An endpoint that has been registered with its worker. -/
def registeredOnce : Machine := (connected.play 3 23).play 1 13

/-- Its boss has accepted one attempt and its worker has registered one endpoint. -/
theorem acceptance_registeredOnce :
    ∃ is, Run is registeredOnce ∧ registeredOnce.Acceptance is ∧ registeredOnce.AtRest
      ∧ registeredOnce.NoConnect ∧ registeredOnce.store.state? 0 = some .registered
      ∧ registeredOnce.store.attempts 0 = 1 ∧ registeredOnce.store.registered 0 0 = 1 := by
  obtain ⟨is, r⟩ := (reachable_connected.play 3 23).play 1 13
  exact ⟨is, r, r.acceptance, by decide +kernel, by decide +kernel, by decide +kernel,
    by decide +kernel, by decide +kernel⟩

end Machine

end EndpointControl
