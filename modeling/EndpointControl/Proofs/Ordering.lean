import EndpointControl.Proofs.Afterwards
import EndpointControl.Proofs.Forwarding
import EndpointControl.Proofs.Registering

/-!
# Registration follows connection order

An attempt is accepted when it goes to the end of the queue of its boss; the boss
begins one attempt after the other and takes each to its worker, and the worker
begins one registration after the other. Each of the three lists is the first part
of the one before (`Machine.Run.registersInOrder`), so an endpoint comes to be
registered after all that were accepted before it for the same worker, or these
have been closed.

The worker of a datagram factory gets its registrations from whoever makes a
channel, and a channel that has been made is in the queue already
(`Machine.Run.handed`).
-/

namespace EndpointControl

/-! ## Channels that have been made -/

/-- The submission has queued its job. -/
def SubmitPoint.handed : SubmitPoint → Bool
  | .wake _ | .wakeFailed _ | .leave => true
  | _ => false

/-- The endpoint whose registration the procedure has queued, if it is a datagram
endpoint. -/
def Frame.handed? : Frame → Option EndpointId
  | .submit _ (.registration e) p => if p.handed then some e else none
  | .create _ (.announce e) => some e
  | _ => none

/-- **The endpoint whose registration the thread has queued**, if it is a datagram
endpoint. -/
def Control.handed? : Control → Option EndpointId
  | .running (fr :: _) => fr.handed?
  | .finished (.created (.ok e)) => some e
  | _ => none

section Procedures

variable {s : Store} {t : ThreadId} {fr : Frame} {below : List Frame} {g : Store → Store}
  {c c' : Control} {ns : List Note} {e : EndpointId}

/-- Only a submission tells whoever called it that it has queued anything. -/
theorem Control.handed?_back (hb : fr.Below s below) (hroot : fr.isRoot = false)
    (hfr : ∀ l j p, fr ≠ .submit l j p) (r : Except Failure Unit) :
    (back below r).handed? = none := by
  obtain ⟨caller, rest, rfl, hcalls, -, -⟩ := hb.exists_caller hroot
  cases hcalls with
  | submitCreate | submitConnect | submitAttempt => exact absurd rfl (hfr _ _ _)
  | @startSubmit _ _ j => cases j <;> cases r <;> rfl
  | @dropSubmit _ j => cases j <;> cases r <;> rfl
  | _ => cases r <;> rfl

/-- Whoever neither submits anything nor makes a channel has queued no registration. -/
theorem Control.Goes.handed? (h : c.Goes fr below) (hb : fr.Below s below)
    (hsubmit : ∀ l j p, fr ≠ .submit l j p) (hcreate : ∀ f p, fr ≠ .create f p) :
    c.handed? = none := by
  cases h with
  | within hsame =>
    cases hsame with
    | submit => exact absurd rfl (hsubmit _ _ _)
    | create => exact absurd rfl (hcreate _ _)
    | _ => rfl
  | @calls callee =>
    rename_i hnew
    cases callee with
    | submit l j p => cases p <;> first | (cases j <;> rfl) | cases hnew
    | create => cases hnew
    | _ => rfl
  | returns hroot => exact handed?_back hb hroot hsubmit _
  | @ends o _ ho =>
    cases o with
    | created =>
      cases fr with
      | create => exact absurd rfl (hcreate _ _)
      | _ => cases ho
    | _ => rfl

/-- **A submission has queued its registration** when it says so, or knew it before. -/
theorem SubmitPoint.handed?_of_move {l : LoopId} {lp : Loop} {j : Job} {p : SubmitPoint}
    (hb : (Frame.submit l j p).Below s below) (h : p.move s t below l lp j = .act g c ns)
    (he : c.handed? = some e) :
    (Frame.submit l j p).handed? = some e ∨ .pushed l (.registration e) ∈ ns := by
  have hon {q : SubmitPoint} (hq : (Control.running (.submit l j q :: below)).handed? = some e)
      (hsame : p.handed = q.handed) :
      (Frame.submit l j p).handed? = some e ∨ .pushed l (.registration e) ∈ ns := by
    cases j with
    | attempt => cases hq
    | registration =>
      rw [Frame.handed?, hsame]
      exact .inl hq
  -- a client that makes a channel hears that the registration is queued, and nobody else does
  have hreturns {r : Except Failure Unit} (hr : r = .ok () → p.handed = true)
      (hq : (Control.back below r).handed? = some e) :
      (Frame.submit l j p).handed? = some e ∨ .pushed l (.registration e) ∈ ns := by
    obtain ⟨caller, rest, rfl, hcalls, -, -⟩ := hb.exists_caller rfl
    cases hcalls with
    | submitCreate =>
      cases r with
      | error => cases hq
      | ok =>
        rw [Frame.handed?, hr rfl]
        exact .inl hq
    | _ => cases r <;> cases hq
  cases p <;> simp [SubmitPoint.move] at h
  case start => obtain ⟨-, rfl, -⟩ := h; cases he
  case readShutDown =>
    obtain ⟨-, rfl, -⟩ := h
    split at he <;> exact hon he rfl
  case takeSlot | takeQueue => obtain ⟨-, -, rfl, -⟩ := h; exact hon he rfl
  case readSlot => obtain ⟨-, rfl, -⟩ := h; exact hon he rfl
  case wakeFailed => obtain ⟨-, rfl, -⟩ := h; exact hon he rfl
  case serialize =>
    split at h <;> simp at h
    · obtain ⟨-, -, rfl, -⟩ := h; exact hon he rfl
    · obtain ⟨-, rfl, -⟩ := h; exact hon he rfl
  case append mo =>
    obtain ⟨-, rfl, rfl⟩ := h
    cases j with
    | attempt => cases mo <;> cases he
    | registration e' =>
      obtain rfl : e' = e := by cases mo <;> exact Option.some.inj he
      exact .inr List.mem_cons_self
  case leave =>
    split at h <;> simp at h <;> obtain ⟨-, rfl, -⟩ := h
    all_goals exact hreturns (fun _ => rfl) he
  case refuse => obtain ⟨-, rfl, -⟩ := h; cases he
  case refused => obtain ⟨-, rfl, -⟩ := h; exact hreturns (by simp) he

/-- **A channel is made when its registration has been queued**, if it is a datagram
channel. -/
theorem CreatePoint.handed?_of_move {f : FactoryId} {fac : Factory} {p : CreatePoint}
    (hb : (Frame.create f p).Below s below) (found : s.factories[f]? = some fac)
    (h : p.move s below f fac = .act g c ns) (he : c.handed? = some e)
    (hfl : (g s).flavor? e = some .datagram) : (Frame.create f p).handed? = some e := by
  obtain rfl := hb.eq_nil rfl
  cases p <;> simp [CreatePoint.move] at h
  case enroll w n =>
    obtain ⟨rfl, rfl, -⟩ := h
    cases hf : fac.flavor with
    | datagram =>
      rw [hf] at he
      cases he
    | client =>
      -- the endpoint that has come about is a stream endpoint
      rw [hf] at he
      obtain rfl := Option.some.inj he
      rw [Store.flavor?_of_bound? (s.bound?_enroll f w n), Store.enroll, found, Option.map_some,
        hf] at hfl
      cases hfl
  case readReleased =>
    obtain ⟨-, rfl, -⟩ := h
    split at he <;> cases he
  case submit e' =>
    split at h <;> simp at h
    obtain ⟨-, rfl, -⟩ := h
    cases he
  case announce e' =>
    split at h <;> simp at h
    obtain ⟨-, rfl, -⟩ := h
    exact he
  all_goals obtain ⟨-, rfl, -⟩ := h; cases he

/-- **Nobody has queued a registration** but where the history says so. -/
theorem Control.handed?_of_act (hc : c.Sound s) (h : c.move s t = .act g c' ns)
    (he : c'.handed? = some e) (hfl : (g s).flavor? e = some .datagram) :
    c.handed? = some e ∨ ∃ l, .pushed l (.registration e) ∈ ns := by
  obtain ⟨fr, below, rfl, hm⟩ := moves_of_act h
  obtain ⟨-, -, hb⟩ := hc
  have hgoes := goes_of_running h
  have hno (hsubmit : ∀ l j p, fr ≠ .submit l j p) (hcreate : ∀ f p, fr ≠ .create f p) :
      (running (fr :: below)).handed? = some e ∨ ∃ l, .pushed l (.registration e) ∈ ns := by
    cases (hgoes.handed? hb hsubmit hcreate).symm.trans he
  cases hm with
  | submit found hp => exact (SubmitPoint.handed?_of_move hb hp he).imp_right fun h => ⟨_, h⟩
  | create found hp => exact .inl (CreatePoint.handed?_of_move hb found hp he hfl)
  | _ => exact hno (by simp) (by simp)

/-- **Only one point returns a channel.** -/
theorem Control.Sound.create_of_created (hc : c.Sound s)
    (h : c.move s t = .act g (.finished (.created (.ok e))) ns) :
    ∃ f, c = .running [.create f (.announce e)] := by
  obtain ⟨fr, below, rfl, hgoes⟩ := goes_of_act h
  generalize hd : finished (.created (.ok e)) = d at hgoes
  cases hgoes with
  | within | calls => exact absurd hd nofun
  | returns hroot =>
    obtain ⟨caller, rest, rfl, -⟩ := hc.2.2.exists_caller hroot
    exact absurd hd nofun
  | ends hroot ho =>
    obtain rfl := finished.inj hd
    obtain rfl := hc.2.2.eq_nil hroot
    cases fr <;> simp [Frame.operation?, Outcome.endsFor] at ho
    rename_i f p
    cases moves_of_running h with
    | create _ hp =>
      cases p <;> simp [CreatePoint.move] at hp
      case readReleased => split at hp <;> simp at hp
      case submit => split at hp <;> simp at hp
      case announce e' =>
        split at hp <;> simp at hp
        obtain ⟨-, rfl, -⟩ := hp
        exact ⟨f, rfl⟩

/-- Whoever has queued a registration knows that there is such an endpoint. -/
theorem Frame.Knows.has_of_handed? (hk : fr.Knows s) (he : fr.handed? = some e) : s.Has e := by
  unfold handed? at he
  split at he
  · split at he
    · obtain rfl := Option.some.inj he
      exact hk.1.has
    · cases he
  · obtain rfl := Option.some.inj he
    exact hk
  · cases he

theorem Control.Sound.has_of_handed? (hc : c.Sound s) (hc' : c'.Sound (g s))
    (h : c.move s t = .act g c' ns) (he : c'.handed? = some e) : (g s).Has e := by
  match c', hc', he with
  | .running (fr :: below), hc', he => exact hc'.1.has_of_handed? he
  | .finished (.created (.ok e')), _, he =>
    obtain rfl := Option.some.inj he
    obtain ⟨f, rfl⟩ := hc.create_of_created h
    exact (grows_of_move h).has hc.1

/-- An answer queues nothing. -/
theorem Control.handed?_of_ask {q : Request} {after : q.Reply → Control} (reply : q.Reply)
    (h : c.move s t = .ask q after) : (after reply).handed? = c.handed? := by
  obtain ⟨fr, below, rfl, hask⟩ := asks h
  cases hask with
  | @wakeSubmit l j m => cases j <;> cases reply <;> rfl
  | openNew | wakeSignal => cases reply <;> rfl
  | _ => rfl

end Procedures

namespace Machine

variable {m m' : Machine} {is is₁ is₂ : List Incident} {i : Incident} {f : FactoryId} {w : Nat}
  {l : LoopId} {t : ThreadId} {c : Control} {e e' : EndpointId}

/-- **A datagram channel that has been made is in the queue of its worker.** -/
theorem Run.handed (r : Run is m) : ∀ {t c e}, m.control? t = some c → c.handed? = some e →
    m.store.Has e
      ∧ (m.store.flavor? e = some .datagram → ∃ l, .registration e ∈ pushed is l) := by
  refine r.induction (motive := fun is m => ∀ {t c e}, m.control? t = some c →
    c.handed? = some e → m.store.Has e
      ∧ (m.store.flavor? e = some .datagram → ∃ l, .registration e ∈ pushed is l))
    (fun hc => by cases hc) ?_
  intro is m i m' r ih a t d e hd he
  obtain ⟨hs, hsound⟩ := r.reachable.sound
  -- whoever has queued it before has done so still
  have hkeep {t₀ : ThreadId} {c : Control} (hc : m.control? t₀ = some c)
      (hold : c.handed? = some e) :
      m'.store.flavor? e = some .datagram → ∃ l, .registration e ∈ pushed (is ++ [i]) l := by
    obtain ⟨⟨q, hq⟩, hpushed⟩ := ih hc hold
    rw [hs.flavor?_eq_of_some a.grows hq]
    intro hfl
    obtain ⟨l, hl⟩ := hpushed hfl
    exact ⟨l, by rw [pushed_concat]; exact List.mem_append_left _ hl⟩
  cases a.places hd with
  | kept hc => exact ⟨a.grows.has (ih hc he).1, hkeep hc he⟩
  | @acted c g ns hc hmove hm hi =>
    subst hm hi
    have hd' := ((a.run r).reachable.sound.2 t d hd)
    refine ⟨(hsound t c hc).has_of_handed? hd' hmove he, fun hfl => ?_⟩
    rcases Control.handed?_of_act (hsound t c hc) hmove he hfl with hold | ⟨l, hl⟩
    · exact hkeep hc hold hfl
    · refine ⟨l, mem_pushed.mpr ?_⟩
      rw [List.flatMap_append, List.flatMap_singleton]
      exact List.mem_append_right _ hl
  | answered reply hc hmove hd' =>
    rw [hd', Control.handed?_of_ask reply hmove] at he
    exact ⟨a.grows.has (ih hc he).1, hkeep hc he⟩
  | @called _ o _ hd' => subst hd'; cases o <;> cases he
  | served _ _ _ hd' => subst hd'; cases he

/-! ## In order -/

/-- **A worker registers endpoints in this order.** -/
structure RegistersInOrder (m : Machine) (is : List Incident) (l : LoopId)
    (order : List EndpointId) : Prop where
  /-- Each endpoint comes once in the order, -/
  nodup : order.Nodup
  /-- and all are bound to the worker; -/
  bound : ∀ e ∈ order, m.store.bound? e = some l
  /-- it contains every endpoint of the worker that is registered. -/
  complete : ∀ e, m.store.bound? e = some l → m.store.state? e = some .registered → e ∈ order
  /-- The endpoints that the worker has registered are some of those, in the same order, -/
  registered : (m.registered is l).Sublist order
  /-- and what comes before one of them has been registered too, or the worker has found it
  closed. -/
  skipped : ∀ e e', [e, e'].Sublist order → e' ∈ m.registered is l →
    e ∈ m.registered is l ∨ m.FoundClosed is e
  /-- What comes before a registered endpoint is registered or closed. -/
  settled : ∀ e e', [e, e'].Sublist order → m.store.state? e' = some .registered →
    m.store.state? e = some .registered ∨ m.store.state? e = some .closed

/-- What comes before an element of the first part comes before it there. -/
theorem sublist_of_isPrefix {order first : List EndpointId} (hfirst : first <+: order)
    (hnodup : order.Nodup) (hbefore : [e, e'].Sublist order) (he : e' ∈ first) :
    [e, e'].Sublist first := by
  obtain ⟨rest, rfl⟩ := hfirst
  obtain ⟨xs, ys, heq, hxs, hys⟩ := List.sublist_append_iff.mp hbefore
  have hnot : e' ∉ ys := fun hy => (List.nodup_append.mp hnodup).2.2 e' he e' (hys.subset hy) rfl
  cases hy : ys.getLast? with
  | none =>
    rw [List.getLast?_eq_none_iff] at hy
    rwa [heq, hy, List.append_nil]
  | some y =>
    -- the last of the two would be among the rest
    have hlast := congrArg List.getLast? heq
    rw [List.getLast?_append, hy, Option.some_or] at hlast
    obtain rfl := Option.some.inj hlast
    exact absurd (List.mem_of_getLast? hy) hnot

/-- **A worker begins what has arrived first**, so it registers endpoints in the order of
which their arrivals are the first part. -/
theorem Run.registersInOrder (r : Run is m) {order : List EndpointId} (hnodup : order.Nodup)
    (hbound : ∀ e ∈ order, m.store.bound? e = some ⟨f, .worker w⟩)
    (hfirst : (pushed is ⟨f, .worker w⟩).map Job.endpoint <+: order) :
    m.RegistersInOrder is ⟨f, .worker w⟩ order := by
  have hbegun : (begun is ⟨f, .worker w⟩).map Job.endpoint <+: order := by
    refine List.IsPrefix.trans ?_ hfirst
    rw [(r.traffic.delivers _).order, List.append_assoc, List.append_assoc, List.map_append]
    exact List.prefix_append _ _
  have hturn := r.inTurn f w
  -- with what comes before an endpoint that it has begun the worker has done
  have hdealt {e e' : EndpointId} (hbefore : [e, e'].Sublist order)
      (he : e' ∈ (begun is ⟨f, .worker w⟩).map Job.endpoint) :
      m.DealtWith is (m.registered is ⟨f, .worker w⟩) e :=
    hturn.dealt (sublist_of_isPrefix hbegun hnodup hbefore he)
  exact {
    nodup := hnodup
    bound := hbound
    complete := fun e hl hstate => hbegun.subset (r.mem_begun_of_registered hstate hl)
    registered := hturn.sublist.trans hbegun.sublist
    skipped := fun e e' hbefore he => (hdealt hbefore (hturn.sublist.subset he)).2
    settled := fun e e' hbefore hstate =>
      (hdealt hbefore (r.mem_begun_of_registered hstate
        (hbound e' (hbefore.subset (by simp))))).1 }

/-! ## Connection order -/

/-- **The endpoints of a worker in the order in which attempts at them have been
accepted**, that is, queued with its boss. -/
def connections (m : Machine) (is : List Incident) (f : FactoryId) (w : Nat) : List EndpointId :=
  ((pushed is ⟨f, .boss⟩).map Job.endpoint).filter (m.store.bound? · = some ⟨f, .worker w⟩)

/-- What is queued with a boss are attempts at endpoints of its factory. -/
theorem Run.attempt_of_pushed (r : Run is m) {j : Job} (hj : j ∈ pushed is ⟨f, .boss⟩) :
    ∃ e a, j = .attempt e a := by
  obtain ⟨hplaced, -⟩ := r.placed_of_pushed hj
  cases j with
  | attempt e a => exact ⟨e, a, rfl⟩
  | registration e =>
    obtain ⟨q, -, hq⟩ := hplaced
    cases hq

/-- An endpoint is queued no more often than attempts at it are accepted. -/
theorem count_pushes_le {ns : List Note}
    (h : ∀ j ∈ ns.flatMap (Note.pushes l), ∃ e a, j = .attempt e a) :
    ((ns.flatMap (Note.pushes l)).map Job.endpoint).count e ≤ ns.countP (Note.accepts e) := by
  induction ns with
  | nil => exact Nat.le_refl _
  | cons n ns ih =>
    rw [List.flatMap_cons, List.map_append, List.count_append, List.countP_cons, Nat.add_comm]
    refine Nat.add_le_add (ih fun j hj => h j ?_) ?_
    · rw [List.flatMap_cons]
      exact List.mem_append_right _ hj
    · cases n with
      | pushed l' j =>
        rw [Note.pushes]
        split
        · rename_i hl
          obtain ⟨e', a, rfl⟩ := h j (by simp [hl])
          simp [Job.endpoint, Note.accepts, List.count_singleton]
        · exact Nat.zero_le _
      | _ => exact Nat.zero_le _

/-- **No endpoint is queued with its boss twice.** -/
theorem Run.nodup_boss (r : Run is m) (f : FactoryId) :
    ((pushed is ⟨f, .boss⟩).map Job.endpoint).Nodup :=
  List.nodup_iff_count_le_one.mpr fun e =>
    (count_pushes_le fun _ hj => r.attempt_of_pushed hj).trans (r.counted_le e).2.1

theorem Run.nodup_connections (r : Run is m) (f : FactoryId) (w : Nat) :
    (m.connections is f w).Nodup :=
  (r.nodup_boss f).filter _

/-- What is queued with a boss has been accepted. -/
theorem Run.accepted_of_pushed (r : Run is m) (h : e ∈ (pushed is ⟨f, .boss⟩).map Job.endpoint) :
    0 < accepted is e := by
  obtain ⟨j, hj, rfl⟩ := List.mem_map.mp h
  obtain ⟨e, a, rfl⟩ := r.attempt_of_pushed hj
  exact List.countP_pos_iff.mpr ⟨_, mem_pushed.mp hj, by simp [Note.accepts, Job.endpoint]⟩

/-- **What has been accepted has been queued with the boss of its worker.** -/
theorem Run.pushed_of_accepted (r : Run is m) (hl : m.store.bound? e = some ⟨f, .worker w⟩)
    (h : 0 < accepted is e) : e ∈ (pushed is ⟨f, .boss⟩).map Job.endpoint := by
  obtain ⟨n, hn, haccepts⟩ := List.countP_pos_iff.mp h
  unfold Note.accepts at haccepts
  split at haccepts
  · rename_i l' e' a
    obtain rfl := of_decide_eq_true haccepts
    have hj : Job.attempt e' a ∈ pushed is l' := mem_pushed.mpr hn
    obtain ⟨⟨q, hq, rfl⟩, -⟩ := r.placed_of_pushed hj
    obtain ⟨q', hq', hhome⟩ := Store.bound?_eq_some_iff.mp hl
    obtain rfl := Option.some.inj (hq.symm.trans hq')
    have hfactory : q.factory = f := (LoopId.mk.inj hhome).1
    rw [Endpoint.boss, hfactory] at hj
    exact List.mem_map.mpr ⟨_, hj, rfl⟩
  · cases haccepts

theorem Run.mem_connections_iff (r : Run is m) (hl : m.store.bound? e = some ⟨f, .worker w⟩) :
    e ∈ m.connections is f w ↔ 0 < accepted is e := by
  rw [connections, List.mem_filter, decide_eq_true hl, and_iff_left rfl]
  exact ⟨r.accepted_of_pushed, r.pushed_of_accepted hl⟩

/-- Who has been told that an attempt is accepted has been told the truth. -/
theorem Run.accepted_pos (r : Run is m) (h : m.Accepted is e t) : 0 < accepted is e := by
  have htotal := r.total_settled e
  have hpos := exists_accepted_iff.mp ⟨t, h⟩
  omega

/-- **What is in one part of a list comes before what is only in the next.** -/
theorem pair_sublist_append {xs ys : List EndpointId} (he : e ∈ xs) (hnot : e' ∉ xs)
    (he' : e' ∈ xs ++ ys) : [e, e'].Sublist (xs ++ ys) := by
  have hlast := (List.mem_append.mp he').resolve_left hnot
  exact (List.singleton_sublist.mpr he).append (List.singleton_sublist.mpr hlast)

/-- **Whoever is accepted earlier comes earlier.** -/
theorem Run.connections_append {m₁ : Machine} (r₁ : Run is₁ m₁) (h : m₁.Leads is₂ m)
    (hl : m.store.bound? e = some ⟨f, .worker w⟩) (he : 0 < accepted is₁ e)
    (he' : accepted is₁ e' = 0) (hmem : e' ∈ m.connections (is₁ ++ is₂) f w) :
    [e, e'].Sublist (m.connections (is₁ ++ is₂) f w) := by
  have hhas : m₁.store.Has e := by
    by_contra hno
    have hnone := Option.eq_none_iff_forall_ne_some.mpr fun q hq => hno ⟨q, hq⟩
    exact he.ne' (r₁.unborn hnone).1
  rw [connections, pushed_append, List.map_append, List.filter_append] at hmem ⊢
  refine pair_sublist_append (List.mem_filter.mpr ⟨?_, decide_eq_true hl⟩) (fun hold => ?_) hmem
  · exact r₁.pushed_of_accepted ((h.grows.bound?_eq hhas).symm.trans hl) he
  · exact (r₁.accepted_of_pushed (List.mem_filter.mp hold).1).ne' he'

/-! ## Creation order -/

/-- **A channel that has been made comes before one that is made later.** -/
theorem Run.arrivals_append {m₁ : Machine} (r₁ : Run is₁ m₁) (h : m₁.Leads is₂ m)
    (hl : m.store.bound? e = some l) (hfl : m.store.flavor? e = some .datagram)
    (he : m₁.control? t = some (.finished (.created (.ok e)))) (he' : ¬ m₁.store.Has e')
    (hmem : e' ∈ (pushed (is₁ ++ is₂) l).map Job.endpoint) :
    [e, e'].Sublist ((pushed (is₁ ++ is₂) l).map Job.endpoint) := by
  obtain ⟨⟨q, hq⟩, hpushed⟩ := r₁.handed he rfl
  rw [r₁.reachable.sound.1.flavor?_eq_of_some h.grows hq] at hfl
  obtain ⟨l', hj⟩ := hpushed hfl
  -- a registration is queued with the worker of its endpoint
  have hbound : m₁.store.bound? e = some l' :=
    Store.bound?_eq_some_iff.mpr (r₁.placed_of_pushed hj).1
  obtain rfl := Option.some.inj ((h.grows.bound? hbound).symm.trans hl)
  rw [pushed_append, List.map_append] at hmem ⊢
  refine pair_sublist_append (List.mem_map.mpr ⟨_, hj, rfl⟩) (fun hold => ?_) hmem
  obtain ⟨j, hj', rfl⟩ := List.mem_map.mp hold
  exact he' (r₁.placed_of_pushed hj').1.has

/-! ## The order of registrations -/

/-- **A worker of a stream factory registers in connection order.** -/
structure ConnectionOrder (m : Machine) (is : List Incident) (f : FactoryId) (w : Nat) :
    Prop where
  inOrder : m.RegistersInOrder is ⟨f, .worker w⟩ (m.connections is f w)
  /-- The order is of all endpoints of the worker at which an attempt has been accepted, -/
  accepted : ∀ e, m.store.bound? e = some ⟨f, .worker w⟩ →
    (e ∈ m.connections is f w ↔ 0 < EndpointControl.accepted is e)
  /-- and that is so when a client has been told. -/
  told : ∀ e t, m.Accepted is e t → 0 < EndpointControl.accepted is e
  /-- Whoever is accepted earlier comes earlier, -/
  earlier : ∀ is₁ is₂ m₁ e e', is = is₁ ++ is₂ → Run is₁ m₁ → m₁.Leads is₂ m →
    m.store.bound? e = some ⟨f, .worker w⟩ → 0 < EndpointControl.accepted is₁ e →
    EndpointControl.accepted is₁ e' = 0 → e' ∈ m.connections is f w →
    [e, e'].Sublist (m.connections is f w)
  /-- and when the later endpoint is registered, the earlier one is, or has been closed. -/
  settled : ∀ is₁ is₂ m₁ e e', is = is₁ ++ is₂ → Run is₁ m₁ → m₁.Leads is₂ m →
    m.store.bound? e = some ⟨f, .worker w⟩ → m.store.bound? e' = some ⟨f, .worker w⟩ →
    0 < EndpointControl.accepted is₁ e → EndpointControl.accepted is₁ e' = 0 →
    m.store.state? e' = some .registered →
    m.store.state? e = some .registered ∨ m.store.state? e = some .closed

/-- **A worker of a datagram factory registers in creation order**, which is the order in
which the registrations of its endpoints have been queued with it. -/
structure CreationOrder (m : Machine) (is : List Incident) (f : FactoryId) (w : Nat) : Prop where
  inOrder : m.RegistersInOrder is ⟨f, .worker w⟩ ((pushed is ⟨f, .worker w⟩).map Job.endpoint)
  /-- What has been made before another has come about comes earlier, -/
  earlier : ∀ is₁ is₂ m₁ e e' t, is = is₁ ++ is₂ → Run is₁ m₁ → m₁.Leads is₂ m →
    m.store.bound? e = some ⟨f, .worker w⟩ →
    m₁.control? t = some (.finished (.created (.ok e))) → ¬ m₁.store.Has e' →
    e' ∈ (pushed is ⟨f, .worker w⟩).map Job.endpoint →
    [e, e'].Sublist ((pushed is ⟨f, .worker w⟩).map Job.endpoint)
  /-- and when the later endpoint is registered, the earlier one is, or has been closed. -/
  settled : ∀ is₁ is₂ m₁ e e' t, is = is₁ ++ is₂ → Run is₁ m₁ → m₁.Leads is₂ m →
    m.store.bound? e = some ⟨f, .worker w⟩ → m.store.bound? e' = some ⟨f, .worker w⟩ →
    m₁.control? t = some (.finished (.created (.ok e))) → ¬ m₁.store.Has e' →
    m.store.state? e' = some .registered →
    m.store.state? e = some .registered ∨ m.store.state? e = some .closed
  /-- If channels are made one after the other, the order is that of the endpoints, -/
  inTurn : CreatesInTurn f is →
    m.RegistersInOrder is ⟨f, .worker w⟩ (m.store.enrolled ⟨f, .worker w⟩)
  /-- and also if they are made while others are held up in a wake, their own or another, as long
  as nobody comes in between. -/
  uninterrupted : Uninterrupted is m →
    m.RegistersInOrder is ⟨f, .worker w⟩ (m.store.enrolled ⟨f, .worker w⟩)

theorem Run.connectionOrder (r : Run is m) (f : FactoryId) (w : Nat)
    (hfl : ∀ fac, m.store.factories[f]? = some fac → fac.flavor = .client) :
    m.ConnectionOrder is f w := by
  have hfirst : (pushed is ⟨f, .worker w⟩).map Job.endpoint <+: m.connections is f w := by
    refine (r.handsOver f w hfl).isPrefix.trans (List.IsPrefix.filter _ ?_)
    rw [(r.traffic.delivers _).order, List.append_assoc, List.append_assoc, List.map_append]
    exact List.prefix_append _ _
  have hinOrder := r.registersInOrder (r.nodup_connections f w)
    (fun e he => of_decide_eq_true (List.mem_filter.mp he).2) hfirst
  refine ⟨hinOrder, fun e hl => r.mem_connections_iff hl, fun e t => r.accepted_pos, ?_, ?_⟩
  · rintro is₁ is₂ m₁ e e' rfl r₁ h hl he he' hmem
    exact r₁.connections_append h hl he he' hmem
  · rintro is₁ is₂ m₁ e e' rfl r₁ h hl hl' he he' hstate
    have hmem := hinOrder.complete e' hl' hstate
    exact hinOrder.settled e e' (r₁.connections_append h hl he he' hmem) hstate

theorem Run.creationOrder (r : Run is m) (f : FactoryId) (w : Nat)
    (hfl : ∀ fac, m.store.factories[f]? = some fac → fac.flavor = .datagram) :
    m.CreationOrder is f w := by
  have hinOrder : m.RegistersInOrder is ⟨f, .worker w⟩
      ((pushed is ⟨f, .worker w⟩).map Job.endpoint) := by
    refine r.registersInOrder (r.arrivesOnce f w hfl).nodup (fun e he => ?_) List.prefix_rfl
    obtain ⟨j, hj, rfl⟩ := List.mem_map.mp he
    exact r.bound?_of_pushed hj
  have hearlier {is₁ is₂ : List Incident} {m₁ : Machine} {e e' : EndpointId} {t : ThreadId}
      (heq : is = is₁ ++ is₂) (r₁ : Run is₁ m₁) (h : m₁.Leads is₂ m)
      (hl : m.store.bound? e = some ⟨f, .worker w⟩)
      (he : m₁.control? t = some (.finished (.created (.ok e)))) (he' : ¬ m₁.store.Has e')
      (hmem : e' ∈ (pushed is ⟨f, .worker w⟩).map Job.endpoint) :
      [e, e'].Sublist ((pushed is ⟨f, .worker w⟩).map Job.endpoint) := by
    subst heq
    exact r₁.arrivals_append h hl (r.reachable.flavor?_of_bound? hfl hl) he he' hmem
  have henrolled (h : m.HandsOver ⟨f, .worker w⟩ (m.store.enrolled ⟨f, .worker w⟩)
      ((pushed is ⟨f, .worker w⟩).map Job.endpoint)) :
      m.RegistersInOrder is ⟨f, .worker w⟩ (m.store.enrolled ⟨f, .worker w⟩) :=
    r.registersInOrder (List.nodup_range.filter _) (fun e he => Store.mem_enrolled_iff.mp he)
      h.isPrefix
  refine ⟨hinOrder, fun _ _ _ _ _ _ heq r₁ h hl he he' => hearlier heq r₁ h hl he he', ?_,
    fun hturn => henrolled (r.handsOver_enrolled f w hfl hturn),
    fun h => henrolled (h.handsOver_enrolled f w hfl)⟩
  intro is₁ is₂ m₁ e e' t heq r₁ h hl hl' he he' hstate
  have hmem := hinOrder.complete e' hl' hstate
  exact hinOrder.settled e e' (hearlier heq r₁ h hl he he' hmem) hstate

/-- **Registration follows connection order**, or creation order: in every history, of
every factory and every worker. -/
theorem Run.registrationOrder (r : Run is m) {fac : Factory}
    (hfac : m.store.factories[f]? = some fac) (w : Nat) :
    (fac.flavor = .client → m.ConnectionOrder is f w)
      ∧ (fac.flavor = .datagram → m.CreationOrder is f w) := by
  have hfl (fac' : Factory) (h : m.store.factories[f]? = some fac') : fac'.flavor = fac.flavor := by
    rw [Option.some.inj (h.symm.trans hfac)]
  exact ⟨fun hf => r.connectionOrder f w (hf ▸ hfl), fun hf => r.creationOrder f w (hf ▸ hfl)⟩

end Machine

/-- Attempts at three endpoints of a worker, the last one first; the second is closed
before its turn comes. Then the boss and the worker run until they wait. -/
def History.overtaken : History :=
  let first := ((empty.build .small).call none (.create 0)).turn 0 40
  let second := (first.call none (.create 0)).turn 2 40
  let third := (second.call none (.create 0)).turn 3 40
  let one := (third.call none (.connect 2 "127.0.0.1:9")).turn 4 40
  let two := (one.call none (.connect 0 "127.0.0.1:9")).turn 6 40
  let three := (two.call none (.connect 1 "127.0.0.1:9")).turn 7 40
  let closed := (three.call none (.close 0)).turn 8 10
  (closed.turn 5 53).turn 1 21

/-- The worker has registered the other two in the order of the attempts, and has found the
closed one closed. -/
theorem registrationOrder_overtaken :
    let m := History.overtaken.machine
    let is := History.overtaken.incidents
    ∃ fac, m.store.factories[0]? = some fac ∧ fac.flavor = .client ∧ m.ConnectionOrder is 0 0
      ∧ m.connections is 0 0 = [2, 0, 1] ∧ m.registered is ⟨0, .worker 0⟩ = [2, 1]
      ∧ m.FoundClosed is 0 := by
  intro m is
  have hplayed : (m.store.factories[0]?).map Factory.flavor = some .client
      ∧ m.connections is 0 0 = [2, 0, 1] ∧ m.registered is ⟨0, .worker 0⟩ = [2, 1] := by
    decide +kernel
  obtain ⟨hflavor, hconnections, hregistered⟩ := hplayed
  obtain ⟨fac, hfac, hfl⟩ := Option.map_eq_some_iff.mp hflavor
  have horder := (History.overtaken.orderly.run.registrationOrder hfac 0).1 hfl
  refine ⟨fac, hfac, hfl, horder, hconnections, hregistered, ?_⟩
  have hskipped := horder.inOrder.skipped 0 1 (by rw [hconnections]; decide)
    (by rw [hregistered]; decide)
  exact hskipped.resolve_left (by rw [hregistered]; decide)

end EndpointControl
