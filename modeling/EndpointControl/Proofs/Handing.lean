import EndpointControl.Proofs.Demand

/-!
# Handing an endpoint to its worker

Between a boss that has begun an attempt, or a client that has let a datagram
endpoint come about, and the queue of the worker there is one thread with one
errand: to submit the registration of the endpoint. On its way it looks once
whether the worker has been told to end. From then on the worker either has the
registration or never will (`Control.Hands`).

Who has which errand is read off the stack (`Control.errand?`), and what each step is
for the errands is `Control.hands_of_act`. With whom a thread sets out is with whom
a boss begins, or who comes about (`Control.setsOut`).
-/

namespace EndpointControl

/-! ## Which worker -/

namespace Store

/-- **The worker that the endpoint is bound to.** -/
def bound? (s : Store) (e : EndpointId) : Option LoopId := s.endpoints[e]?.map Endpoint.home

variable {s s' : Store} {e : EndpointId} {l : LoopId}

theorem bound?_eq_some_iff :
    s.bound? e = some l ↔ ∃ r, s.endpoints[e]? = some r ∧ r.home = l := Option.map_eq_some_iff

/-- Endpoints stay with their workers. -/
theorem Grows.bound? (h : s.Grows s') (hl : s.bound? e = some l) : s'.bound? e = some l := by
  obtain ⟨r, hr, rfl⟩ := bound?_eq_some_iff.mp hl
  obtain ⟨st, hr'⟩ := h.endpoint hr
  exact bound?_eq_some_iff.mpr ⟨_, hr', rfl⟩

theorem Grows.bound?_eq (h : s.Grows s') (he : s.Has e) : s'.bound? e = s.bound? e := by
  obtain ⟨r, hr⟩ := he
  have hl : s.bound? e = some r.home := bound?_eq_some_iff.mpr ⟨r, hr, rfl⟩
  rw [hl, h.bound? hl]

theorem has_of_bound? (hl : s.bound? e = some l) : s.Has e :=
  (bound?_eq_some_iff.mp hl).imp fun _ h => h.1

/-- An endpoint has the flavor of the factory of its worker. -/
theorem flavor?_of_bound? (hl : s.bound? e = some l) :
    s.flavor? e = s.factories[l.factory]?.map Factory.flavor := by
  obtain ⟨r, hr, rfl⟩ := bound?_eq_some_iff.mp hl
  rw [flavor?, hr, Option.bind_some]
  rfl

/-- **The endpoints of a worker in the order in which they have come about.** -/
def enrolled (s : Store) (l : LoopId) : List EndpointId :=
  (List.range s.endpoints.size).filter (s.bound? · = some l)

theorem mem_enrolled_iff : e ∈ s.enrolled l ↔ s.bound? e = some l := by
  rw [enrolled, List.mem_filter, List.mem_range, decide_eq_true_iff]
  refine and_iff_right_of_imp fun hl => ?_
  obtain ⟨r, hr, -⟩ := bound?_eq_some_iff.mp hl
  exact (Array.getElem?_eq_some_iff.mp hr).1

theorem SameBindings.size_eq (h : s.SameBindings s') :
    s'.endpoints.size = s.endpoints.size := by
  have hnone (e : EndpointId) : s'.endpoints[e]? = none ↔ s.endpoints[e]? = none := by
    rw [← Option.map_eq_none_iff (f := Endpoint.home), h e, Option.map_eq_none_iff]
  simp only [Array.getElem?_eq_none_iff] at hnone
  exact Nat.le_antisymm ((hnone _).mpr (Nat.le_refl _)) ((hnone _).mp (Nat.le_refl _))

theorem SameBindings.enrolled (h : s.SameBindings s') (l : LoopId) :
    s'.enrolled l = s.enrolled l := by
  have hbound : s'.bound? = s.bound? := funext h
  rw [Store.enrolled, Store.enrolled, h.size_eq, hbound]

/-- An endpoint that comes about is bound to the worker that it has been made for. -/
theorem bound?_enroll (s : Store) (f : FactoryId) (w : Nat) (n : UInt64) :
    (s.enroll f w n).bound? s.endpoints.size = some ⟨f, .worker w⟩ := by
  simp [bound?, enroll, Endpoint.home]

/-- An endpoint that comes about is the last of its worker. -/
theorem enrolled_enroll (s : Store) (f : FactoryId) (w : Nat) (n : UInt64) (l : LoopId) :
    (s.enroll f w n).enrolled l
      = s.enrolled l ++ if (⟨f, .worker w⟩ : LoopId) = l then [s.endpoints.size] else [] := by
  rw [enrolled, enrolled, enroll, Array.size_push, List.range_succ, List.filter_append,
    ← enroll]
  congr 1
  · refine List.filter_congr fun e he => ?_
    have hlt : e < s.endpoints.size := List.mem_range.mp he
    have hsame : (s.enroll f w n).bound? e = s.bound? e := by
      rw [bound?, enroll, Array.getElem?_push_lt hlt, bound?, Array.getElem?_eq_getElem hlt]
    rw [hsame]
  · rw [List.filter_singleton, bound?_enroll]
    by_cases hl : (⟨f, .worker w⟩ : LoopId) = l <;> simp [hl]

/-- An endpoint whose factory has a boss is a stream endpoint. -/
theorem flavor?_of_boss (hl : s.bound? e = some l) (found : (s.loop? ⟨l.factory, .boss⟩).isSome) :
    s.flavor? e = some .client := by
  obtain ⟨b, hb⟩ := Option.isSome_iff_exists.mp found
  obtain ⟨fac, hfac, hboss⟩ := Option.bind_eq_some_iff.mp hb
  obtain ⟨boss, hboss, -⟩ := Option.map_eq_some_iff.mp hboss
  rw [flavor?_of_bound? hl, hfac, Option.map_some, Factory.flavor, hboss]

end Store

/-! ## Being engaged with an endpoint -/

/-- **A way in which a thread can be engaged with an endpoint**, which is read off its
control. Nobody is so engaged from the beginning, and no answer changes it. -/
structure Engagement (α : Type) where
  /-- The endpoint, and how far the thread has come. -/
  of? : Control → Option (EndpointId × α)
  has : ∀ {s : Store} {c : Control} {e : EndpointId} {x : α}, c.Sound s →
    of? c = some (e, x) → s.Has e
  answered : ∀ {s : Store} {t : ThreadId} {c : Control} {q : Request}
    {after : q.Reply → Control} (reply : q.Reply), c.move s t = .ask q after →
    of? (after reply) = of? c
  called : ∀ o : Operation, of? o.control = none
  served : ∀ l mux, of? (.running [.serve l mux .announce]) = none

namespace Engagement

variable {α : Type} (k : Engagement α) {m m' : Machine} {is : List Incident} {i : Incident}
  {l : LoopId} {t t' : ThreadId} {c c' : Control} {e e' : EndpointId} {x x' : α}

/-- **A thread is engaged with an endpoint of this worker.** -/
def At (m : Machine) (l : LoopId) (t : ThreadId) (e : EndpointId) (x : α) : Prop :=
  ∃ c, m.control? t = some c ∧ k.of? c = some (e, x) ∧ m.store.bound? e = some l

variable {k}

/-- A thread is engaged with one endpoint at a time. -/
theorem At.eq (h : k.At m l t e x) (h' : k.At m l t e' x') : e = e' ∧ x = x' := by
  obtain ⟨c, hc, he, -⟩ := h
  obtain ⟨c', hc', he', -⟩ := h'
  obtain rfl := Option.some.inj (hc.symm.trans hc')
  exact Prod.mk.inj (Option.some.inj (he.symm.trans he'))

theorem at_iff (hc : m.control? t = some c) :
    k.At m l t e x ↔ k.of? c = some (e, x) ∧ m.store.bound? e = some l := by
  constructor
  · rintro ⟨d, hd, he, hl⟩
    obtain rfl := Option.some.inj (hc.symm.trans hd)
    exact ⟨he, hl⟩
  · rintro ⟨he, hl⟩
    exact ⟨c, hc, he, hl⟩

/-- What a step of a thread makes of its own engagement. -/
theorem at_act_iff {g : Store → Store} (hc : m.control? t = some c) :
    k.At (m.act t g c') l t e x ↔ k.of? c' = some (e, x) ∧ (g m.store).bound? e = some l := by
  rw [at_iff (Machine.control?_act_self hc), Machine.store_act]

/-- **What others do leaves a thread engaged as it is.** -/
theorem at_act_iff_of_ne {g : Store → Store} {ns : List Note} (hm : m.Reachable)
    (hmove : c.move m.store t = .act g c' ns) (hne : t ≠ t') :
    k.At (m.act t g c') l t' e x ↔ k.At m l t' e x := by
  unfold At
  rw [Machine.control?_act, if_neg hne, Machine.store_act]
  refine exists_congr fun d => and_congr_right fun hd => and_congr_right fun he => ?_
  rw [(Control.grows_of_move hmove).bound?_eq (k.has (hm.sound.2 t' d hd) he)]

/-- The step of a thread that comes to be engaged with an endpoint, or gets on. -/
theorem at_act {g : Store → Store} {ns : List Note} (hc : m.control? t = some c)
    (hmove : c.move m.store t = .act g c' ns) (hl : m.store.bound? e = some l)
    (he : k.of? c' = some (e, x)) : k.At (m.act t g c') l t e x :=
  (at_act_iff hc).mpr ⟨he, (Control.grows_of_move hmove).bound? hl⟩

/-- **A step leaves all engagements as they are** if it leaves that of the thread. -/
theorem at_act_iff_of_eq {g : Store → Store} {ns : List Note} (hm : m.Reachable)
    (hc : m.control? t = some c) (hmove : c.move m.store t = .act g c' ns)
    (heq : k.of? c' = k.of? c) : k.At (m.act t g c') l t' e x ↔ k.At m l t' e x := by
  by_cases ht : t = t'
  · subst ht
    rw [at_act_iff hc, at_iff hc, heq]
    refine and_congr_right fun he => ?_
    rw [(Control.grows_of_move hmove).bound?_eq (k.has (hm.sound.2 t c hc) he)]
  · exact at_act_iff_of_ne hm hmove ht

variable (k) in
/-- **The thread is engaged with no endpoint of this worker.** -/
def Away (s : Store) (l : LoopId) (c : Control) : Prop :=
  ∀ e x, k.of? c = some (e, x) → s.bound? e ≠ some l

theorem Away.of_none {s : Store} (h : k.of? c = none) : k.Away s l c := by
  intro e x he
  cases h.symm.trans he

/-- Whoever is engaged with an endpoint of another worker is away. -/
theorem Away.of_ne {s : Store} {l₀ : LoopId} (h : k.of? c = some (e, x))
    (hl₀ : s.bound? e = some l₀) (hne : l₀ ≠ l) : k.Away s l c := by
  intro e' x' he hl
  obtain ⟨rfl, -⟩ := Prod.mk.inj (Option.some.inj (h.symm.trans he))
  exact hne (Option.some.inj (hl₀.symm.trans hl))

theorem Away.not_at (h : k.Away m.store l c) (hc : m.control? t = some c) : ¬ k.At m l t e x :=
  fun he => h e x ((at_iff hc).mp he).1 ((at_iff hc).mp he).2

theorem Away.not_at_act {g : Store → Store} (h : k.Away (g m.store) l c')
    (hc : m.control? t = some c) : ¬ k.At (m.act t g c') l t e x :=
  fun he => h e x ((at_act_iff hc).mp he).1 ((at_act_iff hc).mp he).2

/-- **What happens away from a worker leaves the engagements there as they are.** -/
theorem at_act_iff_of_away {g : Store → Store} {ns : List Note} (hm : m.Reachable)
    (hc : m.control? t = some c) (hmove : c.move m.store t = .act g c' ns)
    (h : k.Away m.store l c) (h' : k.Away (g m.store) l c') :
    k.At (m.act t g c') l t' e x ↔ k.At m l t' e x := by
  by_cases ht : t = t'
  · subst ht
    exact iff_of_false (h'.not_at_act hc) (h.not_at hc)
  · exact at_act_iff_of_ne hm hmove ht

/-- **Nobody comes to be engaged, or gets on, by anything but a step of their own.** -/
theorem at_iff_of_not_acted (a : m.Advance i m') (hm : m.Reachable)
    (hi : ∀ t ns, i ≠ .stepped t (.acted ns)) : k.At m' l t e x ↔ k.At m l t e x := by
  by_cases hstep : ∃ h, i = .stepped t h
  · obtain ⟨h, rfl⟩ := hstep
    cases a with
    | act => exact absurd rfl (hi _ _)
    | answer hc hmove reply =>
      rw [at_iff (Machine.control?_answer_self reply hc), at_iff hc, k.answered reply hmove,
        Machine.store_answer]
  · have hne (h : Happening) : i ≠ .stepped t h := fun heq => hstep ⟨h, heq⟩
    by_cases hlt : t < m.threads.size
    · unfold At
      rw [a.control?_of_ne hlt hne]
      refine exists_congr fun c => and_congr_right fun hc => and_congr_right fun he => ?_
      rw [a.grows.bound?_eq (k.has (hm.sound.2 t c hc) he)]
    · -- whoever has just come about is not engaged
      constructor
      · rintro ⟨d, hd, he, -⟩
        cases a.places hd with
        | kept hd => exact absurd (Machine.lt_size_of_control? hd) hlt
        | acted hc => exact absurd (Machine.lt_size_of_control? hc) hlt
        | answered _ hc => exact absurd (Machine.lt_size_of_control? hc) hlt
        | @called _ o _ hd => cases (hd ▸ k.called o).symm.trans he
        | served _ _ _ hd => cases (hd ▸ k.served _ _).symm.trans he
      · rintro ⟨d, hd, -⟩
        exact absurd (Machine.lt_size_of_control? hd) hlt

end Engagement

/-! ## Errands -/

/-- **How far somebody has come who is to hand an endpoint to its worker.** -/
inductive Handing where
  /-- The worker may still turn out to have been told to end. -/
  | asking
  /-- The worker was not told yet when the submission looked. -/
  | admitted
  deriving DecidableEq, Repr

/-- How far the submission of a registration has come. -/
def SubmitPoint.handing? : SubmitPoint → Option Handing
  | .start | .starting | .readShutDown => some .asking
  | .takeSlot | .readSlot | .serialize _ | .takeQueue _ | .append _ => some .admitted
  | _ => none

/-- **The endpoint that the procedure is to hand to its worker.** -/
def Frame.errand? : Frame → Option (EndpointId × Handing)
  | .attempt e _ .announce | .attempt e _ .submit | .create _ (.submit e) => some (e, .asking)
  | .submit _ (.registration e) p => p.handing?.map (e, ·)
  | _ => none

/-- **The endpoint that the thread is to hand to its worker.** -/
def Control.errand? : Control → Option (EndpointId × Handing)
  | .running stack => stack.findSome? Frame.errand?
  | .finished _ => none

/-- The note is about a boss that begins an attempt, or a worker that gets a
registration. -/
def Note.hands : Note → Bool
  | .pushed ⟨_, .worker _⟩ _ | .started ⟨_, .boss⟩ _ => true
  | _ => false

/-- **What a step is for the way of an endpoint to its worker.** -/
inductive Control.Hands (s s' : Store) (c c' : Control) : List Note → Prop where
  /-- Nothing. -/
  | aside {ns : List Note} (herrand : c'.errand? = c.errand?) (hns : ∀ n ∈ ns, n.hands = false)
    (hclient : ∀ {f fac w n below}, c = .running (.create f (.enroll w n) :: below) →
      s.factories[f]? = some fac → fac.flavor = .client) : Hands s s' c c' ns
  /-- A boss sets out with an endpoint. -/
  | departs {l : LoopId} {e : EndpointId} {a : Address} (found : (s.loop? l).isSome)
    (hc : c.errand? = none) (hc' : c'.errand? = some (e, .asking))
    (placed : (Job.attempt e a).Placed s l) (hserves : (c'.serving? l).isSome)
    (hs' : s'.endpoints = s.endpoints) : Hands s s' c c' [.started l (.attempt e a)]
  /-- A datagram endpoint comes about. -/
  | comes {f : FactoryId} {fac : Factory} {w : Nat} {n : UInt64}
    (found : s.factories[f]? = some fac) (hfl : fac.flavor = .datagram)
    (hc : c = .running [.create f (.enroll w n)])
    (hc' : c' = .running [.create f (.submit s.endpoints.size)]) (hs' : s' = s.enroll f w n) :
    Hands s s' c c' []
  /-- The worker has not been told to end. -/
  | enters {e : EndpointId} {l : LoopId} (hc : c.errand? = some (e, .asking))
    (hc' : c'.errand? = some (e, .admitted)) (hbound : s.bound? e = some l)
    (hup : ¬ s.ShutDown l) (hs' : s'.endpoints = s.endpoints) : Hands s s' c c' []
  /-- The worker has been told to end, and will not have the endpoint. -/
  | refused {e : EndpointId} {l : LoopId} (hc : c.errand? = some (e, .asking))
    (hc' : c'.errand? = none) (hbound : s.bound? e = some l) (told : s.ShutDown l)
    (hs' : s'.endpoints = s.endpoints) : Hands s s' c c' []
  /-- The worker gets the registration. -/
  | hands {e : EndpointId} {l : LoopId} (hc : c.errand? = some (e, .admitted))
    (hc' : c'.errand? = none) (hbound : s.bound? e = some l)
    (hs' : s'.endpoints = s.endpoints) : Hands s s' c c' [.pushed l (.registration e)]

section Procedures

variable {s : Store} {t : ThreadId} {fr caller : Frame} {below : List Frame} {g : Store → Store}
  {c c' : Control} {ns : List Note} {e : EndpointId} {x : Handing}

@[simp] theorem Control.errand?_cons : (Control.running (fr :: below)).errand?
    = fr.errand?.or (Control.running below).errand? := by
  rw [errand?, List.findSome?_cons]
  cases fr.errand? <;> rfl

@[simp] theorem Control.errand?_nil : (Control.running []).errand? = none := rfl

@[simp] theorem Control.errand?_finished (o : Outcome) : (Control.finished o).errand? = none := rfl

/-- Nobody has an errand with a call that returns to it, unless it is having its loop
started. -/
theorem Frame.errand?_resume (h : ∀ l j, caller ≠ .submit l j .starting)
    (r : Except Failure Unit) : (caller.resume r).errand? = caller.errand? := by
  unfold resume
  split
  · exact absurd rfl (h _ _)
  all_goals cases r <;> rfl

/-- **A return leaves the errand of a thread as it is**, unless it is from a start. -/
theorem Control.errand?_back (hb : fr.Below s below) (hroot : fr.isRoot = false)
    (hstart : ∀ l p, fr ≠ .start l p) (r : Except Failure Unit) :
    (back below r).errand? = (Control.running below).errand? := by
  obtain ⟨caller, rest, rfl, hcalls, -, -⟩ := hb.exists_caller hroot
  rw [back, errand?_cons, errand?_cons, Frame.errand?_resume]
  rintro l j rfl
  cases hcalls
  exact hstart _ _ rfl

/-- Whoever submits has the errand, and nobody below. -/
theorem Frame.Below.errand?_submit {l : LoopId} {j : Job} {p : SubmitPoint}
    (hb : (Frame.submit l j p).Below s below) : (Control.running below).errand? = none := by
  obtain ⟨caller, rest, rfl, hcalls, -, hrest⟩ := hb.exists_caller rfl
  cases hcalls with
  | submitAttempt =>
    obtain ⟨caller, rest, rfl, hcalls, -, hrest⟩ := hrest.exists_caller rfl
    cases hcalls
    obtain rfl := hrest.eq_nil rfl
    rfl
  | _ =>
    obtain rfl := hrest.eq_nil rfl
    rfl

/-- **A thread at rest has no errand.** -/
theorem Control.errand?_of_resting (hc : c.Sound s) (h : c.isResting = true) :
    c.errand? = none := by
  match c, hc with
  | .finished _, _ => rfl
  | .running (fr :: below), ⟨_, _, hb⟩ =>
    -- what rests in the midst of a call rests in a wake, which it makes for itself or for a release
    cases fr with
    | submit l j p =>
      cases p <;> simp [isResting, Frame.isResting] at h
      rw [errand?_cons, hb.errand?_submit]
      cases j <;> rfl
    | signal l p =>
      obtain ⟨caller, rest, rfl, hcalls, -, hrest⟩ := hb.exists_caller rfl
      cases hcalls
      obtain rfl := hrest.eq_nil rfl
      rfl
    | serve l mux p =>
      obtain rfl := hb.eq_nil rfl
      rfl
    | create f p =>
      cases p <;> simp [isResting, Frame.isResting] at h
      obtain rfl := hb.eq_nil rfl
      rfl
    | connect e a p | close e p | release f p =>
      obtain rfl := hb.eq_nil rfl
      rfl
    | start l p | attempt e a p | registration e p | drop e p =>
      simp [isResting, Frame.isResting] at h

/-- **What the return from a start is for an errand**: nothing, unless somebody who
submits a registration has had the worker started. -/
theorem Frame.Below.errand?_start {l : LoopId} {p : StartPoint}
    (hb : (Frame.start l p).Below s below) :
    (∀ r, (Control.back below r).errand? = (Control.running below).errand?)
      ∨ ∃ e rest, below = .submit l (.registration e) .starting :: rest
        ∧ (p = .readShutDown ∨ p = .readStarted) ∧ s.bound? e = some l
        ∧ (Control.running rest).errand? = none := by
  obtain ⟨caller, rest, rfl, hcalls, hknows, hrest⟩ := hb.exists_caller rfl
  cases hcalls with
  | @startSubmit _ _ j hp =>
    cases j with
    | attempt e a => exact .inl fun r => by cases r <;> rfl
    | registration e =>
      refine .inr ⟨e, rest, rfl, hp.resolve_left ?_, Store.bound?_eq_some_iff.mpr hknows.1,
        hrest.errand?_submit⟩
      rintro ⟨_, _, ⟨⟩⟩
  | startCreate => exact .inl fun r => by cases r <;> rfl

/-- A procedure goes on, and its errand stays what it is. -/
theorem Control.Hands.within {s' : Store} {fr' : Frame} (herrand : fr'.errand? = fr.errand?)
    (hns : ∀ n ∈ ns, n.hands = false) (hfr : ∀ f w n, fr ≠ .create f (.enroll w n)) :
    (Control.running (fr :: below)).Hands s s' (.running (fr' :: below)) ns := by
  refine .aside (by rw [errand?_cons, errand?_cons, herrand]) hns fun h => ?_
  exact absurd (List.cons.inj (Control.running.inj h)).1 (hfr _ _ _)

/-- A procedure without an errand returns to one whose errand stays what it is. -/
theorem Control.Hands.returns {s' : Store} {r : Except Failure Unit} (hfr : fr.errand? = none)
    (hroot : fr.isRoot = false)
    (hback : (Control.back below r).errand? = (Control.running below).errand?)
    (hns : ∀ n ∈ ns, n.hands = false) :
    (Control.running (fr :: below)).Hands s s' (.back below r) ns := by
  refine .aside (by rw [hback, errand?_cons, hfr, Option.none_or]) hns fun h => ?_
  rw [(List.cons.inj (Control.running.inj h)).1] at hroot
  cases hroot

theorem StartPoint.hands {id : LoopId} {l : Loop} {p : StartPoint}
    (hb : (Frame.start id p).Below s below) (found : s.loop? id = some l)
    (h : p.move s t below id l = .act g c ns) :
    (Control.running (.start id p :: below)).Hands s (g s) c ns := by
  cases p <;> simp [StartPoint.move] at h
  case readShutDown =>
    obtain ⟨rfl, rfl, rfl⟩ := h
    split
    · rename_i hd
      rcases hb.errand?_start with hsame | ⟨e, rest, rfl, -, hbound, hrest⟩
      · exact .returns rfl rfl (hsame _) (List.forall_mem_nil _)
      · refine .refused (e := e) rfl ?_ hbound ⟨l, found, hd⟩ rfl
        simpa [Control.back, Frame.resume, Frame.errand?, SubmitPoint.handing?] using hrest
    · exact .within rfl (List.forall_mem_nil _) (by simp)
  case readStarted =>
    obtain ⟨rfl, rfl, rfl⟩ := h
    split
    · rcases hb.errand?_start with hsame | ⟨e, rest, rfl, -⟩
      · exact .returns rfl rfl (hsame _) (List.forall_mem_nil _)
      · exact .returns rfl rfl rfl (List.forall_mem_nil _)
    · exact .within rfl (List.forall_mem_nil _) (by simp)
  case leave r =>
    obtain ⟨rfl, rfl, rfl⟩ := h
    rcases hb.errand?_start with hsame | ⟨e, rest, rfl, hp, -⟩
    · exact .returns rfl rfl (hsame _) (List.forall_mem_nil _)
    · simp at hp
  case takeSlot =>
    obtain ⟨-, rfl, rfl, rfl⟩ := h
    exact .within rfl (List.forall_mem_nil _) (by simp)
  case announce => obtain ⟨rfl, rfl, rfl⟩ := h; exact .within rfl (by simp [Note.hands]) (by simp)
  all_goals obtain ⟨rfl, rfl, rfl⟩ := h; exact .within rfl (List.forall_mem_nil _) (by simp)

/-- A submission that comes no further on its errand. -/
theorem Frame.errand?_submit_congr {id : LoopId} (j : Job) {p p' : SubmitPoint}
    (h : p'.handing? = p.handing?) :
    (Frame.submit id j p').errand? = (Frame.submit id j p).errand? := by
  cases j with
  | attempt => rfl
  | registration => rw [errand?, errand?, h]

/-- **Whoever submits a registration looks once whether the worker has been told to end**,
and what it finds decides. -/
theorem SubmitPoint.hands {id : LoopId} {l : Loop} {j : Job} {p : SubmitPoint}
    (hk : (Frame.submit id j p).Knows s) (hb : (Frame.submit id j p).Below s below)
    (found : s.loop? id = some l) (h : p.move s t below id l j = .act g c ns) :
    (Control.running (.submit id j p :: below)).Hands s (g s) c ns := by
  have hbelow := hb.errand?_submit
  have hon {p p' : SubmitPoint} {s' : Store} (hsame : p'.handing? = p.handing?)
      (hns : ∀ n ∈ ns, n.hands = false) :
      (Control.running (.submit id j p :: below)).Hands s s'
        (.running (.submit id j p' :: below)) ns :=
    .within (Frame.errand?_submit_congr j hsame) hns (by simp)
  have hreturns {p : SubmitPoint} {s' : Store} {r : Except Failure Unit} (hp : p.handing? = none) :
      (Control.running (.submit id j p :: below)).Hands s s' (.back below r) [] := by
    refine .returns ?_ rfl (Control.errand?_back hb rfl (by simp) _) (List.forall_mem_nil _)
    cases j <;> simp [Frame.errand?, hp]
  cases p <;> simp [SubmitPoint.move] at h
  case start | refuse =>
    obtain ⟨rfl, rfl, rfl⟩ := h
    refine .aside ?_ (List.forall_mem_nil _) (by simp)
    simp only [Control.errand?_cons]
    cases j <;> rfl
  case readShutDown =>
    obtain ⟨rfl, rfl, rfl⟩ := h
    cases j with
    | attempt e a => exact .within rfl (List.forall_mem_nil _) (by simp)
    | registration e =>
      have hbound : s.bound? e = some id := Store.bound?_eq_some_iff.mpr hk.1
      split
      · rename_i hd
        exact .refused (e := e) rfl (by simpa [Frame.errand?, SubmitPoint.handing?] using hbelow)
          hbound ⟨l, found, hd⟩ rfl
      · rename_i hd
        refine .enters (e := e) rfl rfl hbound ?_ rfl
        rintro ⟨l', found', hd'⟩
        obtain rfl := Option.some.inj (found.symm.trans found')
        exact hd hd'
  case append mo =>
    obtain ⟨rfl, rfl, rfl⟩ := h
    cases j with
    | attempt e a =>
      obtain ⟨r, hr, rfl⟩ := hk.1
      exact .within rfl (by simp [Note.hands, Endpoint.boss]) (by simp)
    | registration e =>
      refine .hands (e := e) rfl ?_ (Store.bound?_eq_some_iff.mpr hk.1) rfl
      cases mo <;> simpa [Frame.errand?, SubmitPoint.handing?] using hbelow
  case serialize =>
    split at h <;> simp at h
    · obtain ⟨-, rfl, rfl, rfl⟩ := h; exact hon rfl (List.forall_mem_nil _)
    · obtain ⟨rfl, rfl, rfl⟩ := h; exact hon rfl (List.forall_mem_nil _)
  case leave =>
    split at h <;> simp at h <;> obtain ⟨rfl, rfl, rfl⟩ := h
    all_goals exact hreturns rfl
  case refused => obtain ⟨rfl, rfl, rfl⟩ := h; exact hreturns rfl
  case takeSlot | takeQueue =>
    obtain ⟨-, rfl, rfl, rfl⟩ := h; exact hon rfl (List.forall_mem_nil _)
  case wakeFailed => obtain ⟨rfl, rfl, rfl⟩ := h; exact hon rfl (by simp [Note.hands])
  case readSlot => obtain ⟨rfl, rfl, rfl⟩ := h; exact hon rfl (List.forall_mem_nil _)

theorem SignalPoint.hands {id : LoopId} {l : Loop} {p : SignalPoint}
    (hb : (Frame.signal id p).Below s below) (h : p.move s t below id l = .act g c ns) :
    (Control.running (.signal id p :: below)).Hands s (g s) c ns := by
  have hreturns {p : SignalPoint} {s' : Store} {r : Except Failure Unit}
      (hns : ∀ n ∈ ns, n.hands = false) :
      (Control.running (.signal id p :: below)).Hands s s' (.back below r) ns :=
    .returns rfl rfl (Control.errand?_back hb rfl (by simp) r) hns
  cases p <;> simp [SignalPoint.move] at h
  case raise =>
    obtain ⟨rfl, rfl, rfl⟩ := h
    split
    · exact hreturns (List.forall_mem_nil _)
    · exact .within rfl (List.forall_mem_nil _) (by simp)
  case takeSlot =>
    obtain ⟨-, rfl, rfl, rfl⟩ := h
    exact .within rfl (List.forall_mem_nil _) (by simp)
  case announce => obtain ⟨rfl, rfl, rfl⟩ := h; exact hreturns (by simp [Note.hands])
  all_goals obtain ⟨rfl, rfl, rfl⟩ := h; exact .within rfl (by simp [Note.hands]) (by simp)

/-- **A boss that begins an attempt sets out with its endpoint.** -/
theorem ServePoint.hands {id : LoopId} {l : Loop} {m : Multiplexer} {p : ServePoint}
    (hk : (Frame.serve id m p).Knows s) (hb : (Frame.serve id m p).Below s below)
    (found : s.loop? id = some l) (h : p.move s t below id l m = .act g c ns) :
    (Control.running (.serve id m p :: below)).Hands s (g s) c ns := by
  obtain rfl := hb.eq_nil rfl
  have hon {p p' : ServePoint} {s' : Store} {ns : List Note} (hns : ∀ n ∈ ns, n.hands = false) :
      (Control.running [.serve id m p]).Hands s s' (.running [.serve id m p']) ns :=
    .within rfl hns (by simp)
  cases p
  case run batch n =>
    cases batch with
    | nil =>
      simp [ServePoint.move] at h
      obtain ⟨rfl, rfl, rfl⟩ := h
      exact hon (List.forall_mem_nil _)
    | cons j rest =>
      simp [ServePoint.move] at h
      obtain ⟨rfl, rfl, rfl⟩ := h
      have hplaced := hk j List.mem_cons_self
      cases j with
      | attempt e a => exact .departs (found ▸ rfl) rfl rfl hplaced (by simp [Frame.serving?]) rfl
      | registration e =>
        obtain ⟨r, -, rfl⟩ := hplaced
        exact .aside rfl (by simp [Note.hands, Endpoint.home]) (by simp)
  case report n =>
    cases n <;> simp [ServePoint.move] at h <;> obtain ⟨rfl, rfl, rfl⟩ := h
    · exact hon (List.forall_mem_nil _)
    · exact hon (by simp [Note.hands])
  case discard rest n =>
    cases rest <;> simp [ServePoint.move] at h <;> obtain ⟨rfl, rfl, rfl⟩ := h
    · exact hon (List.forall_mem_nil _)
    · exact .aside rfl (by simp [Note.hands]) (by simp)
  all_goals simp [ServePoint.move] at h
  case serialize =>
    split at h <;> simp at h
    · obtain ⟨-, rfl, rfl, rfl⟩ := h; exact hon (List.forall_mem_nil _)
    · obtain ⟨rfl, rfl, rfl⟩ := h; exact hon (List.forall_mem_nil _)
  case endTurn =>
    split at h <;> simp at h <;> obtain ⟨rfl, rfl, rfl⟩ := h
    all_goals exact hon (List.forall_mem_nil _)
  case takeQueue | takeQueueLast =>
    obtain ⟨-, rfl, rfl, rfl⟩ := h; exact hon (List.forall_mem_nil _)
  case waited r =>
    obtain ⟨rfl, rfl, rfl⟩ := h
    refine hon fun n hn => ?_
    unfold Notice.ofWait at hn
    split at hn <;> simp at hn <;> subst hn <;> rfl
  case announceExit =>
    obtain ⟨rfl, rfl, rfl⟩ := h
    exact .aside rfl (by simp [Note.hands]) (by simp)
  all_goals obtain ⟨rfl, rfl, rfl⟩ := h; exact hon (by simp [Note.hands])

theorem AttemptPoint.hands {id : EndpointId} {r : Endpoint} {a : Address} {p : AttemptPoint}
    (hb : (Frame.attempt id a p).Below s below) (h : p.move below id r a = .act g c ns) :
    (Control.running (.attempt id a p :: below)).Hands s (g s) c ns := by
  cases p <;> simp [AttemptPoint.move] at h <;> obtain ⟨rfl, rfl, rfl⟩ := h
  case submit =>
    exact .aside (by simp [Frame.errand?, SubmitPoint.handing?]) (List.forall_mem_nil _) (by simp)
  case drop => exact .aside (by simp [Frame.errand?]) (List.forall_mem_nil _) (by simp)
  case leave =>
    exact .returns rfl rfl (Control.errand?_back hb rfl (by simp) _) (List.forall_mem_nil _)
  all_goals exact .within rfl (by simp [Note.hands]) (by simp)

theorem RegistrationPoint.hands {id : EndpointId} {r : Endpoint} {p : RegistrationPoint}
    (hb : (Frame.registration id p).Below s below) (h : p.move s t below id r = .act g c ns) :
    (Control.running (.registration id p :: below)).Hands s (g s) c ns := by
  have hreturns {p : RegistrationPoint} {s' : Store} {ns : List Note}
      (hns : ∀ n ∈ ns, n.hands = false) :
      (Control.running (.registration id p :: below)).Hands s s' (.back below (.ok ())) ns :=
    .returns rfl rfl (Control.errand?_back hb rfl (by simp) _) hns
  cases p <;> simp [RegistrationPoint.move] at h
  case takeStatus =>
    obtain ⟨-, rfl, rfl, rfl⟩ := h; exact .within rfl (List.forall_mem_nil _) (by simp)
  case mark =>
    obtain ⟨rfl, rfl, rfl⟩ := h
    split
    · exact hreturns (List.forall_mem_nil _)
    · exact .within rfl (List.forall_mem_nil _) (by simp)
  case count => obtain ⟨rfl, rfl, rfl⟩ := h; exact .within rfl (by simp [Note.hands]) (by simp)
  case announce => obtain ⟨rfl, rfl, rfl⟩ := h; exact hreturns (by simp [Note.hands])

theorem DropPoint.hands {id : EndpointId} {r : Endpoint} {p : DropPoint}
    (hb : (Frame.drop id p).Below s below) (h : p.move s t below id r = .act g c ns) :
    (Control.running (.drop id p :: below)).Hands s (g s) c ns := by
  cases p <;> simp [DropPoint.move] at h
  case takeStatus =>
    obtain ⟨-, rfl, rfl, rfl⟩ := h; exact .within rfl (List.forall_mem_nil _) (by simp)
  case revert =>
    obtain ⟨rfl, rfl, rfl⟩ := h
    exact .returns rfl rfl (Control.errand?_back hb rfl (by simp) _) (List.forall_mem_nil _)

/-- **A datagram endpoint sets out as soon as it has come about.** -/
theorem CreatePoint.hands {id : FactoryId} {f : Factory} {p : CreatePoint}
    (hb : (Frame.create id p).Below s below) (found : s.factories[id]? = some f)
    (h : p.move s below id f = .act g c ns) :
    (Control.running (.create id p :: below)).Hands s (g s) c ns := by
  obtain rfl := hb.eq_nil rfl
  cases p <;> simp [CreatePoint.move] at h
  case enroll w n =>
    obtain ⟨rfl, rfl, rfl⟩ := h
    cases hfl : f.flavor with
    | client =>
      refine .aside (by simp [Frame.errand?]) (List.forall_mem_nil _) fun heq found' => ?_
      obtain ⟨rfl, -⟩ := Frame.create.inj (List.cons.inj (Control.running.inj heq)).1
      rwa [← Option.some.inj (found.symm.trans found')]
    | datagram => exact .comes found hfl rfl rfl rfl
  case readReleased =>
    obtain ⟨rfl, rfl, rfl⟩ := h
    refine .aside ?_ (List.forall_mem_nil _) (by simp)
    split <;> rfl
  case start =>
    obtain ⟨rfl, rfl, rfl⟩ := h
    exact .aside rfl (List.forall_mem_nil _) (by simp)
  case submit e =>
    split at h <;> simp at h
    obtain ⟨rfl, rfl, rfl⟩ := h
    exact .aside rfl (List.forall_mem_nil _) (by simp)
  case announce e =>
    split at h <;> simp at h
    obtain ⟨rfl, rfl, rfl⟩ := h
    exact .aside rfl (by simp [Note.hands]) (by simp)
  case failed =>
    obtain ⟨rfl, rfl, rfl⟩ := h
    exact .aside rfl (List.forall_mem_nil _) (by simp)
  all_goals obtain ⟨rfl, rfl, rfl⟩ := h; exact .within rfl (by simp [Note.hands]) (by simp)

theorem ConnectPoint.hands {id : EndpointId} {r : Endpoint} {a : Address} {p : ConnectPoint}
    (hb : (Frame.connect id a p).Below s below) (h : p.move s t below id r a = .act g c ns) :
    (Control.running (.connect id a p :: below)).Hands s (g s) c ns := by
  obtain rfl := hb.eq_nil rfl
  cases p <;> simp [ConnectPoint.move] at h
  case takeStatus =>
    obtain ⟨-, rfl, rfl, rfl⟩ := h; exact .within rfl (List.forall_mem_nil _) (by simp)
  case begin =>
    split at h <;> simp at h <;> obtain ⟨rfl, rfl, rfl⟩ := h
    all_goals exact .aside rfl (List.forall_mem_nil _) (by simp)
  all_goals obtain ⟨rfl, rfl, rfl⟩ := h; exact .aside rfl (List.forall_mem_nil _) (by simp)

theorem ClosePoint.hands {id : EndpointId} {r : Endpoint} {p : ClosePoint}
    (hb : (Frame.close id p).Below s below) (h : p.move s t below id r = .act g c ns) :
    (Control.running (.close id p :: below)).Hands s (g s) c ns := by
  obtain rfl := hb.eq_nil rfl
  cases p <;> simp [ClosePoint.move] at h
  case takeStatus =>
    obtain ⟨-, rfl, rfl, rfl⟩ := h; exact .within rfl (List.forall_mem_nil _) (by simp)
  case close => obtain ⟨rfl, rfl, rfl⟩ := h; exact .aside rfl (List.forall_mem_nil _) (by simp)

theorem ReleasePoint.hands {id : FactoryId} {f : Factory} {p : ReleasePoint}
    (hb : (Frame.release id p).Below s below) (h : p.move below id f = .act g c ns) :
    (Control.running (.release id p :: below)).Hands s (g s) c ns := by
  obtain rfl := hb.eq_nil rfl
  -- nobody who lets go has an errand, and nobody of those it calls
  have hnone {p : ReleasePoint} {s' : Store} {c' : Control} {ns : List Note}
      (hc' : c'.errand? = none) (hns : ∀ n ∈ ns, n.hands = false) :
      (Control.running [.release id p]).Hands s s' c' ns := .aside hc' hns (by simp)
  cases p <;> simp [ReleasePoint.move] at h
  case raise =>
    obtain ⟨rfl, rfl, rfl⟩ := h
    exact hnone (by split <;> rfl) (List.forall_mem_nil _)
  case announce =>
    obtain ⟨rfl, rfl, rfl⟩ := h
    exact hnone (by split <;> rfl) (by simp [Note.hands])
  case signalWorkers =>
    split at h <;> simp at h <;> obtain ⟨rfl, rfl, rfl⟩ := h
    all_goals exact hnone rfl (List.forall_mem_nil _)
  case terminate =>
    split at h <;> simp at h <;> obtain ⟨rfl, rfl, rfl⟩ := h
    all_goals exact hnone rfl (by simp [Note.hands])
  all_goals obtain ⟨rfl, rfl, rfl⟩ := h; exact hnone rfl (by simp [Note.hands])

/-- **Every step is one of these for the way of endpoints to their workers.** -/
theorem Control.hands_of_act (hc : c.Sound s) (h : c.move s t = .act g c' ns) :
    c.Hands s (g s) c' ns := by
  obtain ⟨fr, below, rfl, hm⟩ := moves_of_act h
  obtain ⟨hk, -, hb⟩ := hc
  cases hm with
  | start found hp => exact StartPoint.hands hb found hp
  | submit found hp => exact SubmitPoint.hands hk hb found hp
  | signal _ hp => exact SignalPoint.hands hb hp
  | serve found hp => exact ServePoint.hands hk hb found hp
  | attempt _ hp => exact AttemptPoint.hands hb hp
  | registration _ hp => exact RegistrationPoint.hands hb hp
  | drop _ hp => exact DropPoint.hands hb hp
  | create found hp => exact CreatePoint.hands hb found hp
  | connect _ hp => exact ConnectPoint.hands hb hp
  | close _ hp => exact ClosePoint.hands hb hp
  | release _ hp => exact ReleasePoint.hands hb hp

/-- Nobody's errand depends on an answer. -/
theorem Control.errand?_of_ask {q : Request} {after : q.Reply → Control} (reply : q.Reply)
    (h : c.move s t = .ask q after) : (after reply).errand? = c.errand? := by
  obtain ⟨fr, below, rfl, hask⟩ := asks h
  cases hask with
  | @wakeSubmit l j m => cases j <;> cases reply <;> rfl
  | openNew | wakeSignal => cases reply <;> rfl
  | _ => rfl

/-- Whoever has an errand knows that there is such an endpoint. -/
theorem Frame.Knows.has_of_errand? (hk : fr.Knows s) (he : fr.errand? = some (e, x)) :
    s.Has e := by
  unfold errand? at he
  split at he
  case h_4 l e' p =>
    obtain ⟨y, -, heq⟩ := Option.map_eq_some_iff.mp he
    obtain ⟨rfl, -⟩ := Prod.mk.inj heq
    exact hk.1.has
  case h_5 => cases he
  all_goals
    obtain ⟨rfl, -⟩ := Prod.mk.inj (Option.some.inj he)
    exact hk

theorem Frame.Below.has_of_errand? (hk : fr.Knows s) (hb : fr.Below s below)
    (he : (Control.running (fr :: below)).errand? = some (e, x)) : s.Has e := by
  induction below generalizing fr with
  | nil =>
    rw [Control.errand?_cons, Control.errand?_nil, Option.or_none] at he
    exact hk.has_of_errand? he
  | cons caller rest ih =>
    rw [Control.errand?_cons, Option.or_eq_some_iff] at he
    rcases he with he | ⟨-, he⟩
    · exact hk.has_of_errand? he
    · exact ih hb.2.1 hb.2.2 he

theorem Control.Sound.has_of_errand? (hc : c.Sound s) (he : c.errand? = some (e, x)) :
    s.Has e := by
  match c, hc with
  | .finished _, _ => cases he
  | .running (_ :: _), hc => exact hc.2.2.has_of_errand? hc.1 he

/-- **Whoever is on an errand goes on running the loop that it runs**, and carrying out
what it was called for. -/
theorem Control.keeps_of_errand? (hc : c.Sound s) (hst : c.Stacked)
    (h : c.move s t = .act g c' ns) (he : c.errand? ≠ none) (he' : c'.errand? ≠ none) :
    (∀ l, c'.serving? l = c.serving? l) ∧ c'.operation? = c.operation? := by
  obtain ⟨fr, below, rfl, hgoes⟩ := goes_of_act h
  constructor
  · intro l
    refine hgoes.serving? hst ?_
    -- who is just running a loop has no errand
    rintro m p rfl
    obtain rfl := hst.eq_nil rfl
    exact he rfl
  · have hfrom := Control.From.of_goes hc.2.2 rfl hgoes
    cases c' with
    | running => exact hfrom
    | finished => exact absurd rfl he'

end Procedures

/-- **Being on an errand.** -/
def Engagement.errand : Engagement Handing where
  of? := Control.errand?
  has := Control.Sound.has_of_errand?
  answered := Control.errand?_of_ask
  called o := by cases o <;> rfl
  served _ _ := rfl

/-! ## Setting out -/

/-- **With whom a thread sets out for the worker** when it makes a step. -/
def Control.setsOut (l : LoopId) (s' : Store) (c c' : Control) : List EndpointId :=
  match c.errand?, c'.errand? with
  | none, some (e, _) => if s'.bound? e = some l then [e] else []
  | _, _ => []

section SetsOut

/-- Notes that are not about errands push nothing on a worker, and begin nothing with a
boss. -/
theorem flatMap_of_not_hands {ns : List Note} (hns : ∀ n ∈ ns, n.hands = false) (f : FactoryId)
    (w : Nat) : ns.flatMap (Note.pushes ⟨f, .worker w⟩) = []
      ∧ ns.flatMap (Note.begins ⟨f, .boss⟩) = [] := by
  constructor <;> refine List.flatMap_eq_nil_iff.mpr fun n hn => ?_
  all_goals
    have hn := hns n hn
    cases n with
    | pushed l' j | started l' j =>
      obtain ⟨f', seat⟩ := l'
      cases seat <;> simp_all [Note.hands]
    | _ => rfl

variable {s s' : Store} {t : ThreadId} {f : FactoryId} {w : Nat} {l : LoopId} {c c' : Control}
  {g : Store → Store} {ns : List Note} {e : EndpointId} {x : Handing}

theorem Control.setsOut_of_none (hc : c.errand? = none) (hc' : c'.errand? = some (e, x)) :
    c.setsOut l s' c' = if s'.bound? e = some l then [e] else [] := by
  rw [setsOut, hc, hc']

theorem Control.setsOut_of_eq (h : c'.errand? = c.errand?) : c.setsOut l s' c' = [] := by
  rw [setsOut, h]
  cases c.errand? <;> rfl

theorem Control.setsOut_of_some (hc : c.errand? = some (e, x)) : c.setsOut l s' c' = [] := by
  rw [setsOut, hc]

theorem Store.bound?_congr (h : s'.endpoints = s.endpoints) (e : EndpointId) :
    s'.bound? e = s.bound? e := by
  rw [bound?, h, bound?]

/-- **Who sets out for a worker of a stream factory** is with whom its boss begins. -/
theorem Control.Sound.setsOut_of_client (hc : c.Sound s) (h : c.move s t = .act g c' ns)
    (hfl : ∀ fac, s.factories[f]? = some fac → fac.flavor = .client) :
    c.setsOut ⟨f, .worker w⟩ (g s) c'
      = ((ns.flatMap (Note.begins ⟨f, .boss⟩)).map Job.endpoint).filter
        ((g s).bound? · = some ⟨f, .worker w⟩) := by
  cases hands_of_act hc h with
  | aside herrand hns =>
    rw [setsOut_of_eq herrand, (flatMap_of_not_hands hns f w).2]
    rfl
  | @departs l₀ e b _ hce hce' placed _ hs' =>
    obtain ⟨q, hq, rfl⟩ := placed
    have hbound : (g s).bound? e = some q.home :=
      (Store.bound?_congr hs' e).trans (Store.bound?_eq_some_iff.mpr ⟨q, hq, rfl⟩)
    rw [setsOut_of_none hce hce', hbound, List.flatMap_singleton, Note.begins]
    by_cases hw : q.home = ⟨f, .worker w⟩
    · have hboss : q.boss = ⟨f, .boss⟩ := by rw [Endpoint.boss, (LoopId.mk.inj hw).1]
      simp [hw, hboss, Job.endpoint, hbound]
    · rw [if_neg (by simpa using hw)]
      split <;> simp [hw, Job.endpoint, hbound]
  | @comes f' fac w' n found hfac hce hce' hs' =>
    rw [setsOut_of_none (e := s.endpoints.size) (x := .asking) (hce ▸ rfl) (hce' ▸ rfl), hs',
      if_neg]
    · rfl
    · intro hbound
      have hw : (⟨f', .worker w'⟩ : LoopId) = ⟨f, .worker w⟩ := by
        simpa [Store.bound?, Store.enroll, Endpoint.home] using hbound
      obtain ⟨rfl, -⟩ := LoopId.mk.inj hw
      cases hfac.symm.trans (hfl _ found)
  | enters hce | refused hce | hands hce => rw [setsOut_of_some hce]; rfl

/-- **Who sets out for a worker of a datagram factory** is who comes about. -/
theorem Control.Sound.setsOut_of_datagram (hs : s.Sound) (hc : c.Sound s)
    (h : c.move s t = .act g c' ns)
    (hfl : ∀ fac, s.factories[f]? = some fac → fac.flavor = .datagram) :
    (g s).enrolled ⟨f, .worker w⟩
      = s.enrolled ⟨f, .worker w⟩ ++ c.setsOut ⟨f, .worker w⟩ (g s) c' := by
  have hstays (hs' : (g s).endpoints = s.endpoints) :
      (g s).enrolled ⟨f, .worker w⟩ = s.enrolled ⟨f, .worker w⟩ :=
    Store.SameBindings.enrolled (fun e => by rw [hs']) _
  cases hands_of_act hc h with
  | aside herrand hns hclient =>
    rw [setsOut_of_eq herrand, List.append_nil]
    by_cases hcreate : ∃ f' w' n below, c = .running (.create f' (.enroll w' n) :: below)
    · -- a stream endpoint comes about, and this is no worker of its factory
      obtain ⟨f', w', n, below, rfl⟩ := hcreate
      cases moves_of_running h with
      | create found hp =>
        simp [CreatePoint.move] at hp
        obtain ⟨rfl, -, -⟩ := hp
        rw [Store.enrolled_enroll, if_neg, List.append_nil]
        intro hw
        obtain ⟨rfl, -⟩ := LoopId.mk.inj hw
        cases (hfl _ found).symm.trans (hclient rfl found)
    · refine ((counts_of_act h).bindings ?_).enrolled _
      exact fun f' w' n below heq => hcreate ⟨f', w', n, below, heq⟩
  | @departs l₀ e b found hce hce' placed _ hs' =>
    obtain ⟨q, hq, rfl⟩ := placed
    have hbound : s.bound? e = some q.home := Store.bound?_eq_some_iff.mpr ⟨q, hq, rfl⟩
    rw [setsOut_of_none hce hce', Store.bound?_congr hs', hbound, if_neg, List.append_nil,
      hstays hs']
    -- a factory with a boss makes no datagram endpoints
    intro hw
    obtain ⟨fac, hfac⟩ := hs.factory hq
    have hf : q.home.factory = f := (LoopId.mk.inj (Option.some.inj hw)).1
    have hclient := Store.flavor?_of_boss hbound found
    rw [Store.flavor?_of_bound? hbound, Option.map_eq_some_iff] at hclient
    obtain ⟨fac', hfac', hfl'⟩ := hclient
    cases hfl'.symm.trans (hfl fac' (hf ▸ hfac'))
  | @comes f' fac w' n found hfac hce hce' hs' =>
    rw [setsOut_of_none (e := s.endpoints.size) (x := .asking) (hce ▸ rfl) (hce' ▸ rfl), hs',
      Store.bound?_enroll, Store.enrolled_enroll]
    simp only [Option.some.injEq]
  | enters hce _ _ _ hs' => rw [setsOut_of_some hce, List.append_nil, hstays hs']
  | refused hce _ _ _ hs' => rw [setsOut_of_some hce, List.append_nil, hstays hs']
  | hands hce _ _ hs' => rw [setsOut_of_some hce, List.append_nil, hstays hs']

end SetsOut

end EndpointControl
