import EndpointControl.Proofs.Steps

/-!
# Who calls whom, and what each caller knows

A stack is not any list of procedures. What stands on what is laid down by
`Frame.Calls`, and at each point a procedure knows something for good: that the
loop it submits to has been started, that the endpoint it carries exists, that
the loops it has told to end stay told. `Control.Sound` collects both for one
thread, `Store.Sound` what the store has to say in return – above all that every
job is queued where it belongs and that the boss of a factory is told to end
before its workers are. `Machine.Reachable.sound` says that all of this holds in
every machine that a history leads to.
-/

namespace EndpointControl

/-! ## The order in which loops are told to end -/

/-- The place of a seat in the order in which loops are told to end. -/
def Seat.rank : Seat → Nat
  | .boss => 0
  | .worker i => i + 1

theorem Seat.rank_inj {a b : Seat} (h : a.rank = b.rank) : a = b := by
  cases a <;> cases b <;> simp_all [rank]

namespace Store

/-- **The first loops of a factory have been told to end**, as many as `n` says. -/
def Told (s : Store) (f : FactoryId) (n : Nat) : Prop :=
  s.factories[f]?.isSome ∧ ∀ st, st.rank < n → ∀ l, s.loop? ⟨f, st⟩ = some l → l.shutDown = true

/-- **All loops of a factory have been told to end.** -/
def AllTold (s : Store) (f : FactoryId) : Prop := ∀ n, s.Told f n

variable {s s' : Store} {f : FactoryId} {n : Nat}

theorem Grows.isSome_factory (h : s.Grows s') (hf : s.factories[f]?.isSome) :
    s'.factories[f]?.isSome := by
  obtain ⟨fac, hfac⟩ := Option.isSome_iff_exists.mp hf
  obtain ⟨fac', hfac', -⟩ := h.factory hfac
  exact Option.isSome_iff_exists.mpr ⟨fac', hfac'⟩

/-- A factory gets no loop that it did not have. -/
theorem Grows.loop_back (h : s.Grows s') {id : LoopId} {l' : Loop}
    (hf : s.factories[id.factory]?.isSome) (hl : s'.loop? id = some l') :
    ∃ l, s.loop? id = some l ∧ l.Grows l' := by
  obtain ⟨fac, hfac⟩ := Option.isSome_iff_exists.mp hf
  obtain ⟨fac', hfac', hg⟩ := h.factory hfac
  rw [loop?, hfac', Option.bind_some] at hl
  obtain ⟨l, hl, hgl⟩ := hg.loop_back hl
  exact ⟨l, by rw [loop?, hfac, Option.bind_some, hl], hgl⟩

theorem Grows.told (h : s.Grows s') (ht : s.Told f n) : s'.Told f n := by
  refine ⟨h.isSome_factory ht.1, fun st hst l' hl' => ?_⟩
  obtain ⟨l, hl, hg⟩ := h.loop_back ht.1 hl'
  exact hg.shutDown (ht.2 st hst l hl)

theorem Grows.allTold (h : s.Grows s') (ht : s.AllTold f) : s'.AllTold f :=
  fun n => h.told (ht n)

/-- With the next loop told, one loop more has been told. -/
theorem Told.succ {id : LoopId} (h : s.Told id.factory id.seat.rank) (hd : s.ShutDown id) :
    s.Told id.factory (id.seat.rank + 1) := by
  refine ⟨h.1, fun st hst l hl => ?_⟩
  -- those before it had been told, and it is told now
  rcases Nat.lt_succ_iff_lt_or_eq.mp hst with hlt | heq
  · exact h.2 st hlt l hl
  · obtain rfl := Seat.rank_inj heq
    obtain ⟨l', hl', hu⟩ := hd
    exact Option.some.inj (hl.symm.trans hl') ▸ hu

/-! ## Where jobs belong -/

end Store

/-- **The job is queued where it belongs**: an attempt with the boss of its
endpoint, a registration with the worker. -/
def Job.Placed (s : Store) (l : LoopId) : Job → Prop
  | .attempt e _ => ∃ r, s.endpoints[e]? = some r ∧ r.boss = l
  | .registration e => ∃ r, s.endpoints[e]? = some r ∧ r.home = l

theorem Store.Grows.placed {s s' : Store} (h : s.Grows s') {l : LoopId} {j : Job}
    (hj : j.Placed s l) : j.Placed s' l := by
  cases j with
  | attempt e a =>
    obtain ⟨r, hr, hb⟩ := hj
    obtain ⟨st, hr'⟩ := h.endpoint hr
    exact ⟨_, hr', hb⟩
  | registration e =>
    obtain ⟨r, hr, hb⟩ := hj
    obtain ⟨st, hr'⟩ := h.endpoint hr
    exact ⟨_, hr', hb⟩

/-- There is such an endpoint. -/
def Store.Has (s : Store) (e : EndpointId) : Prop := ∃ r, s.endpoints[e]? = some r

theorem Store.Grows.has {s s' : Store} (h : s.Grows s') {e : EndpointId} (he : s.Has e) :
    s'.Has e := by
  obtain ⟨r, hr⟩ := he
  obtain ⟨st, hr'⟩ := h.endpoint hr
  exact ⟨_, hr'⟩

theorem Job.Placed.has {s : Store} {l : LoopId} {j : Job} (h : j.Placed s l) :
    s.Has j.endpoint := by
  cases j <;> exact h.imp fun _ hr => hr.1

/-! ## Stacks -/

namespace Frame

/-- **One procedure stands on another.** A loop that is started for the sake of a
registration has been started before, so that start ends at its second look. -/
inductive Calls : Frame → Frame → Prop where
  | startSubmit {l : LoopId} {p : StartPoint} {j : Job}
    (h : (∃ e a, j = .attempt e a) ∨ p = .readShutDown ∨ p = .readStarted) :
    Calls (.start l p) (.submit l j .starting)
  | startCreate {f : FactoryId} {w : Nat} {n : UInt64} {p : StartPoint} :
    Calls (.start ⟨f, .worker w⟩ p) (.create f (.starting w n))
  | submitCreate {l : LoopId} {e : EndpointId} {f : FactoryId} {p : SubmitPoint} :
    Calls (.submit l (.registration e) p) (.create f (.submitting e))
  | submitConnect {l : LoopId} {e : EndpointId} {a : Address} {p : SubmitPoint} :
    Calls (.submit l (.attempt e a) p) (.connect e a .submitting)
  | submitAttempt {l : LoopId} {e : EndpointId} {a : Address} {p : SubmitPoint} :
    Calls (.submit l (.registration e) p) (.attempt e a .submitting)
  | dropSubmit {l : LoopId} {j : Job} {p : DropPoint} {cause : Failure} :
    Calls (.drop j.endpoint p) (.submit l j (.refused cause))
  | dropAttempt {e : EndpointId} {a : Address} {p : DropPoint} :
    Calls (.drop e p) (.attempt e a .leave)
  | dropServe {e : EndpointId} {p : DropPoint} {l : LoopId} {m : Multiplexer}
    {rest : List Job} {n : Nat} : Calls (.drop e p) (.serve l m (.discard rest n))
  | attemptServe {e : EndpointId} {a : Address} {p : AttemptPoint} {l : LoopId}
    {m : Multiplexer} {rest : List Job} {n : Nat} :
    Calls (.attempt e a p) (.serve l m (.run rest n))
  | registrationServe {e : EndpointId} {p : RegistrationPoint} {l : LoopId}
    {m : Multiplexer} {rest : List Job} {n : Nat} :
    Calls (.registration e p) (.serve l m (.run rest n))
  | signalRelease {l : LoopId} {p : SignalPoint} :
    Calls (.signal l p) (.release l.factory (.signalWorkers l.seat.rank))

/-- **A procedure that nobody called**: what a client calls, and what an executor
runs. -/
def isRoot : Frame → Bool
  | .create .. | .connect .. | .close .. | .release .. | .serve .. => true
  | _ => false

/-- **What a procedure knows at its point**, whatever stands on it. -/
def Knows (s : Store) : Frame → Prop
  | .start l p =>
    match p with
    | .announce => s.Started l
    | .leave r => r = .ok () → s.Started l
    | _ => True
  | .close .. => True
  | .submit l j p =>
    j.Placed s l ∧ match p with
      | .start | .starting | .refuse _ | .refused _ => True
      | _ => s.Started l
  | .signal l p =>
    s.Told l.factory l.seat.rank ∧ match p with
      | .raise => True
      | _ => s.ShutDown l
  | .serve l _ p =>
    match p with
    | .run batch _ => ∀ j ∈ batch, j.Placed s l
    | .discard rest _ => (∀ j ∈ rest, j.Placed s l) ∧ s.ShutDown l
    | .takeQueueLast | .takeRest | .markExited _ | .announceExit _ => s.ShutDown l
    | _ => True
  | .attempt e _ _ | .registration e _ | .drop e _ => s.Has e
  | .create f p =>
    match p with
    | .count w _ | .announceBound w _ | .enroll w _ => s.Started ⟨f, .worker w⟩
    | .submit e | .submitting e | .announce e => s.Has e
    | _ => True
  | .connect e _ p =>
    match p with
    | .takeStatus => True
    | _ => s.Has e
  | .release f p =>
    match p with
    | .announceWorkers | .terminate _ | .announceEnd => s.AllTold f
    | _ => True

/-- **What a procedure knows once what it called has returned.** A release then
knows that one loop more has been told. -/
def Resumed (s : Store) : Frame → Prop
  | .release f (.signalWorkers i) => s.Told f (i + 1)
  | _ => True

/-- **The stack below a procedure is in order.** -/
def Below (s : Store) : Frame → List Frame → Prop
  | callee, [] => callee.isRoot = true
  | callee, caller :: rest => Calls callee caller ∧ caller.Knows s ∧ caller.Below s rest

end Frame

/-- **The stack of a thread is in order.** -/
def Control.Sound (s : Store) : Control → Prop
  | .finished _ => True
  | .running [] => False
  | .running (fr :: below) => fr.Knows s ∧ fr.Resumed s ∧ fr.Below s below

/-- **The store is in order.** -/
structure Store.Sound (s : Store) : Prop where
  /-- An endpoint is bound to a worker that has been started. -/
  bound : ∀ {e : EndpointId} {r : Endpoint}, s.endpoints[e]? = some r → s.Started r.home
  /-- Jobs are queued where they belong. -/
  placed : ∀ {id : LoopId} {l : Loop}, s.loop? id = some l → ∀ j ∈ l.queue.toList, j.Placed s id
  /-- Nothing is queued on a loop that has not been started. -/
  used : ∀ {id : LoopId} {l : Loop}, s.loop? id = some l → l.queue ≠ #[] → l.started = true
  /-- The boss is told to end before the workers, and these one after the other. -/
  order : ∀ {id : LoopId}, s.ShutDown id → s.Told id.factory id.seat.rank

/-! ## What is known stays known -/

namespace Store.Grows

variable {s s' : Store}

theorem knows (h : s.Grows s') {fr : Frame} (hk : fr.Knows s) : fr.Knows s' := by
  cases fr with
  | start l p =>
    cases p with
    | announce => exact h.started hk
    | leave r => exact fun hr => h.started (hk hr)
    | _ => trivial
  | close => trivial
  | submit l j p => exact ⟨h.placed hk.1, by cases p <;> first | trivial | exact h.started hk.2⟩
  | signal l p => exact ⟨h.told hk.1, by cases p <;> first | trivial | exact h.shutDown hk.2⟩
  | serve l m p =>
    cases p with
    | run batch n => exact fun j hj => h.placed (hk j hj)
    | discard rest n => exact ⟨fun j hj => h.placed (hk.1 j hj), h.shutDown hk.2⟩
    | _ => first | trivial | exact h.shutDown hk
  | attempt | registration | drop => exact h.has hk
  | create f p => cases p <;> first | trivial | exact h.started hk | exact h.has hk
  | connect e a p => cases p <;> first | trivial | exact h.has hk
  | release f p => cases p <;> first | trivial | exact h.allTold hk

theorem resumed (h : s.Grows s') {fr : Frame} (hr : fr.Resumed s) : fr.Resumed s' := by
  unfold Frame.Resumed at hr ⊢
  split at hr
  · exact h.told hr
  · trivial

theorem below (h : s.Grows s') {fr : Frame} {below : List Frame} (hb : fr.Below s below) :
    fr.Below s' below := by
  induction below generalizing fr with
  | nil => exact hb
  | cons caller rest ih => exact ⟨hb.1, h.knows hb.2.1, ih hb.2.2⟩

theorem control (h : s.Grows s') {c : Control} (hc : c.Sound s) : c.Sound s' := by
  match c, hc with
  | .finished _, _ => trivial
  | .running (_ :: _), hc => exact ⟨h.knows hc.1, h.resumed hc.2.1, h.below hc.2.2⟩

end Store.Grows

/-- A loop of the store with a new factory is an old one, or an idle one of that
factory. -/
theorem Store.loop?_of_build {s : Store} {b : Blueprint} {id : LoopId} {l : Loop}
    (hl : (s.build b).loop? id = some l) : s.loop? id = some l ∨ ∃ p v x, l = .idle p v x := by
  rw [loop?, build, Array.getElem?_push] at hl
  split at hl
  · -- the loops of the new factory are the idle ones it was made with
    right
    rw [Option.bind_some] at hl
    cases hst : id.seat with
    | boss =>
      rw [hst] at hl
      cases hb : b.staffing <;> simp [Factory.loop?, Factory.ofBlueprint, hb] at hl
      exact ⟨_, _, _, hl.symm⟩
    | worker i =>
      rw [hst] at hl
      simp only [Factory.loop?, Factory.ofBlueprint, Array.getElem?_replicate] at hl
      split at hl
      · exact ⟨_, _, _, (Option.some.inj hl).symm⟩
      · simp at hl
  · exact .inl hl

namespace Store.Sound

variable {s s' : Store}

/-- The store stays in order when no loop changes and no endpoint is added. -/
theorem congr (h : s.Sound) (hg : s.Grows s') (hl : ∀ id, s'.loop? id = s.loop? id)
    (he : ∀ (e : EndpointId) (r' : Endpoint), s'.endpoints[e]? = some r' →
      ∃ r : Endpoint, s.endpoints[e]? = some r ∧ r'.home = r.home) :
    s'.Sound where
  bound := fun hr' => by
    obtain ⟨r, hr, heq⟩ := he _ _ hr'
    exact heq ▸ hg.started (h.bound hr)
  placed := fun hl' j hj => hg.placed (h.placed (hl _ ▸ hl') j hj)
  used := fun hl' => h.used (hl _ ▸ hl')
  order := fun ⟨l, hl', hu⟩ => hg.told (h.order ⟨l, hl _ ▸ hl', hu⟩)

@[simp] theorem giveLock_iff {k : Lock} : (s.giveLock k).Sound ↔ s.Sound :=
  ⟨fun h => ⟨h.bound, h.placed, h.used, h.order⟩, fun h => ⟨h.bound, h.placed, h.used, h.order⟩⟩

@[simp] theorem takeLock_iff {k : Lock} {t : ThreadId} : (s.takeLock k t).Sound ↔ s.Sound :=
  ⟨fun h => ⟨h.bound, h.placed, h.used, h.order⟩, fun h => ⟨h.bound, h.placed, h.used, h.order⟩⟩

theorem setStatus (h : s.Sound) (e : EndpointId) (st : Status) : (s.setStatus e st).Sound := by
  refine h.congr (s.grows_setStatus e st) (fun _ => rfl) fun e' r' hr' => ?_
  simp only [Store.setStatus, Array.getElem?_modify] at hr'
  split at hr'
  · obtain ⟨r, hr, rfl⟩ := Option.map_eq_some_iff.mp hr'
    exact ⟨r, hr, rfl⟩
  · exact ⟨r', hr', rfl⟩

/-- The store stays in order when a factory only counts. -/
theorem modifyFactory (h : s.Sound) (f : FactoryId) {g : Factory → Factory}
    (hg : ∀ fac : Factory, fac.Grows (g fac))
    (hl : ∀ (fac : Factory) (st : Seat), (g fac).loop? st = fac.loop? st) :
    (s.modifyFactory f g).Sound := by
  refine h.congr (s.grows_modifyFactory f hg) (fun id => ?_) fun e r hr => ⟨r, hr, rfl⟩
  simp only [loop?, Store.modifyFactory, Array.getElem?_modify]
  split
  · cases s.factories[id.factory]? <;> simp [hl]
  · rfl

theorem enroll (h : s.Sound) {f : FactoryId} {w : Nat} (n : UInt64)
    (hw : s.Started ⟨f, .worker w⟩) : (s.enroll f w n).Sound where
  bound := fun {e r} hr => by
    rw [Store.enroll, Array.getElem?_push] at hr
    split at hr
    · obtain rfl := Option.some.inj hr
      exact hw
    · exact h.bound hr
  placed := fun hl j hj => (s.grows_enroll f w n).placed (h.placed hl j hj)
  used := h.used
  order := fun hu => (s.grows_enroll f w n).told (h.order hu)

/-- The store stays in order when a loop changes, if what is new in its queue
belongs there and what comes before it has been told to end. -/
theorem modifyLoop (h : s.Sound) {id : LoopId} {l : Loop} (hl : s.loop? id = some l)
    {k : Loop → Loop} (hg : ∀ l : Loop, l.Grows (k l))
    (hq : ∀ j ∈ (k l).queue.toList, j ∈ l.queue.toList ∨ j.Placed s id)
    (hu : (k l).queue ≠ #[] → (k l).started = true)
    (ho : (k l).shutDown = true → l.shutDown = true ∨ s.Told id.factory id.seat.rank) :
    (s.modifyLoop id k).Sound := by
  have hgrows := s.grows_modifyLoop id hg
  -- a loop of the new store is the one that changed, or is an old one
  have hloop {id' : LoopId} {l' : Loop} (hl' : (s.modifyLoop id k).loop? id' = some l') :
      (id = id' ∧ l' = k l) ∨ s.loop? id' = some l' := by
    rw [loop?_modifyLoop] at hl'
    split at hl'
    · rename_i heq
      rw [← heq, hl] at hl'
      exact .inl ⟨heq, (Option.some.inj hl').symm⟩
    · exact .inr hl'
  refine ⟨fun hr => hgrows.started (h.bound hr), fun hl' j hj => ?_, fun hl' hne => ?_, ?_⟩
  · rcases hloop hl' with ⟨rfl, rfl⟩ | hl'
    · rcases hq j hj with hold | hnew
      · exact hgrows.placed (h.placed hl j hold)
      · exact hgrows.placed hnew
    · exact hgrows.placed (h.placed hl' j hj)
  · rcases hloop hl' with ⟨rfl, rfl⟩ | hl'
    · exact hu hne
    · exact h.used hl' hne
  · rintro id' ⟨l', hl', hd⟩
    refine hgrows.told ?_
    rcases hloop hl' with ⟨rfl, rfl⟩ | hl'
    · rcases ho hd with hold | hnew
      · exact h.order ⟨l, hl, hold⟩
      · exact hnew
    · exact h.order ⟨l', hl', hd⟩

theorem build (h : s.Sound) (b : Blueprint) : (s.build b).Sound := by
  have hgrows := s.grows_build b
  refine ⟨fun hr => hgrows.started (h.bound hr), fun hl j hj => ?_, fun hl hne => ?_, ?_⟩
  · rcases loop?_of_build hl with hl | ⟨p, v, x, rfl⟩
    · exact hgrows.placed (h.placed hl j hj)
    · simp [Loop.idle] at hj
  · rcases loop?_of_build hl with hl | ⟨p, v, x, rfl⟩
    · exact h.used hl hne
    · simp [Loop.idle] at hne
  · rintro id ⟨l, hl, hu⟩
    rcases loop?_of_build hl with hl | ⟨p, v, x, rfl⟩
    · exact hgrows.told (h.order ⟨l, hl, hu⟩)
    · simp [Loop.idle] at hu

theorem empty : Store.empty.Sound := by
  refine ⟨fun h => ?_, fun h => ?_, fun h => ?_, ?_⟩
  · simp [Store.empty] at h
  · simp [Store.empty, loop?] at h
  · simp [Store.empty, loop?] at h
  · rintro id ⟨l, h, -⟩
    simp [Store.empty, loop?] at h

end Store.Sound

end EndpointControl
