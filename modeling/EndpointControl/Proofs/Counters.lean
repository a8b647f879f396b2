import EndpointControl.Proofs.Passage

/-!
# The counters

Each worker counts the endpoints that have been bound to it and those that it has
registered, and a boss counts the attempts it has accepted. Each of these counters
is touched at one point of one procedure only, and goes up by one there, and
endpoints come about at one point only (`Control.counts_of_act`). So no counter ever
goes down, nor up by more than one (`Counts.ticks`).
-/

namespace EndpointControl

namespace Store

/-- The worker on a seat. -/
def worker? (s : Store) (f : FactoryId) (w : Nat) : Option Worker :=
  s.factories[f]?.bind (·.workers[w]?)

/-- How many endpoints the worker on this seat has registered. -/
def registered (s : Store) (f : FactoryId) (w : Nat) : Nat :=
  ((s.worker? f w).map Worker.registered).getD 0

/-- How many endpoints have been bound to the worker on this seat. -/
def assigned (s : Store) (f : FactoryId) (w : Nat) : Nat :=
  ((s.worker? f w).map Worker.assigned).getD 0

/-- How many attempts the boss of the factory has accepted. -/
def attempts (s : Store) (f : FactoryId) : Nat :=
  ((s.factories[f]?.bind Factory.boss).map Boss.attempts).getD 0

/-- **No counter changes**, and no endpoint comes about. -/
structure SameCounters (s s' : Store) : Prop where
  registered : ∀ f w, s'.registered f w = s.registered f w
  assigned : ∀ f w, s'.assigned f w = s.assigned f w
  attempts : ∀ f, s'.attempts f = s.attempts f
  bindings : s.SameBindings s'

theorem SameCounters.of_factories {s s' : Store} (h : s'.factories = s.factories)
    (hb : s.SameBindings s') : s.SameCounters s' where
  registered := fun f w => by rw [Store.registered, Store.registered, worker?, worker?, h]
  assigned := fun f w => by rw [Store.assigned, Store.assigned, worker?, worker?, h]
  attempts := fun f => by rw [Store.attempts, Store.attempts, h]
  bindings := hb

theorem SameCounters.of_eq {s s' : Store} (h : s'.factories = s.factories)
    (he : s'.endpoints = s.endpoints) : s.SameCounters s' :=
  .of_factories h fun _ => by rw [he]

theorem SameCounters.refl (s : Store) : s.SameCounters s := .of_eq rfl rfl

theorem SameCounters.giveLock {s s' : Store} {lk : Lock} (h : s.SameCounters s') :
    s.SameCounters (s'.giveLock lk) :=
  ⟨h.registered, h.assigned, h.attempts, h.bindings⟩

/-- **Each counter stays, or goes up by one.** -/
structure Ticks (s s' : Store) : Prop where
  registered : ∀ f w,
    s'.registered f w = s.registered f w ∨ s'.registered f w = s.registered f w + 1
  assigned : ∀ f w, s'.assigned f w = s.assigned f w ∨ s'.assigned f w = s.assigned f w + 1
  attempts : ∀ f, s'.attempts f = s.attempts f ∨ s'.attempts f = s.attempts f + 1

theorem SameCounters.ticks {s s' : Store} (h : s.SameCounters s') : s.Ticks s' where
  registered f w := .inl (h.registered f w)
  assigned f w := .inl (h.assigned f w)
  attempts f := .inl (h.attempts f)

variable (s : Store)

/-- What a change of one factory does to the workers. -/
theorem worker?_modifyFactory (f f' : FactoryId) (k : Factory → Factory) (w : Nat) :
    (s.modifyFactory f k).worker? f' w = if f = f' then
      (s.factories[f']?).bind fun fac => (k fac).workers[w]? else s.worker? f' w := by
  simp only [worker?, modifyFactory, Array.getElem?_modify]
  split
  · cases s.factories[f']? <;> rfl
  · rfl

/-- **Changing a worker changes that worker and no other.** -/
theorem worker?_modifyWorker (f f' : FactoryId) (w w' : Nat) (k : Worker → Worker) :
    (s.modifyFactory f fun fac => fac.modifyWorker w k).worker? f' w'
      = if (⟨f, .worker w⟩ : LoopId) = ⟨f', .worker w'⟩ then (s.worker? f' w').map k
        else s.worker? f' w' := by
  rw [worker?_modifyFactory, worker?]
  -- the same factory and the same worker, or one that is left alone
  by_cases hf : f = f'
  · subst hf
    by_cases hw : w = w'
    · subst hw
      cases s.factories[f]? <;> simp [Factory.modifyWorker, Array.getElem?_modify]
    · cases s.factories[f]? <;> simp [Factory.modifyWorker, Array.getElem?_modify, hw]
  · simp [hf]

/-- One more with a worker is one more there, and nothing elsewhere. -/
theorem tick_modifyWorker {p : Worker → Nat} {k : Worker → Worker} (hk : ∀ x, p (k x) = p x + 1)
    (f f' : FactoryId) (w w' : Nat) :
    let s' := s.modifyFactory f fun fac => fac.modifyWorker w k
    ((s'.worker? f' w').map p).getD 0 = ((s.worker? f' w').map p).getD 0
      ∨ ((s'.worker? f' w').map p).getD 0 = ((s.worker? f' w').map p).getD 0 + 1 := by
  intro s'
  rw [show s'.worker? f' w' = _ from s.worker?_modifyWorker f f' w w' k]
  split
  · cases s.worker? f' w' with
    | none => exact .inl rfl
    | some x => exact .inr (hk x)
  · exact .inl rfl

theorem attempts_modifyFactory (f f' : FactoryId) (k : Factory → Factory) :
    (s.modifyFactory f k).attempts f' = if f = f' then
      (((s.factories[f']?).bind fun fac => (k fac).boss).map Boss.attempts).getD 0
      else s.attempts f' := by
  simp only [Store.attempts, modifyFactory, Array.getElem?_modify]
  split
  · cases s.factories[f']? <;> rfl
  · rfl

/-- One more with a boss is one more there, and nothing elsewhere. -/
theorem tick_modifyBoss (f f' : FactoryId) :
    let s' := s.modifyFactory f fun fac =>
      fac.modifyBoss fun b => { b with attempts := b.attempts + 1 }
    s'.attempts f' = s.attempts f' ∨ s'.attempts f' = s.attempts f' + 1 := by
  intro s'
  rw [show s'.attempts f' = _ from s.attempts_modifyFactory f f' _, Store.attempts]
  split
  · cases s.factories[f']? with
    | none => exact .inl rfl
    | some fac => cases hb : fac.boss <;> simp [Factory.modifyBoss, hb]
  · exact .inl rfl

/-- A change that leaves what each worker counts alone. -/
theorem map_worker?_modifyFactory {p : Worker → Nat} (f : FactoryId) {k : Factory → Factory}
    (h : ∀ (fac : Factory) (w : Nat), ((k fac).workers[w]?).map p = (fac.workers[w]?).map p)
    (f' : FactoryId) (w : Nat) :
    ((s.modifyFactory f k).worker? f' w).map p = (s.worker? f' w).map p := by
  rw [worker?_modifyFactory, worker?]
  cases s.factories[f']? <;> split <;> simp [h]

theorem attempts_modifyFactory_of (f : FactoryId) {k : Factory → Factory}
    (h : ∀ fac, (k fac).boss.map Boss.attempts = fac.boss.map Boss.attempts) (f' : FactoryId) :
    (s.modifyFactory f k).attempts f' = s.attempts f' := by
  rw [attempts_modifyFactory, Store.attempts]
  cases s.factories[f']? <;> simp [h]

/-- A change that leaves the counters of each factory alone. -/
theorem sameCounters_modifyFactory (f : FactoryId) {k : Factory → Factory}
    (hr : ∀ (fac : Factory) (w : Nat),
      ((k fac).workers[w]?).map Worker.registered = (fac.workers[w]?).map Worker.registered)
    (ha : ∀ (fac : Factory) (w : Nat),
      ((k fac).workers[w]?).map Worker.assigned = (fac.workers[w]?).map Worker.assigned)
    (hb : ∀ fac, (k fac).boss.map Boss.attempts = fac.boss.map Boss.attempts) :
    s.SameCounters (s.modifyFactory f k) :=
  ⟨fun f' w => by rw [registered, s.map_worker?_modifyFactory f hr f' w, registered],
    fun f' w => by rw [assigned, s.map_worker?_modifyFactory f ha f' w, assigned],
    s.attempts_modifyFactory_of f hb, fun _ => rfl⟩

theorem sameCounters_modifyLoop (l : LoopId) (k : Loop → Loop) :
    s.SameCounters (s.modifyLoop l k) := by
  refine s.sameCounters_modifyFactory l.factory (fun fac w => ?_) (fun fac w => ?_) fun fac => ?_
  all_goals cases l.seat with
  | boss => first | rfl | cases h : fac.boss <;> simp [Factory.modifyLoop, h]
  | worker i =>
    first
    | rfl
    | simp only [Factory.modifyLoop, Array.getElem?_modify]
      split
      · cases fac.workers[w]? <;> rfl
      · rfl

/-- A new factory has counted nothing. -/
theorem sameCounters_build (b : Blueprint) : s.SameCounters (s.build b) := by
  have hnew (w : Nat) : (((Factory.ofBlueprint b).workers[w]?).map Worker.registered).getD 0 = 0
      ∧ (((Factory.ofBlueprint b).workers[w]?).map Worker.assigned).getD 0 = 0 := by
    simp only [Factory.ofBlueprint, Array.getElem?_replicate]
    split <;> exact ⟨rfl, rfl⟩
  have hboss : ((Factory.ofBlueprint b).boss.map Boss.attempts).getD 0 = 0 := by
    unfold Factory.ofBlueprint
    cases b.staffing <;> rfl
  refine ⟨fun f w => ?_, fun f w => ?_, fun f => ?_, fun _ => rfl⟩
  · simp only [Store.registered, worker?, build, Array.getElem?_push]
    split
    · rename_i h
      simpa [h] using (hnew w).1
    · rfl
  · simp only [Store.assigned, worker?, build, Array.getElem?_push]
    split
    · rename_i h
      simpa [h] using (hnew w).2
    · rfl
  · simp only [Store.attempts, build, Array.getElem?_push]
    split
    · rename_i h
      simpa [h] using hboss
    · rfl

/-- **Counting a registration** is counting one with this worker. -/
theorem registered_count {f : FactoryId} {w : Nat} (h : (s.worker? f w).isSome)
    (f' : FactoryId) (w' : Nat) :
    (s.modifyFactory f fun fac =>
      fac.modifyWorker w fun x => { x with registered := x.registered + 1 }).registered f' w'
      = s.registered f' w' + if (⟨f, .worker w⟩ : LoopId) = ⟨f', .worker w'⟩ then 1 else 0 := by
  obtain ⟨x, hx⟩ := Option.isSome_iff_exists.mp h
  rw [registered, worker?_modifyWorker, registered]
  split
  · rename_i heq
    obtain ⟨rfl, hw⟩ := LoopId.mk.inj heq
    obtain rfl := Seat.worker.inj hw
    simp [hx]
  · rfl

theorem assigned_count {f : FactoryId} {w : Nat} (h : (s.worker? f w).isSome)
    (f' : FactoryId) (w' : Nat) :
    (s.modifyFactory f fun fac =>
      fac.modifyWorker w fun x => { x with assigned := x.assigned + 1 }).assigned f' w'
      = s.assigned f' w' + if (⟨f, .worker w⟩ : LoopId) = ⟨f', .worker w'⟩ then 1 else 0 := by
  obtain ⟨x, hx⟩ := Option.isSome_iff_exists.mp h
  rw [assigned, worker?_modifyWorker, assigned]
  split
  · rename_i heq
    obtain ⟨rfl, hw⟩ := LoopId.mk.inj heq
    obtain rfl := Seat.worker.inj hw
    simp [hx]
  · rfl

/-- The worker that a loop belongs to exists. -/
theorem Started.isSome_worker? {s : Store} {f : FactoryId} {w : Nat}
    (h : s.Started ⟨f, .worker w⟩) : (s.worker? f w).isSome := by
  obtain ⟨l, hl, -⟩ := h
  obtain ⟨fac, hfac, hl⟩ := Option.bind_eq_some_iff.mp hl
  obtain ⟨x, hx, -⟩ := Option.map_eq_some_iff.mp hl
  rw [worker?, hfac, Option.bind_some, hx, Option.isSome_some]

theorem attempts_count {f : FactoryId} (h : (s.loop? ⟨f, .boss⟩).isSome) (f' : FactoryId) :
    (s.modifyFactory f fun fac =>
      fac.modifyBoss fun b => { b with attempts := b.attempts + 1 }).attempts f'
      = s.attempts f' + if f = f' then 1 else 0 := by
  obtain ⟨l, hl⟩ := Option.isSome_iff_exists.mp h
  obtain ⟨fac, hfac, hl⟩ := Option.bind_eq_some_iff.mp hl
  obtain ⟨b, hb, -⟩ := Option.map_eq_some_iff.mp hl
  rw [attempts_modifyFactory, Store.attempts]
  by_cases hf : f = f'
  · subst hf
    simp [hfac, Factory.modifyBoss, hb]
  · simp [hf]

end Store

/-! ## What a step counts -/

/-- **What one step does to the counters**, if it does anything: three points of
all procedures count, and at one an endpoint comes about. -/
inductive Counts (s : Store) : Control → (s' : Store) → Prop where
  | nothing {c : Control} {s' : Store} (h : s.SameCounters s') : Counts s c s'
  | registered {e : EndpointId} {r : Endpoint} {below : List Frame}
    (found : s.endpoints[e]? = some r) :
    Counts s (.running (.registration e .count :: below)) (s.modifyFactory r.factory fun f =>
      f.modifyWorker r.worker fun w => { w with registered := w.registered + 1 })
  | assigned {f : FactoryId} {w : Nat} {n : UInt64} {below : List Frame} :
    Counts s (.running (.create f (.count w n) :: below)) (s.modifyFactory f fun f =>
      f.modifyWorker w fun w => { w with assigned := w.assigned + 1 })
  | attempts {e : EndpointId} {r : Endpoint} {a : Address} {below : List Frame}
    (found : s.endpoints[e]? = some r) :
    Counts s (.running (.connect e a .count :: below)) (s.modifyFactory r.factory fun f =>
      f.modifyBoss fun b => { b with attempts := b.attempts + 1 })
  | enrolled {f : FactoryId} {w : Nat} {n : UInt64} {below : List Frame} :
    Counts s (.running (.create f (.enroll w n) :: below)) (s.enroll f w n)

section Procedures

variable {s : Store} {t : ThreadId} {below : List Frame} {g : Store → Store} {c : Control}
  {ns : List Note}

theorem StartPoint.sameCounters {id : LoopId} {l : Loop} {p : StartPoint}
    (h : p.move s t below id l = .act g c ns) : s.SameCounters (g s) := by
  cases p <;> simp [StartPoint.move] at h
  case takeSlot => exact h.2.1 ▸ .of_eq rfl rfl
  case fillSlot m => exact h.1 ▸ s.sameCounters_modifyLoop ..
  case mark => exact h.1 ▸ s.sameCounters_modifyLoop ..
  all_goals exact h.1 ▸ .of_eq rfl rfl

theorem SubmitPoint.sameCounters {id : LoopId} {l : Loop} {j : Job} {p : SubmitPoint}
    (h : p.move s t below id l j = .act g c ns) : s.SameCounters (g s) := by
  cases p <;> simp [SubmitPoint.move] at h
  case takeSlot => exact h.2.1 ▸ .of_eq rfl rfl
  case takeQueue m => exact h.2.1 ▸ .of_eq rfl rfl
  case append m =>
    exact h.1 ▸ (s.sameCounters_modifyLoop id _).giveLock
  case serialize m =>
    split at h <;> simp at h
    · exact h.2.1 ▸ .of_eq rfl rfl
    · exact h.1 ▸ .refl s
  case leave =>
    split at h <;> simp at h <;> exact h.1 ▸ .of_eq rfl rfl
  all_goals exact h.1 ▸ .of_eq rfl rfl

theorem SignalPoint.sameCounters {id : LoopId} {l : Loop} {p : SignalPoint}
    (h : p.move s t below id l = .act g c ns) : s.SameCounters (g s) := by
  cases p <;> simp [SignalPoint.move] at h
  case raise => exact h.1 ▸ s.sameCounters_modifyLoop ..
  case takeSlot => exact h.2.1 ▸ .of_eq rfl rfl
  all_goals exact h.1 ▸ .of_eq rfl rfl

theorem ServePoint.sameCounters {id : LoopId} {l : Loop} {m : Multiplexer} {p : ServePoint}
    (h : p.move s t below id l m = .act g c ns) : s.SameCounters (g s) := by
  have htake {lk : Lock} :
      s.SameCounters ((s.modifyLoop id fun l => { l with queue := #[] }).giveLock lk) :=
    (s.sameCounters_modifyLoop id _).giveLock
  cases p
  case run batch n => cases batch <;> simp [ServePoint.move] at h <;> exact h.1 ▸ .refl s
  case report n => cases n <;> simp [ServePoint.move] at h <;> exact h.1 ▸ .refl s
  case discard rest n => cases rest <;> simp [ServePoint.move] at h <;> exact h.1 ▸ .refl s
  all_goals simp [ServePoint.move] at h
  case serialize =>
    split at h <;> simp at h
    · exact h.2.1 ▸ .of_eq rfl rfl
    · exact h.1 ▸ .refl s
  case takeQueue => exact h.2.1 ▸ .of_eq rfl rfl
  case takeQueueLast => exact h.2.1 ▸ .of_eq rfl rfl
  case takeBatch => exact h.1 ▸ htake
  case takeRest => exact h.1 ▸ htake
  case endTurn n => split at h <;> simp at h <;> exact h.1 ▸ .of_eq rfl rfl
  case markExited n => exact h.1 ▸ s.sameCounters_modifyLoop ..
  all_goals exact h.1 ▸ .refl s

theorem AttemptPoint.sameCounters {id : EndpointId} {r : Endpoint} {a : Address}
    {p : AttemptPoint} (h : p.move below id r a = .act g c ns) : s.SameCounters (g s) := by
  cases p <;> simp [AttemptPoint.move] at h <;> exact h.1 ▸ .refl s

theorem DropPoint.sameCounters {id : EndpointId} {r : Endpoint} {p : DropPoint}
    (h : p.move s t below id r = .act g c ns) : s.SameCounters (g s) := by
  cases p <;> simp [DropPoint.move] at h
  · exact h.2.1 ▸ .of_eq rfl rfl
  · exact h.1 ▸ .of_factories rfl (s.sameBindings_setStatus _ _)

theorem ClosePoint.sameCounters {id : EndpointId} {r : Endpoint} {p : ClosePoint}
    (h : p.move s t below id r = .act g c ns) : s.SameCounters (g s) := by
  cases p <;> simp [ClosePoint.move] at h
  · exact h.2.1 ▸ .of_eq rfl rfl
  · exact h.1 ▸ .of_factories rfl (s.sameBindings_setStatus _ _)

theorem ReleasePoint.sameCounters {id : FactoryId} {f : Factory} {p : ReleasePoint}
    (h : p.move below id f = .act g c ns) : s.SameCounters (g s) := by
  cases p <;> simp [ReleasePoint.move] at h
  case raise =>
    exact h.1 ▸ s.sameCounters_modifyFactory _ (fun _ _ => rfl) (fun _ _ => rfl) fun _ => rfl
  case signalWorkers i => split at h <;> simp at h <;> exact h.1 ▸ .refl s
  case terminate u => split at h <;> simp at h <;> exact h.1 ▸ .refl s
  all_goals exact h.1 ▸ .refl s

theorem RegistrationPoint.counts {id : EndpointId} {r : Endpoint} {p : RegistrationPoint}
    (found : s.endpoints[id]? = some r) (h : p.move s t below id r = .act g c ns) :
    Counts s (.running (.registration id p :: below)) (g s) := by
  cases p <;> simp [RegistrationPoint.move] at h
  case count => exact h.1 ▸ .registered found
  case takeStatus => exact .nothing (h.2.1 ▸ .of_eq rfl rfl)
  case mark => exact .nothing (h.1 ▸ .of_factories rfl (s.sameBindings_setStatus _ _))
  case announce => exact .nothing (h.1 ▸ .refl s)

theorem CreatePoint.counts {id : FactoryId} {f : Factory} {p : CreatePoint}
    (h : p.move s below id f = .act g c ns) :
    Counts s (.running (.create id p :: below)) (g s) := by
  cases p <;> simp [CreatePoint.move] at h
  case count w n => exact h.1 ▸ .assigned
  -- the two cursors of a factory count nobody
  case pickWorker | drawNumber =>
    refine .nothing ?_
    exact h.1 ▸ s.sameCounters_modifyFactory _ (fun _ _ => rfl) (fun _ _ => rfl) fun _ => rfl
  case enroll w n => exact h.1 ▸ .enrolled
  case submit e => split at h <;> simp at h; exact .nothing (h.1 ▸ .refl s)
  case announce e => split at h <;> simp at h; exact .nothing (h.1 ▸ .refl s)
  all_goals exact .nothing (h.1 ▸ .of_eq rfl rfl)

theorem ConnectPoint.counts {id : EndpointId} {r : Endpoint} {a : Address} {p : ConnectPoint}
    (found : s.endpoints[id]? = some r) (h : p.move s t below id r a = .act g c ns) :
    Counts s (.running (.connect id a p :: below)) (g s) := by
  cases p <;> simp [ConnectPoint.move] at h
  case count => exact h.1 ▸ .attempts found
  case takeStatus => exact .nothing (h.2.1 ▸ .of_eq rfl rfl)
  case begin =>
    split at h <;> simp at h
    · exact .nothing (h.1 ▸ .of_factories rfl (s.sameBindings_setStatus _ _))
    · exact .nothing (h.1 ▸ .of_eq rfl rfl)
  all_goals exact .nothing (h.1 ▸ .refl s)

end Procedures

/-- **A step counts at most one thing.** -/
theorem Control.counts_of_act {s : Store} {t : ThreadId} {c c' : Control} {g : Store → Store}
    {ns : List Note} (h : c.move s t = .act g c' ns) : Counts s c (g s) := by
  obtain ⟨fr, below, rfl, hm⟩ := moves_of_act h
  cases hm with
  | start found hp => exact .nothing (StartPoint.sameCounters hp)
  | submit found hp => exact .nothing (SubmitPoint.sameCounters hp)
  | signal found hp => exact .nothing (SignalPoint.sameCounters hp)
  | serve found hp => exact .nothing (ServePoint.sameCounters hp)
  | attempt found hp => exact .nothing (AttemptPoint.sameCounters hp)
  | registration found hp => exact RegistrationPoint.counts found hp
  | drop found hp => exact .nothing (DropPoint.sameCounters hp)
  | create found hp => exact CreatePoint.counts hp
  | connect found hp => exact ConnectPoint.counts found hp
  | close found hp => exact .nothing (ClosePoint.sameCounters hp)
  | release found hp => exact .nothing (ReleasePoint.sameCounters hp)

namespace Counts

variable {s s' : Store} {c : Control}

/-- Who is not about to count a registration leaves what has been registered. -/
theorem registered_eq (h : Counts s c s')
    (hc : ∀ e below, c ≠ .running (.registration e .count :: below)) (f : FactoryId) (w : Nat) :
    s'.registered f w = s.registered f w := by
  cases h with
  | nothing h => exact h.registered f w
  | registered found => exact absurd rfl (hc _ _)
  | assigned =>
    rw [Store.registered, Store.worker?_modifyWorker, Store.registered]
    split
    · cases s.worker? f w <;> rfl
    · rfl
  | attempts found =>
    rw [Store.registered, Store.map_worker?_modifyFactory, Store.registered]
    exact fun _ _ => rfl
  | enrolled => rfl

theorem assigned_eq (h : Counts s c s')
    (hc : ∀ f w n below, c ≠ .running (.create f (.count w n) :: below)) (f : FactoryId) (w : Nat) :
    s'.assigned f w = s.assigned f w := by
  cases h with
  | nothing h => exact h.assigned f w
  | assigned => exact absurd rfl (hc _ _ _ _)
  | registered found =>
    rw [Store.assigned, Store.worker?_modifyWorker, Store.assigned]
    split
    · cases s.worker? f w <;> rfl
    · rfl
  | attempts found =>
    rw [Store.assigned, Store.map_worker?_modifyFactory, Store.assigned]
    exact fun _ _ => rfl
  | enrolled => rfl

theorem attempts_eq (h : Counts s c s')
    (hc : ∀ e a below, c ≠ .running (.connect e a .count :: below)) (f : FactoryId) :
    s'.attempts f = s.attempts f := by
  cases h with
  | nothing h => exact h.attempts f
  | attempts found => exact absurd rfl (hc _ _ _)
  | registered found =>
    rw [Store.attempts_modifyFactory_of]
    exact fun _ => rfl
  | assigned =>
    rw [Store.attempts_modifyFactory_of]
    exact fun _ => rfl
  | enrolled => rfl

/-- **A step counts one at most**, with each counter. -/
theorem ticks (h : Counts s c s') : s.Ticks s' := by
  have h' := h
  cases h with
  | nothing h => exact h.ticks
  | registered found =>
    exact ⟨fun f' w' => s.tick_modifyWorker (fun _ => rfl) _ f' _ w',
      fun f w => .inl (h'.assigned_eq (by simp) f w), fun f => .inl (h'.attempts_eq (by simp) f)⟩
  | assigned =>
    exact ⟨fun f w => .inl (h'.registered_eq (by simp) f w),
      fun f' w' => s.tick_modifyWorker (fun _ => rfl) _ f' _ w',
      fun f => .inl (h'.attempts_eq (by simp) f)⟩
  | attempts found =>
    exact ⟨fun f w => .inl (h'.registered_eq (by simp) f w),
      fun f w => .inl (h'.assigned_eq (by simp) f w), s.tick_modifyBoss _⟩
  | enrolled =>
    exact ⟨fun f w => .inl (h'.registered_eq (by simp) f w),
      fun f w => .inl (h'.assigned_eq (by simp) f w), fun f => .inl (h'.attempts_eq (by simp) f)⟩

theorem bindings (h : Counts s c s')
    (hc : ∀ f w n below, c ≠ .running (.create f (.enroll w n) :: below)) : s.SameBindings s' := by
  cases h with
  | nothing h => exact h.bindings
  | enrolled => exact absurd rfl (hc _ _ _ _)
  | _ => exact fun _ => rfl

end Counts

end EndpointControl
