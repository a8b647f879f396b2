import EndpointControl.Thread.Machine

/-!
# What never goes back

A store only grows. Factories and endpoints are added and never taken away, a
factory keeps its staff and its terms, an endpoint keeps the worker it is bound
to, and the flags of a loop rise and never fall. What a step does change – a
queue, a slot, a counter, a status, a lock – is left open here.

This is what lets facts about one thread survive the steps of the others:
whatever is stated in terms of flags that are up and of names that lead somewhere
stays true (`Store.Grows`), so only the thread that moves has to be looked at.
-/

namespace EndpointControl

/-! ## Loops and factories -/

/-- **A loop, and the same loop later.** -/
structure Loop.Grows (l l' : Loop) : Prop where
  provider : l'.provider = l.provider
  level : l'.level = l.level
  executor : l'.executor = l.executor
  started : l.started = true → l'.started = true
  shutDown : l.shutDown = true → l'.shutDown = true
  exited : l.exited = true → l'.exited = true

theorem Loop.Grows.refl (l : Loop) : l.Grows l := ⟨rfl, rfl, rfl, id, id, id⟩

theorem Loop.Grows.trans {a b c : Loop} (h : a.Grows b) (k : b.Grows c) : a.Grows c where
  provider := k.provider.trans h.provider
  level := k.level.trans h.level
  executor := k.executor.trans h.executor
  started := k.started ∘ h.started
  shutDown := k.shutDown ∘ h.shutDown
  exited := k.exited ∘ h.exited

/-- **A factory, and the same factory later.** -/
structure Factory.Grows (f f' : Factory) : Prop where
  terms : f'.terms = f.terms
  workerExecutor : f'.workerExecutor = f.workerExecutor
  workers : f'.workers.size = f.workers.size
  boss : f'.boss.isSome = f.boss.isSome
  released : f.released = true → f'.released = true
  loop : ∀ {st : Seat} {l : Loop}, f.loop? st = some l → ∃ l', f'.loop? st = some l' ∧ l.Grows l'

theorem Factory.Grows.refl (f : Factory) : f.Grows f :=
  ⟨rfl, rfl, rfl, rfl, id, fun h => ⟨_, h, .refl _⟩⟩

theorem Factory.Grows.trans {a b c : Factory} (h : a.Grows b) (k : b.Grows c) : a.Grows c where
  terms := k.terms.trans h.terms
  workerExecutor := k.workerExecutor.trans h.workerExecutor
  workers := k.workers.trans h.workers
  boss := k.boss.trans h.boss
  released := k.released ∘ h.released
  loop := fun ha => by
    obtain ⟨l, hl, hal⟩ := h.loop ha
    obtain ⟨l', hl', hll⟩ := k.loop hl
    exact ⟨l', hl', hal.trans hll⟩

theorem Factory.isSome_loop? (f : Factory) (st : Seat) :
    (f.loop? st).isSome = match st with
      | .boss => f.boss.isSome
      | .worker i => decide (i < f.workers.size) := by
  cases st with
  | boss => simp [loop?]
  | worker i =>
    by_cases h : i < f.workers.size
    · simp [loop?, h]
    · simp [loop?, h]

/-- A factory gets no loop that it did not have. -/
theorem Factory.Grows.loop_back {f f' : Factory} (h : f.Grows f') {st : Seat} {l' : Loop}
    (hl : f'.loop? st = some l') : ∃ l, f.loop? st = some l ∧ l.Grows l' := by
  have hs : (f.loop? st).isSome = (f'.loop? st).isSome := by
    rw [isSome_loop?, isSome_loop?, h.boss, h.workers]
  rw [hl, Option.isSome_some] at hs
  obtain ⟨l, hf⟩ := Option.isSome_iff_exists.mp hs
  obtain ⟨l'', hl'', hg⟩ := h.loop hf
  rw [hl, Option.some.injEq] at hl''
  exact ⟨l, hf, hl'' ▸ hg⟩

/-- A later factory works with the same executors. -/
theorem Factory.Grows.executors {f f' : Factory} (h : f.Grows f') :
    f'.executors = f.executors := by
  have hb : f'.boss.map (·.loop.executor) = f.boss.map (·.loop.executor) := by
    cases hf : f.boss with
    | none =>
      have := h.boss
      rw [hf, Option.isSome_none, Option.isSome_eq_false_iff, Option.isNone_iff_eq_none] at this
      rw [this]
    | some b =>
      have hb : f.loop? .boss = some b.loop := by simp [loop?, hf]
      obtain ⟨l', hl', hg⟩ := h.loop hb
      obtain ⟨b', hb', rfl⟩ := Option.map_eq_some_iff.mp hl'
      rw [hb', Option.map_some, Option.map_some, hg.executor]
  rw [Factory.executors, Factory.executors, hb, h.workerExecutor]

/-- Changing a loop for a later one makes the factory a later one. -/
theorem Factory.grows_modifyLoop {f : Factory} {st : Seat} {g : Loop → Loop}
    (h : ∀ l : Loop, l.Grows (g l)) : f.Grows (f.modifyLoop st g) where
  terms := by cases st <;> rfl
  workerExecutor := by cases st <;> rfl
  workers := by cases st <;> simp [modifyLoop]
  boss := by cases st <;> simp [modifyLoop]
  released := by cases st <;> exact id
  loop := fun {st'} {l} hl => by
    rw [loop?_modifyLoop, hl]
    split
    · exact ⟨g l, rfl, h l⟩
    · exact ⟨l, rfl, .refl l⟩

/-- Counting with a worker leaves the loops alone. -/
theorem Factory.loop?_modifyWorker (f : Factory) (i : Nat) {g : Worker → Worker}
    (h : ∀ w, (g w).loop = w.loop) (st : Seat) : (f.modifyWorker i g).loop? st = f.loop? st := by
  cases st with
  | boss => rfl
  | worker j =>
    simp only [modifyWorker, loop?, Array.getElem?_modify]
    split
    · cases f.workers[j]? <;> simp [h]
    · rfl

/-- Counting with the boss leaves the loops alone. -/
theorem Factory.loop?_modifyBoss (f : Factory) {g : Boss → Boss} (h : ∀ b, (g b).loop = b.loop)
    (st : Seat) : (f.modifyBoss g).loop? st = f.loop? st := by
  cases st with
  | boss => cases hb : f.boss <;> simp [modifyBoss, loop?, hb, h]
  | worker j => rfl

theorem Factory.grows_modifyWorker {f : Factory} {i : Nat} {g : Worker → Worker}
    (h : ∀ w, (g w).loop = w.loop) : f.Grows (f.modifyWorker i g) where
  terms := rfl
  workerExecutor := rfl
  workers := by simp [modifyWorker]
  boss := rfl
  released := id
  loop := fun hl => ⟨_, (f.loop?_modifyWorker i h _).trans hl, .refl _⟩

theorem Factory.grows_modifyBoss {f : Factory} {g : Boss → Boss}
    (h : ∀ b, (g b).loop = b.loop) : f.Grows (f.modifyBoss g) where
  terms := rfl
  workerExecutor := rfl
  workers := rfl
  boss := by simp [modifyBoss]
  released := id
  loop := fun hl => ⟨_, (f.loop?_modifyBoss h _).trans hl, .refl _⟩

namespace Store

/-! ## Stores -/

/-- **A store, and the store later.** -/
structure Grows (s s' : Store) : Prop where
  factory : ∀ {f : FactoryId} {fac : Factory}, s.factories[f]? = some fac →
    ∃ fac', s'.factories[f]? = some fac' ∧ fac.Grows fac'
  endpoint : ∀ {e : EndpointId} {r : Endpoint}, s.endpoints[e]? = some r →
    ∃ st, s'.endpoints[e]? = some { r with status := st }

theorem Grows.of_eq {s s' : Store} (hf : s'.factories = s.factories)
    (he : s'.endpoints = s.endpoints) : s.Grows s' :=
  ⟨fun h => ⟨_, hf ▸ h, .refl _⟩, fun {_ r} h => ⟨r.status, he ▸ h⟩⟩

theorem Grows.refl (s : Store) : s.Grows s := .of_eq rfl rfl

theorem Grows.trans {a b c : Store} (h : a.Grows b) (k : b.Grows c) : a.Grows c where
  factory := fun ha => by
    obtain ⟨f, hf, hg⟩ := h.factory ha
    obtain ⟨f', hf', hg'⟩ := k.factory hf
    exact ⟨f', hf', hg.trans hg'⟩
  endpoint := fun ha => by
    obtain ⟨st, hb⟩ := h.endpoint ha
    obtain ⟨st', hc⟩ := k.endpoint hb
    exact ⟨st', hc⟩

theorem Grows.loop {s s' : Store} (h : s.Grows s') {id : LoopId} {l : Loop}
    (hl : s.loop? id = some l) : ∃ l', s'.loop? id = some l' ∧ l.Grows l' := by
  obtain ⟨fac, hf, hl⟩ := Option.bind_eq_some_iff.mp hl
  obtain ⟨fac', hf', hg⟩ := h.factory hf
  obtain ⟨l', hl', hgl⟩ := hg.loop hl
  exact ⟨l', Option.bind_eq_some_iff.mpr ⟨fac', hf', hl'⟩, hgl⟩

theorem grows_takeLock (s : Store) (k : Lock) (t : ThreadId) : s.Grows (s.takeLock k t) :=
  .of_eq rfl rfl

/-- Giving a lock back makes no difference to what has grown. -/
@[simp] theorem grows_giveLock_iff {s s' : Store} {k : Lock} :
    s.Grows (s'.giveLock k) ↔ s.Grows s' :=
  ⟨fun h => h.trans (.of_eq rfl rfl), fun h => h.trans (.of_eq rfl rfl)⟩

theorem grows_setStatus (s : Store) (e : EndpointId) (st : Status) :
    s.Grows (s.setStatus e st) where
  factory := fun h => ⟨_, h, .refl _⟩
  endpoint := fun {e' r} h => by
    simp only [setStatus, Array.getElem?_modify, h]
    split
    · exact ⟨st, rfl⟩
    · exact ⟨r.status, rfl⟩

theorem grows_enroll (s : Store) (f : FactoryId) (w : Nat) (n : UInt64) :
    s.Grows (s.enroll f w n) where
  factory := fun h => ⟨_, h, .refl _⟩
  endpoint := fun {e r} h => by
    have hlt : e < s.endpoints.size := (Array.getElem?_eq_some_iff.mp h).1
    refine ⟨r.status, ?_⟩
    rw [enroll, Array.getElem?_push_lt hlt, ← Array.getElem?_eq_getElem hlt, h]

theorem grows_build (s : Store) (b : Blueprint) : s.Grows (s.build b) where
  factory := fun {f fac} h => by
    have hlt : f < s.factories.size := (Array.getElem?_eq_some_iff.mp h).1
    refine ⟨fac, ?_, .refl fac⟩
    rw [build, Array.getElem?_push_lt hlt, ← Array.getElem?_eq_getElem hlt, h]
  endpoint := fun {_ r} h => ⟨r.status, h⟩

theorem grows_modifyFactory (s : Store) (f : FactoryId) {g : Factory → Factory}
    (h : ∀ fac : Factory, fac.Grows (g fac)) : s.Grows (s.modifyFactory f g) where
  factory := fun {f' fac} hf => by
    simp only [modifyFactory, Array.getElem?_modify, hf]
    split
    · exact ⟨g fac, rfl, h fac⟩
    · exact ⟨fac, rfl, .refl fac⟩
  endpoint := fun {_ r} h => ⟨r.status, h⟩

theorem grows_modifyLoop (s : Store) (l : LoopId) {g : Loop → Loop}
    (h : ∀ l : Loop, l.Grows (g l)) :
    s.Grows (s.modifyLoop l g) :=
  s.grows_modifyFactory l.factory fun _ => Factory.grows_modifyLoop h

theorem loop?_modifyLoop_self {s : Store} {id : LoopId} {l : Loop} (hl : s.loop? id = some l)
    (g : Loop → Loop) : (s.modifyLoop id g).loop? id = some (g l) := by
  rw [loop?_modifyLoop, if_pos rfl, hl, Option.map_some]

/-! ## Flags that are up -/

/-- **The loop has been started.** -/
def Started (s : Store) (id : LoopId) : Prop := ∃ l, s.loop? id = some l ∧ l.started = true

/-- **The loop has been told to end.** -/
def ShutDown (s : Store) (id : LoopId) : Prop := ∃ l, s.loop? id = some l ∧ l.shutDown = true

/-- **The loop has ended.** -/
def Exited (s : Store) (id : LoopId) : Prop := ∃ l, s.loop? id = some l ∧ l.exited = true

instance (s : Store) (l : LoopId) : Decidable (s.Started l) :=
  decidable_of_iff ((s.loop? l).any Loop.started = true) (Option.any_eq_true ..)

instance (s : Store) (l : LoopId) : Decidable (s.ShutDown l) :=
  decidable_of_iff ((s.loop? l).any Loop.shutDown = true) (Option.any_eq_true ..)

instance (s : Store) (l : LoopId) : Decidable (s.Exited l) :=
  decidable_of_iff ((s.loop? l).any Loop.exited = true) (Option.any_eq_true ..)

variable {s s' : Store} {id : LoopId}

theorem Grows.started (h : s.Grows s') : s.Started id → s'.Started id := by
  rintro ⟨l, hl, hu⟩
  obtain ⟨l', hl', hg⟩ := h.loop hl
  exact ⟨l', hl', hg.started hu⟩

theorem Grows.shutDown (h : s.Grows s') : s.ShutDown id → s'.ShutDown id := by
  rintro ⟨l, hl, hu⟩
  obtain ⟨l', hl', hg⟩ := h.loop hl
  exact ⟨l', hl', hg.shutDown hu⟩

theorem Grows.exited (h : s.Grows s') : s.Exited id → s'.Exited id := by
  rintro ⟨l, hl, hu⟩
  obtain ⟨l', hl', hg⟩ := h.loop hl
  exact ⟨l', hl', hg.exited hu⟩

end Store

end EndpointControl
