import EndpointControl.Proofs.Passage

/-!
# Who raises which flag

Each flag of a loop is raised at one point of one procedure: a loop is marked as
started by whoever starts it, told to end by a release, and marked as ended by
the thread that runs it. A queue is emptied by that thread and grows where a job
is appended, and nowhere else (`Control.flags_of_act`). A factory is marked as
released where its release begins.
-/

namespace EndpointControl

theorem Factory.released_modifyLoop (f : Factory) (st : Seat) (k : Loop → Loop) :
    (f.modifyLoop st k).released = f.released := by
  cases st <;> rfl

theorem Factory.executors_modifyLoop (f : Factory) (st : Seat) {k : Loop → Loop}
    (h : ∀ l, (k l).executor = l.executor) : (f.modifyLoop st k).executors = f.executors := by
  cases st with
  | boss => cases hb : f.boss <;> simp [executors, modifyLoop, hb, h]
  | worker i => rfl

theorem Factory.executor_mem_ofBlueprint {b : Blueprint} {st : Seat} {l : Loop}
    (h : (ofBlueprint b).loop? st = some l) : l.executor ∈ (ofBlueprint b).executors := by
  cases st with
  | boss =>
    obtain ⟨boss, hb, rfl⟩ := Option.map_eq_some_iff.mp h
    simp [executors, hb]
  | worker i =>
    simp only [loop?, ofBlueprint, Array.getElem?_replicate] at h
    split at h
    · obtain rfl := Option.some.inj h
      exact List.mem_append_right _ (List.mem_singleton.mpr rfl)
    · cases h

/-- **A factory runs its loops on its executors.** -/
def Store.Staffed (s : Store) : Prop :=
  ∀ (f : FactoryId) (fac : Factory), s.factories[f]? = some fac →
    ∀ st l, fac.loop? st = some l → l.executor ∈ fac.executors

/-- **What one step does to a loop**, given where it is made. -/
structure Loop.Raises (c : Control) (id : LoopId) (l l' : Loop) : Prop where
  executor : l'.executor = l.executor
  started : l'.started = true → l.started = true ∨ ∃ below, c = .running (.start id .mark :: below)
  shutDown : l'.shutDown = true → l.shutDown = true
    ∨ ∃ below, c = .running (.signal id .raise :: below)
  exited : l'.exited = true → l.exited = true
    ∨ ∃ m n below, c = .running (.serve id m (.markExited n) :: below)
  queue : l'.queue = l.queue ∨ l'.queue = #[]
    ∨ ∃ j m below, c = .running (.submit id j (.append m) :: below)

/-- **What one step does to the loops**, and to the mark of a factory. -/
structure Flags (s : Store) (c : Control) (s' : Store) : Prop where
  started : ∀ id, s'.Started id → s.Started id
    ∨ ∃ below, c = .running (.start id .mark :: below)
  shutDown : ∀ id, s'.ShutDown id → s.ShutDown id
    ∨ ∃ below, c = .running (.signal id .raise :: below)
  exited : ∀ id, s'.Exited id → s.Exited id
    ∨ ∃ m n below, c = .running (.serve id m (.markExited n) :: below)
  queue : ∀ id l', s'.loop? id = some l' → (∃ l, s.loop? id = some l ∧ l'.queue = l.queue)
    ∨ l'.queue = #[] ∨ ∃ j m below, c = .running (.submit id j (.append m) :: below)
  released : ∀ (f : FactoryId) (fac' : Factory), s'.factories[f]? = some fac' →
    fac'.released = true → (∃ fac, s.factories[f]? = some fac ∧ fac.released = true)
      ∨ ∃ below, c = .running (.release f .raise :: below)
  staffed : s.Staffed → s'.Staffed

namespace Flags

variable {s s' : Store} {c : Control}

/-- Nothing happens to loops and factories. -/
theorem of_factories (h : s'.factories = s.factories) : Flags s c s' := by
  have hloop (id : LoopId) : s'.loop? id = s.loop? id := by rw [Store.loop?, h, Store.loop?]
  refine ⟨fun id hs => .inl ?_, fun id hs => .inl ?_, fun id hs => .inl ?_, fun id l' hl => .inl ?_,
    fun f fac' hf hr => .inl ⟨fac', h ▸ hf, hr⟩, fun hs f fac hf => hs f fac (h ▸ hf)⟩
  · rwa [Store.Started, ← hloop]
  · rwa [Store.ShutDown, ← hloop]
  · rwa [Store.Exited, ← hloop]
  · exact ⟨l', hloop id ▸ hl, rfl⟩

theorem refl (s : Store) (c : Control) : Flags s c s := of_factories rfl

theorem giveLock {k : Lock} (h : Flags s c s') : Flags s c (s'.giveLock k) :=
  ⟨h.started, h.shutDown, h.exited, h.queue, h.released, h.staffed⟩

/-- **Changing one loop** does what the change does. -/
theorem modifyLoop (id : LoopId) {k : Loop → Loop} (h : ∀ l : Loop, l.Raises c id (k l)) :
    Flags s c (s.modifyLoop id k) := by
  have hloop {id' : LoopId} {l' : Loop} (hl' : (s.modifyLoop id k).loop? id' = some l') :
      s.loop? id' = some l' ∨ (id = id' ∧ ∃ l, s.loop? id' = some l ∧ l' = k l) := by
    rw [Store.loop?_modifyLoop] at hl'
    split at hl'
    · obtain ⟨l, hl, rfl⟩ := Option.map_eq_some_iff.mp hl'
      exact .inr ⟨‹_›, l, hl, rfl⟩
    · exact .inl hl'
  -- each of the three flags of a loop is up where it was up, or the change raises it
  have hflag (up : Loop → Bool) {P : LoopId → Prop}
      (hup : ∀ l, up (k l) = true → up l = true ∨ P id) (id' : LoopId) :
      (∃ l', (s.modifyLoop id k).loop? id' = some l' ∧ up l' = true) →
        (∃ l, s.loop? id' = some l ∧ up l = true) ∨ P id' := by
    rintro ⟨l', hl', h'⟩
    rcases hloop hl' with hl | ⟨rfl, l, hl, rfl⟩
    · exact .inl ⟨l', hl, h'⟩
    · exact (hup l h').imp_left fun h => ⟨l, hl, h⟩
  refine ⟨hflag (·.started) fun l => (h l).started, hflag (·.shutDown) fun l => (h l).shutDown,
    hflag (·.exited) fun l => (h l).exited, ?_, ?_, ?_⟩
  · intro id' l' hl'
    rcases hloop hl' with hl | ⟨rfl, l, hl, rfl⟩
    · exact .inl ⟨l', hl, rfl⟩
    · exact (h l).queue.imp_left fun h => ⟨l, hl, h⟩
  · intro f fac' hf hr
    simp only [Store.modifyLoop, Store.modifyFactory, Array.getElem?_modify] at hf
    split at hf
    · obtain ⟨fac, hfac, rfl⟩ := Option.map_eq_some_iff.mp hf
      exact .inl ⟨fac, hfac, fac.released_modifyLoop id.seat k ▸ hr⟩
    · exact .inl ⟨fac', hf, hr⟩
  · intro hstaffed f fac' hf st l' hl'
    simp only [Store.modifyLoop, Store.modifyFactory, Array.getElem?_modify] at hf
    split at hf
    · obtain ⟨fac, hfac, rfl⟩ := Option.map_eq_some_iff.mp hf
      rw [fac.executors_modifyLoop id.seat fun l => (h l).executor]
      rw [Factory.loop?_modifyLoop] at hl'
      split at hl'
      · obtain ⟨l, hl, rfl⟩ := Option.map_eq_some_iff.mp hl'
        exact (h l).executor ▸ hstaffed f fac hfac st l hl
      · exact hstaffed f fac hfac st l' hl'
    · exact hstaffed f fac' hf st l' hl'

/-- Changing a factory but for its loops changes no loop. -/
theorem modifyFactory (f : FactoryId) {k : Factory → Factory}
    (hl : ∀ (fac : Factory) st, (k fac).loop? st = fac.loop? st)
    (hx : ∀ fac : Factory, (k fac).executors = fac.executors)
    (hr : ∀ fac : Factory, (k fac).released = true → fac.released = true
      ∨ ∃ below, c = .running (.release f .raise :: below)) :
    Flags s c (s.modifyFactory f k) := by
  have hloop (id : LoopId) : (s.modifyFactory f k).loop? id = s.loop? id := by
    simp only [Store.loop?, Store.modifyFactory, Array.getElem?_modify]
    split
    · cases s.factories[id.factory]? <;> simp [hl]
    · rfl
  refine ⟨fun id hs => .inl ?_, fun id hs => .inl ?_, fun id hs => .inl ?_, fun id l' hl => .inl ?_,
    fun f' fac' hf hup => ?_, fun hs f' fac' hf st l' hl' => ?_⟩
  · rwa [Store.Started, ← hloop]
  · rwa [Store.ShutDown, ← hloop]
  · rwa [Store.Exited, ← hloop]
  · exact ⟨l', hloop id ▸ hl, rfl⟩
  · simp only [Store.modifyFactory, Array.getElem?_modify] at hf
    split at hf
    · rename_i heq
      obtain ⟨fac, hfac, rfl⟩ := Option.map_eq_some_iff.mp hf
      exact heq ▸ (hr fac hup).imp_left fun h => ⟨fac, heq ▸ hfac, h⟩
    · exact .inl ⟨fac', hf, hup⟩
  · simp only [Store.modifyFactory, Array.getElem?_modify] at hf
    split at hf
    · obtain ⟨fac, hfac, rfl⟩ := Option.map_eq_some_iff.mp hf
      rw [hl] at hl'
      exact hx fac ▸ hs f' fac hfac st l' hl'
    · exact hs f' fac' hf st l' hl'

/-- A new factory has raised nothing and queued nothing. -/
theorem build (b : Blueprint) : Flags s c (s.build b) := by
  have hflag (up : Loop → Bool) {P : LoopId → Prop} (hidle : ∀ p v x, up (.idle p v x) = false)
      (id : LoopId) : (∃ l, (s.build b).loop? id = some l ∧ up l = true) →
        (∃ l, s.loop? id = some l ∧ up l = true) ∨ P id := by
    rintro ⟨l, hl, hup⟩
    rcases Store.loop?_of_build hl with hl | ⟨p, v, x, rfl⟩
    · exact .inl ⟨l, hl, hup⟩
    · cases hup.symm.trans (hidle p v x)
  refine ⟨hflag (·.started) fun _ _ _ => rfl, hflag (·.shutDown) fun _ _ _ => rfl,
    hflag (·.exited) fun _ _ _ => rfl, ?_, ?_, ?_⟩
  · intro id l hl
    rcases Store.loop?_of_build hl with hl | ⟨p, v, x, rfl⟩
    · exact .inl ⟨l, hl, rfl⟩
    · exact .inr (.inl rfl)
  · intro f fac hf hr
    rw [Store.build, Array.getElem?_push] at hf
    split at hf
    · obtain rfl := Option.some.inj hf
      cases hr
    · exact .inl ⟨fac, hf, hr⟩
  · intro hs f fac hf st l hl
    rw [Store.build, Array.getElem?_push] at hf
    split at hf
    · obtain rfl := Option.some.inj hf
      exact Factory.executor_mem_ofBlueprint hl
    · exact hs f fac hf st l hl

/-- Only a release tells a loop to end. -/
theorem not_shutDown (h : Flags s c s') {id : LoopId}
    (hc : ∀ below, c ≠ .running (.signal id .raise :: below)) (hd : ¬ s.ShutDown id) :
    ¬ s'.ShutDown id := fun hd' => by
  rcases h.shutDown id hd' with h | ⟨below, h⟩
  · exact hd h
  · exact hc below h

/-- An empty queue stays empty, unless somebody appends. -/
theorem queue_eq_nil (h : Flags s c s') {id : LoopId}
    (hc : ∀ j m below, c ≠ .running (.submit id j (.append m) :: below))
    (hq : s.queue id = []) : s'.queue id = [] := by
  cases hl' : s'.loop? id with
  | none => rw [Store.queue, hl', Option.map_none, Option.getD_none]
  | some l' =>
    rw [Store.queue_eq hl', Array.toList_eq_nil_iff]
    -- the queue is the old one, or has been taken, or somebody has appended
    rcases h.queue id l' hl' with ⟨l, hl, heq⟩ | heq | ⟨j, m, below, heq⟩
    · rw [Store.queue_eq hl, Array.toList_eq_nil_iff] at hq
      exact heq.trans hq
    · exact heq
    · exact absurd heq (hc j m below)

end Flags

section Procedures

variable {s : Store} {t : ThreadId} {below : List Frame} {g : Store → Store} {c : Control}
  {ns : List Note}

theorem StartPoint.flags {id : LoopId} {l : Loop} {p : StartPoint}
    (h : p.move s t below id l = .act g c ns) :
    Flags s (.running (.start id p :: below)) (g s) := by
  cases p <;> simp [StartPoint.move] at h
  case takeSlot => exact h.2.1 ▸ .of_factories rfl
  case fillSlot m =>
    exact h.1 ▸ .modifyLoop id fun l => ⟨rfl, .inl, .inl, .inl, .inl rfl⟩
  case mark =>
    exact h.1 ▸ .modifyLoop id fun l => ⟨rfl, fun _ => .inr ⟨below, rfl⟩, .inl, .inl, .inl rfl⟩
  all_goals exact h.1 ▸ .of_factories rfl

theorem SubmitPoint.flags {id : LoopId} {l : Loop} {j : Job} {p : SubmitPoint}
    (h : p.move s t below id l j = .act g c ns) :
    Flags s (.running (.submit id j p :: below)) (g s) := by
  cases p <;> simp [SubmitPoint.move] at h
  case takeSlot => exact h.2.1 ▸ .of_factories rfl
  case takeQueue m => exact h.2.1 ▸ .of_factories rfl
  case append m =>
    rw [h.1]
    -- this is the one point where a queue grows
    refine .giveLock (.modifyLoop id fun l => ⟨rfl, .inl, .inl, .inl, ?_⟩)
    exact .inr (.inr ⟨j, m, below, rfl⟩)
  case serialize m =>
    split at h <;> simp at h
    · exact h.2.1 ▸ .of_factories rfl
    · exact h.1 ▸ .refl ..
  case leave => split at h <;> simp at h <;> exact h.1 ▸ .of_factories rfl
  all_goals exact h.1 ▸ .of_factories rfl

theorem SignalPoint.flags {id : LoopId} {l : Loop} {p : SignalPoint}
    (h : p.move s t below id l = .act g c ns) :
    Flags s (.running (.signal id p :: below)) (g s) := by
  cases p <;> simp [SignalPoint.move] at h
  case raise =>
    exact h.1 ▸ .modifyLoop id fun l => ⟨rfl, .inl, fun _ => .inr ⟨below, rfl⟩, .inl, .inl rfl⟩
  case takeSlot => exact h.2.1 ▸ .of_factories rfl
  all_goals exact h.1 ▸ .of_factories rfl

theorem ServePoint.flags {id : LoopId} {l : Loop} {m : Multiplexer} {p : ServePoint}
    (h : p.move s t below id l m = .act g c ns) :
    Flags s (.running (.serve id m p :: below)) (g s) := by
  have htake {c : Control} {k : Lock} :
      Flags s c ((s.modifyLoop id fun l => { l with queue := #[] }).giveLock k) :=
    .giveLock (.modifyLoop id fun l => ⟨rfl, .inl, .inl, .inl, .inr (.inl rfl)⟩)
  cases p
  case run batch n => cases batch <;> simp [ServePoint.move] at h <;> exact h.1 ▸ .refl ..
  case report n => cases n <;> simp [ServePoint.move] at h <;> exact h.1 ▸ .refl ..
  case discard rest n => cases rest <;> simp [ServePoint.move] at h <;> exact h.1 ▸ .refl ..
  all_goals simp [ServePoint.move] at h
  case serialize =>
    split at h <;> simp at h
    · exact h.2.1 ▸ .of_factories rfl
    · exact h.1 ▸ .refl ..
  case takeQueue => exact h.2.1 ▸ .of_factories rfl
  case takeQueueLast => exact h.2.1 ▸ .of_factories rfl
  case takeBatch => exact h.1 ▸ htake
  case takeRest => exact h.1 ▸ htake
  case endTurn n => split at h <;> simp at h <;> exact h.1 ▸ .of_factories rfl
  case markExited n =>
    exact h.1 ▸ .modifyLoop id fun l =>
      ⟨rfl, .inl, .inl, fun _ => .inr ⟨m, n, below, rfl⟩, .inl rfl⟩
  all_goals exact h.1 ▸ .refl ..

theorem RegistrationPoint.flags {id : EndpointId} {r : Endpoint} {p : RegistrationPoint}
    {c₀ : Control} (h : p.move s t below id r = .act g c ns) : Flags s c₀ (g s) := by
  cases p <;> simp [RegistrationPoint.move] at h
  case count =>
    rw [h.1]
    refine .modifyFactory _ (fun fac st => ?_) (fun _ => rfl) fun _ => .inl
    rw [Factory.loop?_modifyWorker]
    exact fun _ => rfl
  case takeStatus => exact h.2.1 ▸ .of_factories rfl
  all_goals exact h.1 ▸ .of_factories rfl

theorem CreatePoint.flags {id : FactoryId} {f : Factory} {p : CreatePoint} {c₀ : Control}
    (h : p.move s below id f = .act g c ns) : Flags s c₀ (g s) := by
  cases p <;> simp [CreatePoint.move] at h
  case count w n =>
    rw [h.1]
    refine .modifyFactory _ (fun fac st => ?_) (fun _ => rfl) fun _ => .inl
    rw [Factory.loop?_modifyWorker]
    exact fun _ => rfl
  case pickWorker | drawNumber =>
    exact h.1 ▸ .modifyFactory _ (fun _ _ => rfl) (fun _ => rfl) fun _ => .inl
  case submit e => split at h <;> simp at h; exact h.1 ▸ .refl ..
  case announce e => split at h <;> simp at h; exact h.1 ▸ .refl ..
  all_goals exact h.1 ▸ .of_factories rfl

theorem ConnectPoint.flags {id : EndpointId} {r : Endpoint} {a : Address} {p : ConnectPoint}
    {c₀ : Control} (h : p.move s t below id r a = .act g c ns) : Flags s c₀ (g s) := by
  cases p <;> simp [ConnectPoint.move] at h
  case count =>
    rw [h.1]
    refine .modifyFactory _ (fun fac st => ?_) (fun fac => ?_) fun _ => .inl
    · rw [Factory.loop?_modifyBoss]
      exact fun _ => rfl
    · cases hb : fac.boss <;> simp [Factory.executors, Factory.modifyBoss, hb]
  case takeStatus => exact h.2.1 ▸ .of_factories rfl
  case begin => split at h <;> simp at h <;> exact h.1 ▸ .of_factories rfl
  all_goals exact h.1 ▸ .of_factories rfl

theorem ReleasePoint.flags {id : FactoryId} {f : Factory} {p : ReleasePoint}
    (h : p.move below id f = .act g c ns) :
    Flags s (.running (.release id p :: below)) (g s) := by
  cases p <;> simp [ReleasePoint.move] at h
  case raise =>
    exact h.1 ▸ .modifyFactory _ (fun _ _ => rfl) (fun _ => rfl) fun _ _ => .inr ⟨below, rfl⟩
  case signalWorkers i => split at h <;> simp at h <;> exact h.1 ▸ .refl ..
  case terminate u => split at h <;> simp at h <;> exact h.1 ▸ .refl ..
  all_goals exact h.1 ▸ .refl ..

end Procedures

/-- **A step raises a flag only where that flag is raised**, and appends to a
queue only where jobs are appended. -/
theorem Control.flags_of_act {s : Store} {t : ThreadId} {c c' : Control} {g : Store → Store}
    {ns : List Note} (h : c.move s t = .act g c' ns) : Flags s c (g s) := by
  obtain ⟨fr, below, rfl, hm⟩ := moves_of_act h
  cases hm with
  | start found hp => exact StartPoint.flags hp
  | submit found hp => exact SubmitPoint.flags hp
  | signal found hp => exact SignalPoint.flags hp
  | serve found hp => exact ServePoint.flags hp
  | @attempt _ _ _ p found hp =>
    cases p <;> simp [AttemptPoint.move] at hp <;> exact hp.1 ▸ .refl ..
  | registration found hp => exact RegistrationPoint.flags hp
  | @drop _ _ p found hp =>
    cases p <;> simp [DropPoint.move] at hp
    · exact hp.2.1 ▸ .of_factories rfl
    · exact hp.1 ▸ .of_factories rfl
  | create found hp => exact CreatePoint.flags hp
  | connect found hp => exact ConnectPoint.flags hp
  | @close _ _ p found hp =>
    cases p <;> simp [ClosePoint.move] at hp
    · exact hp.2.1 ▸ .of_factories rfl
    · exact hp.1 ▸ .of_factories rfl
  | release found hp => exact ReleasePoint.flags hp

end EndpointControl
