import EndpointControl.Proofs.WaitAndWakeOutcomes

/-!
# What the levels do

A level says whether queueing for a loop and draining its queue take turns. That is
all it says: besides, it is printed once, when an executor takes the loop. So when
some factories are *eased* – built at the lowest level and otherwise as they were –
every history remains one in which the same is called and the same is answered;
where a turn was taken or given back, nothing happens (`Machine.Run.eased`).

What is different afterwards is the level of the eased factories, wherever it is
written down, and that nobody has a turn of one of their loops.
-/

namespace EndpointControl

/-! ## Easing -/

/-- The lowest level, if the factory is eased. -/
def Level.eased (b : Bool) (v : Level) : Level := bif b then .unconstrained else v

/-- The same terms at the lowest level. -/
def Terms.eased (b : Bool) (t : Terms) : Terms := { t with level := t.level.eased b }

/-- **The same factory at the lowest level**, still to be built. -/
def Blueprint.eased (b : Bool) (bp : Blueprint) : Blueprint :=
  { bp with terms := bp.terms.eased b }

/-- The same loop at the lowest level. -/
def Loop.eased (b : Bool) (l : Loop) : Loop := { l with level := l.level.eased b }

/-- The same worker at the lowest level. -/
def Worker.eased (b : Bool) (w : Worker) : Worker := { w with loop := w.loop.eased b }

/-- The same boss at the lowest level. -/
def Boss.eased (b : Bool) (x : Boss) : Boss := { x with loop := x.loop.eased b }

/-- **The same factory at the lowest level.** -/
def Factory.eased (b : Bool) (f : Factory) : Factory :=
  { f with
    terms := f.terms.eased b
    boss := f.boss.map (Boss.eased b)
    workers := f.workers.map (Worker.eased b) }

/-- The lock is for the turns of a loop of an eased factory. -/
def Lock.isEased (R : FactoryId → Bool) : Lock → Bool
  | .registration l => R l.factory
  | _ => false

/-- **The store with these factories eased.** Nobody has a turn there. -/
def Store.eased (R : FactoryId → Bool) (s : Store) : Store where
  factories := s.factories.mapIdx fun f fac => fac.eased (R f)
  endpoints := s.endpoints
  locks := ⟨s.locks.entries.filter fun e => !e.1.isEased R⟩

/-- A note with the level that an eased loop would have. -/
def Note.eased (R : FactoryId → Bool) : Note → Note
  | .said (.submitted l p v) => .said (.submitted l p (v.eased (R l.factory)))
  | n => n

/-- **The machine with these factories eased.** -/
def Machine.eased (R : FactoryId → Bool) (m : Machine) : Machine :=
  { m with store := m.store.eased R }

/-! ## What easing leaves alone -/

namespace Factory

variable (b : Bool) (f : Factory)

@[simp] theorem flavor_eased : (f.eased b).flavor = f.flavor := by
  unfold flavor eased
  cases f.boss <;> rfl

@[simp] theorem executors_eased : (f.eased b).executors = f.executors := by
  unfold executors eased
  cases f.boss <;> rfl

@[simp] theorem size_workers_eased : (f.eased b).workers.size = f.workers.size := by
  simp [eased]

theorem loop?_eased (st : Seat) : (f.eased b).loop? st = (f.loop? st).map (Loop.eased b) := by
  cases st with
  | boss => cases h : f.boss <;> simp [loop?, eased, h, Boss.eased]
  | worker i => cases h : f.workers[i]? <;> simp [loop?, eased, h, Worker.eased]

theorem eased_modifyLoop (st : Seat) {k : Loop → Loop}
    (hk : ∀ l : Loop, (k l).eased b = k (l.eased b)) :
    (f.modifyLoop st k).eased b = (f.eased b).modifyLoop st k := by
  cases st with
  | boss =>
    cases h : f.boss with
    | none => simp [modifyLoop, eased, h]
    | some x => simp [modifyLoop, eased, h, Boss.eased, hk]
  | worker i =>
    simp only [modifyLoop, eased, mk.injEq, true_and, and_true]
    exact map_modify (by intro w; simp only [Worker.eased, hk]) f.workers i

theorem eased_modifyWorker (i : Nat) {k : Worker → Worker}
    (hk : ∀ w : Worker, (k w).eased b = k (w.eased b)) :
    (f.modifyWorker i k).eased b = (f.eased b).modifyWorker i k := by
  simp only [modifyWorker, eased, mk.injEq, true_and, and_true]
  exact map_modify hk f.workers i

theorem eased_modifyBoss {k : Boss → Boss} (hk : ∀ x : Boss, (k x).eased b = k (x.eased b)) :
    (f.modifyBoss k).eased b = (f.eased b).modifyBoss k := by
  cases h : f.boss with
  | none => simp [modifyBoss, eased, h]
  | some x => simp [modifyBoss, eased, h, hk]

theorem eased_ofBlueprint (bp : Blueprint) :
    (ofBlueprint bp).eased b = ofBlueprint (bp.eased b) := by
  obtain ⟨staffing, terms⟩ := bp
  cases staffing <;> simp [ofBlueprint, eased, Blueprint.eased, Terms.eased, Worker.eased,
    Boss.eased, Loop.eased, Loop.idle, Staffing.workers]

end Factory

namespace Store

variable {R : FactoryId → Bool} {s : Store}

theorem factories_eased (f : FactoryId) :
    (s.eased R).factories[f]? = s.factories[f]?.map (Factory.eased (R f)) := by
  simp [eased]

theorem loop?_eased (l : LoopId) :
    (s.eased R).loop? l = (s.loop? l).map (Loop.eased (R l.factory)) := by
  rw [loop?, factories_eased, loop?]
  cases s.factories[l.factory]? with
  | none => rfl
  | some fac => exact fac.loop?_eased _ l.seat

theorem holder?_eased {k : Lock} (hk : k.isEased R = false) :
    (s.eased R).locks.holder? k = s.locks.holder? k := by
  unfold eased LockTable.holder?
  simp only [List.find?_filter]
  congr 2
  funext e
  by_cases he : e.1 = k
  · simp [he, hk]
  · simp [he]

theorem eased_takeLock {k : Lock} (hk : k.isEased R = false) (t : ThreadId) :
    (s.takeLock k t).eased R = (s.eased R).takeLock k t := by
  simp [eased, takeLock, LockTable.take, hk]

/-- Whose turn it is at an eased loop makes no difference. -/
theorem eased_takeTurn {k : Lock} (hk : k.isEased R = true) (t : ThreadId) :
    (s.takeLock k t).eased R = s.eased R := by
  simp [eased, takeLock, LockTable.take, hk]

theorem eased_giveLock (k : Lock) : (s.giveLock k).eased R = (s.eased R).giveLock k := by
  simp only [eased, giveLock, LockTable.give, List.filter_filter, Bool.and_comm]

theorem eased_giveTurn {k : Lock} (hk : k.isEased R = true) :
    (s.giveLock k).eased R = s.eased R := by
  simp only [eased, giveLock, LockTable.give, List.filter_filter, mk.injEq, true_and,
    LockTable.mk.injEq]
  refine List.filter_congr fun e _ => ?_
  by_cases he : e.1 = k
  · simp [he, hk]
  · simp [he]

theorem eased_modifyFactory (f : FactoryId) {k k' : Factory → Factory}
    (hk : ∀ fac : Factory, (k fac).eased (R f) = k' (fac.eased (R f))) :
    (s.modifyFactory f k).eased R = (s.eased R).modifyFactory f k' := by
  simp only [eased, modifyFactory, mk.injEq, and_true]
  apply Array.ext_getElem?
  intro j
  simp only [Array.getElem?_mapIdx, Array.getElem?_modify]
  split
  · rename_i hj
    subst hj
    cases s.factories[f]? <;> simp [hk]
  · rfl

theorem size_modifyFactory (s : Store) (f : FactoryId) (k : Factory → Factory) :
    (s.modifyFactory f k).factories.size = s.factories.size := by
  simp [modifyFactory]

theorem eased_modifyLoop (l : LoopId) {k : Loop → Loop}
    (hk : ∀ lp : Loop, (k lp).eased (R l.factory) = k (lp.eased (R l.factory))) :
    (s.modifyLoop l k).eased R = (s.eased R).modifyLoop l k :=
  eased_modifyFactory _ fun fac => fac.eased_modifyLoop _ l.seat hk

theorem eased_build (bp : Blueprint) :
    (s.build bp).eased R = (s.eased R).build (bp.eased (R s.factories.size)) := by
  simp [eased, build, Array.mapIdx_push, Factory.eased_ofBlueprint]

end Store

/-! ## One move at the lowest level -/

/-- **The second move is the first, made in the store with these factories eased.** Neither
builds a factory. Whoever waits for the turn at an eased loop, waits no more. -/
inductive Move.Eases (R : FactoryId → Bool) (s : Store) : Move → Move → Prop where
  | act {g g' : Store → Store} {c : Control} {ns : List Note}
    (h : g' (s.eased R) = (g s).eased R) (hsize : (g s).factories.size = s.factories.size) :
    Eases R s (.act g c ns) (.act g' c (ns.map (Note.eased R)))
  | ask {q : Request} {after after' : q.Reply → Control} (h : ∀ r, after' r = after r) :
    Eases R s (.ask q after) (.ask q after')
  | blocked {k : Lock} : Eases R s (.blocked k) (.blocked k)
  | waits {l : LoopId} {mv : Move} (hl : R l.factory = true) :
    Eases R s (.blocked (.registration l)) mv
  | stuck : Eases R s .stuck .stuck

namespace Move.Eases

variable {R : FactoryId → Bool} {s : Store} {t : ThreadId} {c : Control}

theorem change {g : Store → Store} (h : g (s.eased R) = (g s).eased R)
    (hsize : (g s).factories.size = s.factories.size) :
    Eases R s (.change g c) (.change g c) :=
  .act h hsize

theorem go : Eases R s (.go c) (.go c) := .act rfl rfl

theorem tell {g : Store → Store} {ns : List Note} (h : g (s.eased R) = (g s).eased R)
    (hsize : (g s).factories.size = s.factories.size) (hns : ns.map (Note.eased R) = ns) :
    Eases R s (.act g c ns) (.act g c ns) := by
  have heases : Eases R s (.act g c ns) (.act g c (ns.map (Note.eased R))) := .act h hsize
  rwa [hns] at heases

theorem say {n : Notice} (hn : (Note.said n).eased R = .said n) :
    Eases R s (.say n c) (.say n c) :=
  tell rfl rfl (by rw [List.map_singleton, hn])

theorem takeLock {k : Lock} (hk : k.isEased R = false) :
    Eases R s (.takeLock s t k c) (.takeLock (s.eased R) t k c) := by
  unfold Move.takeLock
  rw [s.holder?_eased hk]
  split
  · exact .blocked
  · exact .change (s.eased_takeLock hk t).symm rfl

theorem changeLoop {l : LoopId} {k : Loop → Loop}
    (hk : ∀ (lp : Loop) b, (k lp).eased b = k (lp.eased b)) :
    Eases R s (.change (·.modifyLoop l k) c) (.change (·.modifyLoop l k) c) :=
  .change (s.eased_modifyLoop l fun lp => hk lp _).symm (s.size_modifyFactory ..)

theorem changeFactory {f : FactoryId} {k : Factory → Factory}
    (hk : ∀ (fac : Factory) b, (k fac).eased b = k (fac.eased b)) :
    Eases R s (.change (·.modifyFactory f k) c) (.change (·.modifyFactory f k) c) :=
  .change (s.eased_modifyFactory f fun fac => hk fac _).symm (s.size_modifyFactory ..)

theorem changeStatus {e : EndpointId} {st : Status} {k : Lock} :
    Eases R s (.change (fun s => (s.setStatus e st).giveLock k) c)
      (.change (fun s => (s.setStatus e st).giveLock k) c) :=
  .change (by rw [Store.eased_giveLock]; rfl) rfl

private theorem not_serialized : ¬ Level.unconstrained.serialized = true := by simp

/-- **Taking a turn**, if the level asks for it. -/
theorem takeTurn {l : LoopId} {v : Level} :
    Eases R s (if v.serialized then .takeLock s t (.registration l) c else .go c)
      (if (v.eased (R l.factory)).serialized then .takeLock (s.eased R) t (.registration l) c
        else .go c) := by
  cases hl : R l.factory with
  | false =>
    rw [Level.eased, cond_false]
    split
    · exact .takeLock hl
    · exact .go
  | true =>
    rw [Level.eased, cond_true, if_neg not_serialized]
    split
    · unfold Move.takeLock
      split
      · exact .waits hl
      · exact .act (s.eased_takeTurn (k := .registration l) hl t).symm rfl
    · exact .go

/-- **Ending a turn**, if the level asks for it. -/
theorem giveTurn {l : LoopId} {v : Level} :
    Eases R s (if v.serialized then .change (·.giveLock (.registration l)) c else .go c)
      (if (v.eased (R l.factory)).serialized then .change (·.giveLock (.registration l)) c
        else .go c) := by
  cases hl : R l.factory with
  | false =>
    rw [Level.eased, cond_false]
    split
    · exact .change (s.eased_giveLock _).symm rfl
    · exact .go
  | true =>
    rw [Level.eased, cond_true, if_neg not_serialized]
    split
    · exact .act (s.eased_giveTurn (k := .registration l) hl).symm rfl
    · exact .go

end Move.Eases

section Procedures

variable {R : FactoryId → Bool} {s : Store} {t : ThreadId} {below : List Frame}

theorem StartPoint.eases {id : LoopId} {l : Loop} (p : StartPoint) :
    Move.Eases R s (p.move s t below id l)
      (p.move (s.eased R) t below id (l.eased (R id.factory))) := by
  cases p with
  | takeSlot => exact .takeLock rfl
  | openNew => exact .ask fun r => by cases r <;> rfl
  | execute => exact .ask fun _ => rfl
  | fillSlot | mark => exact .changeLoop fun _ _ => rfl
  | announce => exact .act rfl rfl
  | leave r => exact .change (s.eased_giveLock _).symm rfl
  | _ => exact .go

theorem SubmitPoint.eases {id : LoopId} {l : Loop} {j : Job} (p : SubmitPoint) :
    Move.Eases R s (p.move s t below id l j)
      (p.move (s.eased R) t below id (l.eased (R id.factory)) j) := by
  cases p with
  | starting => exact .stuck
  | takeSlot | takeQueue => exact .takeLock rfl
  | readSlot => exact .change (s.eased_giveLock _).symm rfl
  | serialize m => exact .takeTurn
  | append m =>
    refine .tell ?_ (s.size_modifyFactory ..) rfl
    rw [Store.eased_giveLock, Store.eased_modifyLoop]
    exact fun _ => rfl
  | wake m => exact .ask fun _ => rfl
  | wakeFailed => exact .say rfl
  | leave => exact .giveTurn
  | _ => exact .go

theorem SignalPoint.eases {id : LoopId} {l : Loop} (p : SignalPoint) :
    Move.Eases R s (p.move s t below id l)
      (p.move (s.eased R) t below id (l.eased (R id.factory))) := by
  cases p with
  | raise => exact .changeLoop fun _ _ => rfl
  | takeSlot => exact .takeLock rfl
  | readSlot => exact .go
  | wake m => exact .ask fun _ => rfl
  | giveSlot => exact .change (s.eased_giveLock _).symm rfl
  | wakeFailed | announce => exact .say rfl

theorem Notice.eased_ofWait (id : LoopId) (r : Except String Nat) :
    (ofWait id r).map (Note.eased R) = ofWait id r := by
  unfold ofWait
  split <;> rfl

theorem ServePoint.eases {id : LoopId} {l : Loop} {m : Multiplexer} (p : ServePoint) :
    Move.Eases R s (p.move s t below id l m)
      (p.move (s.eased R) t below id (l.eased (R id.factory)) m) := by
  cases p with
  | announce | announceExit => exact .say rfl
  | serialize => exact .takeTurn
  | takeQueue | takeQueueLast => exact .takeLock rfl
  | takeBatch | takeRest =>
    refine .change ?_ (s.size_modifyFactory ..)
    rw [Store.eased_giveLock, Store.eased_modifyLoop]
    exact fun _ => rfl
  | run batch n =>
    cases batch with
    | nil => exact .go
    | cons j rest => exact .tell rfl rfl rfl
  | endTurn n => exact .giveTurn
  | report n =>
    cases n with
    | zero => exact .go
    | succ n => exact .say rfl
  | readShutDown => exact .go
  | wait => exact .ask fun _ => rfl
  | waited r => exact .tell rfl rfl (Notice.eased_ofWait id r)
  | discard rest n =>
    cases rest with
    | nil => exact .go
    | cons j rest => exact .tell rfl rfl rfl
  | markExited n => exact .changeLoop fun _ _ => rfl

theorem AttemptPoint.eases {id : EndpointId} {e : Endpoint} {a : Address} (p : AttemptPoint) :
    Move.Eases R s (p.move below id e a) (p.move below id e a) := by
  cases p with
  | announce | announceRefusal => exact .say rfl
  | submit | drop | leave => exact .go
  | submitting => exact .stuck

theorem RegistrationPoint.eases {id : EndpointId} {e : Endpoint} (p : RegistrationPoint) :
    Move.Eases R s (p.move s t below id e) (p.move (s.eased R) t below id e) := by
  cases p with
  | takeStatus => exact .takeLock rfl
  | mark => exact .changeStatus
  | count =>
    refine .tell ?_ (s.size_modifyFactory ..) rfl
    rw [Store.eased_modifyFactory]
    exact fun fac => fac.eased_modifyWorker _ _ fun _ => rfl
  | announce => exact .say rfl

theorem DropPoint.eases {id : EndpointId} {e : Endpoint} (p : DropPoint) :
    Move.Eases R s (p.move s t below id e) (p.move (s.eased R) t below id e) := by
  cases p with
  | takeStatus => exact .takeLock rfl
  | revert => exact .changeStatus

theorem CreatePoint.eases {id : FactoryId} {f : Factory} (p : CreatePoint) :
    Move.Eases R s (p.move s below id f) (p.move (s.eased R) below id (f.eased (R id))) := by
  cases p with
  | readReleased | start | failed => exact .go
  | pickWorker | drawNumber => exact .changeFactory fun _ _ => rfl
  | starting | submitting => exact .stuck
  | count w n =>
    exact .changeFactory fun fac b => fac.eased_modifyWorker b w fun _ => rfl
  | announceBound => exact .say rfl
  | enroll w n =>
    simp only [CreatePoint.move, Factory.flavor_eased]
    exact .change rfl rfl
  | submit e =>
    simp only [CreatePoint.move, Store.eased]
    split
    · exact .stuck
    · exact .go
  | announce e =>
    simp only [CreatePoint.move, Factory.flavor_eased, Store.eased]
    split
    · exact .stuck
    · exact .say rfl

theorem ConnectPoint.eases {id : EndpointId} {e : Endpoint} {a : Address} (p : ConnectPoint) :
    Move.Eases R s (p.move s t below id e a) (p.move (s.eased R) t below id e a) := by
  cases p with
  | takeStatus => exact .takeLock rfl
  | begin =>
    simp only [ConnectPoint.move]
    split
    · exact .changeStatus
    · exact .change (Store.eased_giveLock _).symm rfl
  | submit | failed => exact .go
  | submitting => exact .stuck
  | count =>
    exact .changeFactory fun fac b => fac.eased_modifyBoss b fun _ => rfl

theorem ClosePoint.eases {id : EndpointId} {e : Endpoint} (p : ClosePoint) :
    Move.Eases R s (p.move s t below id e) (p.move (s.eased R) t below id e) := by
  cases p with
  | takeStatus => exact .takeLock rfl
  | close => exact .changeStatus

/-- What is said of executors names no level. -/
theorem Termination.eased_of_note {u after : Termination} {n : Notice}
    (h : u.turn = .note n after) : (Note.said n).eased R = .said n := by
  unfold Termination.turn at h
  split at h <;> cases h <;> rfl

theorem ReleasePoint.eases {id : FactoryId} {f : Factory} (p : ReleasePoint) :
    Move.Eases R s (p.move below id f) (p.move below id (f.eased (R id))) := by
  cases p with
  | raise => exact .changeFactory fun _ _ => rfl
  | announce =>
    simp only [ReleasePoint.move, Factory.flavor_eased]
    exact .say rfl
  | signalBoss => exact .go
  | signalWorkers i =>
    simp only [ReleasePoint.move, Factory.size_workers_eased]
    split <;> exact .go
  | announceWorkers =>
    simp only [ReleasePoint.move, Factory.executors_eased]
    exact .say rfl
  | announceEnd =>
    simp only [ReleasePoint.move, Factory.flavor_eased]
    exact .say rfl
  | terminate u =>
    simp only [ReleasePoint.move]
    split
    case h_4 n after hu => exact .say (Termination.eased_of_note hu)
    case h_5 | h_6 => exact .go
    all_goals exact .ask fun _ => rfl

/-- **Easing factories makes no difference to what a thread does.** -/
theorem Frame.eases (fr : Frame) :
    Move.Eases R s (fr.move s t below) (fr.move (s.eased R) t below) := by
  cases fr with
  | start id p | submit id j p | signal id p | serve id m p =>
    simp only [Frame.move, Store.loop?_eased]
    cases s.loop? id with
    | none => exact .stuck
    | some l => exact p.eases
  | attempt id a p | registration id p | drop id p | connect id a p | close id p =>
    have heq : (s.eased R).endpoints = s.endpoints := rfl
    simp only [Frame.move, heq]
    split
    · exact p.eases
    · exact .stuck
  | create id p | release id p =>
    simp only [Frame.move, Store.factories_eased]
    cases s.factories[id]? with
    | none => exact .stuck
    | some f => exact p.eases

theorem Control.eases (c : Control) : Move.Eases R s (c.move s t) (c.move (s.eased R) t) :=
  match c with
  | .running [] => .stuck
  | .running (fr :: _) => fr.eases
  | .finished _ => .stuck

end Procedures

/-! ## Histories at the lowest level -/

/-- The factory that an incident builds. -/
def Incident.blueprints : Incident → List Blueprint
  | .built b => [b]
  | _ => []

/-- **The factories that have been built.** -/
def blueprints (is : List Incident) : List Blueprint := is.flatMap Incident.blueprints

/-- An incident with these factories eased. A factory that is built now gets this name. -/
def Incident.eased (R : FactoryId → Bool) (f : FactoryId) : Incident → Incident
  | .stepped t (.acted ns) => .stepped t (.acted (ns.map (Note.eased R)))
  | .built b => .built (b.eased (R f))
  | i => i

/-- **A history with these factories eased**, after so many had been built. -/
def easedFrom (R : FactoryId → Bool) : Nat → List Incident → List Incident
  | _, [] => []
  | n, i :: is => i.eased R n :: easedFrom R (n + i.blueprints.length) is

theorem blueprints_concat (is : List Incident) (i : Incident) :
    blueprints (is ++ [i]) = blueprints is ++ i.blueprints := by
  rw [blueprints, List.flatMap_append, List.flatMap_singleton, blueprints]

theorem easedFrom_concat (R : FactoryId → Bool) (n : Nat) (is : List Incident) (i : Incident) :
    easedFrom R n (is ++ [i])
      = easedFrom R n is ++ [i.eased R (n + (blueprints is).length)] := by
  induction is generalizing n with
  | nil => rfl
  | cons j is ih =>
    have hlength :
        (blueprints (j :: is)).length = j.blueprints.length + (blueprints is).length := by
      rw [blueprints, List.flatMap_cons, List.length_append, ← blueprints]
    rw [List.cons_append, easedFrom, easedFrom, ih, List.cons_append, hlength, Nat.add_assoc]

namespace Machine

variable {m m' : Machine} {R : FactoryId → Bool} {i : Incident} {is : List Incident}

theorem eased_empty (R : FactoryId → Bool) : empty.eased R = empty := by
  simp [Machine.eased, empty, Store.eased, Store.empty, LockTable.free]

theorem eased_answer (t : ThreadId) {q : Request} {after after' : q.Reply → Control}
    (reply : q.Reply) (h : ∀ r, after' r = after r) :
    (m.answer t q after reply).eased R = (m.eased R).answer t q after' reply := by
  obtain rfl : after' = after := funext h
  cases q with
  | execute x l mux => cases reply <;> rfl
  | _ => rfl

theorem Advance.eased (a : m.Advance i m') :
    (m.eased R).Advance (i.eased R m.store.factories.size) (m'.eased R)
      ∧ m'.store.factories.size = m.store.factories.size + i.blueprints.length := by
  cases a with
  | @act t c c' g ns hc h =>
    have hmove := h ▸ c.eases (R := R) (s := m.store) (t := t)
    generalize heased : c.move (m.store.eased R) t = mv at hmove
    cases hmove with
    | @act _ g' _ _ hg hsize =>
      refine ⟨?_, hsize⟩
      have hm : (m.act t g c').eased R = (m.eased R).act t g' c' :=
        congrArg (fun s => Machine.mk s _) hg.symm
      rw [hm]
      exact .act hc heased
  | @answer t c q after hc h reply =>
    have hmove := h ▸ c.eases (R := R) (s := m.store) (t := t)
    generalize heased : c.move (m.store.eased R) t = mv at hmove
    cases hmove with
    | ask hafter =>
      refine ⟨?_, by rw [store_answer]; rfl⟩
      rw [eased_answer t reply hafter]
      exact .answer (m := m.eased R) hc heased reply
  | call home o => exact ⟨.call home o, rfl⟩
  | build b =>
    refine ⟨?_, by rw [Machine.build, Store.build, Array.size_push]; rfl⟩
    have hm : (m.build b).eased R = (m.eased R).build (b.eased (R m.store.factories.size)) :=
      congrArg (fun s => Machine.mk s m.threads) (m.store.eased_build b)
    rw [hm]
    exact .build _

/-- The factories there are have been built. -/
theorem Run.size_factories (r : Run is m) : m.store.factories.size = (blueprints is).length := by
  refine r.induction (motive := fun is m => m.store.factories.size = (blueprints is).length) rfl ?_
  intro is m i m' _ ih a
  rw [(a.eased (R := fun _ => false)).2, ih, blueprints_concat, List.length_append]

/-- **A history with some factories eased is a history**, and leads to the machine with
these factories eased. -/
theorem Run.eased (r : Run is m) (R : FactoryId → Bool) :
    Run (easedFrom R 0 is) (m.eased R) := by
  refine r.induction (motive := fun is m => Run (easedFrom R 0 is) (m.eased R)) ?empty ?advance
  case empty => rw [eased_empty]; exact .empty
  case advance =>
    intro is m i m' r ih a
    rw [easedFrom_concat, Nat.zero_add, ← r.size_factories]
    exact a.eased.1.run ih

end Machine

/-! ## What the levels cannot change -/

/-- All factories. -/
def everywhere : FactoryId → Bool := fun _ => true

section Twice

variable (R : FactoryId → Bool)

theorem Factory.eased_eased (b : Bool) (f : Factory) : (f.eased b).eased true = f.eased true := by
  have hboss : Boss.eased true ∘ Boss.eased b = Boss.eased true := rfl
  have hworker : Worker.eased true ∘ Worker.eased b = Worker.eased true := rfl
  simp only [eased, Option.map_map, Array.map_map, hboss, hworker]
  rfl

theorem Store.eased_eased (s : Store) : (s.eased R).eased everywhere = s.eased everywhere := by
  simp only [eased, Array.mapIdx_mapIdx, List.filter_filter, mk.injEq, true_and,
    LockTable.mk.injEq]
  refine ⟨?_, List.filter_congr fun e _ => ?_⟩
  · congr 1
    funext f fac
    exact fac.eased_eased _
  · cases e.1 <;> simp [Lock.isEased, everywhere]

theorem Note.eased_eased (n : Note) : (n.eased R).eased everywhere = n.eased everywhere := by
  cases n with
  | said n => cases n <;> rfl
  | _ => rfl

theorem Incident.eased_eased (i : Incident) (n : Nat) :
    (i.eased R n).eased everywhere n = i.eased everywhere n := by
  match i with
  | .stepped t (.acted ns) =>
    have hnotes : Note.eased everywhere ∘ Note.eased R = Note.eased everywhere :=
      funext (Note.eased_eased R)
    simp only [eased, List.map_map, hnotes]
  | .stepped t (.answered q reply) => rfl
  | .called .. => rfl
  | .built _ => rfl

theorem Incident.length_blueprints_eased (i : Incident) (n : Nat) :
    (i.eased R n).blueprints.length = i.blueprints.length := by
  match i with
  | .stepped t (.acted ns) => rfl
  | .stepped t (.answered q reply) => rfl
  | .called .. => rfl
  | .built _ => rfl

theorem easedFrom_easedFrom (n : Nat) (is : List Incident) :
    easedFrom everywhere n (easedFrom R n is) = easedFrom everywhere n is := by
  induction is generalizing n with
  | nil => rfl
  | cons i is ih =>
    rw [easedFrom, easedFrom, i.eased_eased, i.length_blueprints_eased, ih, easedFrom]

end Twice

section Telling

variable (R : FactoryId → Bool) (n : Nat) (is : List Incident) (l : LoopId)

/-- Whoever looks neither at notes nor at levels sees no difference. -/
theorem map_easedFrom {β : Type} {f : Incident → β}
    (hacted : ∀ t ns ns', f (.stepped t (.acted ns)) = f (.stepped t (.acted ns')))
    (hbuilt : ∀ b b', f (.built b) = f (.built b')) :
    (easedFrom R n is).map f = is.map f := by
  induction is generalizing n with
  | nil => rfl
  | cons i is ih =>
    rw [easedFrom, List.map_cons, List.map_cons, ih]
    congr 1
    match i with
    | .stepped t (.acted ns) => exact hacted ..
    | .stepped t (.answered q reply) => rfl
    | .called .. => rfl
    | .built _ => exact hbuilt ..

theorem opened_easedFrom : opened (easedFrom R n is) l = opened is l := by
  have hmap := map_easedFrom R n is (f := Incident.opened l) (fun _ _ _ => rfl) fun _ _ => rfl
  rw [opened, List.flatMap_def, hmap, ← List.flatMap_def, opened]

theorem taken_easedFrom : taken (easedFrom R n is) l = taken is l := by
  have hmap := map_easedFrom R n is (f := Incident.taken l) (fun _ _ _ => rfl) fun _ _ => rfl
  rw [taken, hmap, taken]

theorem wakesAt_easedFrom : wakesAt (easedFrom R n is) l = wakesAt is l := by
  have hmap := map_easedFrom R n is (f := Incident.isWake l) (fun _ _ _ => rfl) fun _ _ => rfl
  have hcount := congrArg (List.countP id) hmap
  rwa [List.countP_map, List.countP_map, Function.id_comp] at hcount

/-- **What has been built is the same but for the levels** of these factories. -/
theorem blueprints_easedFrom :
    blueprints (easedFrom R n is) = (blueprints is).mapIdx fun f b => b.eased (R (n + f)) := by
  induction is generalizing n with
  | nil => rfl
  | cons i is ih =>
    rw [easedFrom, blueprints, List.flatMap_cons, ← blueprints, ih, blueprints.eq_def (i :: is),
      List.flatMap_cons, ← blueprints]
    match i with
    | .stepped t (.acted ns) => rfl
    | .stepped t (.answered q reply) => rfl
    | .called .. => rfl
    | .built b =>
      simp only [Incident.eased, Incident.blueprints, List.singleton_append, List.mapIdx_cons,
        List.length_singleton, Nat.add_zero, Nat.add_assoc, Nat.add_comm 1]

theorem notes_easedFrom :
    (easedFrom R n is).flatMap Incident.notes = (is.flatMap Incident.notes).map (Note.eased R) := by
  induction is generalizing n with
  | nil => rfl
  | cons i is ih =>
    rw [easedFrom, List.flatMap_cons, List.flatMap_cons, List.map_append, ih]
    match i with
    | .stepped t (.acted ns) => rfl
    | .stepped t (.answered q reply) => rfl
    | .called .. => rfl
    | .built _ => rfl

end Telling

namespace Machine

variable {m m' : Machine} {is is' : List Incident}

/-- **Two histories that differ in the levels alone**, with the machines that they lead
to. -/
structure SameButLevels (is : List Incident) (m : Machine) (is' : List Incident) (m' : Machine) :
    Prop where
  /-- Every thread stands where it stands in the other, or has ended with the same result. -/
  threads : m'.threads = m.threads
  /-- Endpoints are in the same states, with the same addresses. -/
  endpoints : m'.store.endpoints = m.store.endpoints
  /-- Loops have the same flags, multiplexers and queues, -/
  loops : ∀ l, (m'.store.loop? l).map (Loop.eased true) = (m.store.loop? l).map (Loop.eased true)
  /-- and factories the same counters. -/
  factories : ∀ f : FactoryId, (m'.store.factories[f]?).map (Factory.eased true)
    = (m.store.factories[f]?).map (Factory.eased true)
  /-- The same locks are held but for the turns. -/
  locks : ∀ k, k.isBrief = true → m'.store.locks.holder? k = m.store.locks.holder? k
  /-- The same has been said and noted. -/
  notes : (is'.flatMap Incident.notes).map (Note.eased everywhere)
    = (is.flatMap Incident.notes).map (Note.eased everywhere)
  /-- The same jobs have been appended, run and dropped, in the same order. -/
  jobs : ∀ l, SameLogs is is' l
  /-- The same attempts have been accepted, -/
  accepted : ∀ e, EndpointControl.accepted is' e = EndpointControl.accepted is e
  /-- and the same endpoints counted. -/
  counted : ∀ e, EndpointControl.counted is' e = EndpointControl.counted is e
  /-- The same multiplexers have been opened for each loop, -/
  opened : ∀ l, EndpointControl.opened is' l = EndpointControl.opened is l
  /-- an executor has taken it as often, -/
  taken : ∀ l, EndpointControl.taken is' l = EndpointControl.taken is l
  /-- and somebody has gone to wake it as often. -/
  wakes : ∀ l, wakesAt is' l = wakesAt is l

/-- **Two histories that are the same once all factories are eased** differ in the levels
alone. -/
theorem SameButLevels.of_eased (his : easedFrom everywhere 0 is' = easedFrom everywhere 0 is)
    (hm : m'.eased everywhere = m.eased everywhere) : SameButLevels is m is' m' := by
  have hstore : m'.store.eased everywhere = m.store.eased everywhere :=
    (congrArg Machine.store hm :)
  have hnotes : (is'.flatMap Incident.notes).map (Note.eased everywhere)
      = (is.flatMap Incident.notes).map (Note.eased everywhere) := by
    rw [← notes_easedFrom, his, notes_easedFrom]
  -- what is told of jobs and endpoints names no level
  have same {β : Type} {f : Note → β}
      (hf : ∀ l p v v', f (.said (.submitted l p v)) = f (.said (.submitted l p v'))) :
      (is'.flatMap Incident.notes).map f = (is.flatMap Incident.notes).map f := by
    have heased : f ∘ Note.eased everywhere = f := by
      funext n
      rw [Function.comp_apply]
      unfold Note.eased
      split
      · exact hf ..
      · rfl
    have hmap := congrArg (List.map f) hnotes
    rwa [List.map_map, List.map_map, heased] at hmap
  have sameJobs {f : Note → List Job}
      (hf : ∀ l p v v', f (.said (.submitted l p v)) = f (.said (.submitted l p v'))) :
      (is'.flatMap Incident.notes).flatMap f = (is.flatMap Incident.notes).flatMap f := by
    rw [List.flatMap_def, same hf, ← List.flatMap_def]
  have sameCount {p : Note → Bool}
      (hp : ∀ l q v v', p (.said (.submitted l q v)) = p (.said (.submitted l q v'))) :
      (is'.flatMap Incident.notes).countP p = (is.flatMap Incident.notes).countP p := by
    have hcount := congrArg (List.countP id) (same hp)
    rwa [List.countP_map, List.countP_map, Function.id_comp] at hcount
  exact {
    threads := (congrArg Machine.threads hm :)
    endpoints := (congrArg Store.endpoints hstore :)
    loops := fun l => by
      have heq := congrArg (Store.loop? · l) hstore
      simpa only [Store.loop?_eased, everywhere] using heq
    factories := fun f => by
      have heq := congrArg (fun s : Store => s.factories[f]?) hstore
      simpa only [Store.factories_eased, everywhere] using heq
    locks := fun k hk => by
      have hkept : k.isEased everywhere = false := by cases k <;> first | rfl | cases hk
      rw [← Store.holder?_eased hkept, hstore, Store.holder?_eased hkept]
    notes := hnotes
    jobs := fun l => ⟨sameJobs fun _ _ _ _ => rfl, sameJobs fun _ _ _ _ => rfl,
      sameJobs fun _ _ _ _ => rfl, congrArg List.sum (same fun _ _ _ _ => rfl)⟩
    accepted := fun e => sameCount fun _ _ _ _ => rfl
    counted := fun e => sameCount fun _ _ _ _ => rfl
    opened := fun l => by rw [← opened_easedFrom everywhere 0, his, opened_easedFrom]
    taken := fun l => by rw [← taken_easedFrom everywhere 0, his, taken_easedFrom]
    wakes := fun l => by rw [← wakesAt_easedFrom everywhere 0, his, wakesAt_easedFrom] }

theorem eased_eased (R : FactoryId → Bool) (m : Machine) :
    (m.eased R).eased everywhere = m.eased everywhere :=
  congrArg (fun s => Machine.mk s m.threads) (Store.eased_eased R m.store)

/-- **Easing factories** changes nothing but the levels. -/
theorem sameButLevels_eased (R : FactoryId → Bool) (is : List Incident) (m : Machine) :
    SameButLevels is m (easedFrom R 0 is) (m.eased R) :=
  .of_eased (easedFrom_easedFrom R 0 is) (eased_eased R m)

/-- **Histories in which the same is called and built but for the levels, everybody moves when
they do in the other, and the same is answered** differ in the levels alone. -/
theorem Run.sameButLevels (r : Run is m) (r' : Run is' m')
    (h : (easedFrom everywhere 0 is').map Incident.plain
      = (easedFrom everywhere 0 is).map Incident.plain) : SameButLevels is m is' m' := by
  obtain ⟨his, hm⟩ := (r'.eased everywhere).eq_of_plain (r.eased everywhere) h
  exact .of_eased his hm

end Machine

end EndpointControl
