import EndpointControl.Proofs.Growth

/-!
# What a step leaves behind

Every invariant is proved in the same way: it holds where a thread begins, it
holds after each step of the thread itself, and the steps of the others do not
disturb it. The first part of this module makes the moves of a thread easy to
take apart; the second shows that every step makes the store grow
(`Control.grows_of_move`); the third is the induction itself, once for all
invariants that speak of the store and of one thread at a time
(`Machine.Reachable.invariant`).
-/

namespace EndpointControl

/-! ## Taking moves apart -/

namespace Move

variable {s : Store} {t : ThreadId} {c c' : Control} {g : Store → Store} {ns : List Note}

@[simp 1100] theorem act_eq_act {k : Store → Store} {ns' : List Note} :
    Move.act k c ns' = .act g c' ns ↔ g = k ∧ c' = c ∧ ns = ns' := by
  simp only [act.injEq, eq_comm]

@[simp] theorem tell_eq_act {ns' : List Note} :
    tell c ns' = .act g c' ns ↔ g = (fun s => s) ∧ c' = c ∧ ns = ns' := act_eq_act

@[simp] theorem go_eq_act : go c = .act g c' ns ↔ g = (fun s => s) ∧ c' = c ∧ ns = [] :=
  act_eq_act

@[simp] theorem say_eq_act {n : Notice} :
    say n c = .act g c' ns ↔ g = (fun s => s) ∧ c' = c ∧ ns = [.said n] := act_eq_act

@[simp] theorem change_eq_act {k : Store → Store} :
    change k c = .act g c' ns ↔ g = k ∧ c' = c ∧ ns = [] := act_eq_act

@[simp] theorem takeLock_eq_act {l : Lock} :
    takeLock s t l c = .act g c' ns
      ↔ s.locks.holder? l = none ∧ g = (fun s => s.takeLock l t) ∧ c' = c ∧ ns = [] := by
  unfold takeLock
  cases s.locks.holder? l with
  | none => simp
  | some _ => simp

variable {r : Request} {after : r.Reply → Control}

@[simp] theorem tell_ne_ask {ns' : List Note} : tell c ns' ≠ .ask r after := nofun

@[simp] theorem go_ne_ask : go c ≠ .ask r after := nofun

@[simp] theorem say_ne_ask {n : Notice} : say n c ≠ .ask r after := nofun

@[simp] theorem change_ne_ask {k : Store → Store} : change k c ≠ .ask r after := nofun

@[simp] theorem takeLock_ne_ask {l : Lock} : takeLock s t l c ≠ .ask r after := by
  unfold takeLock
  split <;> nofun

end Move

/-- **What a procedure does next, with what it is about.** A procedure whose loop,
endpoint or factory cannot be found is stuck, so one that is not has found it. -/
inductive Frame.Moves (s : Store) (t : ThreadId) (below : List Frame) (mv : Move) :
    Frame → Prop where
  | start {id : LoopId} {l : Loop} {p : StartPoint} (found : s.loop? id = some l)
    (h : p.move s t below id l = mv) : Moves s t below mv (.start id p)
  | submit {id : LoopId} {l : Loop} {j : Job} {p : SubmitPoint} (found : s.loop? id = some l)
    (h : p.move s t below id l j = mv) : Moves s t below mv (.submit id j p)
  | signal {id : LoopId} {l : Loop} {p : SignalPoint} (found : s.loop? id = some l)
    (h : p.move s t below id l = mv) : Moves s t below mv (.signal id p)
  | serve {id : LoopId} {l : Loop} {m : Multiplexer} {p : ServePoint}
    (found : s.loop? id = some l) (h : p.move s t below id l m = mv) :
    Moves s t below mv (.serve id m p)
  | attempt {id : EndpointId} {e : Endpoint} {a : Address} {p : AttemptPoint}
    (found : s.endpoints[id]? = some e) (h : p.move below id e a = mv) :
    Moves s t below mv (.attempt id a p)
  | registration {id : EndpointId} {e : Endpoint} {p : RegistrationPoint}
    (found : s.endpoints[id]? = some e) (h : p.move s t below id e = mv) :
    Moves s t below mv (.registration id p)
  | drop {id : EndpointId} {e : Endpoint} {p : DropPoint} (found : s.endpoints[id]? = some e)
    (h : p.move s t below id e = mv) : Moves s t below mv (.drop id p)
  | create {id : FactoryId} {f : Factory} {p : CreatePoint} (found : s.factories[id]? = some f)
    (h : p.move s below id f = mv) : Moves s t below mv (.create id p)
  | connect {id : EndpointId} {e : Endpoint} {a : Address} {p : ConnectPoint}
    (found : s.endpoints[id]? = some e) (h : p.move s t below id e a = mv) :
    Moves s t below mv (.connect id a p)
  | close {id : EndpointId} {e : Endpoint} {p : ClosePoint} (found : s.endpoints[id]? = some e)
    (h : p.move s t below id e = mv) : Moves s t below mv (.close id p)
  | release {id : FactoryId} {f : Factory} {p : ReleasePoint}
    (found : s.factories[id]? = some f) (h : p.move below id f = mv) :
    Moves s t below mv (.release id p)

theorem Frame.moves {s : Store} {t : ThreadId} {below : List Frame} {mv : Move} {fr : Frame}
    (h : fr.move s t below = mv) (hne : mv ≠ .stuck) : fr.Moves s t below mv := by
  cases fr <;> simp only [Frame.move] at h
  case start =>
    split at h
    case h_1 found => exact .start found h
    case h_2 => exact absurd h.symm hne
  case submit =>
    split at h
    case h_1 found => exact .submit found h
    case h_2 => exact absurd h.symm hne
  case signal =>
    split at h
    case h_1 found => exact .signal found h
    case h_2 => exact absurd h.symm hne
  case serve =>
    split at h
    case h_1 found => exact .serve found h
    case h_2 => exact absurd h.symm hne
  case attempt =>
    split at h
    case h_1 found => exact .attempt found h
    case h_2 => exact absurd h.symm hne
  case registration =>
    split at h
    case h_1 found => exact .registration found h
    case h_2 => exact absurd h.symm hne
  case drop =>
    split at h
    case h_1 found => exact .drop found h
    case h_2 => exact absurd h.symm hne
  case create =>
    split at h
    case h_1 found => exact .create found h
    case h_2 => exact absurd h.symm hne
  case connect =>
    split at h
    case h_1 found => exact .connect found h
    case h_2 => exact absurd h.symm hne
  case close =>
    split at h
    case h_1 found => exact .close found h
    case h_2 => exact absurd h.symm hne
  case release =>
    split at h
    case h_1 found => exact .release found h
    case h_2 => exact absurd h.symm hne

theorem Control.moves_of_running {s : Store} {t : ThreadId} {fr : Frame} {below : List Frame}
    {g : Store → Store} {c' : Control} {ns : List Note}
    (h : (Control.running (fr :: below)).move s t = .act g c' ns) :
    fr.Moves s t below (.act g c' ns) :=
  Frame.moves h nofun

/-- **A thread that acts stands in a procedure.** -/
theorem Control.moves_of_act {s : Store} {t : ThreadId} {c : Control} {g : Store → Store}
    {c' : Control} {ns : List Note} (h : c.move s t = .act g c' ns) :
    ∃ fr below, c = .running (fr :: below) ∧ fr.Moves s t below (.act g c' ns) := by
  match c, h with
  | .running (fr :: below), h => exact ⟨fr, below, rfl, moves_of_running h⟩

/-- **What can be asked, and where.** -/
inductive Frame.Asks (s : Store) (below : List Frame) :
    Frame → (r : Request) → (r.Reply → Control) → Prop where
  | openNew {id : LoopId} {l : Loop} (found : s.loop? id = some l) :
    Asks s below (.start id .openNew) (.openMultiplexer id l.provider) fun
      | .ok m => .running (.start id (.fillSlot m) :: below)
      | .error cause =>
        .running (.start id (.leave (.error (.unopened l.provider.identity cause))) :: below)
  | execute {id : LoopId} {l : Loop} {m : Multiplexer} (found : s.loop? id = some l) :
    Asks s below (.start id (.execute m)) (.execute l.executor id m) fun taken =>
      .running (.start id (if taken then .mark else .leave (.error (.refused id.seat.role))) ::
        below)
  | wakeSubmit {id : LoopId} {j : Job} {m : Multiplexer} :
    Asks s below (.submit id j (.wake m)) (.wake id m) fun
      | .ok () => .running (.submit id j .leave :: below)
      | .error cause => .running (.submit id j (.wakeFailed cause) :: below)
  | wakeSignal {id : LoopId} {m : Multiplexer} :
    Asks s below (.signal id (.wake m)) (.wake id m) fun
      | .ok () => .running (.signal id .giveSlot :: below)
      | .error cause => .running (.signal id (.wakeFailed cause) :: below)
  | wait {id : LoopId} {m : Multiplexer} :
    Asks s below (.serve id m .wait) (.wait id m) fun r =>
      .running (.serve id m (.waited r) :: below)
  | shutDown {f : FactoryId} {u u' : Termination} {x : ExecutorId}
    (h : u.turn = .shutDown x u') :
    Asks s below (.release f (.terminate u)) (.shutDown x) fun () =>
      .running (.release f (.terminate u') :: below)
  | isMember {f : FactoryId} {u : Termination} {x : ExecutorId} {k : Bool → Termination}
    (h : u.turn = .isMember x k) :
    Asks s below (.release f (.terminate u)) (.isMember x) fun own =>
      .running (.release f (.terminate (k own)) :: below)
  | await {f : FactoryId} {u : Termination} {x : ExecutorId} {k : Bool → Termination}
    (h : u.turn = .await x k) :
    Asks s below (.release f (.terminate u)) (.await x) fun ended =>
      .running (.release f (.terminate (k ended)) :: below)

theorem Frame.Moves.asks {s : Store} {t : ThreadId} {below : List Frame} {fr : Frame}
    {r : Request} {after : r.Reply → Control} (h : fr.Moves s t below (.ask r after)) :
    fr.Asks s below r after := by
  cases h with
  | @start _ _ p found hp =>
    cases p
    case openNew => cases hp; exact .openNew found
    case execute m => cases hp; exact .execute found
    all_goals simp [StartPoint.move] at hp
  | @submit _ _ _ p found hp =>
    cases p
    case wake m => cases hp; exact .wakeSubmit
    -- no other point of a submission asks, on either side of its branch
    all_goals simp [SubmitPoint.move] at hp
    -- what is asked is what the termination has its turn at
    all_goals split at hp <;> simp at hp
  | @signal _ _ p found hp =>
    cases p
    case wake m => cases hp; exact .wakeSignal
    all_goals simp [SignalPoint.move] at hp
  | @serve _ _ _ p found hp =>
    cases p
    case wait => cases hp; exact .wait
    case run batch n => cases batch <;> simp [ServePoint.move] at hp
    case report n => cases n <;> simp [ServePoint.move] at hp
    case discard rest n => cases rest <;> simp [ServePoint.move] at hp
    all_goals simp [ServePoint.move] at hp
    all_goals split at hp <;> simp at hp
  | @attempt _ _ _ p found hp => cases p <;> simp [AttemptPoint.move] at hp
  | @registration _ _ p found hp => cases p <;> simp [RegistrationPoint.move] at hp
  | @drop _ _ p found hp => cases p <;> simp [DropPoint.move] at hp
  | @create _ _ p found hp =>
    cases p <;> simp [CreatePoint.move] at hp
    all_goals split at hp <;> simp at hp
  | @connect _ _ _ p found hp =>
    cases p <;> simp [ConnectPoint.move] at hp
    split at hp <;> simp at hp
  | @close _ _ p found hp => cases p <;> simp [ClosePoint.move] at hp
  | @release _ _ p found hp =>
    cases p
    case terminate u =>
      simp only [ReleasePoint.move] at hp
      split at hp
      · rename_i hu; cases hp; exact .shutDown hu
      · rename_i hu; cases hp; exact .isMember hu
      · rename_i hu; cases hp; exact .await hu
      all_goals simp at hp
    case signalWorkers i =>
      simp only [ReleasePoint.move] at hp
      split at hp <;> simp at hp
    all_goals simp [ReleasePoint.move] at hp

/-- **A thread that asks stands in a procedure.** -/
theorem Control.asks {s : Store} {t : ThreadId} {c : Control} {r : Request}
    {after : r.Reply → Control} (h : c.move s t = .ask r after) :
    ∃ fr below, c = .running (fr :: below) ∧ fr.Asks s below r after := by
  match c, h with
  | .running (fr :: below), h => exact ⟨fr, below, rfl, (Frame.moves h nofun).asks⟩

/-! ## Every step makes the store grow -/

section Grows

variable {s : Store} {t : ThreadId} {below : List Frame} {g : Store → Store} {c : Control}
  {ns : List Note}

theorem StartPoint.grows_of_move {id : LoopId} {l : Loop} {p : StartPoint}
    (h : p.move s t below id l = .act g c ns) : s.Grows (g s) := by
  cases p <;> simp [StartPoint.move] at h
  case takeSlot => exact h.2.1 ▸ s.grows_takeLock ..
  case fillSlot m =>
    rw [h.1]
    exact s.grows_modifyLoop id fun l => ⟨rfl, rfl, rfl, fun h => h, fun h => h, fun h => h⟩
  case mark =>
    rw [h.1]
    exact s.grows_modifyLoop id fun l => ⟨rfl, rfl, rfl, fun _ => rfl, fun h => h, fun h => h⟩
  case leave r => simp [h.1, Store.Grows.refl]
  all_goals exact h.1 ▸ .refl s

theorem SubmitPoint.grows_of_move {id : LoopId} {l : Loop} {j : Job} {p : SubmitPoint}
    (h : p.move s t below id l j = .act g c ns) : s.Grows (g s) := by
  cases p <;> simp [SubmitPoint.move] at h
  case takeSlot => exact h.2.1 ▸ s.grows_takeLock ..
  case takeQueue m => exact h.2.1 ▸ s.grows_takeLock ..
  case readSlot => simp [h.1, Store.Grows.refl]
  case append m =>
    rw [h.1, Store.grows_giveLock_iff]
    exact s.grows_modifyLoop id fun l => ⟨rfl, rfl, rfl, fun h => h, fun h => h, fun h => h⟩
  case serialize m =>
    split at h <;> simp at h
    · exact h.2.1 ▸ s.grows_takeLock ..
    · exact h.1 ▸ .refl s
  case leave =>
    split at h <;> simp at h
    · simp [h.1, Store.Grows.refl]
    · exact h.1 ▸ .refl s
  all_goals exact h.1 ▸ .refl s

theorem SignalPoint.grows_of_move {id : LoopId} {l : Loop} {p : SignalPoint}
    (h : p.move s t below id l = .act g c ns) : s.Grows (g s) := by
  cases p <;> simp [SignalPoint.move] at h
  case raise =>
    rw [h.1]
    exact s.grows_modifyLoop id fun l => ⟨rfl, rfl, rfl, fun h => h, fun _ => rfl, fun h => h⟩
  case takeSlot => exact h.2.1 ▸ s.grows_takeLock ..
  case giveSlot => simp [h.1, Store.Grows.refl]
  all_goals exact h.1 ▸ .refl s

theorem ServePoint.grows_of_move {id : LoopId} {l : Loop} {m : Multiplexer} {p : ServePoint}
    (h : p.move s t below id l m = .act g c ns) : s.Grows (g s) := by
  cases p
  case run batch n =>
    cases batch <;> simp [ServePoint.move] at h <;> exact h.1 ▸ .refl s
  case report n =>
    cases n <;> simp [ServePoint.move] at h <;> exact h.1 ▸ .refl s
  case discard rest n =>
    cases rest <;> simp [ServePoint.move] at h <;> exact h.1 ▸ .refl s
  all_goals simp [ServePoint.move] at h
  case serialize =>
    split at h <;> simp at h
    · exact h.2.1 ▸ s.grows_takeLock ..
    · exact h.1 ▸ .refl s
  case takeQueue => exact h.2.1 ▸ s.grows_takeLock ..
  case takeQueueLast => exact h.2.1 ▸ s.grows_takeLock ..
  case takeBatch =>
    rw [h.1, Store.grows_giveLock_iff]
    exact s.grows_modifyLoop id fun l => ⟨rfl, rfl, rfl, fun h => h, fun h => h, fun h => h⟩
  case takeRest =>
    rw [h.1, Store.grows_giveLock_iff]
    exact s.grows_modifyLoop id fun l => ⟨rfl, rfl, rfl, fun h => h, fun h => h, fun h => h⟩
  case endTurn n =>
    split at h <;> simp at h
    · simp [h.1, Store.Grows.refl]
    · exact h.1 ▸ .refl s
  case markExited n =>
    rw [h.1]
    exact s.grows_modifyLoop id fun l => ⟨rfl, rfl, rfl, fun h => h, fun h => h, fun _ => rfl⟩
  all_goals exact h.1 ▸ .refl s

theorem AttemptPoint.grows_of_move {id : EndpointId} {e : Endpoint} {a : Address}
    {p : AttemptPoint} (h : p.move below id e a = .act g c ns) : s.Grows (g s) := by
  cases p <;> simp [AttemptPoint.move] at h
  all_goals exact h.1 ▸ .refl s

theorem RegistrationPoint.grows_of_move {id : EndpointId} {e : Endpoint}
    {p : RegistrationPoint} (h : p.move s t below id e = .act g c ns) : s.Grows (g s) := by
  cases p <;> simp [RegistrationPoint.move] at h
  case takeStatus => exact h.2.1 ▸ s.grows_takeLock ..
  case mark =>
    rw [h.1, Store.grows_giveLock_iff]
    exact s.grows_setStatus ..
  case count =>
    rw [h.1]
    exact s.grows_modifyFactory _ fun f => Factory.grows_modifyWorker fun w => rfl
  case announce => exact h.1 ▸ .refl s

theorem DropPoint.grows_of_move {id : EndpointId} {e : Endpoint} {p : DropPoint}
    (h : p.move s t below id e = .act g c ns) : s.Grows (g s) := by
  cases p <;> simp [DropPoint.move] at h
  case takeStatus => exact h.2.1 ▸ s.grows_takeLock ..
  case revert =>
    rw [h.1, Store.grows_giveLock_iff]
    exact s.grows_setStatus ..

theorem CreatePoint.grows_of_move {id : FactoryId} {f : Factory} {p : CreatePoint}
    (h : p.move s below id f = .act g c ns) : s.Grows (g s) := by
  cases p <;> simp [CreatePoint.move] at h
  case pickWorker =>
    rw [h.1]
    exact s.grows_modifyFactory _ fun f =>
      ⟨rfl, rfl, rfl, rfl, fun h => h, fun hl => ⟨_, hl, .refl _⟩⟩
  case drawNumber w =>
    rw [h.1]
    exact s.grows_modifyFactory _ fun f =>
      ⟨rfl, rfl, rfl, rfl, fun h => h, fun hl => ⟨_, hl, .refl _⟩⟩
  case count w n =>
    rw [h.1]
    exact s.grows_modifyFactory _ fun f => Factory.grows_modifyWorker fun w => rfl
  case enroll w n => exact h.1 ▸ s.grows_enroll ..
  case submit e => split at h <;> simp at h; exact h.1 ▸ .refl s
  case announce e => split at h <;> simp at h; exact h.1 ▸ .refl s
  all_goals exact h.1 ▸ .refl s

theorem ConnectPoint.grows_of_move {id : EndpointId} {e : Endpoint} {a : Address}
    {p : ConnectPoint} (h : p.move s t below id e a = .act g c ns) : s.Grows (g s) := by
  cases p <;> simp [ConnectPoint.move] at h
  case takeStatus => exact h.2.1 ▸ s.grows_takeLock ..
  case begin =>
    split at h <;> simp at h <;> rw [h.1, Store.grows_giveLock_iff]
    · exact s.grows_setStatus ..
    · exact .refl s
  case count =>
    rw [h.1]
    exact s.grows_modifyFactory _ fun f => Factory.grows_modifyBoss fun b => rfl
  all_goals exact h.1 ▸ .refl s

theorem ClosePoint.grows_of_move {id : EndpointId} {e : Endpoint} {p : ClosePoint}
    (h : p.move s t below id e = .act g c ns) : s.Grows (g s) := by
  cases p <;> simp [ClosePoint.move] at h
  case takeStatus => exact h.2.1 ▸ s.grows_takeLock ..
  case close =>
    rw [h.1, Store.grows_giveLock_iff]
    exact s.grows_setStatus ..

theorem ReleasePoint.grows_of_move {id : FactoryId} {f : Factory} {p : ReleasePoint}
    (h : p.move below id f = .act g c ns) : s.Grows (g s) := by
  cases p <;> simp [ReleasePoint.move] at h
  case raise =>
    rw [h.1]
    exact s.grows_modifyFactory _ fun f =>
      ⟨rfl, rfl, rfl, rfl, fun _ => rfl, fun hl => ⟨_, hl, .refl _⟩⟩
  case signalWorkers i => split at h <;> simp at h <;> exact h.1 ▸ .refl s
  case terminate u => split at h <;> simp at h <;> exact h.1 ▸ .refl s
  all_goals exact h.1 ▸ .refl s

/-- **Every step makes the store grow.** -/
theorem Control.grows_of_move {c₀ : Control} (h : c₀.move s t = .act g c ns) :
    s.Grows (g s) := by
  obtain ⟨fr, below, rfl, hm⟩ := moves_of_act h
  cases hm with
  | start _ hp => exact StartPoint.grows_of_move hp
  | submit _ hp => exact SubmitPoint.grows_of_move hp
  | signal _ hp => exact SignalPoint.grows_of_move hp
  | serve _ hp => exact ServePoint.grows_of_move hp
  | attempt _ hp => exact AttemptPoint.grows_of_move hp
  | registration _ hp => exact RegistrationPoint.grows_of_move hp
  | drop _ hp => exact DropPoint.grows_of_move hp
  | create _ hp => exact CreatePoint.grows_of_move hp
  | connect _ hp => exact ConnectPoint.grows_of_move hp
  | close _ hp => exact ClosePoint.grows_of_move hp
  | release _ hp => exact ReleasePoint.grows_of_move hp

end Grows

/-! ## Machines -/

namespace Machine

variable {m : Machine} {t t' : ThreadId} {c c' : Control}

theorem control?_act (m : Machine) (t t' : ThreadId) (g : Store → Store) (c : Control) :
    (m.act t g c).control? t'
      = if t = t' then (m.control? t').map fun _ => c else m.control? t' :=
  control?_setControl _ t t' c

theorem control?_spawn (m : Machine) (x : Option ExecutorId) (c : Control) :
    (m.spawn x c).control? t = if t = m.threads.size then some c else m.control? t := by
  simp only [control?, spawn, Array.getElem?_push]
  split <;> simp

theorem control?_of_move_ne_stuck (h : m.move t ≠ .stuck) :
    ∃ c, m.control? t = some c ∧ m.move t = c.move m.store t := by
  unfold move at h ⊢
  cases hc : m.control? t with
  | none => rw [hc] at h; exact absurd rfl h
  | some c => exact ⟨c, rfl, rfl⟩

/-- A thread that there is has its place among the threads. -/
theorem lt_size_of_control? (h : m.control? t = some c) : t < m.threads.size := by
  obtain ⟨th, hth, -⟩ := Option.map_eq_some_iff.mp h
  exact (Array.getElem?_eq_some_iff.mp hth).1

/-- Whoever is there is not moved when somebody else begins. -/
theorem control?_spawn_of_eq_some (h : m.control? t = some c) (x : Option ExecutorId)
    (d : Control) : (m.spawn x d).control? t = some c := by
  rw [control?_spawn, if_neg (Nat.ne_of_lt (lt_size_of_control? h)), h]

/-- Whoever moves stands where it has gone. -/
theorem control?_setControl_self (h : m.control? t = some c) (d : Control) :
    (m.setControl t d).control? t = some d := by
  rw [control?_setControl, if_pos rfl, h, Option.map_some]

/-- Answering moves the thread that asked, and may add the thread of a loop. -/
theorem answer_eq (m : Machine) (t : ThreadId) (r : Request) (after : r.Reply → Control)
    (reply : r.Reply) :
    m.answer t r after reply = m.setControl t (after reply)
      ∨ ∃ x l mux, r = .execute x l mux ∧ m.answer t r after reply
        = (m.setControl t (after reply)).spawn (some x) (.running [.serve l mux .announce]) := by
  unfold answer
  dsimp only
  split
  · exact .inr ⟨_, _, _, rfl, rfl⟩
  · exact .inl rfl

/-- Whoever is answered goes on. -/
theorem control?_answer_self {q : Request} {after : q.Reply → Control} (reply : q.Reply)
    (h : m.control? t = some c) : (m.answer t q after reply).control? t = some (after reply) := by
  have hset := control?_setControl_self h (after reply)
  rcases answer_eq m t q after reply with he | ⟨x, l, mux, -, he⟩ <;> rw [he]
  · exact hset
  · exact control?_spawn_of_eq_some hset ..

theorem control?_act_self {g : Store → Store} (h : m.control? t = some c) :
    (m.act t g c').control? t = some c' := by
  rw [control?_act, if_pos rfl, h, Option.map_some]

/-- **The induction behind every invariant of one store and one thread at a
time.** The invariant of the store may be used for the threads and the other way
round, and whatever a thread knows has to outlast the steps of the others. -/
theorem Reachable.invariant {P : Store → Prop} {Q : Store → Control → Prop}
    (empty : P .empty) (built : ∀ s b, P s → P (s.build b))
    (grows : ∀ {s s' c}, s.Grows s' → Q s c → Q s' c)
    (act : ∀ {s t c g c' ns}, P s → Q s c → c.move s t = .act g c' ns → P (g s) ∧ Q (g s) c')
    (ask : ∀ {s t c} {r : Request} {after} (reply : r.Reply), P s → Q s c →
      c.move s t = .ask r after → Q s (after reply))
    (called : ∀ s (o : Operation), Q s o.control)
    (served : ∀ s l mux, Q s (.running [.serve l mux .announce]))
    (hm : m.Reachable) : P m.store ∧ ∀ t c, m.control? t = some c → Q m.store c := by
  obtain ⟨is, hm⟩ := hm
  -- a new thread leaves the others as they are
  have spawned {m : Machine} {x : Option ExecutorId} {c : Control} (hc : Q m.store c)
      (hq : ∀ t c, m.control? t = some c → Q m.store c) :
      ∀ t c', (m.spawn x c).control? t = some c' → Q m.store c' := by
    intro t c' h
    rw [control?_spawn] at h
    split at h
    · exact Option.some.inj h ▸ hc
    · exact hq t c' h
  induction hm with
  | empty => exact ⟨empty, fun t c h => by simp [control?, Machine.empty] at h⟩
  | call r home o ih => exact ⟨ih.1, spawned (called _ o) ih.2⟩
  | build r b ih =>
    exact ⟨built _ b ih.1, fun t c h => grows (Store.grows_build _ b) (ih.2 t c h)⟩
  | @step is m m' t h r s ih =>
    obtain ⟨hp, hq⟩ := ih
    cases s with
    | @act g c' ns h =>
      obtain ⟨c, hc, hmove⟩ := control?_of_move_ne_stuck (m := m) (t := t) (by rw [h]; rintro ⟨⟩)
      rw [hmove] at h
      obtain ⟨hp', hq'⟩ := act hp (hq t c hc) h
      refine ⟨hp', fun t' d hd => ?_⟩
      rw [control?_act] at hd
      split at hd
      · obtain ⟨-, -, rfl⟩ := Option.map_eq_some_iff.mp hd
        exact hq'
      · -- the other threads only see the store grow
        exact grows (Control.grows_of_move h) (hq t' d hd)
    | @answer r after h reply =>
      obtain ⟨c, hc, hmove⟩ := control?_of_move_ne_stuck (m := m) (t := t) (by rw [h]; rintro ⟨⟩)
      rw [hmove] at h
      -- an answer changes nothing but the thread that asked
      have hset : ∀ t' d, (m.setControl t (after reply)).control? t' = some d → Q m.store d := by
        intro t' d hd
        rw [control?_setControl] at hd
        split at hd
        · obtain ⟨-, -, rfl⟩ := Option.map_eq_some_iff.mp hd
          exact ask reply hp (hq t c hc) h
        · exact hq t' d hd
      rw [store_answer]
      refine ⟨hp, ?_⟩
      rcases answer_eq m t r after reply with he | ⟨x, l, mux, rfl, he⟩ <;> rw [he]
      · exact hset
      · exact spawned (m := m.setControl t (after reply)) (served _ l mux) hset

end Machine

end EndpointControl
