import EndpointControl.Proofs.Histories

/-!
# What becomes of a stack

Whatever a step of a thread does to the store, there are four things it can do to
the stack: go on within the procedure on top, call another, return to the one
below, or end the thread (`Control.goes_of_act`). So the procedure at the bottom
stays the same to the end, and what a thread ends with tells what it was started
for: a thread that ends as a connection attempt was called as one
(`Machine.Run.from_of_carriesOut`).
-/

namespace EndpointControl

namespace Frame

/-- **The same procedure with the same arguments**, at whatever points. -/
inductive SameCall : Frame → Frame → Prop where
  | start {l : LoopId} {p p' : StartPoint} : SameCall (.start l p) (.start l p')
  | submit {l : LoopId} {j : Job} {p p' : SubmitPoint} : SameCall (.submit l j p) (.submit l j p')
  | signal {l : LoopId} {p p' : SignalPoint} : SameCall (.signal l p) (.signal l p')
  | serve {l : LoopId} {m : Multiplexer} {p p' : ServePoint} :
    SameCall (.serve l m p) (.serve l m p')
  | attempt {e : EndpointId} {a : Address} {p p' : AttemptPoint} :
    SameCall (.attempt e a p) (.attempt e a p')
  | registration {e : EndpointId} {p p' : RegistrationPoint} :
    SameCall (.registration e p) (.registration e p')
  | drop {e : EndpointId} {p p' : DropPoint} : SameCall (.drop e p) (.drop e p')
  | create {f : FactoryId} {p p' : CreatePoint} : SameCall (.create f p) (.create f p')
  | connect {e : EndpointId} {a : Address} {p p' : ConnectPoint} :
    SameCall (.connect e a p) (.connect e a p')
  | close {e : EndpointId} {p p' : ClosePoint} : SameCall (.close e p) (.close e p')
  | release {f : FactoryId} {p p' : ReleasePoint} : SameCall (.release f p) (.release f p')

/-- A caller that goes on is still the same call. -/
theorem sameCall_resume (fr : Frame) (r : Except Failure Unit) : SameCall fr (fr.resume r) := by
  unfold resume
  split
  · split <;> constructor
  · split <;> constructor
  · split <;> constructor
  · split <;> constructor
  · split <;> constructor
  · cases fr <;> constructor

/-- The operation that the procedure carries out for a client. -/
def operation? : Frame → Option Operation
  | .create f _ => some (.create f)
  | .connect e a _ => some (.connect e a)
  | .close e _ => some (.close e)
  | .release f _ => some (.release f)
  | _ => none

/-- **A procedure that has just been called.** -/
def isNew : Frame → Bool
  | .start _ .readShutDown | .submit _ _ .start | .signal _ .raise | .attempt _ _ .announce
  | .registration _ .takeStatus | .drop _ .takeStatus => true
  | _ => false

theorem isRoot_of_isNew {fr : Frame} (h : fr.isNew = true) : fr.isRoot = false := by
  cases fr <;> first | rfl | exact absurd h nofun

theorem SameCall.operation? {fr fr' : Frame} (h : SameCall fr fr') :
    fr'.operation? = fr.operation? := by
  cases h <;> rfl

end Frame

/-- The operation that a thread is carrying out. -/
def Control.operation? : Control → Option Operation
  | .running stack => stack.findSome? Frame.operation?
  | .finished _ => none

/-- **How an operation can end**, and how a loop. -/
def Outcome.endsFor : Outcome → Option Operation → Bool
  | .created _, some (.create _) => true
  | .connected _, some (.connect ..) => true
  | .closed _, some (.close _) => true
  | .released, some (.release _) => true
  | .served, none => true
  | _, _ => false

/-- **Where a step can lead** from a procedure and those below it. -/
inductive Control.Goes (fr : Frame) (below : List Frame) : Control → Prop where
  /-- It goes on within the procedure. -/
  | within {fr' : Frame} (h : fr.SameCall fr') : Goes fr below (.running (fr' :: below))
  /-- It calls another. -/
  | calls {callee fr' : Frame} (h : fr.SameCall fr') (hc : callee.isNew = true) :
    Goes fr below (.running (callee :: fr' :: below))
  /-- It returns. -/
  | returns {r : Except Failure Unit} (h : fr.isRoot = false) : Goes fr below (.back below r)
  /-- It ends the thread. -/
  | ends {o : Outcome} (h : fr.isRoot = true) (ho : o.endsFor fr.operation? = true) :
    Goes fr below (.finished o)

section Procedures

variable {s : Store} {t : ThreadId} {below : List Frame} {g : Store → Store} {c : Control}
  {ns : List Note}

theorem StartPoint.goes {id : LoopId} {l : Loop} {p : StartPoint}
    (h : p.move s t below id l = .act g c ns) : c.Goes (.start id p) below := by
  cases p <;> simp [StartPoint.move] at h
  case readShutDown =>
    rw [h.2.1]
    split
    · exact .returns rfl
    · exact .within .start
  case readStarted =>
    rw [h.2.1]
    split
    · exact .returns rfl
    · exact .within .start
  case takeSlot => exact h.2.2.1 ▸ .within .start
  case leave r => exact h.2.1 ▸ .returns rfl
  all_goals exact h.2.1 ▸ .within .start

theorem SubmitPoint.goes {id : LoopId} {l : Loop} {j : Job} {p : SubmitPoint}
    (h : p.move s t below id l j = .act g c ns) : c.Goes (.submit id j p) below := by
  cases p <;> simp [SubmitPoint.move] at h
  case start => exact h.2.1 ▸ .calls .submit rfl
  case takeSlot => exact h.2.2.1 ▸ .within .submit
  case takeQueue m => exact h.2.2.1 ▸ .within .submit
  case serialize m =>
    split at h <;> simp at h
    · exact h.2.2.1 ▸ .within .submit
    · exact h.2.1 ▸ .within .submit
  case leave =>
    split at h <;> simp at h
    · exact h.2.1 ▸ .returns rfl
    · exact h.2.1 ▸ .returns rfl
  case refuse e => exact h.2.1 ▸ .calls .submit rfl
  case refused e => exact h.2.1 ▸ .returns rfl
  all_goals exact h.2.1 ▸ .within .submit

theorem SignalPoint.goes {id : LoopId} {l : Loop} {p : SignalPoint}
    (h : p.move s t below id l = .act g c ns) : c.Goes (.signal id p) below := by
  cases p <;> simp [SignalPoint.move] at h
  case raise =>
    rw [h.2.1]
    split
    · exact .returns rfl
    · exact .within .signal
  case takeSlot => exact h.2.2.1 ▸ .within .signal
  case announce => exact h.2.1 ▸ .returns rfl
  all_goals exact h.2.1 ▸ .within .signal

theorem ServePoint.goes {id : LoopId} {l : Loop} {m : Multiplexer} {p : ServePoint}
    (h : p.move s t below id l m = .act g c ns) : c.Goes (.serve id m p) below := by
  cases p
  case run batch n =>
    cases batch with
    | nil => simp [ServePoint.move] at h; exact h.2.1 ▸ .within .serve
    | cons j rest =>
      simp [ServePoint.move] at h
      exact h.2.1 ▸ .calls .serve (by cases j <;> rfl)
  case report n => cases n <;> simp [ServePoint.move] at h <;> exact h.2.1 ▸ .within .serve
  case discard rest n =>
    cases rest with
    | nil => simp [ServePoint.move] at h; exact h.2.1 ▸ .within .serve
    | cons j rest => simp [ServePoint.move] at h; exact h.2.1 ▸ .calls .serve rfl
  all_goals simp [ServePoint.move] at h
  case serialize =>
    split at h <;> simp at h
    · exact h.2.2.1 ▸ .within .serve
    · exact h.2.1 ▸ .within .serve
  case takeQueue => exact h.2.2.1 ▸ .within .serve
  case takeQueueLast => exact h.2.2.1 ▸ .within .serve
  case endTurn n => split at h <;> simp at h <;> exact h.2.1 ▸ .within .serve
  case announceExit n => exact h.2.1 ▸ .ends rfl rfl
  all_goals exact h.2.1 ▸ .within .serve

theorem AttemptPoint.goes {id : EndpointId} {r : Endpoint} {a : Address} {p : AttemptPoint}
    (h : p.move below id r a = .act g c ns) : c.Goes (.attempt id a p) below := by
  cases p <;> simp [AttemptPoint.move] at h
  case submit => exact h.2.1 ▸ .calls .attempt rfl
  case drop => exact h.2.1 ▸ .calls .attempt rfl
  case leave => exact h.2.1 ▸ .returns rfl
  all_goals exact h.2.1 ▸ .within .attempt

theorem RegistrationPoint.goes {id : EndpointId} {r : Endpoint} {p : RegistrationPoint}
    (h : p.move s t below id r = .act g c ns) : c.Goes (.registration id p) below := by
  cases p <;> simp [RegistrationPoint.move] at h
  case takeStatus => exact h.2.2.1 ▸ .within .registration
  case mark =>
    rw [h.2.1]
    split
    · exact .returns rfl
    · exact .within .registration
  case count => exact h.2.1 ▸ .within .registration
  case announce => exact h.2.1 ▸ .returns rfl

theorem DropPoint.goes {id : EndpointId} {r : Endpoint} {p : DropPoint}
    (h : p.move s t below id r = .act g c ns) : c.Goes (.drop id p) below := by
  cases p <;> simp [DropPoint.move] at h
  case takeStatus => exact h.2.2.1 ▸ .within .drop
  case revert => exact h.2.1 ▸ .returns rfl

theorem CreatePoint.goes {id : FactoryId} {f : Factory} {p : CreatePoint}
    (h : p.move s below id f = .act g c ns) : c.Goes (.create id p) below := by
  cases p <;> simp [CreatePoint.move] at h
  case readReleased =>
    rw [h.2.1]
    split
    · exact .ends rfl rfl
    · exact .within .create
  case start w n => exact h.2.1 ▸ .calls .create rfl
  case submit e => split at h <;> simp at h; exact h.2.1 ▸ .calls .create rfl
  case announce e => split at h <;> simp at h; exact h.2.1 ▸ .ends rfl rfl
  case failed e => exact h.2.1 ▸ .ends rfl rfl
  all_goals exact h.2.1 ▸ .within .create

theorem ConnectPoint.goes {id : EndpointId} {r : Endpoint} {a : Address} {p : ConnectPoint}
    (h : p.move s t below id r a = .act g c ns) : c.Goes (.connect id a p) below := by
  cases p <;> simp [ConnectPoint.move] at h
  case takeStatus => exact h.2.2.1 ▸ .within .connect
  case begin =>
    split at h <;> simp at h
    · exact h.2.1 ▸ .within .connect
    · exact h.2.1 ▸ .ends rfl rfl
  case submit => exact h.2.1 ▸ .calls .connect rfl
  case count => exact h.2.1 ▸ .ends rfl rfl
  case failed e => exact h.2.1 ▸ .ends rfl rfl

theorem ClosePoint.goes {id : EndpointId} {r : Endpoint} {p : ClosePoint}
    (h : p.move s t below id r = .act g c ns) : c.Goes (.close id p) below := by
  cases p <;> simp [ClosePoint.move] at h
  case takeStatus => exact h.2.2.1 ▸ .within .close
  case close => exact h.2.1 ▸ .ends rfl rfl

theorem ReleasePoint.goes {id : FactoryId} {f : Factory} {p : ReleasePoint}
    (h : p.move below id f = .act g c ns) : c.Goes (.release id p) below := by
  cases p <;> simp [ReleasePoint.move] at h
  case raise =>
    rw [h.2.1]
    split
    · exact .ends rfl rfl
    · exact .within .release
  case signalBoss => exact h.2.1 ▸ .calls .release rfl
  case signalWorkers i =>
    split at h <;> simp at h
    · exact h.2.1 ▸ .calls .release rfl
    · exact h.2.1 ▸ .within .release
  case terminate u => split at h <;> simp at h <;> exact h.2.1 ▸ .within .release
  case announceEnd => exact h.2.1 ▸ .ends rfl rfl
  all_goals exact h.2.1 ▸ .within .release

end Procedures

/-- **A step goes on, calls, returns or ends.** -/
theorem Control.goes_of_act {s : Store} {t : ThreadId} {c c' : Control} {g : Store → Store}
    {ns : List Note} (h : c.move s t = .act g c' ns) :
    ∃ fr below, c = .running (fr :: below) ∧ c'.Goes fr below := by
  obtain ⟨fr, below, rfl, hm⟩ := moves_of_act h
  refine ⟨fr, below, rfl, ?_⟩
  cases hm with
  | start found hp => exact StartPoint.goes hp
  | submit found hp => exact SubmitPoint.goes hp
  | signal found hp => exact SignalPoint.goes hp
  | serve found hp => exact ServePoint.goes hp
  | attempt found hp => exact AttemptPoint.goes hp
  | registration found hp => exact RegistrationPoint.goes hp
  | drop found hp => exact DropPoint.goes hp
  | create found hp => exact CreatePoint.goes hp
  | connect found hp => exact ConnectPoint.goes hp
  | close found hp => exact ClosePoint.goes hp
  | release found hp => exact ReleasePoint.goes hp

theorem Control.goes_of_running {s : Store} {t : ThreadId} {fr : Frame} {below : List Frame}
    {c' : Control} {g : Store → Store} {ns : List Note}
    (h : (running (fr :: below)).move s t = .act g c' ns) : c'.Goes fr below := by
  obtain ⟨_, _, heq, hgoes⟩ := goes_of_act h
  obtain ⟨rfl, rfl⟩ := List.cons.inj (Control.running.inj heq)
  exact hgoes

/-- An answer goes on within the procedure. -/
theorem Control.goes_of_ask {s : Store} {t : ThreadId} {c : Control} {r : Request}
    {after : r.Reply → Control} (reply : r.Reply) (h : c.move s t = .ask r after) :
    ∃ fr fr' below, c = .running (fr :: below) ∧ fr.SameCall fr'
      ∧ after reply = .running (fr' :: below) := by
  obtain ⟨fr, below, rfl, ha⟩ := asks h
  cases ha with
  | openNew found => cases reply <;> exact ⟨_, _, _, rfl, .start, rfl⟩
  | execute found => exact ⟨_, _, _, rfl, .start, rfl⟩
  | wakeSubmit => cases reply <;> exact ⟨_, _, _, rfl, .submit, rfl⟩
  | wakeSignal => cases reply <;> exact ⟨_, _, _, rfl, .signal, rfl⟩
  | wait => exact ⟨_, _, _, rfl, .serve, rfl⟩
  | shutDown | isMember | await => exact ⟨_, _, _, rfl, .release, rfl⟩

/-! ## What a thread was started for -/

/-- The thread carries this out, or is a loop. -/
def Control.From (origin : Option Operation) : Control → Prop
  | .finished o => o.endsFor origin = true
  | c => c.operation? = origin

theorem Frame.operation?_of_not_root {fr : Frame} (h : fr.isRoot = false) :
    fr.operation? = none := by
  cases fr <;> first | rfl | exact absurd h nofun

/-- **A thread keeps to what it was started for.** -/
theorem Control.From.of_goes {s : Store} {fr : Frame} {below : List Frame} {c' : Control}
    {origin : Option Operation} (hb : fr.Below s below)
    (h : (Control.running (fr :: below)).From origin) (hg : c'.Goes fr below) : c'.From origin := by
  change (fr :: below).findSome? Frame.operation? = origin at h
  rw [List.findSome?_cons] at h
  cases hg with
  | within hsame =>
    show (_ :: below).findSome? Frame.operation? = origin
    rw [List.findSome?_cons, hsame.operation?]
    exact h
  | calls hsame hnew =>
    show (_ :: _ :: below).findSome? Frame.operation? = origin
    rw [List.findSome?_cons, Frame.operation?_of_not_root (Frame.isRoot_of_isNew hnew),
      List.findSome?_cons, hsame.operation?]
    exact h
  | returns hroot =>
    obtain ⟨caller, rest, rfl, -⟩ := hb.exists_caller hroot
    rw [Frame.operation?_of_not_root hroot, List.findSome?_cons] at h
    show (_ :: rest).findSome? Frame.operation? = origin
    rw [List.findSome?_cons, (caller.sameCall_resume _).operation?]
    exact h
  | ends hroot ho =>
    -- a procedure that nobody called stands alone, so what it ends with is the thread's
    obtain rfl := hb.eq_nil hroot
    show Outcome.endsFor _ origin = true
    rw [List.findSome?_nil] at h
    cases hop : fr.operation? <;> rw [hop] at h ho <;> exact h ▸ ho

/-- What the threads were started for that came about in an incident. -/
def Incident.spawns : Incident → List (Option Operation)
  | .called _ o => [some o]
  | .stepped _ (.answered (.execute ..) true) => [none]
  | _ => []

/-- **What each thread was started for**: an operation, or a loop. -/
def origins (is : List Incident) : List (Option Operation) := is.flatMap Incident.spawns

/-- **The thread was started to carry out the operation.** -/
def CarriesOut (is : List Incident) (t : ThreadId) (o : Operation) : Prop :=
  (origins is)[t]? = some (some o)

theorem origins_append (is is' : List Incident) :
    origins (is ++ is') = origins is ++ origins is' := by
  rw [origins, List.flatMap_append, origins, origins]

theorem origins_singleton (i : Incident) : origins [i] = i.spawns := by
  rw [origins, List.flatMap_cons, List.flatMap_nil, List.append_nil]

namespace Machine

variable {m m' : Machine} {i : Incident} {is : List Incident}

/-- A thread comes about in some incidents, and none goes. -/
theorem Advance.size_eq (a : m.Advance i m') :
    m'.threads.size = m.threads.size + i.spawns.length := by
  cases a with
  | act => exact size_setControl ..
  | @answer t c q after hc hmove reply =>
    cases q with
    | execute x l mux =>
      cases reply with
      | true => simp [answer_execute, Machine.spawn, Incident.spawns, size_setControl]
      | false => exact size_setControl ..
    | _ => exact size_setControl ..
  | call home o => simp [Machine.spawn, Incident.spawns]
  | build b => rfl

/-- Each thread has an origin, and keeps to it. -/
def Originates (m : Machine) (is : List Incident) : Prop :=
  (origins is).length = m.threads.size
    ∧ ∀ t c, m.control? t = some c → ∃ o, (origins is)[t]? = some o ∧ c.From o

/-- **In every history each thread keeps to what it was started for.** -/
theorem Run.originates (r : Run is m) : m.Originates is := by
  refine r.induction (motive := fun is m => m.Originates is) ?empty ?advance
  case empty => exact ⟨rfl, fun t c h => by simp [control?, Machine.empty] at h⟩
  case advance =>
    intro is m i m' r ih a
    obtain ⟨hlength, hfrom⟩ := ih
    refine ⟨?_, fun t d hd => ?_⟩
    · rw [origins_append, List.length_append, origins_singleton, hlength, a.size_eq]
    -- origins are only added to
    have hold {o : Option Operation} (ho : (origins is)[t]? = some o) :
        (origins (is ++ [i]))[t]? = some o := by
      rw [origins_append, List.getElem?_append_left (List.getElem?_eq_some_iff.mp ho).1, ho]
    have hnew {o : Option Operation} (ht : t = m.threads.size) (hi : i.spawns = [o]) :
        (origins (is ++ [i]))[t]? = some o := by
      rw [origins_append, origins_singleton, hi, ht, ← hlength, List.getElem?_concat_length]
    cases a.places hd with
    | kept hc =>
      obtain ⟨o, ho, hd⟩ := hfrom t d hc
      exact ⟨o, hold ho, hd⟩
    | acted hc hmove =>
      obtain ⟨fr, below, rfl, hgoes⟩ := Control.goes_of_act hmove
      obtain ⟨o, ho, hc'⟩ := hfrom t _ hc
      exact ⟨o, hold ho, hc'.of_goes (r.reachable.sound.2 t _ hc).2.2 hgoes⟩
    | answered reply hc hmove hafter =>
      obtain ⟨fr, fr', below, rfl, hsame, hreply⟩ := Control.goes_of_ask reply hmove
      obtain ⟨o, ho, hc'⟩ := hfrom t _ hc
      refine ⟨o, hold ho, ?_⟩
      rw [hafter, hreply]
      exact hc'.of_goes (r.reachable.sound.2 t _ hc).2.2 (.within hsame)
    | @called _ o ht hd hi => exact ⟨some o, hnew ht (by rw [hi]; rfl), by rw [hd]; cases o <;> rfl⟩
    | served ht hc hmove hd hi => exact ⟨none, hnew ht (by rw [hi]; rfl), by rw [hd]; rfl⟩

theorem Run.from_of_carriesOut (r : Run is m) {t : ThreadId} {c : Control} {o : Operation}
    (ho : CarriesOut is t o) (hc : m.control? t = some c) : c.From (some o) := by
  obtain ⟨o', ho', hfrom⟩ := r.originates.2 t c hc
  obtain rfl := Option.some.inj (ho.symm.trans ho')
  exact hfrom

/-- What a thread was started for is settled when it comes about. -/
theorem CarriesOut.append {is' : List Incident} {t : ThreadId} {o : Operation}
    (h : CarriesOut is t o) : CarriesOut (is ++ is') t o := by
  rw [CarriesOut, origins_append, List.getElem?_append_left (List.getElem?_eq_some_iff.mp h).1]
  exact h

/-- **A step moves one thread.** -/
theorem Advance.control?_of_ne (a : m.Advance i m') {t : ThreadId} (hlt : t < m.threads.size)
    (hne : ∀ h, i ≠ .stepped t h) : m'.control? t = m.control? t := by
  cases a with
  | @act t' c c' g ns hc hmove =>
    rw [control?_act, if_neg]
    rintro rfl
    exact hne _ rfl
  | @answer t' c q after hc hmove reply =>
    have hset : (m.setControl t' (after reply)).control? t = m.control? t := by
      rw [control?_setControl, if_neg]
      rintro rfl
      exact hne _ rfl
    rcases answer_eq m t' q after reply with he | ⟨x, l, mux, -, he⟩ <;> rw [he]
    · exact hset
    · rw [control?_spawn, if_neg, hset]
      simpa [Machine.setControl] using Nat.ne_of_lt hlt
  | call => rw [control?_spawn, if_neg (Nat.ne_of_lt hlt)]
  | build => rfl

/-- Whoever moves has not ended. -/
theorem Advance.not_finished {t : ThreadId} {h : Happening} (a : m.Advance (.stepped t h) m')
    {o : Outcome} : m.control? t ≠ some (.finished o) := by
  intro hc
  cases a with
  | act hc' hmove =>
    obtain rfl := Option.some.inj (hc'.symm.trans hc)
    exact absurd hmove nofun
  | answer hc' hmove =>
    obtain rfl := Option.some.inj (hc'.symm.trans hc)
    exact absurd hmove nofun

/-- **A thread that has ended stays at its end.** -/
theorem Advance.finished (a : m.Advance i m') {t : ThreadId} {o : Outcome}
    (h : m.control? t = some (.finished o)) : m'.control? t = some (.finished o) := by
  rw [a.control?_of_ne (lt_size_of_control? h), h]
  rintro h' rfl
  exact a.not_finished h

end Machine

end EndpointControl
