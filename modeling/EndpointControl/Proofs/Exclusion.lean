import EndpointControl.Proofs.Draining

/-!
# Queueing and draining apart

At the levels that ask for it, queueing for a loop and draining its queue take turns. A
submitter has the turn from before it appends its job until its wake has returned, and
the loop from before it takes its batch until it has run the last job of it. A turn is
kept across calls – a job that a boss runs submits to a worker – so whose turns a thread
has is read off its whole stack (`Control.turns`).

Whatever a step does to the turns on the stack it does to the locks (`Turning`). So for
a loop whose level asks for turns, the thread that holds the lock has exactly one
procedure on its stack that has the turn, and nobody else has any
(`Machine.Traffic.turned`): nobody appends a job or wakes the loop while it takes or runs
a batch, no two submitters do so at once, and wherever a submission or a draining has
come to its end the lock has been given back (`Machine.Traffic.takesTurns`). This holds
whoever submits, from inside the library or from outside.

What a loop finds in its queue at its very end it drops without running it. That is no
draining, and it takes no turn.
-/

namespace EndpointControl

/-! ## Who has a turn -/

/-- **The loop whose turn a procedure has**, if its level asks for turns. -/
def Frame.turn? : Frame → Option LoopId
  | .submit l _ p =>
    match p with
    | .takeQueue _ | .append _ | .wake _ | .wakeFailed _ | .leave => some l
    | _ => none
  | .serve l _ p =>
    match p with
    | .takeQueue | .takeBatch | .run .. | .endTurn _ => some l
    | _ => none
  | _ => none

/-- **The loops whose turns a thread has**, if their levels ask for turns, the innermost
first. -/
def Control.turns : Control → List LoopId
  | .running stack => stack.filterMap Frame.turn?
  | .finished _ => []

/-- **The level of the loop asks for turns.** -/
def Store.Serialized (s : Store) (l : LoopId) : Prop :=
  ∃ lp, s.loop? l = some lp ∧ lp.level.serialized = true

/-- **The level of the loop asks for turns**, if there is such a loop. -/
def Store.Guarded (s : Store) (l : LoopId) : Prop :=
  ∀ lp, s.loop? l = some lp → lp.level.serialized = true

theorem Store.Serialized.guarded {s : Store} {l : LoopId} (h : s.Serialized l) : s.Guarded l := by
  obtain ⟨lp, hlp, hlevel⟩ := h
  intro lp' hlp'
  obtain rfl := Option.some.inj (hlp.symm.trans hlp')
  exact hlevel

theorem Store.Grows.serialized {s s' : Store} (h : s.Grows s') {l : LoopId}
    (hl : s.Serialized l) : s'.Serialized l := by
  obtain ⟨lp, hlp, hlevel⟩ := hl
  obtain ⟨lp', hlp', hg⟩ := h.loop hlp
  exact ⟨lp', hlp', hg.level ▸ hlevel⟩

/-- What is guarded has been so for as long as it has been there. -/
theorem Store.Grows.guarded {s s' : Store} (h : s.Grows s') {l : LoopId}
    (hl : s'.Guarded l) : s.Guarded l := by
  intro lp hlp
  obtain ⟨lp', hlp', hg⟩ := h.loop hlp
  exact hg.level ▸ hl lp' hlp'

theorem Frame.turn?_resume (fr : Frame) (r : Except Failure Unit) :
    (fr.resume r).turn? = fr.turn? := by
  unfold resume
  split
  case h_6 => rfl
  all_goals cases r <;> rfl

/-- Whoever has just been called has no turn. -/
theorem Frame.turn?_of_isNew {fr : Frame} (h : fr.isNew = true) : fr.turn? = none := by
  cases fr with
  | submit l j p => cases p <;> first | rfl | exact absurd h nofun
  | serve => exact absurd h nofun
  | _ => rfl

namespace Control

variable {fr callee : Frame} {below : List Frame} {c : Control} {l : LoopId}

@[simp] theorem turns_cons :
    (running (fr :: below)).turns = fr.turn?.toList ++ (running below).turns := by
  cases h : fr.turn? <;> simp [turns, h]

theorem mem_turns_running {stack : List Frame} :
    l ∈ (running stack).turns ↔ ∃ fr ∈ stack, fr.turn? = some l :=
  List.mem_filterMap

/-- A return leaves the turns of those below. -/
@[simp] theorem turns_back (r : Except Failure Unit) :
    (back below r).turns = (running below).turns := by
  cases below with
  | nil => rfl
  | cons caller rest => rw [back, turns_cons, turns_cons, Frame.turn?_resume]

/-- **A procedure that never has a turn** leaves those of the ones below it. -/
theorem Goes.turns (hg : c.Goes fr below) (hst : fr.Stacked below)
    (hnone : ∀ fr', fr.SameCall fr' → fr'.turn? = none) : c.turns = (running below).turns := by
  cases hg with
  | within hsame => rw [turns_cons, hnone _ hsame]; rfl
  | calls hsame hnew => rw [turns_cons, turns_cons, Frame.turn?_of_isNew hnew, hnone _ hsame]; rfl
  | returns => exact turns_back _
  | ends hroot => obtain rfl := hst.eq_nil hroot; rfl

end Control

/-! ## Moves that leave turns alone -/

/-- The same threads have the turns of loops. -/
def Store.SameTurns (s s' : Store) : Prop :=
  ∀ l, s'.locks.holder? (.registration l) = s.locks.holder? (.registration l)

/-- The move leaves the turns to those who have them. -/
def Move.KeepsTurns (s : Store) : Move → Prop
  | .act g _ _ => s.SameTurns (g s)
  | _ => True

namespace Move.KeepsTurns

variable {s : Store} {t : ThreadId} {c : Control} {k : Lock}

theorem takeLock (hk : k.isBrief = true) : (Move.takeLock s t k c).KeepsTurns s := by
  unfold Move.takeLock
  split
  · trivial
  · intro l
    show (s.locks.take k t).holder? _ = _
    rw [LockTable.holder?_take, if_neg]
    rintro rfl
    cases hk

theorem giveLock (hk : k.isBrief = true) {g : Store → Store} (hg : (g s).locks = s.locks)
    {ns : List Note} : (Move.act (fun s => (g s).giveLock k) c ns).KeepsTurns s := by
  intro l
  show ((g s).locks.give k).holder? _ = _
  rw [LockTable.holder?_give, if_neg, hg]
  rintro rfl
  cases hk

end Move.KeepsTurns

section Procedures

variable {s : Store} {t : ThreadId} {below : List Frame} {l : LoopId}

theorem StartPoint.keepsTurns {id : LoopId} {lp : Loop} (p : StartPoint) :
    (p.move s t below id lp).KeepsTurns s := by
  cases p with
  | takeSlot => exact .takeLock rfl
  | openNew | execute => trivial
  | leave => exact .giveLock rfl rfl
  | _ => exact fun _ => rfl

theorem SubmitPoint.keepsTurns {id : LoopId} {lp : Loop} {j : Job} {p : SubmitPoint}
    (hserialize : ∀ m, p ≠ .serialize m) (hleave : p ≠ .leave) :
    (p.move s t below id lp j).KeepsTurns s := by
  cases p with
  | starting | wake => trivial
  | takeSlot | takeQueue => exact .takeLock rfl
  | readSlot | append => exact .giveLock rfl rfl
  | serialize m => exact absurd rfl (hserialize m)
  | leave => exact absurd rfl hleave
  | _ => exact fun _ => rfl

theorem SignalPoint.keepsTurns {id : LoopId} {lp : Loop} (p : SignalPoint) :
    (p.move s t below id lp).KeepsTurns s := by
  cases p with
  | takeSlot => exact .takeLock rfl
  | wake => trivial
  | giveSlot => exact .giveLock rfl rfl
  | _ => exact fun _ => rfl

theorem ServePoint.keepsTurns {id : LoopId} {lp : Loop} {m : Multiplexer} {p : ServePoint}
    (hserialize : p ≠ .serialize) (hend : ∀ n, p ≠ .endTurn n) :
    (p.move s t below id lp m).KeepsTurns s := by
  cases p with
  | serialize => exact absurd rfl hserialize
  | endTurn n => exact absurd rfl (hend n)
  | takeQueue | takeQueueLast => exact .takeLock rfl
  | takeBatch | takeRest => exact .giveLock rfl rfl
  | run batch n => cases batch <;> exact fun _ => rfl
  | report n => cases n <;> exact fun _ => rfl
  | discard rest n => cases rest <;> exact fun _ => rfl
  | wait => trivial
  | _ => exact fun _ => rfl

theorem AttemptPoint.keepsTurns {id : EndpointId} {e : Endpoint} {a : Address}
    (p : AttemptPoint) : (p.move below id e a).KeepsTurns s := by
  cases p with
  | submitting => trivial
  | _ => exact fun _ => rfl

theorem RegistrationPoint.keepsTurns {id : EndpointId} {e : Endpoint} (p : RegistrationPoint) :
    (p.move s t below id e).KeepsTurns s := by
  cases p with
  | takeStatus => exact .takeLock rfl
  | mark => exact .giveLock rfl rfl
  | _ => exact fun _ => rfl

theorem DropPoint.keepsTurns {id : EndpointId} {e : Endpoint} (p : DropPoint) :
    (p.move s t below id e).KeepsTurns s := by
  cases p with
  | takeStatus => exact .takeLock rfl
  | revert => exact .giveLock rfl rfl

theorem CreatePoint.keepsTurns {id : FactoryId} {f : Factory} (p : CreatePoint) :
    (p.move s below id f).KeepsTurns s := by
  cases p with
  | starting | submitting => trivial
  | submit e | announce e =>
    simp only [CreatePoint.move]
    split
    · trivial
    · exact fun _ => rfl
  | _ => exact fun _ => rfl

theorem ConnectPoint.keepsTurns {id : EndpointId} {e : Endpoint} {a : Address}
    (p : ConnectPoint) : (p.move s t below id e a).KeepsTurns s := by
  cases p with
  | takeStatus => exact .takeLock rfl
  | begin =>
    simp only [ConnectPoint.move]
    split <;> exact .giveLock rfl rfl
  | submitting => trivial
  | _ => exact fun _ => rfl

theorem ClosePoint.keepsTurns {id : EndpointId} {e : Endpoint} (p : ClosePoint) :
    (p.move s t below id e).KeepsTurns s := by
  cases p with
  | takeStatus => exact .takeLock rfl
  | close => exact .giveLock rfl rfl

theorem ReleasePoint.keepsTurns {id : FactoryId} {f : Factory} (p : ReleasePoint) :
    (p.move below id f).KeepsTurns s := by
  cases p with
  | signalWorkers i =>
    simp only [ReleasePoint.move]
    split <;> exact fun _ => rfl
  | terminate u =>
    simp only [ReleasePoint.move]
    split
    case h_4 | h_5 | h_6 => exact fun _ => rfl
    all_goals trivial
  | _ => exact fun _ => rfl

end Procedures

/-! ## What a step does to turns -/

/-- **What one step does to turns**, given the loops whose turns the thread has before it
and after it. -/
inductive Turning (s s' : Store) (t : ThreadId) (ls ls' : List LoopId) : Prop where
  /-- Nothing, as far as levels ask for turns. -/
  | kept (h : s.SameTurns s') (hls : ∀ l, s.Guarded l → ls'.count l = ls.count l)
  /-- The thread takes one. -/
  | taken {l : LoopId} (hl : s.Serialized l) (free : s.locks.holder? (.registration l) = none)
    (h : s'.locks = s.locks.take (.registration l) t) (hls : ls' = l :: ls)
  /-- The thread ends one. -/
  | given {l : LoopId} (hl : s.Serialized l) (h : s'.locks = s.locks.give (.registration l))
    (hls : ls = l :: ls')

section Procedures

variable {s : Store} {t : ThreadId} {fr : Frame} {below : List Frame} {g : Store → Store}
  {c c' : Control} {ns : List Note} {ls : List LoopId}

namespace Turning

/-- A move that leaves turns alone, on the stack and in the store. -/
theorem aside {mv : Move} (hkeeps : mv.KeepsTurns s) (h : mv = .act g c' ns)
    (hls : c'.turns = ls) : Turning s (g s) t ls c'.turns := by
  subst h
  exact .kept hkeeps fun _ _ => by rw [hls]

/-- Where nobody asks for turns, nobody has to take one. -/
theorem not_guarded {id l : LoopId} {lp : Loop} (found : s.loop? id = some lp)
    (hlevel : ¬ lp.level.serialized = true) (hl : s.Guarded l) : id ≠ l := by
  rintro rfl
  exact hlevel (hl lp found)

/-- **Taking a turn**, if the level asks for it. -/
theorem take {id : LoopId} {lp : Loop} (found : s.loop? id = some lp) (hc : c.turns = id :: ls)
    (h : (if lp.level.serialized then .takeLock s t (.registration id) c else .go c : Move)
      = .act g c' ns) : Turning s (g s) t ls c'.turns := by
  split at h
  · rename_i hlevel
    obtain ⟨free, rfl, rfl, -⟩ := Move.takeLock_eq_act.mp h
    exact .taken ⟨lp, found, hlevel⟩ free rfl hc
  · rename_i hlevel
    obtain ⟨rfl, rfl, -⟩ := Move.go_eq_act.mp h
    refine .kept (fun _ => rfl) fun l hl => ?_
    rw [hc, List.count_cons_of_ne (not_guarded found hlevel hl)]

/-- **Ending a turn**, if the level asks for it. -/
theorem give {id : LoopId} {lp : Loop} (found : s.loop? id = some lp) (hc : ls = id :: c.turns)
    (h : (if lp.level.serialized then .change (·.giveLock (.registration id)) c else .go c : Move)
      = .act g c' ns) : Turning s (g s) t ls c'.turns := by
  split at h
  · rename_i hlevel
    obtain ⟨rfl, rfl, -⟩ := Move.change_eq_act.mp h
    exact .given ⟨lp, found, hlevel⟩ rfl hc
  · rename_i hlevel
    obtain ⟨rfl, rfl, -⟩ := Move.go_eq_act.mp h
    refine .kept (fun _ => rfl) fun l hl => ?_
    rw [hc, List.count_cons_of_ne (not_guarded found hlevel hl)]

end Turning

theorem SubmitPoint.turning {id : LoopId} {lp : Loop} {j : Job} {p : SubmitPoint}
    (found : s.loop? id = some lp) (h : p.move s t below id lp j = .act g c ns) :
    Turning s (g s) t (Control.running (.submit id j p :: below)).turns c.turns := by
  have hkeeps : (∀ m, p ≠ .serialize m) → p ≠ .leave →
      (p.move s t below id lp j).KeepsTurns s := SubmitPoint.keepsTurns
  cases p with
  | serialize m => exact .take found rfl h
  | leave => exact .give found (by rw [Control.turns_back]; rfl) h
  | starting | wake => cases h
  | takeSlot | takeQueue =>
    exact .aside (hkeeps nofun nofun) h (by rw [(Move.takeLock_eq_act.mp h).2.2.1]; rfl)
  | readShutDown =>
    refine .aside (hkeeps nofun nofun) h ?_
    rw [(Move.go_eq_act.mp h).2.1]
    split <;> rfl
  | append m =>
    refine .aside (hkeeps nofun nofun) h ?_
    rw [(Move.act_eq_act.mp h).2.1]
    cases m <;> rfl
  | refused e =>
    refine .aside (hkeeps nofun nofun) h ?_
    rw [(Move.go_eq_act.mp h).2.1, Control.turns_back]
    rfl
  | _ => exact .aside (hkeeps nofun nofun) h (by rw [(Move.act_eq_act.mp h).2.1]; rfl)

theorem ServePoint.turning {id : LoopId} {lp : Loop} {m : Multiplexer} {p : ServePoint}
    (found : s.loop? id = some lp) (h : p.move s t below id lp m = .act g c ns)
    (hst : (Frame.serve id m p).Stacked below) :
    Turning s (g s) t (Control.running (.serve id m p :: below)).turns c.turns := by
  have hkeeps : p ≠ .serialize → (∀ n, p ≠ .endTurn n) →
      (p.move s t below id lp m).KeepsTurns s := ServePoint.keepsTurns
  cases p with
  | serialize => exact .take found rfl h
  | endTurn n => exact .give found rfl h
  | wait => cases h
  | takeQueue | takeQueueLast =>
    exact .aside (hkeeps nofun nofun) h (by rw [(Move.takeLock_eq_act.mp h).2.2.1]; rfl)
  | run batch n =>
    refine .aside (hkeeps nofun nofun) h ?_
    cases batch with
    | nil => rw [(Move.go_eq_act.mp h).2.1]; rfl
    | cons j rest => rw [(Move.tell_eq_act.mp h).2.1]; cases j <;> rfl
  | report n =>
    refine .aside (hkeeps nofun nofun) h ?_
    cases n <;> rw [(Move.act_eq_act.mp h).2.1] <;> rfl
  | discard rest n =>
    refine .aside (hkeeps nofun nofun) h ?_
    cases rest <;> rw [(Move.act_eq_act.mp h).2.1] <;> rfl
  | readShutDown =>
    refine .aside (hkeeps nofun nofun) h ?_
    rw [(Move.go_eq_act.mp h).2.1]
    split <;> rfl
  | announceExit n =>
    -- the thread ends, and there is nobody below
    obtain rfl := hst.eq_nil rfl
    exact .aside (hkeeps nofun nofun) h (by rw [(Move.say_eq_act.mp h).2.1]; rfl)
  | _ => exact .aside (hkeeps nofun nofun) h (by rw [(Move.act_eq_act.mp h).2.1]; rfl)

/-- **A step takes a turn, ends one, or leaves them alone.** -/
theorem Control.turning_of_act (hst : c.Stacked) (h : c.move s t = .act g c' ns) :
    Turning s (g s) t c.turns c'.turns := by
  obtain ⟨fr, below, rfl, hmoves⟩ := moves_of_act h
  have hgoes := goes_of_running h
  -- apart from a submission and a loop, no procedure has turns
  have aside (hnone : ∀ fr', fr.SameCall fr' → fr'.turn? = none) {mv : Move}
      (hkeeps : mv.KeepsTurns s) (hp : mv = .act g c' ns) :
      Turning s (g s) t (running (fr :: below)).turns c'.turns := by
    refine .aside hkeeps hp ?_
    rw [hgoes.turns hst hnone, turns_cons, hnone fr .rfl]
    rfl
  cases hmoves with
  | submit found hp => exact SubmitPoint.turning found hp
  | serve found hp => exact ServePoint.turning found hp hst
  | start _ hp => exact aside (by rintro _ ⟨⟩; rfl) (StartPoint.keepsTurns _) hp
  | signal _ hp => exact aside (by rintro _ ⟨⟩; rfl) (SignalPoint.keepsTurns _) hp
  | attempt _ hp => exact aside (by rintro _ ⟨⟩; rfl) (AttemptPoint.keepsTurns _) hp
  | registration _ hp => exact aside (by rintro _ ⟨⟩; rfl) (RegistrationPoint.keepsTurns _) hp
  | drop _ hp => exact aside (by rintro _ ⟨⟩; rfl) (DropPoint.keepsTurns _) hp
  | create _ hp => exact aside (by rintro _ ⟨⟩; rfl) (CreatePoint.keepsTurns _) hp
  | connect _ hp => exact aside (by rintro _ ⟨⟩; rfl) (ConnectPoint.keepsTurns _) hp
  | close _ hp => exact aside (by rintro _ ⟨⟩; rfl) (ClosePoint.keepsTurns _) hp
  | release _ hp => exact aside (by rintro _ ⟨⟩; rfl) (ReleasePoint.keepsTurns _) hp

/-- An answer leaves everybody their turns. -/
theorem Control.turns_of_ask {q : Request} {after : q.Reply → Control} (reply : q.Reply)
    (h : c.move s t = .ask q after) : (after reply).turns = c.turns := by
  obtain ⟨fr, below, rfl, hask⟩ := asks h
  cases hask with
  | openNew | wakeSubmit | wakeSignal => cases reply <;> rfl
  | _ => rfl

end Procedures

/-! ## Turns and their locks -/

namespace Machine

variable {m m' : Machine} {is js : List Incident} {t u : ThreadId} {c c' : Control}
  {l : LoopId}

/-- The loops whose turns the thread has. -/
def turns (m : Machine) (t : ThreadId) : List LoopId :=
  ((m.control? t).map Control.turns).getD []

theorem turns_eq (h : m.control? t = some c) : m.turns t = c.turns := by
  rw [turns, h, Option.map_some, Option.getD_some]

theorem turns_act {g : Store → Store} (h : m.control? u = some c) :
    (m.act u g c').turns t = if u = t then c'.turns else m.turns t := by
  rw [turns, control?_act]
  split
  · rename_i hut
    rw [← hut, h, Option.map_some, Option.map_some, Option.getD_some]
  · rfl

/-- Whoever begins has no turn yet. -/
theorem turns_spawn (home : Option ExecutorId) (hc : c.turns = []) :
    (m.spawn home c).turns t = m.turns t := by
  rw [turns, control?_spawn]
  split
  · rename_i ht
    have hnone : m.control? t = none := by simp [control?, ht]
    rw [turns, hnone, Option.map_some, Option.getD_some, hc]
    rfl
  · rfl

theorem turns_answer {q : Request} {after : q.Reply → Control} (reply : q.Reply)
    (hc : m.control? u = some c) (hmove : c.move m.store u = .ask q after) :
    (m.answer u q after reply).turns t = m.turns t := by
  have hset : (m.setControl u (after reply)).turns t = m.turns t := by
    rw [turns, control?_setControl]
    split
    · rename_i hut
      rw [← hut, hc, turns_eq hc, ← Control.turns_of_ask reply hmove]
      rfl
    · rfl
  rcases answer_eq m u q after reply with he | ⟨x, l, mux, -, he⟩ <;> rw [he]
  · exact hset
  · rw [turns_spawn _ rfl, hset]

/-- **The locks say whose turn it is**, and are taken where levels ask for it only. -/
structure Turned (m : Machine) : Prop where
  /-- A thread has a turn once while it holds the lock, and never otherwise. -/
  count : ∀ l, m.store.Guarded l → ∀ t,
    (m.turns t).count l = if m.store.locks.holder? (.registration l) = some t then 1 else 0
  /-- No lock is held for a level that does not ask for it. -/
  serialized : ∀ l t, m.store.locks.holder? (.registration l) = some t → m.store.Serialized l

/-- **The locks agree with the stacks after a step**, if they did before it. -/
theorem Turned.act {g : Store → Store} (h : m.Turned) (hgrows : m.store.Grows (g m.store))
    (hc : m.control? u = some c) (hturning : Turning m.store (g m.store) u c.turns c'.turns) :
    (m.act u g c').Turned := by
  have hu : m.turns u = c.turns := turns_eq hc
  cases hturning with
  | kept hsame hls =>
    refine ⟨fun l hl t => ?_, fun l t ht => hgrows.serialized (h.serialized l t (hsame l ▸ ht))⟩
    have hl := hgrows.guarded hl
    rw [turns_act hc, store_act, hsame, ← h.count l hl t]
    split
    · rename_i hut
      rw [← hut, hls l hl, hu]
    · rfl
  | @taken k hk free hlocks hls =>
    refine ⟨fun l hl t => ?_, fun l t ht => ?_⟩
    · have hcount := h.count l (hgrows.guarded hl) t
      rw [turns_act hc, store_act, hlocks, LockTable.holder?_take]
      by_cases hkl : k = l
      · -- nobody had it before
        subst hkl
        rw [free, if_neg nofun] at hcount
        by_cases hut : u = t
        · subst hut
          simp [hls, ← hu, hcount]
        · simp [hut, hcount]
      · simp only [Lock.registration.injEq, hkl, if_false]
        rw [← hcount]
        split
        · rename_i hut
          rw [← hut, hls, ← hu, List.count_cons_of_ne hkl]
        · rfl
    · rw [store_act, hlocks, LockTable.holder?_take] at ht
      refine hgrows.serialized ?_
      split at ht
      · rename_i heq
        obtain rfl := Lock.registration.inj heq
        exact hk
      · exact h.serialized l t ht
  | @given k hk hlocks hls =>
    refine ⟨fun l hl t => ?_, fun l t ht => ?_⟩
    · have hcount (t : ThreadId) := h.count l (hgrows.guarded hl) t
      rw [turns_act hc, store_act, hlocks, LockTable.holder?_give]
      by_cases hkl : k = l
      · -- and nobody else had it
        subst hkl
        have hself := hcount u
        rw [hu, hls, List.count_cons_self] at hself
        have hheld : m.store.locks.holder? (.registration k) = some u := by
          by_contra hne
          rw [if_neg hne] at hself
          omega
        rw [if_pos hheld] at hself
        by_cases hut : u = t
        · simpa [hut] using hself
        · simpa [hut, hheld] using hcount t
      · simp only [Lock.registration.injEq, hkl, if_false]
        rw [← hcount t]
        split
        · rename_i hut
          rw [← hut, hu, hls, List.count_cons_of_ne hkl]
        · rfl
    · rw [store_act, hlocks, LockTable.holder?_give] at ht
      split at ht
      · cases ht
      · exact hgrows.serialized (h.serialized l t ht)

theorem Turned.congr (h : m.Turned) (hgrows : m.store.Grows m'.store)
    (hlocks : m'.store.locks = m.store.locks) (hturns : ∀ t, m'.turns t = m.turns t) :
    m'.Turned where
  count l hl t := by rw [hturns, hlocks, h.count l (hgrows.guarded hl)]
  serialized l t ht := hgrows.serialized (h.serialized l t (hlocks ▸ ht))

/-- **In all traffic the locks say whose turn it is.** -/
theorem Traffic.turned (h : Traffic is m) : m.Turned := by
  refine h.induction (motive := fun _ m => m.Turned) ⟨fun l _ t => rfl, nofun⟩ ?advance ?use
  case advance =>
    intro is m i m' h ih a
    cases a with
    | act hc hmove =>
      exact ih.act (Control.grows_of_move hmove) hc
        (Control.turning_of_act (h.stacked _ _ hc) hmove)
    | answer hc hmove reply =>
      exact ih.congr (store_answer .. ▸ .refl _) (by rw [store_answer])
        fun t => turns_answer reply hc hmove
    | call home o => exact ih.congr (.refl _) rfl fun t => turns_spawn _ (by cases o <;> rfl)
    | build b => exact ih.congr (m.store.grows_build b) rfl fun _ => rfl
  case use =>
    intro is m fr home h ih hnew
    refine ih.congr (.refl _) rfl fun t => turns_spawn _ ?_
    rw [Control.turns_cons, Frame.turn?_of_isNew hnew]
    rfl

/-- **A thread holds the lock for the turns of a loop** if it has the turn and the level asks
for it. -/
theorem Turned.holder?_eq_some_iff (h : m.Turned) :
    m.store.locks.holder? (.registration l) = some t ↔ m.store.Guarded l ∧ l ∈ m.turns t := by
  constructor
  · intro ht
    have hl := (h.serialized l t ht).guarded
    refine ⟨hl, List.count_pos_iff.mp ?_⟩
    rw [h.count l hl, if_pos ht]
    exact Nat.one_pos
  · rintro ⟨hl, hmem⟩
    by_contra hne
    have hcount := h.count l hl t
    rw [if_neg hne] at hcount
    exact List.count_eq_zero.mp hcount hmem

/-! ## Queueing and draining apart -/

/-- A thread without turns holds no lock for turns. -/
theorem Turned.holder?_ne (h : m.Turned) (ht : m.turns t = []) :
    m.store.locks.holder? (.registration l) ≠ some t := by
  intro hheld
  have hmem := (h.holder?_eq_some_iff.mp hheld).2
  rw [ht] at hmem
  cases hmem

/-- **Two procedures do not have one turn**, be they on one stack or on two. -/
theorem Turned.alone (h : m.Turned) (hl : m.store.Guarded l) {above below : List Frame}
    {fr : Frame} (hc : m.control? t = some (.running (above ++ fr :: below)))
    (hturn : fr.turn? = some l) :
    (∀ fr' ∈ above ++ below, fr'.turn? ≠ some l) ∧ ∀ u, u ≠ t → l ∉ m.turns u := by
  have hturns : m.turns t = above.filterMap Frame.turn? ++ l :: below.filterMap Frame.turn? := by
    rw [turns_eq hc, Control.turns, List.filterMap_append, List.filterMap_cons, hturn]
  have hheld := h.holder?_eq_some_iff.mpr ⟨hl, by rw [hturns]; simp⟩
  constructor
  · -- the lock is held once, and the turn is there once
    have hcount := h.count l hl t
    rw [if_pos hheld, hturns, List.count_append, List.count_cons_self] at hcount
    have habove : (above.filterMap Frame.turn?).count l = 0 := by omega
    have hbelow : (below.filterMap Frame.turn?).count l = 0 := by omega
    intro fr' hfr' hturn'
    rcases List.mem_append.mp hfr' with hmem | hmem
    · exact List.count_eq_zero.mp habove (List.mem_filterMap.mpr ⟨fr', hmem, hturn'⟩)
    · exact List.count_eq_zero.mp hbelow (List.mem_filterMap.mpr ⟨fr', hmem, hturn'⟩)
  · intro u hne hmem
    exact hne (Option.some.inj ((h.holder?_eq_some_iff.mpr ⟨hl, hmem⟩).symm.trans hheld))

/-- **Queueing for the loop and draining its queue are kept apart.** -/
structure TakesTurns (m : Machine) (l : LoopId) : Prop where
  /-- Of all procedures on all stacks, one at most is at a point where the turn is kept: if
  somebody is appending a job or has not come to the end of the wake, nobody else is, and the
  loop neither takes its batch nor runs it. -/
  alone : ∀ {t above fr below}, m.control? t = some (.running (above ++ fr :: below)) →
    fr.turn? = some l → (∀ fr' ∈ above ++ below, fr'.turn? ≠ some l)
      ∧ ∀ u, u ≠ t → ∀ stack, m.control? u = some (.running stack) →
        ∀ fr' ∈ stack, fr'.turn? ≠ some l
  /-- The lock is held by the thread on whose stack that procedure is, and by nobody else. -/
  held : ∀ t, m.store.locks.holder? (.registration l) = some t
    ↔ ∃ stack, m.control? t = some (.running stack) ∧ ∃ fr ∈ stack, fr.turn? = some l
  /-- In whatever way a submission ends, the thread then holds the locks for turns that it held
  when it began, so it has given back what it has taken. -/
  submission : ∀ {t j below js m'}, m.Course t (.submit l j .start) below js m' →
    ∃ r, m'.control? t = some (.back below r) ∧ ∀ k,
      (m'.store.locks.holder? (.registration k) = some t
        ↔ m.store.locks.holder? (.registration k) = some t)
  /-- The loop, while it is not in the midst of a job, holds no lock for turns but its own, and
  that from taking its turn until it ends it. -/
  draining : ∀ {t mux p below}, m.control? t = some (.running (.serve l mux p :: below)) →
    ∀ k, m.store.locks.holder? (.registration k) = some t
      ↔ k = l ∧ (Frame.serve l mux p).turn? = some l
  /-- So it holds none while it waits, -/
  waiting : ∀ {t mux below}, m.control? t = some (.running (.serve l mux .wait :: below)) →
    ∀ k, m.store.locks.holder? (.registration k) ≠ some t
  /-- and none once it has ended. -/
  exited : m.store.Exited l → ∀ {t c}, m.control? t = some c → (c.serving? l).isSome →
    ∀ k, m.store.locks.holder? (.registration k) ≠ some t
  /-- Nobody keeps a turn beyond the end of the thread. -/
  finished : ∀ {t o}, m.control? t = some (.finished o) →
    ∀ k, m.store.locks.holder? (.registration k) ≠ some t

/-- **At a positive level queueing and draining take turns**, whoever submits and in whatever
order the threads move. -/
theorem Traffic.takesTurns (h : Traffic is m) {lp : Loop} (found : m.store.loop? l = some lp)
    (hlevel : 0 < lp.level.rank) : m.TakesTurns l := by
  have ht := h.turned
  have hl : m.store.Guarded l :=
    Store.Serialized.guarded ⟨lp, found, by rw [Level.serialized, decide_eq_true hlevel]⟩
  -- a loop that is on top of its stack stands there alone
  have hserve {t : ThreadId} {mux : Multiplexer} {p : ServePoint} {below : List Frame}
      (hc : m.control? t = some (.running (.serve l mux p :: below))) :
      m.turns t = (Frame.serve l mux p).turn?.toList := by
    obtain rfl := (h.stacked t _ hc).eq_nil rfl
    rw [turns_eq hc, Control.turns_cons]
    exact List.append_nil _
  refine ⟨fun hc hturn => ?alone, fun t => ?held, fun {t j below js m'} hcourse => ?submission,
    fun {t mux p below} hc k => ?draining, fun hc k => ht.holder?_ne (hserve hc),
    fun hexited t c hc hserving k => ?exited, fun hc k => ht.holder?_ne (turns_eq hc)⟩
  case alone =>
    obtain ⟨hself, hothers⟩ := ht.alone hl hc hturn
    refine ⟨hself, fun u hne stack hu fr' hfr' hturn' => hothers u hne ?_⟩
    rw [turns_eq hu]
    exact Control.mem_turns_running.mpr ⟨fr', hfr', hturn'⟩
  case held =>
    rw [ht.holder?_eq_some_iff, and_iff_right hl, turns]
    cases hc : m.control? t with
    | none => simp
    | some c =>
      cases c with
      | finished o => simp [Control.turns]
      | running stack => simp [Control.mem_turns_running]
  case submission =>
    obtain ⟨r, hr, -⟩ := hcourse.submitEnds h
    refine ⟨r, hr, fun k => ?_⟩
    have hgrows := hcourse.during.unfolds.grows
    have ht' := (h.unfolds hcourse.during.unfolds).turned
    have hturns : m'.turns t = m.turns t := by
      rw [turns_eq hr, turns_eq hcourse.begins, Control.turns_back]
      rfl
    constructor
    · intro hk
      obtain ⟨hguarded, hmem⟩ := ht'.holder?_eq_some_iff.mp hk
      exact ht.holder?_eq_some_iff.mpr ⟨hgrows.guarded hguarded, hturns ▸ hmem⟩
    · intro hk
      obtain ⟨-, hmem⟩ := ht.holder?_eq_some_iff.mp hk
      exact ht'.holder?_eq_some_iff.mpr
        ⟨(hgrows.serialized (ht.serialized k t hk)).guarded, hturns ▸ hmem⟩
  case draining =>
    rw [ht.holder?_eq_some_iff, hserve hc, Option.mem_toList]
    constructor
    · rintro ⟨-, hturn⟩
      have hkl : k = l := by
        cases p <;> first | (cases hturn; rfl) | cases hturn
      exact ⟨hkl, hkl ▸ hturn⟩
    · rintro ⟨rfl, hturn⟩
      exact ⟨hl, hturn⟩
  case exited =>
    obtain ⟨mux, n, rfl⟩ := (h.ended hexited).2 t c hc hserving
    exact ht.holder?_ne (turns_eq hc)

end Machine

/-- A level at which queueing and draining take turns. -/
def Level.careful : Level := ⟨3, by decide⟩

/-- A stream factory with one worker, whose loops are careful. -/
def Blueprint.careful : Blueprint :=
  ⟨.client 0 1, ⟨1, Nat.one_pos, ⟨0, ⟨"fake", none⟩⟩, .careful⟩⟩

namespace Machine

/-- The boss of a careful factory is taking an endpoint to its worker, and is in the midst of
the wake. Somebody else wants to submit to the worker, and the worker wants to drain. -/
def crowded : Scene :=
  let made := ((Scene.empty.build .careful).call (.create 0)).turn 0 granted 40
  let tried := (made.call (.connect 0 "127.0.0.1:9")).turn 2 granted 40
  let handing := tried.turn 3 granted 16
  let other := (handing.use (.submit ⟨0, .worker 0⟩ (.registration 0) .start)
    (Eq.refl true)).turn 4 granted 40
  other.turn 1 granted 40

/-- Both wait, and the boss has its own turn as well as that of the worker. -/
theorem takesTurns_crowded :
    let m := crowded.machine
    let boss : LoopId := ⟨0, .boss⟩
    let worker : LoopId := ⟨0, .worker 0⟩
    let mux : Multiplexer := ⟨0, 0⟩
    ∃ lp, m.store.loop? worker = some lp ∧ 0 < lp.level.rank ∧ m.TakesTurns worker
      ∧ m.control? 3 = some (.running [.submit worker (.registration 0) (.wake mux),
        .attempt 0 "127.0.0.1:9" .submitting, .serve boss mux (.run [] 1)])
      ∧ m.control? 4 = some (.running [.submit worker (.registration 0) (.serialize (some mux))])
      ∧ m.control? 1 = some (.running [.serve worker mux .serialize])
      ∧ m.store.locks.holder? (.registration worker) = some 3
      ∧ m.store.locks.holder? (.registration boss) = some 3 := by
  intro m boss worker mux
  have hrank : ((m.store.loop? worker).map (·.level.rank)) = some 3 := by decide +kernel
  obtain ⟨lp, found, hlp⟩ := Option.map_eq_some_iff.mp hrank
  have hlevel : 0 < lp.level.rank := by rw [hlp]; decide
  exact ⟨lp, found, hlevel, crowded.traffic.takesTurns found hlevel, by decide +kernel,
    by decide +kernel, by decide +kernel, by decide +kernel, by decide +kernel⟩

end Machine

end EndpointControl
