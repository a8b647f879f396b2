import EndpointControl.Scenario.Session

/-!
# Scenarios play histories of the machine

A scenario brings executors, providers and an order of events of its own, and so
it could bring about what no history of the machine does. It does not:
`World.follows_step` says that a step of a world moves its machine by one step of
one thread or not at all, and `Session.real_step` that whatever a script says
next, the machine of the session is still one that a history leads to. So what
holds of every reachable machine holds at every point of every session.

The reason is that a world reaches into its machine in four ways only: it lets a
thread act, it answers a thread with a reply that fits the request, it spawns the
thread of an operation, and it builds a factory. Everything else it does is
bookkeeping, and the first lemmas below say of each piece of it that the machine
stays as it is.
-/

namespace EndpointControl.Scenario

namespace World

/-! ## Bookkeeping -/

@[simp] theorem machine_log (w : World) (e : Entry) : (w.log e).machine = w.machine := rfl

@[simp] theorem machine_logCall (w : World) (p : Nat) (e : Entry) :
    (w.logCall p e).machine = w.machine := by
  unfold logCall
  split
  · split <;> rfl
  · rfl

@[simp] theorem machine_modifyExecutor (w : World) (x : ExecutorId)
    (f : StagedExecutor → StagedExecutor) : (w.modifyExecutor x f).machine = w.machine := rfl

@[simp] theorem machine_modifyProvider (w : World) (p : Nat)
    (f : StagedProvider → StagedProvider) : (w.modifyProvider p f).machine = w.machine := rfl

@[simp] theorem machine_setUnit (w : World) (u : ExecutorId × Nat) (s : UnitState) :
    (w.setUnit u s).machine = w.machine := rfl

@[simp] theorem machine_park (w : World) (u : ExecutorId × Nat) (below : List Activity) :
    (w.park u below).machine = w.machine := rfl

@[simp] theorem machine_retire (w : World) (u : Option (ExecutorId × Nat)) (o : Outcome) :
    (w.retire u o).machine = w.machine := by
  unfold retire
  split
  · rfl
  · dsimp only
    split <;> rfl

@[simp] theorem machine_logNotes (w : World) (ns : List Note) :
    (w.logNotes ns).machine = w.machine := by
  unfold logNotes
  induction ns generalizing w with
  | nil => rfl
  | cons n ns ih =>
    rw [List.foldl_cons, ih]
    cases n <;> rfl

/-! ## Steps of the machine -/

/-- **One step of one thread, or none**, lies between the machines of two
worlds. -/
def Follows (w w' : World) : Prop :=
  w'.machine = w.machine ∨ ∃ t h, Machine.Step w.machine t h w'.machine

/-- Nothing has happened to the machine. -/
theorem Follows.of_eq {w w' : World} (h : w'.machine = w.machine) : w.Follows w' := .inl h

/-- A thread has made a step. -/
theorem Follows.of_step {w w' : World} {t : ThreadId} {i : Happening} {m : Machine}
    (s : Machine.Step w.machine t i m) (h : w'.machine = m) : w.Follows w' :=
  .inr ⟨t, i, h ▸ s⟩

/-- What a machine goes through counts, not the bookkeeping around it. -/
theorem Follows.congr {v w v' w' : World} (h : v.Follows v') (hw : w.machine = v.machine)
    (hw' : w'.machine = v'.machine) : w.Follows w' := by
  unfold Follows at *
  rwa [hw, hw']

/-- **A reply is one step** of the thread that asked, or comes to nobody. -/
theorem follows_reply (w : World) (t : ThreadId) (r : Request) (a : r.Reply) :
    w.Follows (w.reply t r a) := by
  unfold reply
  split
  · rename_i r' after hm
    split
    · exact .of_step (.answer hm _) rfl
    · exact .of_eq rfl
  · exact .of_eq rfl

/-- A reply after some bookkeeping is still one step. -/
theorem follows_reply_of_eq {w v : World} (h : v.machine = w.machine) (t : ThreadId)
    (r : Request) (a : r.Reply) : w.Follows (v.reply t r a) :=
  (follows_reply v t r a).congr h.symm rfl

/-- Telling a thread whether an executor has terminated is a reply. -/
theorem follows_tellVerdict {w v : World} (h : v.machine = w.machine) (t : ThreadId)
    (x : ExecutorId) (ended : Bool) : w.Follows (v.tellVerdict t x ended) := by
  unfold tellVerdict
  split
  · rename_i e _
    exact follows_reply_of_eq (v := (v.modifyExecutor x fun _ => (e.verdict ended).1).log _) h ..
  · exact follows_reply_of_eq h ..

/-- Resuming a thread delivers the reply that it waits for. -/
theorem follows_resume {w v : World} (h : v.machine = w.machine) (t : ThreadId)
    (ready : Except String Nat) : w.Follows (v.resume t ready) := by
  unfold resume
  split
  · exact follows_reply_of_eq (by exact h) ..
  · exact follows_reply_of_eq (by exact h) ..
  · exact .of_eq h

/-- **Advancing a unit** delivers at most the reply that it waits for. -/
theorem follows_advance {w v : World} (h : v.machine = w.machine) (u : ExecutorId × Nat)
    (ready : Except String Nat) : w.Follows (v.advance u ready) := by
  unfold advance
  split
  · exact .of_eq h
  · exact .of_eq h
  · exact (follows_resume (v := v.setUnit u .running) h ..).congr rfl rfl
  · exact .of_eq h

/-- **What surrounds a thread** replies to it at most. -/
theorem follows_serve (w : World) (t : ThreadId) (unit : Option (ExecutorId × Nat))
    (below : List Activity) (r : Request) : w.Follows (w.serve t unit below r) := by
  cases r with
  | openMultiplexer l p =>
    simp only [serve]
    split
    · split <;> exact follows_reply_of_eq (by simp) ..
    · exact follows_reply ..
  | execute x l m =>
    simp only [serve]
    split
    · split <;> exact follows_reply_of_eq (by simp) ..
    · exact follows_reply ..
  | wake l m =>
    simp only [serve]
    split
    · split
      · exact follows_reply_of_eq (by simp) ..
      · split
        · split
          · exact .of_eq (by simp)
          · exact follows_reply_of_eq (by simp) ..
        · exact follows_reply_of_eq (by simp) ..
    · exact follows_reply ..
  | wait l m =>
    simp only [serve]
    split
    · split
      · exact .of_eq (by simp)
      · exact follows_reply_of_eq (by simp) ..
    · exact follows_reply_of_eq (by simp) ..
  | shutDown x => exact follows_reply_of_eq rfl ..
  | isMember x => exact follows_reply_of_eq rfl ..
  | await x =>
    simp only [serve]
    split
    · exact .of_eq rfl
    · split
      · exact follows_tellVerdict rfl ..
      · exact .of_eq rfl
    · exact follows_reply ..

/-- **A step of a world** moves its machine by one step of one thread, or not at
all. -/
theorem follows_step (w : World) : w.Follows w.step.1 := by
  unfold step
  split
  · exact .of_eq rfl
  · split
    · exact .of_eq (machine_retire ..)
    · split
      · rename_i hm
        exact .of_step (.act hm) (machine_logNotes ..)
      · exact follows_serve ..
      · exact .of_eq rfl
      · exact .of_eq rfl
  · split
    · split
      · exact follows_advance rfl ..
      · exact follows_tellVerdict rfl ..
    · exact .of_eq rfl
  · split
    · exact follows_advance rfl ..
    · dsimp only
      split
      · exact .of_eq rfl
      · exact follows_tellVerdict rfl ..
  · split
    · split
      · exact follows_advance rfl ..
      · exact .of_eq rfl
    · exact .of_eq rfl

/-! ## Reachable machines -/

/-- A reachable machine stays reachable. -/
theorem Follows.reachable {w w' : World} (h : w.Follows w') (r : w.machine.Reachable) :
    w'.machine.Reachable := by
  rcases h with h | ⟨t, i, h⟩
  · rwa [h]
  · exact r.step h

/-- However long a world goes on. -/
theorem reachable_run (n : Nat) {w : World} (r : w.machine.Reachable) :
    (w.run n).machine.Reachable := by
  induction n generalizing w with
  | zero => exact r
  | succ n ih =>
    have hw := (follows_step w).reachable r
    unfold run
    split <;> rename_i h <;> rw [h] at hw
    · exact ih hw
    · exact hw

theorem reachable_finish {w : World} (r : w.machine.Reachable) :
    w.finish.machine.Reachable := reachable_run _ r

/-- Calling an operation spawns its thread and goes on. -/
theorem reachable_call {w : World} (r : w.machine.Reachable) (o : Operation) :
    (w.call o).machine.Reachable := reachable_finish (w := w.begin o) (r.call none o)

theorem reachable_settled {w : World} (r : w.machine.Reachable) :
    w.settled.machine.Reachable := by
  unfold settled
  split
  · exact reachable_finish r
  · exact r

end World

namespace Session

/-- **The machine of the session is one that a history leads to.** -/
def Real (s : Session) : Prop := s.world.machine.Reachable

/-- A session starts with nothing. -/
theorem real_start (xs : List Regime) (ps : List ProviderPlan) (qs : List PlatformPlan)
    (n : Nat) (h : 0 < n) (d : DefectTable) : (start xs ps qs n h d).Real :=
  Machine.reachable_empty

/-- An operation and whatever bookkeeping follows it. -/
theorem real_callThen {s : Session} (r : s.Real) (o : Operation)
    {k : Session → Outcome → Session × SessionResult}
    (hk : ∀ s' out, s'.Real → (k s' out).1.Real) : (s.callThen o k).1.Real := by
  have hw := World.reachable_call r o
  unfold callThen
  dsimp only
  split
  · exact hk _ _ hw
  · exact hw

/-- Building a factory is an incident of its own. -/
theorem real_addFactory {s : Session} (r : s.Real) (b : Blueprint) : (s.addFactory b).Real :=
  Machine.Reachable.build r b

theorem real_build {s : Session} (r : s.Real) (k : Nat) : (s.build k).1.Real := by
  unfold build
  split
  · exact r
  · split
    · exact r
    · exact real_addFactory r _

theorem real_channel {s : Session} (r : s.Real) (k : Nat) (p : String) :
    (s.channel k p).1.Real := by
  unfold channel
  split
  · exact r
  · exact real_callThen r _ fun s' out hs => by split <;> exact hs

/-- An advanced unit runs until it rests. -/
theorem real_advance {s : Session} (r : s.Real) (u : ExecutorId × Nat)
    (ready : Except String Nat) : (s.advance u ready).1.Real := by
  have hw := World.reachable_finish ((World.follows_advance rfl u ready).reachable r)
  unfold advance
  split
  · exact r
  · dsimp only
    split <;> exact hw

/-- A thread of an executor begins where an operation begins. -/
theorem real_offer {s : Session} (r : s.Real) (x : ExecutorId) {c : Option Control}
    (hc : ∀ d, c = some d → ∃ o : Operation, o.control = d) : (s.offer x c).1.Real := by
  unfold offer
  split
  · exact r
  · dsimp only
    split
    · exact r
    · cases c with
      | none => exact r
      | some d =>
        obtain ⟨o, rfl⟩ := hc d rfl
        exact Machine.Reachable.call r (some x) o

theorem real_submit {s : Session} (r : s.Real) (x : ExecutorId) (a : Action) :
    (s.submit x a).1.Real := by
  have one (o : Operation) : ∀ d, some o.control = some d → ∃ o : Operation, o.control = d :=
    fun d h => ⟨o, Option.some.inj h⟩
  cases a <;> simp only [submit] <;> split
  · exact real_offer r x (one _)
  · exact r
  · exact real_offer r x (one _)
  · exact r
  · split
    · exact real_offer r x (one _)
    · exact real_offer r x (by simp)
  · exact r
  · exact real_offer r x (one _)
  · exact r

/-- **Whatever a script says, the machine stays one that a history leads to**,
before anything settles. -/
theorem real_perform {s : Session} (r : s.Real) (a : SessionStep) : (s.perform a).1.Real := by
  cases a with
  | build k => exact real_build r k
  | channel k p => exact real_channel r k p
  | connect k a =>
    simp only [perform]
    split
    · split
      · exact real_callThen r _ fun s' out hs => by split <;> exact hs
      · exact r
    · exact r
  | close k =>
    simp only [perform]
    split
    · exact real_callThen r _ fun s' out hs => by split <;> exact hs
    · exact r
  | release k =>
    simp only [perform]
    split
    · exact real_callThen r _ fun _ _ hs => hs
    · exact r
  | advance x u ready => exact real_advance r _ _
  | sweep => exact World.reachable_finish (w := { s.world with floor := [.sweep 0 0] }) r
  | submit x a => exact real_submit r x a
  | draft f => exact r
  | _ => simp only [perform]; split <;> exact r

/-- **Whatever a script says, the machine stays one that a history leads to.** -/
theorem real_step {s : Session} (r : s.Real) (a : SessionStep) : (s.step a).1.Real :=
  World.reachable_settled (real_perform r a)

end Session

end EndpointControl.Scenario
