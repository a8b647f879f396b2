import EndpointControl.Thread.Move

/-!
# Threads over one store

A `Machine` is a store and the threads that work on it. It advances by steps of
single threads, in any order: `Machine.Step m t h m'` says that thread `t` does
its next thing and that `h` is what happened. If the thread asked for something,
any answer is a step; the only thing the machine itself does about an answer is
to add the thread of a loop that an executor has taken.

New threads also come from outside, where somebody calls an operation, and new
factories from whoever builds them. `Machine.Run` is a history of all three, from
the empty machine on. Whatever holds along every `Run` holds of every program
that uses the library, for every executor, every provider and every order in which
threads get to run.
-/

namespace EndpointControl

/-- **A thread**: where it is, and the executor that runs it, if one does. -/
structure Thread where
  /-- The executor that runs the thread. -/
  home : Option ExecutorId
  /-- Where the thread is. -/
  control : Control
  deriving DecidableEq, Repr

/-- **What clients call.** -/
inductive Operation where
  /-- Make a channel of a factory. -/
  | create (factory : FactoryId)
  /-- Start a connection attempt. -/
  | connect (endpoint : EndpointId) (remote : Address)
  /-- Close an endpoint. -/
  | close (endpoint : EndpointId)
  /-- Let go of a factory's resources. -/
  | release (factory : FactoryId)
  deriving DecidableEq, Repr

/-- Where a thread begins that carries the operation out. -/
def Operation.control : Operation → Control
  | .create f => .running [.create f .readReleased]
  | .connect e a => .running [.connect e a .takeStatus]
  | .close e => .running [.close e .takeStatus]
  | .release f => .running [.release f .raise]

/-- **A store and the threads that work on it.** -/
structure Machine where
  /-- What the threads share. -/
  store : Store
  /-- All threads there have been, also those at their end. -/
  threads : Array Thread
  deriving DecidableEq, Repr

/-- **What happened in a step.** -/
inductive Happening where
  /-- A thread acted and left these notes. -/
  | acted (notes : List Note)
  /-- A thread asked and was answered. -/
  | answered (request : Request) (reply : request.Reply)

/-- **One thing in the history of a machine.** -/
inductive Incident where
  /-- A thread made a step. -/
  | stepped (thread : ThreadId) (happening : Happening)
  /-- Somebody called an operation, on a thread of an executor or on one of their
  own. -/
  | called (home : Option ExecutorId) (operation : Operation)
  /-- A factory was built. -/
  | built (blueprint : Blueprint)

namespace Machine

/-- Nothing is built and nobody works. -/
def empty : Machine := ⟨.empty, #[]⟩

/-- Where the thread is. -/
def control? (m : Machine) (t : ThreadId) : Option Control := m.threads[t]?.map Thread.control

/-- What the thread does next. -/
def move (m : Machine) (t : ThreadId) : Move :=
  match m.control? t with
  | some c => c.move m.store t
  | none => .stuck

/-- Puts a thread at another place. -/
def setControl (m : Machine) (t : ThreadId) (c : Control) : Machine :=
  { m with threads := m.threads.modify t fun th => { th with control := c } }

/-- A new thread. It gets the next name. -/
def spawn (m : Machine) (home : Option ExecutorId) (c : Control) : Machine :=
  { m with threads := m.threads.push ⟨home, c⟩ }

/-- A new factory. -/
def build (m : Machine) (b : Blueprint) : Machine := { m with store := m.store.build b }

/-- The thread acts. -/
def act (m : Machine) (t : ThreadId) (g : Store → Store) (c : Control) : Machine :=
  { m with store := g m.store }.setControl t c

/-- **A thread is answered.** When an executor takes a loop, the loop becomes a
thread of that executor. -/
def answer (m : Machine) (t : ThreadId) (r : Request) (after : r.Reply → Control)
    (reply : r.Reply) : Machine :=
  let m := m.setControl t (after reply)
  match r, reply with
  | .execute x l mux, true => m.spawn (some x) (.running [.serve l mux .announce])
  | _, _ => m

/-- **One step of one thread.** -/
inductive Step (m : Machine) (t : ThreadId) : Happening → Machine → Prop where
  /-- The thread acts. -/
  | act {g : Store → Store} {c : Control} {notes : List Note} (h : m.move t = .act g c notes) :
    Step m t (.acted notes) (m.act t g c)
  /-- The thread asks and is answered, in whatever way. -/
  | answer {r : Request} {after : r.Reply → Control} (h : m.move t = .ask r after)
    (reply : r.Reply) : Step m t (.answered r reply) (m.answer t r after reply)

/-- **The machines that a history leads to**, with the history, the last incident
last. -/
inductive Run : List Incident → Machine → Prop where
  /-- In the beginning there is nothing. -/
  | empty : Run [] Machine.empty
  /-- A thread makes a step. -/
  | step {is : List Incident} {m m' : Machine} {t : ThreadId} {h : Happening}
    (r : Run is m) (s : Step m t h m') : Run (is ++ [.stepped t h]) m'
  /-- Somebody calls an operation. -/
  | call {is : List Incident} {m : Machine} (r : Run is m) (home : Option ExecutorId)
    (o : Operation) : Run (is ++ [.called home o]) (m.spawn home o.control)
  /-- Somebody builds a factory. -/
  | build {is : List Incident} {m : Machine} (r : Run is m) (b : Blueprint) :
    Run (is ++ [.built b]) (m.build b)

/-- **A machine that some history leads to.** -/
def Reachable (m : Machine) : Prop := ∃ is, Run is m

@[simp] theorem store_setControl (m : Machine) (t : ThreadId) (c : Control) :
    (m.setControl t c).store = m.store := rfl

@[simp] theorem store_spawn (m : Machine) (x : Option ExecutorId) (c : Control) :
    (m.spawn x c).store = m.store := rfl

@[simp] theorem store_act (m : Machine) (t : ThreadId) (g : Store → Store) (c : Control) :
    (m.act t g c).store = g m.store := rfl

/-- An answer by itself touches nothing that is shared. -/
@[simp] theorem store_answer (m : Machine) (t : ThreadId) (r : Request)
    (after : r.Reply → Control) (reply : r.Reply) :
    (m.answer t r after reply).store = m.store := by
  unfold answer
  split <;> rfl

/-- Moving one thread leaves the others where they are. -/
theorem control?_setControl (m : Machine) (t t' : ThreadId) (c : Control) :
    (m.setControl t c).control? t'
      = if t = t' then (m.control? t').map fun _ => c else m.control? t' := by
  simp only [control?, setControl, Array.getElem?_modify]
  split
  · cases m.threads[t']? <;> rfl
  · rfl

theorem reachable_empty : Reachable empty := ⟨[], .empty⟩

theorem Reachable.step {m m' : Machine} {t : ThreadId} {h : Happening}
    (r : Reachable m) (s : Step m t h m') : Reachable m' :=
  r.elim fun _ r => ⟨_, r.step s⟩

theorem Reachable.call {m : Machine} (r : Reachable m) (home : Option ExecutorId)
    (o : Operation) : Reachable (m.spawn home o.control) :=
  r.elim fun _ r => ⟨_, r.call home o⟩

theorem Reachable.build {m : Machine} (r : Reachable m) (b : Blueprint) :
    Reachable (m.build b) :=
  r.elim fun _ r => ⟨_, r.build b⟩

end Machine

end EndpointControl
