import EndpointControl.Blueprint

/-!
# Loops

A loop is what a factory runs on an executor: the boss's, which handles
connection attempts, or one of the workers', each of which serves the endpoints
bound to it. What other threads see of a loop is in `Loop` – three flags that
only ever rise, the slot for its multiplexer, and the queue of jobs that it has
not taken yet. What the loop itself is doing is not here but in the thread that
runs it.

A loop is opened and started lazily. The slot may be full while the loop is not
started: that is a loop whose executor refused it once, and the next start finds
the multiplexer already open.
-/

namespace EndpointControl

/-- An endpoint, by its place among all endpoints there are. -/
abbrev EndpointId := Nat

/-- A factory, by its place among all factories there are. -/
abbrev FactoryId := Nat

/-- **Which loop of its factory.** -/
inductive Seat where
  /-- The boss's. -/
  | boss
  /-- That of the worker at this position. -/
  | worker (index : Nat)
  deriving DecidableEq, Repr

/-- The kind of loop on this seat. -/
def Seat.role : Seat → Role
  | .boss => .boss
  | .worker _ => .worker

/-- The name under which the loop on this seat speaks. -/
def Seat.label : Seat → String
  | .boss => "boss"
  | .worker i => "worker-" ++ toString i

/-- **A loop**: which factory it belongs to, and on which seat it sits there. -/
structure LoopId where
  /-- The factory. -/
  factory : FactoryId
  /-- The seat. -/
  seat : Seat
  deriving DecidableEq, Repr

/-- **What can be queued on a loop.** -/
inductive Job where
  /-- For the boss: take the endpoint to its worker. -/
  | attempt (endpoint : EndpointId) (remote : Address)
  /-- For a worker: make the endpoint known to the multiplexer. -/
  | registration (endpoint : EndpointId)
  deriving DecidableEq, Repr

/-- The endpoint that the job carries. -/
def Job.endpoint : Job → EndpointId
  | .attempt e _ => e
  | .registration e => e

/-- **What others see of a loop.** -/
structure Loop where
  /-- The provider of its multiplexer. -/
  provider : Provider
  /-- How carefully the multiplexer has to be treated. -/
  level : Level
  /-- The executor that is to run it. -/
  executor : ExecutorId
  /-- An executor has taken the loop. -/
  started : Bool
  /-- The loop has been told to end. -/
  shutDown : Bool
  /-- The loop has ended. -/
  exited : Bool
  /-- The multiplexer, once it is open. -/
  slot : Option Multiplexer
  /-- The jobs that the loop has not taken yet, in order of arrival. -/
  queue : Array Job
  deriving DecidableEq, Repr

namespace Loop

/-- A loop that nobody has used. -/
def idle (provider : Provider) (level : Level) (executor : ExecutorId) : Loop :=
  ⟨provider, level, executor, false, false, false, none, #[]⟩

/-- **The loop is running**: it has been started and has not ended. -/
def running (l : Loop) : Bool := l.started && !l.exited

@[simp] theorem running_idle (p : Provider) (v : Level) (x : ExecutorId) :
    (idle p v x).running = false := rfl

end Loop

end EndpointControl
