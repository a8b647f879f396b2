import EndpointControl.Loop

/-!
# Notices

What the library says about itself while it works. A notice is a value; its
wording, its severity and the order of its fields are in `Notice.text` alone.
Notices that concern a loop name it in full, although only its label is printed.
-/

namespace EndpointControl

/-- How loud a notice is. -/
inductive Severity where
  /-- For following every step. -/
  | trace
  /-- For following what starts and ends. -/
  | debug
  /-- Something went wrong and was dealt with. -/
  | warn
  /-- Something went wrong that should not. -/
  | error
  deriving DecidableEq, Repr

/-- The severity as it is printed. -/
def Severity.text : Severity → String
  | .trace => "TRACE"
  | .debug => "DEBUG"
  | .warn => "WARN"
  | .error => "ERROR"

/-- **What can be said.** -/
inductive Notice where
  /-- A factory was built. -/
  | built (flavor : Flavor) (terms : Terms)
  /-- An endpoint was bound to a worker. -/
  | assigned (worker : LoopId) (endpoint : UInt64)
  /-- A channel was handed out. -/
  | created (flavor : Flavor) (worker : LoopId) (endpoint : UInt64)
  /-- A worker registered an endpoint. -/
  | registered (worker : LoopId) (endpoint : UInt64)
  /-- The boss is about to take an endpoint to its worker. -/
  | handingOver (worker : LoopId) (endpoint : UInt64) (remote : Address)
  /-- The worker would not have the endpoint. -/
  | handOverRefused (worker : LoopId) (endpoint : UInt64) (cause : Failure)
  /-- An executor took a loop. -/
  | submitted (loop : LoopId) (provider : Identity) (level : Level)
  /-- A loop began to run. -/
  | loopStarted (loop : LoopId)
  /-- A loop ran what was queued. -/
  | ran (loop : LoopId) (executed : Nat)
  /-- A multiplexer reported events. -/
  | ready (loop : LoopId) (count : Nat)
  /-- Waiting on a multiplexer failed. -/
  | waitFailed (loop : LoopId) (cause : String)
  /-- Waking a multiplexer failed. -/
  | wakeFailed (loop : LoopId) (cause : String)
  /-- A loop was told to end. -/
  | signalled (loop : LoopId)
  /-- A loop ended. -/
  | exiting (loop : LoopId) (dropped : Nat)
  /-- All workers of a factory were told to end. -/
  | workersSignalled (workers : Nat)
  /-- A factory begins to let go of its resources. -/
  | releasing (flavor : Flavor)
  /-- A factory has let go of its resources. -/
  | released (flavor : Flavor)
  /-- An executor takes longer than one slice to terminate. -/
  | awaiting (executor : ExecutorId)
  /-- The executors are not waited for, because one of them runs the caller. -/
  | notAwaiting
  deriving DecidableEq, Repr

namespace Notice

/-- One field as it is printed behind the message. -/
def field (name value : String) : String := " " ++ name ++ "=" ++ value

/-- The label of the loop as a field. -/
def labelField (l : LoopId) : String := field "label" l.seat.label

/-- The position of the worker as a field. -/
def workerField (l : LoopId) : String :=
  field "worker" <|
    match l.seat with
    | .boss => l.seat.label
    | .worker i => toString i

/-- The endpoint as a field. -/
def endpointField (n : UInt64) : String := field "endpoint" (endpointText n)

/-- How loud the notice is. -/
def severity : Notice → Severity
  | .built .. | .submitted .. | .loopStarted _ | .signalled _ | .exiting .. => .debug
  | .workersSignalled _ | .releasing _ | .released _ | .awaiting _ => .debug
  | .assigned .. | .created .. | .registered .. | .handingOver .. | .ran .. | .ready .. => .trace
  | .handOverRefused .. | .waitFailed .. | .wakeFailed .. | .notAwaiting => .warn

/-- A factory by its kind, as notices name it. -/
def flavorText : Flavor → String
  | .client => "client socket factory"
  | .datagram => "datagram factory"

/-- The message of the notice and its fields. -/
def body : Notice → String
  | .built f t =>
    flavorText f ++ " built" ++ field "workers" (toString t.workerCount) ++
      field "provider" t.provider.identity.text ++ field "level" t.level.text
  | .assigned w e => "endpoint assigned" ++ workerField w ++ endpointField e
  | .created .client w e => "client endpoint created" ++ endpointField e ++ workerField w
  | .created .datagram w e => "datagram endpoint created" ++ endpointField e ++ workerField w
  | .registered w e => "endpoint registered" ++ workerField w ++ endpointField e
  | .handingOver w e r =>
    "handing connecting endpoint to worker" ++ endpointField e ++ workerField w ++ field "remote" r
  | .handOverRefused w e c =>
    "worker did not accept connecting endpoint" ++ endpointField e ++ workerField w ++
      field "error" c.message
  | .submitted l p v =>
    "selector loop submitted to executor" ++ labelField l ++ field "provider" p.text ++
      field "level" v.text
  | .loopStarted l => "selector loop started" ++ labelField l
  | .ran l n => "ran queued tasks" ++ labelField l ++ field "executed" (toString n)
  | .ready l n => "multiplexer reported readiness" ++ labelField l ++ field "ready" (toString n)
  | .waitFailed l c => "waiting on multiplexer failed" ++ labelField l ++ field "error" c
  | .wakeFailed l c => "failed to wake multiplexer" ++ labelField l ++ field "error" c
  | .signalled l => "selector loop signalled to shut down" ++ labelField l
  | .exiting l n => "selector loop exiting" ++ labelField l ++ field "dropped" (toString n)
  | .workersSignalled n => "workers signalled to shut down" ++ field "workers" (toString n)
  | .releasing f => "releasing " ++ flavorText f ++ " resources"
  | .released f => flavorText f ++ " resources released"
  | .awaiting x => "waiting for executor to terminate" ++ field "executor" ("x" ++ toString x)
  | .notAwaiting =>
    "external resources released from an executor thread; " ++
      "not waiting for executors to terminate"

/-- **The notice as a line.** -/
def text (n : Notice) : String := n.severity.text ++ ": " ++ n.body

end Notice

end EndpointControl
