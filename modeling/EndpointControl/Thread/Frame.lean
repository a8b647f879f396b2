import EndpointControl.Store
import EndpointControl.Termination

/-!
# Where a thread is

A thread works through procedures that call one another: a client's call to
`connect` submits a job to the boss, submitting may have to start the boss's
loop, and the loop, on another thread, runs the job, which submits a job to a
worker in turn. Where a thread is, is therefore a stack of `Frame`s, the
innermost procedure first, each a procedure with its arguments and the point it
has reached.

A point stands *before* one access to the shared memory, one call to the
surroundings, or one notice. Nothing else happens between two points, so two
threads can be interleaved at every point and nowhere else. A point that holds
what the thread has read or been told carries it as an argument.
-/

namespace EndpointControl

/-- **Starting a loop**, unless it has been started or told to end. The two
flags are read once without and once under the lock of the slot. -/
inductive StartPoint where
  /-- Read whether the loop has been told to end. -/
  | readShutDown
  /-- Read whether the loop has been started. -/
  | readStarted
  /-- Take the lock of the slot. -/
  | takeSlot
  /-- Read again whether the loop has been told to end. -/
  | rereadShutDown
  /-- Read again whether the loop has been started. -/
  | rereadStarted
  /-- Look into the slot. -/
  | inspectSlot
  /-- Ask the provider for a multiplexer. -/
  | openNew
  /-- Put the multiplexer into the slot. -/
  | fillSlot (m : Multiplexer)
  /-- Ask the executor to run the loop. -/
  | execute (m : Multiplexer)
  /-- Mark the loop as started. -/
  | mark
  /-- Say so. -/
  | announce
  /-- Give the lock of the slot back and return. -/
  | leave (result : Except Failure Unit)
  deriving DecidableEq, Repr

/-- **Submitting a job to a loop.** -/
inductive SubmitPoint where
  /-- Start the loop. -/
  | start
  /-- The loop is being started. -/
  | starting
  /-- Read whether the loop has been told to end. -/
  | readShutDown
  /-- Take the lock of the slot. -/
  | takeSlot
  /-- Read the slot and give its lock back. -/
  | readSlot
  /-- Take the turn of the queueing side, at the levels that ask for turns. -/
  | serialize (m : Option Multiplexer)
  /-- Take the lock of the queue. -/
  | takeQueue (m : Option Multiplexer)
  /-- Append the job and give the lock of the queue back. -/
  | append (m : Option Multiplexer)
  /-- Wake the multiplexer. -/
  | wake (m : Multiplexer)
  /-- Say that waking failed. -/
  | wakeFailed (cause : String)
  /-- End the turn and return. -/
  | leave
  /-- Drop the job, which nobody will run. -/
  | refuse (e : Failure)
  /-- Return the failure. -/
  | refused (e : Failure)
  deriving DecidableEq, Repr

/-- **Telling a loop to end.** -/
inductive SignalPoint where
  /-- Raise the flag. Only the first to raise it goes on. -/
  | raise
  /-- Take the lock of the slot. -/
  | takeSlot
  /-- Look into the slot. -/
  | readSlot
  /-- Wake the multiplexer. -/
  | wake (m : Multiplexer)
  /-- Say that waking failed. -/
  | wakeFailed (cause : String)
  /-- Give the lock of the slot back. -/
  | giveSlot
  /-- Say that the loop has been told. -/
  | announce
  deriving DecidableEq, Repr

/-- **Running a loop**: drain, look whether to end, wait, and again. -/
inductive ServePoint where
  /-- Say that the loop begins. -/
  | announce
  /-- Take the turn of the draining side, at the levels that ask for turns. -/
  | serialize
  /-- Take the lock of the queue. -/
  | takeQueue
  /-- Take everything queued and give the lock of the queue back. -/
  | takeBatch
  /-- Run the next job of the batch. -/
  | run (batch : List Job) (executed : Nat)
  /-- End the turn. -/
  | endTurn (executed : Nat)
  /-- Say how much has been run. -/
  | report (executed : Nat)
  /-- Read whether the loop has been told to end. -/
  | readShutDown
  /-- Wait on the multiplexer. -/
  | wait
  /-- Say what came of the wait. -/
  | waited (result : Except String Nat)
  /-- Take the lock of the queue for the last time. -/
  | takeQueueLast
  /-- Take what is left and give the lock of the queue back. -/
  | takeRest
  /-- Drop what is left, one job after the other. -/
  | discard (rest : List Job) (dropped : Nat)
  /-- Mark the loop as ended. -/
  | markExited (dropped : Nat)
  /-- Say so. -/
  | announceExit (dropped : Nat)
  deriving DecidableEq, Repr

/-- **The boss's job**: taking a connecting endpoint to its worker. -/
inductive AttemptPoint where
  /-- Say so. -/
  | announce
  /-- Submit the registration to the worker. -/
  | submit
  /-- The registration is being submitted. -/
  | submitting
  /-- Say that the worker would not have it. -/
  | announceRefusal (cause : Failure)
  /-- Drop the attempt. -/
  | drop
  /-- Return. -/
  | leave
  deriving DecidableEq, Repr

/-- **The worker's job**: registering an endpoint. -/
inductive RegistrationPoint where
  /-- Take the lock of the status. -/
  | takeStatus
  /-- Mark the endpoint as registered and give the lock back. -/
  | mark
  /-- Count the endpoint. -/
  | count
  /-- Say so. -/
  | announce
  deriving DecidableEq, Repr

/-- **Dropping a job that has not run**: its endpoint goes back. -/
inductive DropPoint where
  /-- Take the lock of the status. -/
  | takeStatus
  /-- Take the attempt back and give the lock back. -/
  | revert
  deriving DecidableEq, Repr

/-- **Making a channel.** -/
inductive CreatePoint where
  /-- Read whether the factory has let go. -/
  | readReleased
  /-- Pick the next worker. -/
  | pickWorker
  /-- Draw the next number. -/
  | drawNumber (worker : Nat)
  /-- Start the worker. -/
  | start (worker : Nat) (number : UInt64)
  /-- The worker is being started. -/
  | starting (worker : Nat) (number : UInt64)
  /-- Count the endpoint with its worker. -/
  | count (worker : Nat) (number : UInt64)
  /-- Say that it is bound. -/
  | announceBound (worker : Nat) (number : UInt64)
  /-- Let the endpoint come about. -/
  | enroll (worker : Nat) (number : UInt64)
  /-- Submit the registration of a datagram endpoint. -/
  | submit (endpoint : EndpointId)
  /-- The registration is being submitted. -/
  | submitting (endpoint : EndpointId)
  /-- Say that the channel is made, and return it. -/
  | announce (endpoint : EndpointId)
  /-- Return the failure. -/
  | failed (e : Failure)
  deriving DecidableEq, Repr

/-- **Starting a connection attempt.** -/
inductive ConnectPoint where
  /-- Take the lock of the status. -/
  | takeStatus
  /-- Begin the attempt, if the state allows, and give the lock back. -/
  | begin
  /-- Submit the attempt to the boss. -/
  | submit
  /-- The attempt is being submitted. -/
  | submitting
  /-- Count the attempt. -/
  | count
  /-- Return the failure. -/
  | failed (e : Failure)
  deriving DecidableEq, Repr

/-- **Closing an endpoint.** -/
inductive ClosePoint where
  /-- Take the lock of the status. -/
  | takeStatus
  /-- Close and give the lock back. -/
  | close
  deriving DecidableEq, Repr

/-- **Letting go of a factory's resources.** -/
inductive ReleasePoint where
  /-- Raise the flag. Only the first to raise it goes on. -/
  | raise
  /-- Say that letting go begins. -/
  | announce
  /-- Tell the boss to end. -/
  | signalBoss
  /-- Tell the workers to end, this one and all behind it. -/
  | signalWorkers (index : Nat)
  /-- Say that the workers have been told. -/
  | announceWorkers
  /-- Let the executors go. -/
  | terminate (t : Termination)
  /-- Say that it is over. -/
  | announceEnd
  deriving DecidableEq, Repr

/-- **A procedure on the stack of a thread.** -/
inductive Frame where
  /-- Starting a loop. -/
  | start (loop : LoopId) (point : StartPoint)
  /-- Submitting a job to a loop. -/
  | submit (loop : LoopId) (job : Job) (point : SubmitPoint)
  /-- Telling a loop to end. -/
  | signal (loop : LoopId) (point : SignalPoint)
  /-- Running a loop on its multiplexer. -/
  | serve (loop : LoopId) (mux : Multiplexer) (point : ServePoint)
  /-- Taking a connecting endpoint to its worker. -/
  | attempt (endpoint : EndpointId) (remote : Address) (point : AttemptPoint)
  /-- Registering an endpoint. -/
  | registration (endpoint : EndpointId) (point : RegistrationPoint)
  /-- Dropping a job that carries an endpoint. -/
  | drop (endpoint : EndpointId) (point : DropPoint)
  /-- Making a channel of a factory. -/
  | create (factory : FactoryId) (point : CreatePoint)
  /-- Starting a connection attempt. -/
  | connect (endpoint : EndpointId) (remote : Address) (point : ConnectPoint)
  /-- Closing an endpoint. -/
  | close (endpoint : EndpointId) (point : ClosePoint)
  /-- Letting go of a factory's resources. -/
  | release (factory : FactoryId) (point : ReleasePoint)
  deriving DecidableEq, Repr

namespace Frame

/-- The procedure that runs a job. -/
def ofJob : Job → Frame
  | .attempt e r => .attempt e r .announce
  | .registration e => .registration e .takeStatus

/-- The procedure that drops a job without running it. -/
def ofDropped (j : Job) : Frame := .drop j.endpoint .takeStatus

/-- **A caller goes on when what it called returns.** A caller that does not
care about the result is already where it goes on. -/
def resume (r : Except Failure Unit) : Frame → Frame
  | .submit l j .starting =>
    match r with
    | .ok () => .submit l j .readShutDown
    | .error e => .submit l j (.refuse e)
  | .attempt e a .submitting =>
    match r with
    | .ok () => .attempt e a .leave
    | .error c => .attempt e a (.announceRefusal c)
  | .create f (.starting w n) =>
    match r with
    | .ok () => .create f (.count w n)
    | .error e => .create f (.failed e)
  | .create f (.submitting e) =>
    match r with
    | .ok () => .create f (.announce e)
    | .error c => .create f (.failed c)
  | .connect e a .submitting =>
    match r with
    | .ok () => .connect e a .count
    | .error c => .connect e a (.failed c)
  | other => other

end Frame

/-- **What a thread ends with.** -/
inductive Outcome where
  /-- A procedure without a caller returned. -/
  | returned (result : Except Failure Unit)
  /-- A channel was made, or was not. -/
  | created (result : Except Failure EndpointId)
  /-- An attempt was accepted, or was not. -/
  | connected (result : Except Failure Unit)
  /-- An endpoint was closed, by this call or before it. -/
  | closed (first : Bool)
  /-- A factory's resources were let go. -/
  | released
  /-- A loop ran to its end. -/
  | served
  deriving DecidableEq, Repr

/-- **Where a thread is**: in the midst of its procedures, or at its end. -/
inductive Control where
  /-- The procedures on the stack, the innermost first. -/
  | running (stack : List Frame)
  /-- The thread has ended. -/
  | finished (outcome : Outcome)
  deriving DecidableEq, Repr

/-- The innermost procedure returns to the one below it. -/
def Control.back (below : List Frame) (r : Except Failure Unit) : Control :=
  match below with
  | [] => .finished (.returned r)
  | caller :: rest => .running (caller.resume r :: rest)

end EndpointControl
