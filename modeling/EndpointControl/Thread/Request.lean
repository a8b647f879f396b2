import EndpointControl.Thread.Frame

/-!
# What a thread does next

There are four possibilities for the next step of a thread:

* it **acts**: one access to the store, one notice, or one call or return, after
  which it stands at its next point;
* it **asks** the surroundings for something that the library does not do itself
  – opening, waking or waiting on a multiplexer, handing a loop to an executor –
  and where it stands afterwards depends on the answer;
* it is **blocked**, because somebody holds the lock it wants;
* it is **stuck**, because a name leads nowhere.

`Move` is one of these. A request names the loop on whose behalf it is made, so
that what has been asked for a loop can be told from the requests alone.

Beside the notices, a step leaves a record of what happened to a job. Nobody
prints these; they are the history that statements about queues speak of.
-/

namespace EndpointControl

/-- **What a thread asks of the surroundings.** -/
inductive Request where
  /-- Open a multiplexer for a loop. -/
  | openMultiplexer (loop : LoopId) (provider : Provider)
  /-- Take a loop and run it. -/
  | execute (executor : ExecutorId) (loop : LoopId) (mux : Multiplexer)
  /-- Wake the multiplexer of a loop. -/
  | wake (loop : LoopId) (mux : Multiplexer)
  /-- Wait on the multiplexer of a loop, for half a second at most. -/
  | wait (loop : LoopId) (mux : Multiplexer)
  /-- Take no more work. -/
  | shutDown (executor : ExecutorId)
  /-- Tell whether the caller is one of the executor's threads. -/
  | isMember (executor : ExecutorId)
  /-- Wait a slice of time for the executor to terminate. -/
  | await (executor : ExecutorId)
  deriving DecidableEq, Repr

/-- **What the answer to a request tells.** -/
abbrev Request.Reply : Request → Type
  | .openMultiplexer .. => Except String Multiplexer
  | .execute .. => Bool
  | .wake .. => Except String Unit
  | .wait .. => Except String Nat
  | .shutDown _ => Unit
  | .isMember _ => Bool
  | .await _ => Bool

/-- How long a loop waits on its multiplexer at a time, in milliseconds. -/
def Request.waitLimit : Nat := 500

/-- How long whoever waits for an executor does so at a time, in milliseconds. -/
def Request.awaitLimit : Nat := 100

/-- **How long it may take to be answered**, where there is a limit to it. -/
def Request.limit? : Request → Option Nat
  | .wait .. => some waitLimit
  | .await _ => some awaitLimit
  | _ => none

/-- **What a step leaves behind.** -/
inductive Note where
  /-- Something was said. -/
  | said (notice : Notice)
  /-- A job went to the end of a queue. -/
  | pushed (loop : LoopId) (job : Job)
  /-- A loop began to run a job. -/
  | started (loop : LoopId) (job : Job)
  /-- A loop that ends dropped a job. -/
  | dropped (loop : LoopId) (job : Job)
  /-- A worker counted an endpoint among those it has registered. -/
  | counted (endpoint : EndpointId)
  deriving DecidableEq, Repr

/-- **What a thread does next.** -/
inductive Move where
  /-- It acts: this is what becomes of the store, and where it stands then. -/
  | act (change : Store → Store) (control : Control) (notes : List Note)
  /-- It asks, and goes on according to the answer. -/
  | ask (request : Request) (after : request.Reply → Control)
  /-- It wants a lock that is held. -/
  | blocked (lock : Lock)
  /-- A name leads nowhere. -/
  | stuck

namespace Move

/-- Leaves notes and goes on without touching the store. -/
def tell (c : Control) (notes : List Note) : Move := .act (fun s => s) c notes

/-- Changes the store and goes on without a note. -/
def change (g : Store → Store) (c : Control) : Move := .act g c []

/-- Goes on without touching the store. -/
def go (c : Control) : Move := tell c []

/-- Says something and goes on. -/
def say (n : Notice) (c : Control) : Move := tell c [.said n]

/-- **Takes a lock, or waits until it is free.** -/
def takeLock (s : Store) (t : ThreadId) (l : Lock) (c : Control) : Move :=
  match s.locks.holder? l with
  | some _ => .blocked l
  | none => change (·.takeLock l t) c

end Move

end EndpointControl
