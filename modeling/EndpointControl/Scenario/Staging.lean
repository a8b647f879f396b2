import EndpointControl.Provider.Counting
import EndpointControl.Thread.Machine

/-!
# What surrounds the threads in a scenario

In a scenario the executors and the providers are staged: they do what they are
told, when they are told, so that one order of events out of many can be played
and looked at.

A *stepped* executor has no concurrency at all. A unit that it takes runs only
when it is advanced, and then until it waits on its multiplexer or ends. It can be
told to refuse certain offers, and how to answer whoever waits for it to
terminate. An *eager* executor stands for real threads: whatever can run is run
before anybody looks.

A staged provider stands in front of a counting one. It can be told to fail
certain calls, which then do not get through, and to hold the units of stepped
executors up inside the wake-ups they issue.
-/

namespace EndpointControl.Scenario

/-! ## Executors -/

/-- **How an executor treats its units.** -/
inductive Regime where
  /-- Nothing moves by itself. `refusals` are the offers that are refused, `idle`
  says that waiting does not advance the units, and after `patience` denials in a
  row whoever waits is told that it is over. -/
  | stepped (refusals : List Nat) (idle : Bool) (patience : Nat)
  /-- Everything that can move has moved. -/
  | eager
  deriving DecidableEq, Repr

/-- The executor runs its units by itself. -/
def Regime.isEager : Regime → Bool
  | .eager => true
  | .stepped .. => false

/-- **Where a unit of work is.** -/
inductive UnitState where
  /-- It has not begun. -/
  | fresh
  /-- It is on. -/
  | running
  /-- It waits, or is held up inside a wake-up. -/
  | parked
  /-- It is over, or will never begin. -/
  | done
  deriving DecidableEq, Repr

/-- **A unit of work of a staged executor.** -/
structure StagedUnit where
  /-- The thread it is. A unit without one has nothing to do. -/
  thread : Option ThreadId
  /-- Where it is. -/
  state : UnitState
  deriving DecidableEq, Repr

/-- **A staged executor.** -/
structure StagedExecutor where
  /-- How it treats its units. -/
  regime : Regime
  /-- The offers it has had, refused ones included. -/
  offers : Nat
  /-- It takes no more units. -/
  shutDown : Bool
  /-- The units it took. -/
  units : Array StagedUnit
  /-- The denials in a row to whoever waits for it. -/
  denials : Nat
  deriving DecidableEq, Repr

namespace StagedExecutor

/-- An executor that nobody has used. -/
def fresh (r : Regime) : StagedExecutor := ⟨r, 0, false, #[], 0⟩

/-- The next offer is refused. -/
def refusesNext (x : StagedExecutor) : Bool :=
  x.shutDown ||
    match x.regime with
    | .stepped refusals _ _ => refusals.contains x.offers
    | .eager => false

/-- The units that are over. -/
def doneCount (x : StagedExecutor) : Nat := x.units.toList.countP (·.state == .done)

/-- **The executor is terminated**: it was shut down and all its units are over. -/
def terminated (x : StagedExecutor) : Bool := x.shutDown && x.doneCount == x.units.size

/-- **An offer**: the executor after it, and the number of the unit unless it was
refused. -/
def offer (x : StagedExecutor) (thread : Option ThreadId) : StagedExecutor × Option Nat :=
  if x.refusesNext then ({ x with offers := x.offers + 1 }, none)
  else
    let k := x.units.size
    ({ x with offers := x.offers + 1, units := x.units.push ⟨thread, .fresh⟩ }, some k)

/-- Puts a unit at another place. -/
def setUnit (x : StagedExecutor) (unit : Nat) (s : UnitState) : StagedExecutor :=
  { x with units := x.units.modify unit fun u => { u with state := s } }

/-- **What whoever waits is told**, given whether it is over: patience turns a
denial into its opposite, and starts anew after that. -/
def verdict (x : StagedExecutor) (ended : Bool) : StagedExecutor × Bool :=
  let ended :=
    ended ||
      match x.regime with
      | .stepped _ _ patience => patience ≤ x.denials
      | .eager => false
  ({ x with denials := if ended then 0 else x.denials + 1 }, ended)

end StagedExecutor

/-! ## Providers -/

/-- **A staged provider.** -/
structure StagedProvider where
  /-- The provider that calls get through to. -/
  inner : CountingProvider
  /-- It stands for the platform's own provider, whose calls are counted as they
  are made. -/
  native : Bool
  /-- Its calls are on record, and units park when they wait on it. -/
  watched : Bool
  /-- The calls to open that fail. -/
  failOpens : List Nat
  /-- The wake-ups that fail. -/
  failWakes : List Nat
  /-- Units of stepped executors are held up inside their wake-ups. -/
  pauseWakes : Bool
  /-- The calls to open so far. -/
  openCalls : Nat
  /-- The wake-ups asked for so far. -/
  wakeCalls : Nat
  deriving DecidableEq, Repr

namespace StagedProvider

/-- A provider of which nothing has been asked and which does nothing unusual. -/
def plain (inner : CountingProvider) (native watched : Bool) : StagedProvider :=
  ⟨inner, native, watched, [], [], false, 0, 0⟩

/-- **A call to open.** A call that is listed fails without getting through. -/
def openNext (p : StagedProvider) : StagedProvider × Except String Nat :=
  let n := p.openCalls
  let p := { p with openCalls := n + 1 }
  if p.failOpens.contains n then (p, .error ("open " ++ toString n ++ " failed"))
  else
    let (inner, r) := p.inner.openNext
    ({ p with inner := inner }, r)

/-- **A wake-up is asked for.** One that is listed fails; the others have yet to
be delivered. -/
def askWake (p : StagedProvider) : StagedProvider × Except String Unit :=
  let n := p.wakeCalls
  let p := { p with wakeCalls := n + 1 }
  if p.failWakes.contains n then (p, .error ("wake " ++ toString n ++ " failed")) else (p, .ok ())

/-- A wake-up is delivered. -/
def deliverWake (p : StagedProvider) (number : Nat) : StagedProvider :=
  { p with inner := p.inner.wake number }

/-- A wait comes to its end. -/
def endWait (p : StagedProvider) (number : Nat) : StagedProvider :=
  { p with inner := p.inner.wait number }

/-- The calls to open and the wake-ups, as the provider counts them. -/
def counts (p : StagedProvider) : Nat × Nat :=
  if p.native then (p.openCalls, p.wakeCalls) else (p.inner.opens, p.inner.wakes)

end StagedProvider

/-! ## The record -/

/-- **One thing on record.** -/
inductive Entry where
  /-- The library said something. -/
  | said (notice : Notice)
  /-- An executor took a unit. -/
  | taken (executor unit : Nat)
  /-- An executor refused a unit. -/
  | refused (executor : Nat)
  /-- An executor was shut down. -/
  | shutDown (executor : Nat)
  /-- Somebody began to wait for an executor. -/
  | awaiting (executor : Nat)
  /-- Somebody was told whether an executor has terminated. -/
  | awaited (executor : Nat) (ended : Bool)
  /-- Somebody was told whether an executor runs them. -/
  | member (executor : Nat) (own : Bool)
  /-- A multiplexer was opened. -/
  | opened (provider number : Nat)
  /-- Opening a multiplexer failed. -/
  | openFailed (provider : Nat)
  /-- A multiplexer was woken. -/
  | woken (provider number : Nat)
  /-- Waking a multiplexer failed. -/
  | wakeFailed (provider number : Nat)
  /-- A unit began to wait on a multiplexer. -/
  | waiting (provider number : Nat)
  deriving DecidableEq, Repr

namespace Entry

/-- A truth value as it is printed. -/
def truth (b : Bool) : String := if b then "true" else "false"

/-- The name of an executor. -/
def executorText (x : Nat) : String := "x" ++ toString x

/-- The name of a multiplexer. -/
def muxText (p n : Nat) : String := "p" ++ toString p ++ ".m" ++ toString n

/-- A limit of time as it is printed. -/
def limitText (milliseconds : Nat) : String := toString milliseconds ++ "ms"

/-- **The entry as a line.** -/
def text : Entry → String
  | .said n => n.text
  | .taken x u => executorText x ++ " execute unit " ++ toString u
  | .refused x => executorText x ++ " execute rejected"
  | .shutDown x => executorText x ++ " shutdown"
  | .awaiting x => executorText x ++ " await " ++ limitText Request.awaitLimit
  | .awaited x b => executorText x ++ " await -> " ++ truth b
  | .member x b => executorText x ++ " is_executor_thread -> " ++ truth b
  | .opened p n => "p" ++ toString p ++ " open m" ++ toString n
  | .openFailed p => "p" ++ toString p ++ " open failed"
  | .woken p n => muxText p n ++ " wake"
  | .wakeFailed p n => muxText p n ++ " wake failed"
  | .waiting p n => muxText p n ++ " wait " ++ limitText Request.waitLimit

end Entry

end EndpointControl.Scenario
