import EndpointControl.Failure
import EndpointControl.Notice

/-!
# A pool of dedicated threads

A pool runs every unit of work on a thread of its own, named by the pool's name
and an index. The life of an accepted unit has six stages, and a unit goes from
one to the next by itself while others do the same:

1. it is *reserved*: the pool was not shut down, and the unit counts as active;
2. it is *named*: it has drawn its index and its thread exists;
3. it is *entered*: its thread belongs to the pool and the work runs;
4. it is *ended*: the work returned, or panicked, and that has been reported;
5. it has *left*: its thread belongs to the pool no more;
6. it is *gone*: it no longer counts as active.

A pool is terminated when it has been shut down and no unit is active. Whoever
waits for that sleeps until told, and everybody asleep is told by the two deeds
after which it can be true for the first time: a shutdown, and a unit that goes.

`Pool.perform` does one deed, each of them one section under the pool's lock or
one draw from its index, so deeds can be put one after the other in every order
in which threads may get to them.
-/

namespace EndpointControl

/-- **Where a unit of work is in its life.** -/
inductive UnitStage where
  /-- Accepted, without an index. -/
  | reserved
  /-- It has drawn its index. -/
  | named
  /-- Its thread runs the work. -/
  | entered
  /-- The work is over. -/
  | ended
  /-- Its thread no longer belongs to the pool. -/
  | left
  /-- It no longer counts. -/
  | gone
  deriving DecidableEq, Repr

/-- **A unit of work that the pool accepted.** -/
structure PoolUnit where
  /-- Where it is in its life. -/
  stage : UnitStage
  /-- The index in the name of its thread, once drawn. -/
  index : Option Nat
  deriving DecidableEq, Repr

/-- **Where somebody is who waits for termination.** -/
inductive WaiterStage where
  /-- About to look, under the lock. -/
  | looking
  /-- Asleep until told. -/
  | asleep
  /-- Back with an answer. -/
  | returned (terminated : Bool)
  deriving DecidableEq, Repr

/-- **Somebody who waits for termination**, with or without a limit of time. -/
structure Waiter where
  /-- Where the waiter is. -/
  stage : WaiterStage
  /-- The wait has a limit. -/
  limited : Bool
  deriving DecidableEq, Repr

/-- **A pool, its units, and who waits for it.** -/
structure Pool where
  /-- How the names of the threads begin. -/
  name : String
  /-- The pool takes no more units. -/
  shutDown : Bool
  /-- The units that count as active. -/
  active : Nat
  /-- The units whose threads belong to the pool. -/
  members : List Nat
  /-- The index of the next unit. -/
  nextIndex : Nat
  /-- The units accepted so far. -/
  units : Array PoolUnit
  /-- Everybody who has waited so far. -/
  waiters : Array Waiter
  deriving DecidableEq, Repr

/-- **What a panicking unit of work throws.** -/
inductive Payload where
  /-- A text. -/
  | text (s : String)
  /-- Something that is no text. -/
  | other
  deriving DecidableEq, Repr

/-- The payload as it is reported. -/
def Payload.message : Payload → String
  | .text s => s
  | .other => "<non-string panic payload>"

/-- **What a pool says.** -/
inductive PoolNotice where
  /-- The thread of a unit began. -/
  | started
  /-- The work of a unit panicked. -/
  | panicked (payload : Payload)
  /-- The thread of a unit is about to end. -/
  | exiting
  deriving DecidableEq, Repr

/-- The notice as a line. -/
def PoolNotice.text : PoolNotice → String
  | .started => Severity.debug.text ++ ": executor thread started"
  | .panicked p =>
    Severity.error.text ++ ": unit of work panicked" ++ Notice.field "panic_message" p.message
  | .exiting => Severity.debug.text ++ ": executor thread exiting"

/-- **What can be done to a pool.** -/
inductive Deed where
  /-- Offer a unit. -/
  | reserve
  /-- A reserved unit draws its index. -/
  | draw (unit : Nat)
  /-- A named unit begins. -/
  | enter (unit : Nat)
  /-- The work of a unit returns, or panics. -/
  | finish (unit : Nat) (panic : Option Payload)
  /-- The thread of an ended unit leaves the pool. -/
  | leave (unit : Nat)
  /-- A unit that has left stops counting. -/
  | release (unit : Nat)
  /-- Take no more units. -/
  | shutDown
  /-- Begin to wait for termination. -/
  | wait (limited : Bool)
  /-- A waiter looks whether it is over. -/
  | look (waiter : Nat)
  /-- The time of a waiter runs out. -/
  | expire (waiter : Nat)
  deriving DecidableEq, Repr

namespace Pool

/-- A pool of which nothing has been asked. -/
def fresh (name : String) : Pool := ⟨name, false, 0, [], 0, #[], #[]⟩

/-- **The pool is terminated**: it was shut down and no unit is active. -/
def terminated (p : Pool) : Bool := p.shutDown && p.active == 0

/-- The thread that runs the unit belongs to the pool; no other thread does. -/
def isMember (p : Pool) : Option Nat → Bool
  | some u => u ∈ p.members
  | none => false

/-- The name of the thread with this index. -/
def threadName (p : Pool) (index : Nat) : String := p.name ++ "-" ++ toString index

/-- The name of the thread of a unit. -/
def unitName (p : Pool) (unit : Nat) : String :=
  match p.units[unit]? with
  | some ⟨_, some i⟩ => p.threadName i
  | _ => p.name

/-- Puts a unit at another stage. -/
def setStage (p : Pool) (unit : Nat) (s : UnitStage) : Pool :=
  { p with units := p.units.modify unit fun u => { u with stage := s } }

/-- Puts a waiter at another stage. -/
def setWaiter (p : Pool) (waiter : Nat) (s : WaiterStage) : Pool :=
  { p with waiters := p.waiters.modify waiter fun w => { w with stage := s } }

/-- **Everybody asleep is told to look again**, if the pool is terminated. -/
def tell (p : Pool) : Pool :=
  if p.terminated then
    { p with waiters := p.waiters.map fun w =>
        match w.stage with
        | .asleep => { w with stage := .looking }
        | _ => w }
  else p

/-- The stage of a unit. -/
def stage? (p : Pool) (unit : Nat) : Option UnitStage := p.units[unit]?.map (·.stage)

/-- **One deed.** A deed that is not due – a unit or a waiter is elsewhere – is not
done. The notices are in the order in which they are given. -/
def perform (p : Pool) : Deed → Option (Pool × List PoolNotice)
  | .reserve =>
    if p.shutDown then none
    else some ({ p with active := p.active + 1, units := p.units.push ⟨.reserved, none⟩ }, [])
  | .draw u =>
    if p.stage? u = some .reserved then
      some ({ p with
        nextIndex := p.nextIndex + 1
        units := p.units.modify u fun _ => ⟨.named, some p.nextIndex⟩ }, [])
    else none
  | .enter u =>
    if p.stage? u = some .named then
      some ({ p.setStage u .entered with members := u :: p.members }, [.started])
    else none
  | .finish u panic =>
    if p.stage? u = some .entered then
      some (p.setStage u .ended, (panic.map .panicked).toList ++ [.exiting])
    else none
  | .leave u =>
    if p.stage? u = some .ended then
      some ({ p.setStage u .left with members := p.members.filter (· ≠ u) }, [])
    else none
  | .release u =>
    if p.stage? u = some .left then
      some ({ p.setStage u .gone with active := p.active - 1 }.tell, [])
    else none
  | .shutDown => some ({ p with shutDown := true }.tell, [])
  | .wait limited => some ({ p with waiters := p.waiters.push ⟨.looking, limited⟩ }, [])
  | .look w =>
    match p.waiters[w]? with
    | some ⟨.looking, _⟩ =>
      some (p.setWaiter w (if p.terminated then .returned true else .asleep), [])
    | _ => none
  | .expire w =>
    match p.waiters[w]? with
    | some ⟨.asleep, true⟩ => some (p.setWaiter w (.returned p.terminated), [])
    | _ => none

/-- Several deeds, each of them due. -/
def performAll (p : Pool) : List Deed → Option (Pool × List PoolNotice)
  | [] => some (p, [])
  | d :: ds => do
    let (p, ns) ← p.perform d
    let (p, ms) ← p.performAll ds
    return (p, ns ++ ms)

/-- **A pool that was shut down takes nothing**, and one that was not takes
everything. -/
theorem perform_reserve_eq_none_iff (p : Pool) :
    p.perform .reserve = none ↔ p.shutDown = true := by
  simp [perform]

end Pool

end EndpointControl
