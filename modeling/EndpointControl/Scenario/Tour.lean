import EndpointControl.Scenario.Overview

/-!
# A factory from beginning to end

A tour takes one factory on the platform at hand through its whole life, on
executors that run by themselves: it is built, channels are made and, if they are
streams, connected, everything is looked at, and the factory lets go. A factory
can be had in three ways, and the first two cannot fail: on the platform's terms
altogether, on those terms with a number of workers, or from a draft.
-/

namespace EndpointControl.Scenario

/-- **How a factory is had.** -/
inductive Origin where
  /-- On the terms of the platform. -/
  | suggested
  /-- On the terms of the platform, with so many workers. -/
  | withWorkers (count : Nat) (h : 0 < count)
  /-- From a draft. -/
  | drafted (count : Option Nat) (setting : Option Setting)
  deriving Repr

/-- **What is found on the tour.** -/
structure TourReport where
  /-- How many workers the factory has. -/
  count : Nat
  /-- That many workers are the platform's default. -/
  isDefault : Bool
  /-- What the provider says it is. -/
  identity : Identity
  /-- The provider is the platform's. -/
  ownProvider : Bool
  /-- The constraint level. -/
  level : Level
  /-- All endpoints, and the boss, share the factory's context. -/
  shared : Bool
  /-- For each endpoint its number, its worker and its pipeline. -/
  endpoints : List (UInt64 × Nat × String)
  /-- For each endpoint, where in its life it was seen. -/
  states : List (List State)
  /-- What the workers counted. -/
  workers : List WorkerView
  /-- Whether the boss is running, and how many attempts it accepted. -/
  boss : Option (Bool × Nat)
  /-- Afterwards, the executors that have terminated. -/
  terminated : Bool × Bool
  /-- Afterwards, some worker is still running. -/
  stillRunning : Bool
  deriving DecidableEq, Repr

/-- The executor of the boss and the executor of the workers. -/
def staffFor : Flavor → Staffing
  | .client => .client 0 1
  | .datagram => .datagram 1

/-- The blueprint of a factory that is had in this way. -/
def Origin.blueprint (here : Platform) (flavor : Flavor) : Origin → Except Failure Blueprint
  | .suggested => .ok ⟨staffFor flavor, .suggested here _ here.defaultWorkerCount_pos⟩
  | .withWorkers n h => .ok ⟨staffFor flavor, .suggested here n h⟩
  | .drafted n v =>
    let choices := [.bossExecutor 0, .workerExecutor 1] ++
      (n.map Choice.workerCount).toList ++ (v.map Choice.setting).toList
    ((Draft.blank flavor).chooseAll choices).blueprint here

/-- The state of the endpoint in a slot. -/
def stateAt (s : Session) (slot : Nat) : List State :=
  ((s.heldAt slot).bind fun h => s.store.endpoints[h.endpoint]?.map (·.status.state)).toList

/-- Makes one channel and, if it is a stream, connects it. -/
def visit (flavor : Flavor) (remote : Address) (s : Session) (k : Nat) : Session × List State :=
  let (s, _) := s.step (.channel 0 (toString k))
  match flavor with
  | .client =>
    let seen := stateAt s k
    let (s, _) := s.step (.connect k remote)
    (s, seen ++ stateAt s k)
  | .datagram => (s, stateAt s k)

/-- **The tour**: so many channels of a factory that is had in this way, or why it
cannot be had. -/
def tour (processors : Nat) (h : 0 < processors) (defects : DefectTable) (flavor : Flavor)
    (origin : Origin) (channels : Nat) (remote : Address) : Except Failure TourReport :=
  let s := Session.start [.eager, .eager] [] [] processors h defects
  match origin.blueprint s.here flavor with
  | .error e => .error e
  | .ok b =>
    let (s, states) := (List.range channels).foldl (fun (s, seen) k =>
      let (s, st) := visit flavor remote s k
      (s, seen ++ [st])) (s.addFactory b, [])
    let entities := (List.range channels).map Name.endpoint ++
      (match flavor with
        | .client => [.boss 0]
        | .datagram => [])
    let shared := match s.context? (.factory 0) with
      | some c => entities.all fun n => ((s.context? n).map (·.shares c)).getD false
      | none => false
    let held := s.endpoints.toList.filterMap fun slot =>
      slot.bind fun h =>
        s.store.endpoints[h.endpoint]?.map fun e => (e.number, e.worker, h.pipeline)
    let before := s.store.factories[0]?.map FactoryView.of
    let (t, _) := s.step (.release 0)
    let ended (x : Nat) : Bool := (t.world.executors[x]?.map (·.terminated)).getD false
    let after := (t.store.factories[0]?.map WorkerView.all).getD []
    .ok {
      count := b.terms.workerCount
      isDefault := b.terms.workerCount == s.here.defaultWorkerCount
      identity := b.terms.provider.identity
      ownProvider := b.terms.provider.same s.here.provider
      level := b.terms.level
      shared := shared
      endpoints := held
      states := states
      workers := (before.map (·.workers)).getD []
      boss := before.bind (·.boss)
      terminated := (ended 0, ended 1)
      stillRunning := after.any (·.running) }

end EndpointControl.Scenario
