import EndpointControl.Scenario.Overview

/-!
# A crowd at one factory

Many callers make channels of one factory whose executor takes every loop and runs
none. What they find afterwards does not depend on the order in which they get to
the factory: the numbers are those from zero on, the workers are picked in a
circle, and every worker that was picked has been started once. So the calls are
played one after the other here, and `CrowdReport` is what is looked at in the
end.
-/

namespace EndpointControl.Scenario

/-- **What is found after everybody has called.** -/
structure CrowdReport where
  /-- The channels made. -/
  created : Nat
  /-- The calls that failed. -/
  failures : Nat
  /-- The numbers of the endpoints are those from zero on. -/
  sequential : Bool
  /-- For each worker, the endpoints bound to it. -/
  perWorker : List Nat
  /-- For each worker, the endpoints it has counted. -/
  assigned : List Nat
  /-- The workers that are running. -/
  running : Nat
  /-- The calls to open a multiplexer, and the wake-ups. -/
  calls : Nat × Nat
  /-- The loops that the executor took. -/
  units : Nat
  deriving DecidableEq, Repr

/-- How often each number below `n` occurs. -/
def tally (n : Nat) (ks : List Nat) : List Nat :=
  (ks.foldl (fun counts k => counts.modify k (· + 1)) (Array.replicate n 0)).toList

/-- So many calls for a channel of the first factory, one after the other. -/
def callForChannels (s : Session) (calls : Nat) : Session × List SessionResult :=
  (List.range calls).foldl (fun (s, rs) _ =>
    let (s, r) := s.step (.channel 0 "")
    (s, r :: rs)) (s, [])

/-- **So many calls on a factory with these terms**, or why it cannot be built. -/
def crowd (flavor : Flavor) (workers calls : Nat) (setting : Setting) :
    Except Failure CrowdReport :=
  let s := Session.start [.stepped [] true 0] [⟨ownIdentity, false, false, [], [], false⟩]
    [⟨1, by decide, some 0, .empty⟩] 1 (by decide) .empty
  let choices : List Choice := [.bossExecutor 0, .workerExecutor 0, .workerCount workers,
    .setting setting] ++ (s.platforms[0]?.map .platform).toList
  match ((Draft.blank flavor).chooseAll choices).blueprint s.here with
  | .error e => .error e
  | .ok b =>
    let (s, rs) := callForChannels (s.addFactory b) calls
    let endpoints := s.endpointViews.filterMap id
    let numbers := (endpoints.map fun e => e.number.toNat).mergeSort
    let views := (s.store.factories[0]?.map WorkerView.all).getD []
    .ok {
      created := endpoints.length
      failures := rs.countP fun r => match r with
        | .slot _ => false
        | _ => true
      sequential := numbers == List.range endpoints.length
      perWorker := tally views.length (endpoints.map (·.worker))
      assigned := views.map (·.assigned)
      running := views.countP (·.running)
      calls := (s.providerCounts[0]?).getD (0, 0)
      units := (s.world.executors[0]?.map (·.units.size)).getD 0 }

end EndpointControl.Scenario
