import EndpointControl.Scenario.Session

/-!
# An overview of a session

What has become of everything: each factory with its workers and its boss, each
endpoint with its place in its life, and the counts of the providers. Only what
the slots lead to is seen, and an empty slot is seen as empty.
-/

namespace EndpointControl.Scenario

/-- **A factory as a script sees it.** -/
structure FactoryView where
  /-- It has let go of its resources. -/
  released : Bool
  /-- How many workers it has. -/
  count : Nat
  /-- The workers that are running or have counted something. -/
  workers : List WorkerView
  /-- Whether its boss is running, and how many attempts the boss accepted. -/
  boss : Option (Bool × Nat)
  deriving DecidableEq, Repr

/-- **An endpoint as a script sees it.** -/
structure EndpointView where
  /-- Its number. -/
  number : UInt64
  /-- Where it is in its life. -/
  status : Status
  /-- The worker it is bound to. -/
  worker : Nat
  deriving DecidableEq, Repr

/-- The workers of a factory, all of them. -/
def WorkerView.all (f : Factory) : List WorkerView := f.workers.toList.mapIdx .of

/-- A worker that is running or has counted something. -/
def WorkerView.busy (w : WorkerView) : Bool := w.running || 0 < w.assigned || 0 < w.registered

/-- A factory as the script sees it. -/
def FactoryView.of (f : Factory) : FactoryView where
  released := f.released
  count := f.terms.workerCount
  workers := (WorkerView.all f).filter WorkerView.busy
  boss := f.boss.map fun b => (b.loop.running, b.attempts)

/-- An endpoint as the script sees it. -/
def EndpointView.of (e : Endpoint) : EndpointView := ⟨e.number, e.status, e.worker⟩

namespace Session

/-- All slots for factories. -/
def factoryViews (s : Session) : List (Option FactoryView) :=
  s.factories.toList.map fun slot => slot.bind fun f => s.store.factories[f]?.map .of

/-- All slots for endpoints. -/
def endpointViews (s : Session) : List (Option EndpointView) :=
  s.endpoints.toList.map fun slot => slot.bind fun h => s.store.endpoints[h.endpoint]?.map .of

/-- For each provider described, the calls to open and the wake-ups. -/
def providerCounts (s : Session) : List (Nat × Nat) :=
  (s.world.providers.toList.take s.described).map (·.counts)

/-- There is one view for every slot. -/
@[simp] theorem length_factoryViews (s : Session) : s.factoryViews.length = s.factories.size := by
  simp [factoryViews]

/-- There is one view for every slot. -/
@[simp] theorem length_endpointViews (s : Session) : s.endpointViews.length = s.endpoints.size := by
  simp [endpointViews]

end Session

end EndpointControl.Scenario
