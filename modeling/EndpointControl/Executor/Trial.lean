import EndpointControl.Executor.Pool

/-!
# Trying a pool out

A trial puts units of work into a pool one after the other and looks at what the
pool says of itself, from inside a unit and from outside. Between two steps every
unit that can end has ended: only a unit behind a closed gate is still at work.
So a trial is one order of deeds out of many, and every result below is read off
the pool that these deeds lead to.
-/

namespace EndpointControl

/-- **What a unit of a trial does.** -/
inductive TrialWork where
  /-- It looks at its own thread and at the pool. -/
  | report
  /-- It tells the name of its thread and works on until its gate is opened. -/
  | gate
  /-- It has the pool run another unit and waits for that. -/
  | nested
  /-- It shuts the pool down and looks whether that is termination. -/
  | shutDown
  /-- It panics. -/
  | panic (payload : Payload)
  deriving DecidableEq, Repr

/-- **One step of a trial.** -/
inductive TrialStep where
  /-- Have the pool run a unit. -/
  | run (work : TrialWork)
  /-- Open a gate. -/
  | openGate (gate : Nat)
  /-- Shut the pool down. -/
  | shutDown
  /-- Wait for termination for a limited time. -/
  | await
  /-- Ask, from outside, whether the caller is one of the pool's threads. -/
  | isMember
  /-- Wait for termination without limit, while somebody else opens all gates and
  shuts the pool down. -/
  | awaitForever
  deriving DecidableEq, Repr

/-- **What comes of a step.** -/
inductive TrialResult where
  /-- The name of the thread, whether it is one of the pool's, and the pool as
  seen from there. -/
  | reported (name : String) (member terminated : Bool) (active : Nat)
  /-- The name of a thread that works on. -/
  | working (name : String)
  /-- The name of the inner unit's thread, and whether it is one of the pool's. -/
  | inner (name : String) (member : Bool)
  /-- Whether the pool is terminated, and whether waiting found it so. -/
  | seen (terminated awaited : Bool)
  /-- The unit panicked. -/
  | panicked
  /-- The pool would not have the unit. -/
  | rejected
  /-- There is no such gate, or it is open. -/
  | noSuch
  /-- It was done. -/
  | done
  /-- An answer. -/
  | answer (b : Bool)
  deriving DecidableEq, Repr

/-- **A trial**: the pool, and the units behind the gates that have been built,
each until its gate is opened. -/
structure Trial where
  /-- The pool. -/
  pool : Pool
  /-- The unit behind each gate that is closed. -/
  gates : Array (Option Nat)
  deriving DecidableEq, Repr

namespace Trial

/-- A trial of a new pool. -/
def fresh (name : String) : Trial := ⟨.fresh name, #[]⟩

/-- Does deeds that are due. -/
def doAll (p : Pool) (ds : List Deed) : Pool × List PoolNotice := (p.performAll ds).getD (p, [])

/-- A unit on its way out. -/
def ending (u : Nat) (panic : Option Payload) : List Deed :=
  [.finish u panic, .leave u, .release u]

/-- A limited wait: the waiter looks, and if it falls asleep its time runs out. -/
def await (p : Pool) : Pool × Bool :=
  let w := p.waiters.size
  let p := (doAll p [.wait true, .look w]).1
  let p := ((p.perform (.expire w)).map (·.1)).getD p
  (p, p.waiters[w]?.map (·.stage) == some (.returned true))

/-- What a unit does once it runs, up to its end or its gate. -/
def work (t : Trial) (u : Nat) : TrialWork → Trial × TrialResult × List PoolNotice
  | .report =>
    let p := t.pool
    let r := .reported (p.unitName u) (p.isMember (some u)) p.terminated p.active
    let (p, ns) := doAll t.pool (ending u none)
    ({ t with pool := p }, r, ns)
  | .gate =>
    ({ t with gates := t.gates.push (some u) }, .working (t.pool.unitName u), [])
  | .nested =>
    let v := t.pool.units.size
    let (p, ns) := doAll t.pool [.reserve, .draw v, .enter v]
    let r := .inner (p.unitName v) (p.isMember (some v))
    let (p, ms) := doAll p (ending v none ++ ending u none)
    ({ t with pool := p }, r, ns ++ ms)
  | .shutDown =>
    let (p, _) := doAll t.pool [.shutDown]
    let (q, ended) := await p
    let (q, ns) := doAll q (ending u none)
    ({ t with pool := q }, .seen p.terminated ended, ns)
  | .panic payload =>
    let (p, ns) := doAll t.pool (ending u (some payload))
    ({ t with pool := p }, .panicked, ns)

/-- **One step of the trial**, and what the pool says on the way. -/
def step (t : Trial) : TrialStep → Trial × TrialResult × List PoolNotice
  | .run w =>
    let u := t.pool.units.size
    match t.pool.performAll [.reserve, .draw u, .enter u] with
    | none => (t, .rejected, [])
    | some (p, ns) =>
      let (t, r, ms) := work { t with pool := p } u w
      (t, r, ns ++ ms)
  | .openGate g =>
    match t.gates[g]? with
    | some (some u) =>
      let (p, ns) := doAll t.pool (ending u none)
      (⟨p, t.gates.setIfInBounds g none⟩, .done, ns)
    | _ => (t, .noSuch, [])
  | .shutDown => ({ t with pool := (doAll t.pool [.shutDown]).1 }, .done, [])
  | .await =>
    let (p, ended) := await t.pool
    ({ t with pool := p }, .answer ended, [])
  | .isMember => (t, .answer (t.pool.isMember none), [])
  | .awaitForever =>
    let w := t.pool.waiters.size
    let (p, _) := doAll t.pool [.wait false, .look w]
    if p.waiters[w]?.map (·.stage) = some (.returned true) then
      ({ t with pool := p }, .answer true, [])
    else
      let closed := t.gates.toList.filterMap id
      let (p, ns) := doAll p ((closed.map fun u => ending u none).flatten ++ [.shutDown, .look w])
      (⟨p, #[]⟩, .answer (p.waiters[w]?.map (·.stage) == some (.returned true)), ns)

end Trial

end EndpointControl
