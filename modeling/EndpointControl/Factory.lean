import EndpointControl.Loop

/-!
# Factories

A factory hands out endpoints and binds each to one of its workers, in turn. It
consists of its workers, a boss if it is a client factory, the cursor that picks
the next worker, the counter that numbers its endpoints, and the mark that it has
let go of its resources.

The cursor and the counter are words, and both move once for every channel asked
of a factory that has not been released, whether the channel comes about or not.
What workers and bosses count are numbers; words show the same until 2^64 things
have happened.
-/

namespace EndpointControl

/-- **A worker**: its loop, and how many endpoints it has to do with. -/
structure Worker where
  /-- The loop. -/
  loop : Loop
  /-- How many endpoints have been bound to it. -/
  assigned : Nat
  /-- How many endpoints it has registered. -/
  registered : Nat
  deriving DecidableEq, Repr

/-- **A boss**: its loop, and how many connection attempts it has accepted. -/
structure Boss where
  /-- The loop. -/
  loop : Loop
  /-- How many connection attempts it has accepted. -/
  attempts : Nat
  deriving DecidableEq, Repr

/-- **A factory.** -/
structure Factory where
  /-- The terms it was built on. -/
  terms : Terms
  /-- The executor of its workers. -/
  workerExecutor : ExecutorId
  /-- The boss of a client factory. -/
  boss : Option Boss
  /-- The workers, in the order in which endpoints are bound to them. -/
  workers : Array Worker
  /-- How many workers have been picked so far. -/
  cursor : UInt64
  /-- The number of the next endpoint. -/
  nextNumber : UInt64
  /-- The factory has let go of its resources. -/
  released : Bool
  deriving DecidableEq, Repr

namespace Factory

/-- **The factory of a blueprint**, with every loop idle. -/
def ofBlueprint (b : Blueprint) : Factory where
  terms := b.terms
  workerExecutor := b.staffing.workers
  boss :=
    match b.staffing with
    | .client boss _ => some ⟨.idle b.terms.provider b.terms.level boss, 0⟩
    | .datagram _ => none
  workers := Array.replicate b.terms.workerCount
    ⟨.idle b.terms.provider b.terms.level b.staffing.workers, 0, 0⟩
  cursor := 0
  nextNumber := 0
  released := false

/-- A factory with a boss makes stream endpoints, one without makes datagram
endpoints. -/
def flavor (f : Factory) : Flavor :=
  match f.boss with
  | some _ => .client
  | none => .datagram

/-- The executors that the factory works with, its boss's first. -/
def executors (f : Factory) : List ExecutorId :=
  (f.boss.map (·.loop.executor)).toList ++ [f.workerExecutor]

/-- The worker whose turn it is: the workers are picked in a circle. -/
def nextWorker (f : Factory) : Nat := f.cursor.toNat % f.terms.workerCount

/-- The loop on a seat of the factory. -/
def loop? (f : Factory) : Seat → Option Loop
  | .boss => f.boss.map (·.loop)
  | .worker i => f.workers[i]?.map (·.loop)

/-- Changes the loop on one seat. -/
def modifyLoop (f : Factory) (s : Seat) (g : Loop → Loop) : Factory :=
  match s with
  | .boss => { f with boss := f.boss.map fun b => { b with loop := g b.loop } }
  | .worker i => { f with workers := f.workers.modify i fun w => { w with loop := g w.loop } }

/-- Changes one worker. -/
def modifyWorker (f : Factory) (i : Nat) (g : Worker → Worker) : Factory :=
  { f with workers := f.workers.modify i g }

/-- Changes the boss. -/
def modifyBoss (f : Factory) (g : Boss → Boss) : Factory :=
  { f with boss := f.boss.map g }

@[simp] theorem size_workers_ofBlueprint (b : Blueprint) :
    (ofBlueprint b).workers.size = b.terms.workerCount := by
  simp [ofBlueprint]

@[simp] theorem flavor_ofBlueprint (b : Blueprint) :
    (ofBlueprint b).flavor = b.staffing.flavor := by
  obtain ⟨s, t⟩ := b
  cases s <;> rfl

/-- **Changing a loop changes that loop and no other.** -/
theorem loop?_modifyLoop (f : Factory) (s s' : Seat) (g : Loop → Loop) :
    (f.modifyLoop s g).loop? s' = if s = s' then (f.loop? s').map g else f.loop? s' := by
  cases s with
  | boss =>
    cases s' with
    | boss => simp [modifyLoop, loop?, Function.comp_def]
    | worker j => simp [modifyLoop, loop?]
  | worker i =>
    cases s' with
    | boss => simp [modifyLoop, loop?]
    | worker j =>
      simp only [modifyLoop, loop?, Array.getElem?_modify, Seat.worker.injEq]
      split
      · cases f.workers[j]? <;> simp
      · rfl

end Factory

end EndpointControl
