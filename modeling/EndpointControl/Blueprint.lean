import EndpointControl.Platform
import EndpointControl.Constraint.Setting

/-!
# From a draft to a blueprint

A factory is described step by step in a `Draft`, each step a `Choice`; a later
choice about the same thing replaces an earlier one. A `Blueprint` is a
description that leaves nothing open. `Draft.blueprint` turns one into the other:
it asks for the executors first, fills in what the platform supplies, and refuses
a draft that makes no sense with the first cause in a fixed order – the boss
executor, the worker executor, the worker count, the forced level.

Nothing is opened or started on the way. Both kinds of description are values, so
a blueprint is not touched by what happens to its draft later.
-/

namespace EndpointControl

/-- An executor, by its place among those of the surroundings. -/
abbrev ExecutorId := Nat

/-- **The two kinds of factory.** -/
inductive Flavor where
  /-- Makes stream endpoints, which connect through a boss. -/
  | client
  /-- Makes datagram endpoints, which need no connection. -/
  | datagram
  deriving DecidableEq, Repr

/-- **Who runs the loops of a factory.** Only a client factory has a boss. -/
inductive Staffing where
  /-- One executor for the boss and one for the workers; they may be the same. -/
  | client (boss workers : ExecutorId)
  /-- One executor for the workers. -/
  | datagram (workers : ExecutorId)
  deriving DecidableEq, Repr

/-- The kind of factory that is staffed so. -/
def Staffing.flavor : Staffing → Flavor
  | .client .. => .client
  | .datagram .. => .datagram

/-- The executor of the workers. -/
def Staffing.workers : Staffing → ExecutorId
  | .client _ w => w
  | .datagram w => w

/-- The terms on which a factory works, all of them settled. -/
structure Terms where
  /-- The number of workers. -/
  workerCount : Nat
  /-- There is at least one. -/
  workerCount_pos : 0 < workerCount
  /-- The provider of all its multiplexers. -/
  provider : Provider
  /-- The constraint level of all its loops. -/
  level : Level
  deriving DecidableEq, Repr

/-- **What a platform suggests**, with an explicit number of workers: its own
provider, at the level that its table knows for it. -/
def Terms.suggested (platform : Platform) (workerCount : Nat) (h : 0 < workerCount) : Terms :=
  ⟨workerCount, h, platform.provider, platform.defects.levelFor platform.provider.identity⟩

/-- **A factory to be built.** -/
structure Blueprint where
  /-- Who runs its loops. -/
  staffing : Staffing
  /-- The terms it works on. -/
  terms : Terms
  deriving DecidableEq, Repr

/-- **A factory still being described.** -/
structure Draft where
  /-- The kind of factory. -/
  flavor : Flavor
  /-- The executor of the boss, once chosen. -/
  bossExecutor : Option ExecutorId
  /-- The executor of the workers, once chosen. -/
  workerExecutor : Option ExecutorId
  /-- The number of workers, once chosen. -/
  workerCount : Option Nat
  /-- The provider, once chosen. -/
  provider : Option Provider
  /-- How the constraint level is determined. -/
  setting : Setting
  /-- The platform that fills the gaps, once chosen. -/
  platform : Option Platform
  deriving Repr

/-- **One thing said about a factory.** -/
inductive Choice where
  /-- The executor of the boss. -/
  | bossExecutor (x : ExecutorId)
  /-- The executor of the workers. -/
  | workerExecutor (x : ExecutorId)
  /-- The number of workers. -/
  | workerCount (n : Nat)
  /-- The provider. -/
  | provider (p : Provider)
  /-- How the constraint level is determined. -/
  | setting (s : Setting)
  /-- The platform that fills the gaps. -/
  | platform (p : Platform)
  deriving Repr

namespace Draft

/-- A description with everything open. -/
def blank (flavor : Flavor) : Draft :=
  ⟨flavor, none, none, none, none, .auto, none⟩

/-- **A choice replaces what was said about the same thing before.** -/
def choose (d : Draft) : Choice → Draft
  | .bossExecutor x => { d with bossExecutor := some x }
  | .workerExecutor x => { d with workerExecutor := some x }
  | .workerCount n => { d with workerCount := some n }
  | .provider p => { d with provider := some p }
  | .setting s => { d with setting := s }
  | .platform p => { d with platform := some p }

/-- Several choices, one after the other. -/
def chooseAll (d : Draft) (cs : List Choice) : Draft := cs.foldl choose d

/-- The executors of the draft. The boss is asked for first, and a datagram
factory has none. -/
def staffing (d : Draft) : Except Failure Staffing :=
  match d.flavor with
  | .client =>
    match d.bossExecutor with
    | none => .error (.missing .bossExecutor)
    | some b =>
      match d.workerExecutor with
      | none => .error (.missing .workerExecutor)
      | some w => .ok (.client b w)
  | .datagram =>
    match d.workerExecutor with
    | none => .error (.missing .workerExecutor)
    | some w => .ok (.datagram w)

/-- The number of workers a draft asks for, or what its platform suggests. -/
def count (d : Draft) (platform : Platform) : Nat :=
  d.workerCount.getD platform.defaultWorkerCount

/-- The terms of the draft on its platform. A worker count of zero is refused
before the setting is looked at. -/
def terms (d : Draft) (here : Platform) : Except Failure Terms :=
  let platform := d.platform.getD here
  let provider := d.provider.getD platform.provider
  if h : 0 < d.count platform then
    match d.setting.level platform.defects provider.identity with
    | .ok level => .ok ⟨d.count platform, h, provider, level⟩
    | .error e => .error e
  else .error (.misconfigured .noWorkers)

/-- **The factory a draft describes**, where `here` is the platform of a draft
that names none. -/
def blueprint (d : Draft) (here : Platform) : Except Failure Blueprint :=
  match d.staffing with
  | .error e => .error e
  | .ok s =>
    match d.terms here with
    | .error e => .error e
    | .ok t => .ok ⟨s, t⟩

/-- Only an explicit zero asks for no workers at all. -/
theorem count_eq_zero_iff (d : Draft) (platform : Platform) :
    d.count platform = 0 ↔ d.workerCount = some 0 := by
  unfold count
  cases h : d.workerCount with
  | none =>
    have := platform.defaultWorkerCount_pos
    simp only [Option.getD_none, reduceCtorEq, iff_false]
    omega
  | some n => simp

@[simp] theorem flavor_choose (d : Draft) (c : Choice) : (d.choose c).flavor = d.flavor := by
  cases c <;> rfl

end Draft

end EndpointControl
