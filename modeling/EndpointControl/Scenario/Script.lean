import EndpointControl.Context
import EndpointControl.Scenario.Staging

/-!
# Scripts

A script describes executors, providers and platforms, and then says step by step
what to do with them: describe factories and build them, call their operations,
advance units, look at what has become of everything. What a script refers to are
slots – places in the lists of drafts, of factories, of endpoints – counted in the
order in which they were filled.

This module holds the vocabulary: what a script may describe, the steps, and the
results that steps have. `Session` gives it its meaning.
-/

namespace EndpointControl.Scenario

/-! ## What is described -/

/-- **A provider as a script describes it.** -/
structure ProviderPlan where
  /-- What it says it is. -/
  identity : Identity
  /-- It stands for the platform's own provider. -/
  native : Bool
  /-- It fails every call to open, unless it stands for the platform's own. -/
  failing : Bool
  /-- The calls to open that fail before they get through. -/
  failOpens : List Nat
  /-- The wake-ups that fail. -/
  failWakes : List Nat
  /-- Units of stepped executors are held up inside their wake-ups. -/
  pauseWakes : Bool
  deriving DecidableEq, Repr

/-- The staged provider of a description. -/
def ProviderPlan.staged (p : ProviderPlan) : StagedProvider :=
  { inner := .fresh p.identity (p.failing && !p.native)
    native := p.native
    watched := true
    failOpens := p.failOpens
    failWakes := p.failWakes
    pauseWakes := p.pauseWakes
    openCalls := 0
    wakeCalls := 0 }

/-- **A platform as a script describes it.** A platform without a provider gets
one of its own. -/
structure PlatformPlan where
  /-- The number of processors. -/
  processors : Nat
  /-- There is at least one. -/
  processors_pos : 0 < processors
  /-- The provider, by its place among those described. -/
  provider : Option Nat
  /-- What is known about defective providers. -/
  defects : DefectTable
  deriving Repr

/-- How a platform's own provider describes itself when nothing is said. -/
def ownIdentity : Identity := ⟨"fake", none⟩

/-- How the provider of the machine itself describes itself. -/
def nativeIdentity : Identity := ⟨"epoll", none⟩

/-! ## What is said -/

/-- **What a script names.** -/
inductive Name where
  /-- A slot for factories. -/
  | factory (slot : Nat)
  /-- The boss of the factory in a slot. -/
  | boss (slot : Nat)
  /-- A worker of the factory in a slot. -/
  | worker (slot index : Nat)
  /-- A slot for endpoints. -/
  | endpoint (slot : Nat)
  deriving DecidableEq, Repr

/-- **A choice as a script makes it**, with providers and platforms by place. -/
inductive Pick where
  /-- The executor of the boss. -/
  | bossExecutor (x : ExecutorId)
  /-- The executor of the workers. -/
  | workerExecutor (x : ExecutorId)
  /-- The number of workers. -/
  | workerCount (n : Nat)
  /-- One of the providers described. -/
  | provider (k : Nat)
  /-- How the constraint level is determined. -/
  | setting (s : Setting)
  /-- One of the platforms described. -/
  | platform (k : Nat)
  deriving DecidableEq, Repr

/-- **What a unit can be told to do.** -/
inductive Action where
  /-- Let go of a factory's resources. -/
  | release (factory : Nat)
  /-- Make a channel. -/
  | channel (factory : Nat)
  /-- Start a connection attempt. -/
  | connect (endpoint : Nat) (remote : Address)
  /-- Close an endpoint. -/
  | close (endpoint : Nat)
  deriving DecidableEq, Repr

/-- **One step of a script.** -/
inductive SessionStep where
  /-- Begin to describe a factory. -/
  | draft (flavor : Flavor)
  /-- Copy a description. -/
  | copyDraft (draft : Nat)
  /-- Say something about a factory. -/
  | choose (draft : Nat) (picks : List Pick)
  /-- Build what is described. -/
  | build (draft : Nat)
  /-- Put a factory into a second slot. -/
  | copyFactory (factory : Nat)
  /-- Empty a slot for factories. -/
  | dropFactory (factory : Nat)
  /-- Empty a slot for endpoints. -/
  | dropEndpoint (endpoint : Nat)
  /-- Make a channel. -/
  | channel (factory : Nat) (pipeline : String)
  /-- Start a connection attempt. -/
  | connect (endpoint : Nat) (remote : Address)
  /-- Close an endpoint. -/
  | close (endpoint : Nat)
  /-- Append to the pipeline of an endpoint. -/
  | extend (endpoint : Nat) (text : String)
  /-- Let go of a factory's resources. -/
  | release (factory : Nat)
  /-- Shut an executor down. -/
  | shutDown (executor : Nat)
  /-- Look at the context of something. -/
  | context (name : Name)
  /-- Look whether two things share their context. -/
  | shares (a b : Name)
  /-- Look at the worker of an endpoint. -/
  | worker (endpoint : Nat)
  /-- Advance a unit. -/
  | advance (executor unit : Nat) (ready : Except String Nat)
  /-- Advance all units. -/
  | sweep
  /-- Drop a unit that has not begun. -/
  | discard (executor unit : Nat)
  /-- Have an executor run an operation. -/
  | submit (executor : Nat) (action : Action)
  deriving DecidableEq, Repr

/-! ## What is answered -/

/-- **A context as a script sees it**: with the provider by its place among those
described, and for each platform whether the provider is that platform's own. -/
structure ContextView where
  /-- The level. -/
  level : Level
  /-- What the provider says it is. -/
  identity : Identity
  /-- The provider's place among those described. -/
  provider : Option Nat
  /-- For each platform, whether it is that platform's provider. -/
  platforms : List Bool
  deriving DecidableEq, Repr

/-- **A worker as a script sees it.** -/
structure WorkerView where
  /-- Its position in its factory. -/
  index : Nat
  /-- Its loop is running. -/
  running : Bool
  /-- How many endpoints are bound to it. -/
  assigned : Nat
  /-- How many endpoints it has registered. -/
  registered : Nat
  deriving DecidableEq, Repr

/-- A worker as the script sees it. -/
def WorkerView.of (index : Nat) (w : Worker) : WorkerView :=
  ⟨index, w.loop.running, w.assigned, w.registered⟩

/-- **Why an advanced unit stopped.** -/
inductive Halt where
  /-- It waits on its multiplexer. -/
  | wait
  /-- It is held up inside a wake-up. -/
  | wake
  /-- It is over. -/
  | done
  deriving DecidableEq, Repr

/-- **What comes of a step.** -/
inductive SessionResult where
  /-- A new slot. -/
  | slot (index : Nat)
  /-- It was done. -/
  | done
  /-- A truth value. -/
  | flag (b : Bool)
  /-- A text. -/
  | text (s : String)
  /-- A failure of the library. -/
  | failure (e : Failure)
  /-- An executor would not take a unit. -/
  | rejected
  /-- Something that the step refers to does not exist. -/
  | noSuch
  /-- The step cannot come to an end. -/
  | wouldBlock
  /-- A context. -/
  | context (c : ContextView)
  /-- A worker. -/
  | worker (w : WorkerView)
  /-- Where a unit stopped. -/
  | halt (h : Halt)
  deriving DecidableEq, Repr

end EndpointControl.Scenario
