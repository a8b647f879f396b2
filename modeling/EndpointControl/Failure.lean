import EndpointControl.Provider
import EndpointControl.Endpoint

/-!
# What can go wrong

A failure is its cause. The wording is in one place, `Failure.message`, and a
failure that was itself caused by the machine underneath hands that cause on
through `Failure.source?` instead of folding it into its own text.
-/

namespace EndpointControl

/-- Results compare when their failures and their values do. -/
instance decidableEqResult {ε α : Type} [DecidableEq ε] [DecidableEq α] :
    DecidableEq (Except ε α)
  | .ok a, .ok b =>
    if h : a = b then isTrue (by rw [h]) else isFalse fun e => h (Except.ok.inj e)
  | .error a, .error b =>
    if h : a = b then isTrue (by rw [h]) else isFalse fun e => h (Except.error.inj e)
  | .ok _, .error _ => isFalse fun e => nomatch e
  | .error _, .ok _ => isFalse fun e => nomatch e

/-- Which of a factory's two kinds of loop something is about. -/
inductive Role where
  /-- The loop that handles connection attempts. -/
  | boss
  /-- A loop that serves endpoints. -/
  | worker
  deriving DecidableEq, Repr

/-- The role as it is printed. -/
def Role.text : Role → String
  | .boss => "boss"
  | .worker => "worker"

/-- An argument that has no default. -/
inductive Argument where
  /-- The executor that runs the boss. -/
  | bossExecutor
  /-- The executor that runs the workers. -/
  | workerExecutor
  deriving DecidableEq, Repr

/-- The argument by its public name. -/
def Argument.text : Argument → String
  | .bossExecutor => "bossExecutor"
  | .workerExecutor => "workerExecutor"

/-- The name of the environment variable that may hold a constraint setting. -/
def settingVariable : String := "TRANSPORT_FACTORY_CONSTRAINT_SPEC"

/-- **Why a configuration is refused.** -/
inductive Misconfiguration where
  /-- A factory needs at least one worker. -/
  | noWorkers
  /-- A forced level does not fit the levels there are. -/
  | levelOutOfRange (level : Int)
  /-- The text of a setting, as it was given, reads as none. -/
  | unreadable (text : String)
  /-- The environment holds octets that are no text; shown as far as they go. -/
  | undecodable (shown : String)
  deriving DecidableEq, Repr

/-- What is wrong with the configuration, in words. -/
def Misconfiguration.message : Misconfiguration → String
  | .noWorkers => "workerCount (0) must be a positive integer"
  | .levelOutOfRange n =>
    "forced constraint level (" ++ toString n ++ ") must be between 0 and 4294967295"
  | .unreadable t =>
    "constraint spec '" ++ t ++ "' must be 'auto', 'none' or a non-negative integer"
  | .undecodable s => settingVariable ++ " is not valid Unicode: " ++ s

/-- An endpoint as it is printed: by its number within its factory. -/
def endpointText (number : UInt64) : String := "endpoint-" ++ toString number

/-- **Why an operation failed.** -/
inductive Failure where
  /-- An argument without a default was not given. -/
  | missing (argument : Argument)
  /-- The configuration makes no sense. -/
  | misconfigured (problem : Misconfiguration)
  /-- An executor would not take a loop. -/
  | refused (role : Role)
  /-- The factory has let go of its resources. -/
  | released
  /-- The endpoint is in no state for this. -/
  | wrongState (endpoint : UInt64) (state : State)
  /-- The provider could not open a multiplexer. -/
  | unopened (provider : Identity) (source : String)
  deriving DecidableEq, Repr

/-- **The text of a failure.** -/
def Failure.message : Failure → String
  | .missing a => "missing mandatory argument: " ++ a.text
  | .misconfigured p => "invalid configuration: " ++ p.message
  | .refused r => "the " ++ r.text ++ " executor rejected work because it is shutting down"
  | .released => "the factory has already released its external resources"
  | .wrongState e s =>
    endpointText e ++ " cannot perform this operation while in state " ++ s.text
  | .unopened p _ => "provider " ++ p.text ++ " failed to open a multiplexer"

/-- The text of what caused the failure underneath, if anything did. -/
def Failure.source? : Failure → Option String
  | .unopened _ s => some s
  | _ => none

/-- What an executor says that takes no more work. -/
def rejectionText : String := "the executor is shutting down and no longer accepts work"

end EndpointControl
