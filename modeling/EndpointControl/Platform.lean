import EndpointControl.Constraint.Defects

/-!
# Platforms

A platform supplies what a factory is not told: how many processors there are,
which provider to use, and what is known about defective providers. The default
provider is one instance for the life of the platform, so two factories built
from one platform share it, and two platforms never do unless they were given
the same one.
-/

namespace EndpointControl

/-- The greatest count that a word of 64 bits can hold. -/
def wordMax : Nat := 18446744073709551615

/-- **What a machine offers to the factories on it.** -/
structure Platform where
  /-- The number of logical processors. -/
  processors : Nat
  /-- There is at least one. -/
  processors_pos : 0 < processors
  /-- The provider for factories that are given none. -/
  provider : Provider
  /-- What is known about defective providers. -/
  defects : DefectTable
  deriving Repr

/-- **Twice as many workers as processors**, as far as a word can count. -/
def Platform.defaultWorkerCount (p : Platform) : Nat := min (2 * p.processors) wordMax

/-- There is always work for one. -/
theorem Platform.defaultWorkerCount_pos (p : Platform) : 0 < p.defaultWorkerCount := by
  have := p.processors_pos
  unfold defaultWorkerCount wordMax
  omega

end EndpointControl
