/-!
# Constraint levels

Some multiplexers are defective: they lose track when something is registered or
woken while their loop is busy. A constraint level says how carefully a loop has
to treat its multiplexer. Level 0 asks for nothing; every other level asks that
queueing for the loop and draining its queue take turns.

Levels are 32-bit. `Level.ofInt?` is the only way from an arbitrary number to a
level, and it answers `none` outside the range, so no number is ever cut down to
a level it does not denote (`Level.ofInt?_eq_some_iff`).
-/

namespace EndpointControl

/-- **How much care a multiplexer needs.** -/
structure Level where
  /-- The level as a number. -/
  rank : Nat
  /-- Levels have 32 bits. -/
  rank_lt : rank < 4294967296
  deriving DecidableEq, Repr

namespace Level

/-- The level that asks for nothing. -/
def unconstrained : Level := ⟨0, by decide⟩

/-- **Queueing and draining must take turns** at every level but the lowest. -/
def serialized (l : Level) : Bool := 0 < l.rank

/-- The level as it is printed. -/
def text (l : Level) : String := toString l.rank

/-- The level that a number denotes, if it denotes one. -/
def ofInt? (n : Int) : Option Level :=
  if h : 0 ≤ n ∧ n < 4294967296 then some ⟨n.toNat, by omega⟩ else none

@[simp] theorem serialized_unconstrained : unconstrained.serialized = false := rfl

/-- **A number denotes the level of the same rank or none.** -/
theorem ofInt?_eq_some_iff {n : Int} {l : Level} : ofInt? n = some l ↔ n = l.rank := by
  obtain ⟨r, hr⟩ := l
  unfold ofInt?
  split
  · rename_i h
    simp only [Option.some.injEq, Level.mk.injEq]
    omega
  · rename_i h
    simp only [reduceCtorEq, false_iff]
    intro hn
    apply h
    subst hn
    omega

/-- A number that denotes no level lies outside the 32-bit range. -/
theorem ofInt?_eq_none_iff {n : Int} : ofInt? n = none ↔ n < 0 ∨ 4294967296 ≤ n := by
  unfold ofInt?
  split <;> simp <;> omega

end Level

end EndpointControl
