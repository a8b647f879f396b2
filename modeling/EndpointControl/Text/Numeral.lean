/-!
# Decimal numerals

A numeral is one or more ASCII digits with an optional sign in front. Its value
is unbounded here: a reader that has to fit a value into a machine word says so
where it uses the numeral, and compares the value with its bound instead of
watching for an overflow while it reads.
-/

namespace EndpointControl.Text

/-- The number that a run of digits stands for, the most significant first. -/
def digitsValue (ds : List Char) : Nat :=
  ds.foldl (fun v d => 10 * v + (d.toNat - '0'.toNat)) 0

@[simp] theorem digitsValue_nil : digitsValue [] = 0 := rfl

/-- A further digit multiplies by ten and adds. -/
@[simp] theorem digitsValue_append_singleton (ds : List Char) (d : Char) :
    digitsValue (ds ++ [d]) = 10 * digitsValue ds + (d.toNat - '0'.toNat) := by
  simp [digitsValue, List.foldl_append]

/-- **An unsigned numeral**: one or more ASCII digits and nothing else. -/
def natural? (ds : List Char) : Option Nat :=
  if ds ≠ [] ∧ ds.all Char.isDigit then some (digitsValue ds) else none

/-- **A numeral with an optional sign.** The sign stands alone and in front. -/
def integer? : List Char → Option Int
  | '+' :: ds => (natural? ds).map fun n => (n : Int)
  | '-' :: ds => (natural? ds).map fun n => -(n : Int)
  | ds => (natural? ds).map fun n => (n : Int)

/-- An unsigned numeral is read exactly from a non-empty run of digits. -/
theorem natural?_eq_some_iff {ds : List Char} {n : Nat} :
    natural? ds = some n ↔ ds ≠ [] ∧ ds.all Char.isDigit = true ∧ digitsValue ds = n := by
  unfold natural?
  split
  · rename_i h
    simp [h.1, h.2]
  · rename_i h
    simp only [reduceCtorEq, false_iff]
    intro hn
    exact h ⟨hn.1, hn.2.1⟩

end EndpointControl.Text
