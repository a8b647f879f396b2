/-!
# Blank characters

A setting typed by a person or read from an environment may be padded. What
counts as padding is the Unicode property `White_Space`, kept here as the list
of its ranges, and `strip` takes padding off both ends of a text.

Stripping is a cut and nothing else: `strip_append` says that padding a text
that has none at its ends changes nothing, and `exists_eq_append_strip` that
every text is its stripped form between two runs of blanks. Texts are lists of
characters here, because every statement about a reader is an induction over
them.
-/

namespace EndpointControl.Text

/-- **The ranges of the property `White_Space`**, both ends included. -/
def blankRanges : List (Nat × Nat) :=
  [(0x0009, 0x000D), (0x0020, 0x0020), (0x0085, 0x0085), (0x00A0, 0x00A0),
   (0x1680, 0x1680), (0x2000, 0x200A), (0x2028, 0x2029), (0x202F, 0x202F),
   (0x205F, 0x205F), (0x3000, 0x3000)]

/-- The character lies in one of the blank ranges. -/
def isBlank (c : Char) : Bool :=
  blankRanges.any fun r => decide (r.1 ≤ c.toNat) && decide (c.toNat ≤ r.2)

/-- **The text without the blanks at its two ends.** -/
def strip (cs : List Char) : List Char :=
  ((cs.dropWhile isBlank).reverse.dropWhile isBlank).reverse

@[simp] theorem strip_nil : strip [] = [] := rfl

/-- Dropping from the front leaves a tail of the text, and what was dropped
is blank. -/
theorem exists_eq_append_dropWhile (cs : List Char) :
    ∃ l, cs = l ++ cs.dropWhile isBlank ∧ ∀ c ∈ l, isBlank c = true := by
  induction cs with
  | nil => exact ⟨[], rfl, by simp⟩
  | cons c r ih =>
    by_cases h : isBlank c = true
    · obtain ⟨l, hl, hb⟩ := ih
      refine ⟨c :: l, ?_, ?_⟩
      · rw [List.dropWhile_cons_of_pos h, List.cons_append, ← hl]
      · intro d hd
        rcases List.mem_cons.mp hd with rfl | hd
        · exact h
        · exact hb d hd
    · exact ⟨[], by simp [List.dropWhile_cons_of_neg h], by simp⟩

/-- **Stripping loses only blanks**: every text is its stripped form between
two runs of them. -/
theorem exists_eq_append_strip (cs : List Char) :
    ∃ l r, cs = l ++ strip cs ++ r ∧ (∀ c ∈ l, isBlank c = true) ∧
      ∀ c ∈ r, isBlank c = true := by
  obtain ⟨l, hl, hlb⟩ := exists_eq_append_dropWhile cs
  obtain ⟨r, hr, hrb⟩ := exists_eq_append_dropWhile (cs.dropWhile isBlank).reverse
  refine ⟨l, r.reverse, ?_, hlb, fun c hc => hrb c (List.mem_reverse.mp hc)⟩
  have h : cs.dropWhile isBlank = strip cs ++ r.reverse := by
    have := congrArg List.reverse hr
    simpa [strip] using this
  rw [List.append_assoc, ← h]
  exact hl

/-- A run of blanks in front of a text is dropped with the blanks of the text. -/
theorem dropWhile_append_of_blank {l : List Char} (h : ∀ c ∈ l, isBlank c = true)
    (cs : List Char) : (l ++ cs).dropWhile isBlank = cs.dropWhile isBlank := by
  induction l with
  | nil => rfl
  | cons c r ih =>
    rw [List.cons_append, List.dropWhile_cons_of_pos (h c (List.mem_cons_self ..)),
      ih fun d hd => h d (List.mem_cons_of_mem _ hd)]

/-- **Padding is invisible**: a text that neither begins nor ends with a blank
is what remains of it between any two runs of blanks. -/
theorem strip_append {l r : List Char} (hl : ∀ c ∈ l, isBlank c = true)
    (hr : ∀ c ∈ r, isBlank c = true) {c : Char} {cs : List Char}
    (hc : isBlank c = false)
    (hlast : ((c :: cs).reverse).dropWhile isBlank = (c :: cs).reverse) :
    strip (l ++ (c :: cs) ++ r) = c :: cs := by
  rw [strip, List.append_assoc, dropWhile_append_of_blank hl, List.cons_append,
    List.dropWhile_cons_of_neg (by simp [hc]), ← List.cons_append, List.reverse_append,
    dropWhile_append_of_blank fun d hd => hr d (List.mem_reverse.mp hd), hlast,
    List.reverse_reverse]

end EndpointControl.Text
