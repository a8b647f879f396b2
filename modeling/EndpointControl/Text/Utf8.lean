/-!
# Reading octets as text

A sequence of octets is text when it is well-formed UTF-8. A sequence that is
not can still be shown: `lossy` reads as far as it can and puts one replacement
character for each ill-formed stretch, where a stretch is as long as it could
still have become a character – the leading octet and every continuation octet
the leading one admits – and at least one octet.

Both readings go through `next`, which looks at one character's worth of octets,
so `decode` and `lossy` agree where the octets are text.
-/

namespace EndpointControl.Text

/-- A continuation octet. -/
def isContinuation (b : UInt8) : Bool := 0x80 ≤ b && b ≤ 0xBF

/-- What a leading octet of a longer character asks for: how many octets follow,
the range of the first of them, and the payload of the leading octet. -/
structure Lead where
  /-- The number of octets that follow. -/
  following : Nat
  /-- The least value of the next octet. -/
  low : UInt8
  /-- The greatest value of the next octet. -/
  high : UInt8
  /-- The bits of the character that the leading octet carries. -/
  bits : Nat

/-- **The leading octets of longer characters.** The narrowed ranges after
`E0`, `ED`, `F0` and `F4` leave out overlong forms, surrogates and everything
beyond the last code point. -/
def lead? (b : UInt8) : Option Lead :=
  let n := b.toNat
  if n < 0xC2 then none
  else if n < 0xE0 then some ⟨1, 0x80, 0xBF, n - 0xC0⟩
  else if n = 0xE0 then some ⟨2, 0xA0, 0xBF, 0⟩
  else if n = 0xED then some ⟨2, 0x80, 0x9F, 0xD⟩
  else if n < 0xF0 then some ⟨2, 0x80, 0xBF, n - 0xE0⟩
  else if n = 0xF0 then some ⟨3, 0x90, 0xBF, 0⟩
  else if n < 0xF4 then some ⟨3, 0x80, 0xBF, n - 0xF0⟩
  else if n = 0xF4 then some ⟨3, 0x80, 0x8F, 4⟩
  else none

/-- Reads `k` more continuation octets onto `bits`. Where one is missing the
reading stops, and what it has not looked at is left. -/
def continue? : Nat → Nat → List UInt8 → Option Nat × List UInt8
  | 0, bits, bs => (some bits, bs)
  | _ + 1, _, [] => (none, [])
  | k + 1, bits, b :: bs =>
    if isContinuation b then continue? k (bits * 64 + (b.toNat - 0x80)) bs
    else (none, b :: bs)

/-- **One character's worth of octets** after a first octet: the character, or
`none` for an ill-formed stretch, and the octets that follow. -/
def next (b : UInt8) (bs : List UInt8) : Option Char × List UInt8 :=
  if b < 0x80 then (some (Char.ofNat b.toNat), bs)
  else match lead? b with
    | none => (none, bs)
    | some l =>
      match bs with
      | [] => (none, [])
      | c :: rest =>
        if l.low ≤ c && c ≤ l.high then
          match continue? (l.following - 1) (l.bits * 64 + (c.toNat - 0x80)) rest with
          | (some n, left) => (some (Char.ofNat n), left)
          | (none, left) => (none, left)
        else (none, c :: rest)

/-- Reading on never grows the octets. -/
theorem length_continue?_le (k bits : Nat) (bs : List UInt8) :
    (continue? k bits bs).2.length ≤ bs.length := by
  induction k generalizing bits bs with
  | zero => simp [continue?]
  | succ k ih =>
    cases bs with
    | nil => simp [continue?]
    | cons b bs =>
      unfold continue?
      split
      · exact Nat.le_succ_of_le (ih _ bs)
      · exact Nat.le_refl _

/-- A character's worth is at least its first octet. -/
theorem length_next_le (b : UInt8) (bs : List UInt8) :
    (next b bs).2.length ≤ bs.length := by
  unfold next
  split
  · exact Nat.le_refl _
  · split
    · exact Nat.le_refl _
    · split
      · exact Nat.le_refl _
      · split
        · rename_i l _ _ c rest _
          have h := length_continue?_le (l.following - 1) (l.bits * 64 + (c.toNat - 0x80)) rest
          split <;> rename_i heq <;> rw [heq] at h <;> exact Nat.le_succ_of_le h
        · exact Nat.le_refl _

/-- The octets read one character's worth at a time, `none` for each ill-formed
stretch. -/
def pieces : List UInt8 → List (Option Char)
  | [] => []
  | b :: bs => (next b bs).1 :: pieces (next b bs).2
termination_by bs => bs.length
decreasing_by
  have := length_next_le b bs
  simp only [List.length_cons]
  omega

/-- **The text of the octets**, if all of them are well-formed. -/
def decode (bs : List UInt8) : Option String :=
  ((pieces bs).mapM id).map String.ofList

/-- **The text of the octets as far as it goes**, with one replacement character
for each ill-formed stretch. -/
def lossy (bs : List UInt8) : String :=
  String.ofList ((pieces bs).map fun c => c.getD '\uFFFD')

end EndpointControl.Text
