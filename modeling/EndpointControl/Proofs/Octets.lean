import EndpointControl.Text.Utf8

/-!
# Every text is read back from its octets

`Text.decode` reads octets as UTF-8. What a text is written as in UTF-8 reads as that very text,
whatever characters are in it (`Text.decode_toUTF8`): each character is recognized by its leading
octet, its continuation octets are all there, and no stretch of it is taken for an ill-formed one.

The two limits that a leading octet sets on the octet behind it (`lead?_of_three`,
`lead?_of_four`) are where the surrogates and the overlong forms are ruled out; a character is
never one of them.
-/

namespace EndpointControl.Text

/-! ## Single octets -/

/-- The low six bits of a number, in a continuation octet. -/
def continuation (n : Nat) : UInt8 := UInt8.ofNat (n % 64 + 128)

@[simp] theorem toNat_continuation (n : Nat) : (continuation n).toNat = n % 64 + 128 :=
  UInt8.toNat_ofNat_of_lt' (show _ < 256 by omega)

theorem isContinuation_continuation (n : Nat) : isContinuation (continuation n) = true := by
  have h : n % 64 < 64 := Nat.mod_lt _ (by decide)
  simp [isContinuation, UInt8.le_iff_toNat_le]
  omega

/-- A continuation octet gives its six bits. -/
theorem continue?_cons (k bits n : Nat) (bs : List UInt8) :
    continue? (k + 1) bits (continuation n :: bs) = continue? k (bits * 64 + n % 64) bs := by
  rw [continue?, if_pos (isContinuation_continuation n), toNat_continuation, Nat.add_sub_cancel]

/-- **A leading octet and the octet behind it**, which is one that the leading octet admits. -/
theorem next_of_lead {b : UInt8} {l : Lead} {n : Nat} {bs : List UInt8} (hb : 0x80 ≤ b.toNat)
    (hl : lead? b = some l) (hlow : l.low.toNat ≤ n % 64 + 128)
    (hhigh : n % 64 + 128 ≤ l.high.toNat) :
    next b (continuation n :: bs) =
      ((continue? (l.following - 1) (l.bits * 64 + n % 64) bs).1.map Char.ofNat,
        (continue? (l.following - 1) (l.bits * 64 + n % 64) bs).2) := by
  have hb' : ¬ b < 0x80 := by
    rw [UInt8.lt_iff_toNat_lt]
    exact Nat.not_lt.mpr hb
  have hc : (l.low ≤ continuation n && continuation n ≤ l.high) = true := by
    simp [UInt8.le_iff_toNat_le, hlow, hhigh]
  simp only [next, if_neg hb', hl, if_pos hc, toNat_continuation, Nat.add_sub_cancel]
  split <;> rename_i heq <;> rw [heq] <;> rfl

/-! ## Leading octets -/

/-- The leading octet of a character of two. -/
theorem lead?_of_two {n : Nat} (h : 0x80 ≤ n) (h' : n ≤ 0x7FF) :
    lead? (UInt8.ofNat (n / 64 % 32 + 192)) = some ⟨1, 0x80, 0xBF, n / 64⟩ := by
  have hb : (UInt8.ofNat (n / 64 % 32 + 192)).toNat = n / 64 + 192 := by
    rw [UInt8.toNat_ofNat_of_lt' (show _ < 256 by omega)]
    omega
  rw [lead?, hb, if_neg (by omega), if_pos (by omega), Nat.add_sub_cancel]

/-- **The leading octet of a character of three** admits what follows it: what it leaves out are
the forms that are too long, and the surrogates. -/
theorem lead?_of_three {n : Nat} (h : 0x7FF < n) (h' : n ≤ 0xFFFF)
    (hs : n < 0xD800 ∨ 0xDFFF < n) :
    ∃ l, lead? (UInt8.ofNat (n / 4096 % 16 + 224)) = some l ∧ l.following = 2
      ∧ l.bits = n / 4096 ∧ l.low.toNat ≤ n / 64 % 64 + 128 ∧ n / 64 % 64 + 128 ≤ l.high.toNat := by
  have hb : (UInt8.ofNat (n / 4096 % 16 + 224)).toNat = n / 4096 + 224 := by
    rw [UInt8.toNat_ofNat_of_lt' (show _ < 256 by omega)]
    omega
  rw [lead?, hb, if_neg (by omega), if_neg (by omega)]
  by_cases h0 : n / 4096 = 0
  · rw [if_pos (by omega)]
    exact ⟨_, rfl, rfl, h0.symm, show 0xA0 ≤ _ by omega, show _ ≤ 0xBF by omega⟩
  rw [if_neg (by omega)]
  by_cases hd : n / 4096 = 0xD
  · rw [if_pos (by omega)]
    exact ⟨_, rfl, rfl, hd.symm, show 0x80 ≤ _ by omega, show _ ≤ 0x9F by omega⟩
  rw [if_neg (by omega), if_pos (by omega)]
  exact ⟨_, rfl, rfl, Nat.add_sub_cancel .., show 0x80 ≤ _ by omega, show _ ≤ 0xBF by omega⟩

/-- **The leading octet of a character of four** admits what follows it: what it leaves out are
the forms that are too long, and what lies beyond the last character. -/
theorem lead?_of_four {n : Nat} (h : 0xFFFF < n) (h' : n < 0x110000) :
    ∃ l, lead? (UInt8.ofNat (n / 262144 % 8 + 240)) = some l ∧ l.following = 3
      ∧ l.bits = n / 262144 ∧ l.low.toNat ≤ n / 4096 % 64 + 128
      ∧ n / 4096 % 64 + 128 ≤ l.high.toNat := by
  have hb : (UInt8.ofNat (n / 262144 % 8 + 240)).toNat = n / 262144 + 240 := by
    rw [UInt8.toNat_ofNat_of_lt' (show _ < 256 by omega)]
    omega
  rw [lead?, hb, if_neg (by omega), if_neg (by omega), if_neg (by omega), if_neg (by omega),
    if_neg (by omega)]
  by_cases h0 : n / 262144 = 0
  · rw [if_pos (by omega)]
    exact ⟨_, rfl, rfl, h0.symm, show 0x90 ≤ _ by omega, show _ ≤ 0xBF by omega⟩
  rw [if_neg (by omega)]
  by_cases h4 : n / 262144 = 4
  · rw [if_neg (by omega), if_pos (by omega)]
    exact ⟨_, rfl, rfl, h4.symm, show 0x80 ≤ _ by omega, show _ ≤ 0x8F by omega⟩
  rw [if_pos (by omega)]
  exact ⟨_, rfl, rfl, Nat.add_sub_cancel .., show 0x80 ≤ _ by omega, show _ ≤ 0xBF by omega⟩

/-! ## Characters -/

/-- **A character is read back from its octets**, and nothing of what follows them is touched. -/
theorem exists_next_utf8EncodeChar (c : Char) (bs : List UInt8) :
    ∃ b cs, String.utf8EncodeChar c = b :: cs ∧ next b (cs ++ bs) = (some c, bs) := by
  have hc : Char.ofNat c.val.toNat = c := Char.ofNat_toNat c
  have hvalid : c.val.toNat < 0xD800 ∨ 0xDFFF < c.val.toNat ∧ c.val.toNat < 0x110000 := c.valid
  rw [String.utf8EncodeChar]
  generalize c.val.toNat = n at hc hvalid
  -- one case for each number of octets
  by_cases h1 : n ≤ 0x7F
  · rw [if_pos h1]
    refine ⟨_, _, rfl, ?_⟩
    have hn : (UInt8.ofNat n).toNat = n := UInt8.toNat_ofNat_of_lt' (show n < 256 by omega)
    have hlt : UInt8.ofNat n < 0x80 := by
      rw [UInt8.lt_iff_toNat_lt, hn]
      exact Nat.lt_succ_of_le h1
    rw [next, if_pos hlt, hn, hc]
    rfl
  rw [if_neg h1]
  by_cases h2 : n ≤ 0x7FF
  · rw [if_pos h2]
    refine ⟨_, _, rfl, ?_⟩
    have hbits : n / 64 * 64 + n % 64 = n := by omega
    have h : next _ (continuation n :: bs) = _ :=
      next_of_lead (by rw [UInt8.toNat_ofNat_of_lt' (show _ < 256 by omega)]; omega)
        (lead?_of_two (by omega) h2) (show 0x80 ≤ _ by omega) (show _ ≤ 0xBF by omega)
    rw [hbits, Nat.sub_self, continue?] at h
    exact h.trans (by rw [Option.map_some, hc])
  rw [if_neg h2]
  by_cases h3 : n ≤ 0xFFFF
  · rw [if_pos h3]
    refine ⟨_, _, rfl, ?_⟩
    obtain ⟨l, hl, hf, hbits, hlow, hhigh⟩ := lead?_of_three (by omega) h3 (by omega)
    have h : next _ (continuation (n / 64) :: continuation n :: bs) = _ :=
      next_of_lead (by rw [UInt8.toNat_ofNat_of_lt' (show _ < 256 by omega)]; omega) hl hlow hhigh
    have hall : (n / 4096 * 64 + n / 64 % 64) * 64 + n % 64 = n := by omega
    rw [hf, hbits, continue?_cons, continue?, hall] at h
    exact h.trans (by rw [Option.map_some, hc])
  · rw [if_neg h3]
    refine ⟨_, _, rfl, ?_⟩
    obtain ⟨l, hl, hf, hbits, hlow, hhigh⟩ := lead?_of_four (n := n) (by omega) (by omega)
    have h :
        next _ (continuation (n / 4096) :: continuation (n / 64) :: continuation n :: bs) = _ :=
      next_of_lead (by rw [UInt8.toNat_ofNat_of_lt' (show _ < 256 by omega)]; omega) hl hlow hhigh
    have hall : ((n / 262144 * 64 + n / 4096 % 64) * 64 + n / 64 % 64) * 64 + n % 64 = n := by omega
    rw [hf, hbits, continue?_cons, continue?_cons, continue?, hall] at h
    exact h.trans (by rw [Option.map_some, hc])

/-! ## Texts -/

/-- **The characters of a text are read back from its octets**, one by one. -/
theorem pieces_flatMap_utf8EncodeChar (cs : List Char) :
    pieces (cs.flatMap String.utf8EncodeChar) = cs.map some := by
  induction cs with
  | nil => rw [List.flatMap_nil, pieces, List.map_nil]
  | cons c cs ih =>
    obtain ⟨b, rest, hb, hnext⟩ :=
      exists_next_utf8EncodeChar c (cs.flatMap String.utf8EncodeChar)
    rw [List.flatMap_cons, hb, List.cons_append, pieces, hnext, ih, List.map_cons]

/-- **Every text is read back from its octets.** -/
theorem decode_toUTF8 (s : String) : decode s.toUTF8.data.toList = some s := by
  have hs : s.toUTF8.data.toList = s.toList.flatMap String.utf8EncodeChar := by
    rw [String.toUTF8_eq_toByteArray, ← String.utf8Encode_toList, List.utf8Encode,
      List.toList_data_toByteArray]
  have hall : (s.toList.map some).mapM id = some s.toList := by
    rw [List.mapM_map]
    exact List.mapM_pure.trans (congrArg some (List.map_id _))
  rw [decode, hs, pieces_flatMap_utf8EncodeChar, hall, Option.map_some, String.ofList_toList]

end EndpointControl.Text
