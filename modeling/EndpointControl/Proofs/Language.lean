import EndpointControl.Constraint.Setting
import EndpointControl.Proofs.Octets
import Mathlib.Data.List.Forall2
import Mathlib.Data.List.Induction
import Mathlib.Data.Nat.Digits.Defs
import Mathlib.Tactic.IntervalCases

/-!
# The language of settings

What a setting may look like, said as a grammar: blanks, a core, blanks. The core is a word in any
mixture of ASCII case (`Setting.Spells`) or a numeral (`Text.Numeral`), and a numeral has the value
of its digits to the base ten. Nothing in the grammar mentions the reader; `Setting.reading` says
that the reader accepts just this language, gives each text the one meaning that the grammar gives
it, and refuses every other text by quoting it.

It also follows a numeral to the level it ends up as. The reader has one limit and levels have
another; between the two no number is ever cut down.
-/

namespace EndpointControl

/-! ## Numerals -/

namespace Text

variable {cs ds : List Char} {n : Nat}

/-- **A run of digits and its value**, to the base ten and the most significant first. -/
def Digits (cs : List Char) (n : Nat) : Prop :=
  ∃ ds : List Nat, ds ≠ [] ∧ (∀ d ∈ ds, d < 10) ∧ cs = ds.map Nat.digitChar
    ∧ n = Nat.ofDigits 10 ds.reverse

/-- **A numeral and its number**, which is not negative. -/
inductive Numeral : List Char → Nat → Prop
  | unsigned {cs : List Char} {n : Nat} (h : Digits cs n) : Numeral cs n
  | plus {cs : List Char} {n : Nat} (h : Digits cs n) : Numeral ('+' :: cs) n
  /-- With a minus in front only zero is one. -/
  | minus {cs : List Char} (h : Digits cs 0) : Numeral ('-' :: cs) 0

theorem isDigit_digitChar {d : Nat} (h : d < 10) : d.digitChar.isDigit = true := by
  interval_cases d <;> rfl

theorem toNat_digitChar {d : Nat} (h : d < 10) : d.digitChar.toNat - '0'.toNat = d := by
  interval_cases d <;> rfl

/-- A digit is the one of its value. -/
theorem exists_eq_digitChar {c : Char} (h : c.isDigit = true) :
    ∃ d, d < 10 ∧ c = Nat.digitChar d := by
  have hc : 48 ≤ c.toNat ∧ c.toNat ≤ 57 := by
    simpa [Char.isDigit, UInt32.le_iff_toNat_le] using h
  obtain ⟨d, hd⟩ := Nat.exists_eq_add_of_le hc.left
  have hlt : d < 10 := by omega
  refine ⟨d, hlt, ?_⟩
  rw [← Char.ofNat_toNat c, hd]
  interval_cases d <;> rfl

/-- What a run of digits is worth is said by the same sum. -/
theorem digitsValue_map_digitChar {ds : List Nat} (h : ∀ d ∈ ds, d < 10) :
    digitsValue (ds.map Nat.digitChar) = Nat.ofDigits 10 ds.reverse := by
  induction ds using List.reverseRecOn with
  | nil => rfl
  | append_singleton ds d ih =>
    have hd : d < 10 := h d (by simp)
    rw [List.map_append, List.map_singleton, digitsValue_append_singleton, toNat_digitChar hd,
      ih fun e he => h e (List.mem_append_left _ he), List.reverse_append, List.reverse_singleton,
      List.singleton_append, Nat.ofDigits_cons, Nat.add_comm]

/-- **Digits are read as what they are worth.** -/
theorem natural?_eq_some_iff_digits : natural? cs = some n ↔ Digits cs n := by
  rw [natural?_eq_some_iff]
  constructor
  · rintro ⟨hne, hall, rfl⟩
    have hds : ∃ ds : List Nat, (∀ d ∈ ds, d < 10) ∧ cs = ds.map Nat.digitChar := by
      clear hne
      induction cs with
      | nil => exact ⟨[], List.forall_mem_nil _, rfl⟩
      | cons c cs ih =>
        obtain ⟨hc, hcs⟩ := Bool.and_eq_true_iff.mp hall
        obtain ⟨d, hd, rfl⟩ := exists_eq_digitChar hc
        obtain ⟨ds, hds, rfl⟩ := ih hcs
        exact ⟨d :: ds, List.forall_mem_cons.mpr ⟨hd, hds⟩, rfl⟩
    obtain ⟨ds, hds, rfl⟩ := hds
    exact ⟨ds, fun h => hne (by rw [h, List.map_nil]), hds, rfl, digitsValue_map_digitChar hds⟩
  · rintro ⟨ds, hne, hds, rfl, rfl⟩
    refine ⟨fun h => hne (List.map_eq_nil_iff.mp h), ?_, digitsValue_map_digitChar hds⟩
    simpa using fun d hd => isDigit_digitChar (hds d hd)

/-- The characters of a run of digits are digits. -/
theorem Digits.isDigit (h : Digits cs n) : ∀ c ∈ cs, c.isDigit = true :=
  List.all_eq_true.mp (natural?_eq_some_iff.mp (natural?_eq_some_iff_digits.mpr h)).right.left

theorem Digits.ne_nil (h : Digits cs n) : cs ≠ [] :=
  (natural?_eq_some_iff.mp (natural?_eq_some_iff_digits.mpr h)).left

/-- Without a sign a numeral is its digits. -/
theorem integer?_of_digits (h : Digits cs n) : integer? cs = some (n : Int) := by
  have hsign : ∀ ds, cs ≠ '+' :: ds ∧ cs ≠ '-' :: ds := by
    intro ds
    constructor <;> rintro rfl <;> exact absurd (h.isDigit _ List.mem_cons_self) (by decide)
  unfold integer?
  split
  · exact absurd rfl (hsign _).left
  · exact absurd rfl (hsign _).right
  · rw [natural?_eq_some_iff_digits.mpr h]
    rfl

/-- **What reads as a number that is not negative is a numeral.** -/
theorem integer?_eq_some_iff_numeral : integer? cs = some (n : Int) ↔ Numeral cs n := by
  constructor
  · unfold integer?
    split
    · rename_i ds
      cases h : natural? ds with
      | none => simp
      | some m =>
        intro heq
        obtain rfl : m = n := by simpa using heq
        exact .plus (natural?_eq_some_iff_digits.mp h)
    · rename_i ds
      cases h : natural? ds with
      | none => simp
      | some m =>
        intro heq
        have hm : -(m : Int) = n := by simpa using heq
        obtain rfl : m = 0 := by omega
        obtain rfl : n = 0 := by omega
        exact .minus (natural?_eq_some_iff_digits.mp h)
    · cases h : natural? cs with
      | none => simp
      | some m =>
        intro heq
        obtain rfl : m = n := by simpa using heq
        exact .unsigned (natural?_eq_some_iff_digits.mp h)
  · intro h
    cases h with
    | unsigned h => exact integer?_of_digits h
    | plus h | minus h => simp [integer?, natural?_eq_some_iff_digits.mpr h]

/-- The characters that a numeral is made of. -/
theorem Numeral.mem (h : Numeral cs n) : ∀ c ∈ cs, c = '+' ∨ c = '-' ∨ c.isDigit = true := by
  cases h with
  | unsigned h => exact fun c hc => .inr (.inr (h.isDigit c hc))
  | plus h =>
    exact List.forall_mem_cons.mpr ⟨.inl rfl, fun c hc => .inr (.inr (h.isDigit c hc))⟩
  | minus h =>
    exact List.forall_mem_cons.mpr ⟨.inr (.inl rfl), fun c hc => .inr (.inr (h.isDigit c hc))⟩

/-- There are no letters in a numeral. -/
theorem Numeral.not_letter (h : Numeral cs n) : ∀ c ∈ cs, ¬ 'A' ≤ c := by
  intro c hc
  rcases h.mem c hc with rfl | rfl | hdigit
  · decide
  · decide
  · obtain ⟨d, hd, rfl⟩ := exists_eq_digitChar hdigit
    interval_cases d <;> decide

theorem Numeral.ne_nil (h : Numeral cs n) : cs ≠ [] := by
  cases h with
  | unsigned h => exact h.ne_nil
  | plus h | minus h => exact List.cons_ne_nil _ _

/-! ## Padding -/

/-- Letters are no blanks. -/
theorem isBlank_of_letter {c : Char} (h : 'A' ≤ c ∧ c ≤ 'z') : isBlank c = false := by
  have hc : 65 ≤ c.toNat ∧ c.toNat ≤ 122 := by
    simpa [Char.le_def, UInt32.le_iff_toNat_le] using h
  simp only [isBlank, blankRanges, List.any_cons, List.any_nil, Bool.or_false,
    Bool.or_eq_false_iff, Bool.and_eq_false_iff, decide_eq_false_iff_not]
  omega

/-- **Padding is taken off**, and nothing of a text without blanks. -/
theorem strip_of_padded {before core after : List Char} (hb : ∀ c ∈ before, isBlank c = true)
    (ha : ∀ c ∈ after, isBlank c = true) (hc : ∀ c ∈ core, isBlank c = false) (hne : core ≠ []) :
    strip (before ++ core ++ after) = core := by
  obtain ⟨c, cs, rfl⟩ := List.exists_cons_of_ne_nil hne
  refine strip_append hb ha (hc c List.mem_cons_self) ?_
  have hlast : ∀ d ∈ (c :: cs).reverse, isBlank d = false :=
    fun d hd => hc d (List.mem_reverse.mp hd)
  obtain ⟨d, ds, hds⟩ := List.exists_cons_of_ne_nil (List.reverse_ne_nil_iff.mpr hne)
  rw [hds] at hlast ⊢
  exact List.dropWhile_cons_of_neg (by simp [hlast d List.mem_cons_self])

end Text

/-! ## Words -/

namespace Setting

variable {cs : List Char} {word : String} {n : Nat} {r : Setting}

/-- **The text spells the word** in any mixture of ASCII case. -/
def Spells (word : String) (cs : List Char) : Prop :=
  List.Forall₂ (fun w c => c = w ∨ c = w.toUpper) word.toList cs

theorem toNat_toUpper {w : Char} (h : 'a' ≤ w ∧ w ≤ 'z') : w.toUpper.toNat = w.toNat - 32 := by
  have hw : 97 ≤ w.val.toNat ∧ w.val.toNat ≤ 122 := by
    simpa [Char.le_def, UInt32.le_iff_toNat_le] using h
  have hup : w.toUpper.val = w.val + ('A'.val - 'a'.val) := by
    unfold Char.toUpper
    split
    · rfl
    · exact absurd h ‹_›
  show w.toUpper.val.toNat = w.val.toNat - 32
  rw [hup, UInt32.toNat_add]
  show (w.val.toNat + 4294967264) % 4294967296 = _
  omega

/-- A small letter is what it and its capital are in lower case. -/
theorem lowerAscii_eq_iff {w c : Char} (h : 'a' ≤ w ∧ w ≤ 'z') :
    lowerAscii c = w ↔ c = w ∨ c = w.toUpper := by
  have hw : 97 ≤ w.toNat ∧ w.toNat ≤ 122 := by
    simpa [Char.le_def, UInt32.le_iff_toNat_le] using h
  have hup := toNat_toUpper h
  simp only [← Char.toNat_inj, hup]
  unfold lowerAscii
  split
  · rename_i hc
    have hc' : 65 ≤ c.toNat ∧ c.toNat ≤ 90 := by
      simpa [Char.le_def, UInt32.le_iff_toNat_le] using hc
    have hvalid : (c.toNat + 32).isValidChar := .inl (by omega)
    have hlower : (Char.ofNat (c.toNat + 32)).toNat = c.toNat + 32 := by
      rw [Char.ofNat, dif_pos hvalid]
      rfl
    omega
  · rename_i hc
    have hc' : ¬ (65 ≤ c.toNat ∧ c.toNat ≤ 90) := by
      simpa [Char.le_def, UInt32.le_iff_toNat_le] using hc
    omega

/-- **Words of small letters are recognized in every spelling.** -/
theorem spells_eq_true_iff (h : ∀ w ∈ word.toList, 'a' ≤ w ∧ w ≤ 'z') :
    spells cs word = true ↔ Spells word cs := by
  rw [spells, beq_iff_eq, Spells]
  generalize word.toList = ws at h
  induction ws generalizing cs with
  | nil => rw [List.map_eq_nil_iff, List.forall₂_nil_left_iff]
  | cons w ws ih =>
    obtain ⟨hw, hws⟩ := List.forall_mem_cons.mp h
    cases cs with
    | nil => constructor <;> intro h <;> cases h
    | cons c cs =>
      rw [List.map_cons, List.cons.injEq, List.forall₂_cons, lowerAscii_eq_iff hw, ih hws]

/-- **A spelling of a word is of letters.** -/
theorem Spells.letter (hw : ∀ w ∈ word.toList, 'a' ≤ w ∧ w ≤ 'z') (h : Spells word cs) :
    ∀ c ∈ cs, 'A' ≤ c ∧ c ≤ 'z' := by
  unfold Spells at h
  generalize word.toList = ws at hw h
  induction h with
  | nil => exact List.forall_mem_nil _
  | @cons w c ws cs hc _ ih =>
    obtain ⟨hsmall, hws⟩ := List.forall_mem_cons.mp hw
    have hup := toNat_toUpper hsmall
    refine List.forall_mem_cons.mpr ⟨?_, ih hws⟩
    simp only [Char.le_def, UInt32.le_iff_toNat_le] at hsmall ⊢
    rcases hc with rfl | rfl
    · exact ⟨Nat.le_trans (by decide) hsmall.left, hsmall.right⟩
    · have hw : 97 ≤ w.toNat ∧ w.toNat ≤ 122 := hsmall
      show 65 ≤ w.toUpper.toNat ∧ w.toUpper.toNat ≤ 122
      omega

/-! ## Settings -/

/-- **The core of a setting**, and the setting that it stands for. -/
inductive Core : List Char → Setting → Prop
  | auto {cs : List Char} (h : Spells "auto" cs) : Core cs .auto
  | off {cs : List Char} (h : Spells "none" cs) : Core cs .off
  /-- Numbers fit a signed 64-bit word. -/
  | force {cs : List Char} {n : Nat} (h : Text.Numeral cs n) (hn : n ≤ 9223372036854775807) :
      Core cs (.force n)

/-- **The text is written in the language of settings** and stands for this one: its core with
blanks around it. -/
def Written (s : String) (r : Setting) : Prop :=
  ∃ before core after, s.toList = before ++ core ++ after ∧ (∀ c ∈ before, Text.isBlank c = true)
    ∧ (∀ c ∈ after, Text.isBlank c = true) ∧ Core core r

theorem spells_auto_iff : spells cs "auto" = true ↔ Spells "auto" cs :=
  spells_eq_true_iff (by simp)

theorem spells_none_iff : spells cs "none" = true ↔ Spells "none" cs :=
  spells_eq_true_iff (by simp)

/-- No text spells both words. -/
theorem Spells.not_none (h : Spells "auto" cs) : ¬ Spells "none" cs := by
  intro h'
  have ha : cs.map lowerAscii = "auto".toList := beq_iff_eq.mp (spells_auto_iff.mpr h)
  have hn : cs.map lowerAscii = "none".toList := beq_iff_eq.mp (spells_none_iff.mpr h')
  exact absurd (ha.symm.trans hn) (by decide)

/-- A numeral spells no word. -/
theorem Spells.not_numeral (hw : ∀ w ∈ word.toList, 'a' ≤ w ∧ w ≤ 'z') (h : Spells word cs) :
    ¬ Text.Numeral cs n := by
  intro hn
  obtain ⟨c, hc⟩ := List.exists_mem_of_ne_nil cs hn.ne_nil
  exact hn.not_letter c hc (h.letter hw c hc).left

/-- **There are no blanks in the core of a setting.** -/
theorem Core.isBlank (h : Core cs r) : ∀ c ∈ cs, Text.isBlank c = false := by
  cases h with
  | auto h | off h => exact fun c hc => Text.isBlank_of_letter (h.letter (by simp) c hc)
  | force h =>
    intro c hc
    rcases h.mem c hc with rfl | rfl | hdigit
    · rfl
    · rfl
    · obtain ⟨d, hd, rfl⟩ := Text.exists_eq_digitChar hdigit
      interval_cases d <;> rfl

theorem Core.ne_nil (h : Core cs r) : cs ≠ [] := by
  cases h with
  | auto h | off h => rintro rfl; cases h
  | force h => exact h.ne_nil

/-- **The core is read as the grammar has it.** -/
theorem readCore?_eq_some_iff : readCore? cs = some r ↔ Core cs r := by
  have hforce {k : Int} (hk : 0 ≤ k ∧ k ≤ greatest) :
      Text.integer? cs = some k ↔ Text.Numeral cs k.toNat := by
    rw [← Text.integer?_eq_some_iff_numeral, Int.toNat_of_nonneg hk.left]
  unfold readCore?
  -- the three kinds of core exclude one another, so the order of the reader does not matter
  by_cases ha : Spells "auto" cs
  · rw [if_pos (spells_auto_iff.mpr ha)]
    constructor
    · rintro ⟨⟩
      exact .auto ha
    · intro h
      cases h with
      | auto => rfl
      | off hn => exact absurd hn ha.not_none
      | force h => exact absurd h (ha.not_numeral (by simp))
  rw [if_neg (mt spells_auto_iff.mp ha)]
  by_cases hn : Spells "none" cs
  · rw [if_pos (spells_none_iff.mpr hn)]
    constructor
    · rintro ⟨⟩
      exact .off hn
    · intro h
      cases h with
      | auto h => exact absurd h ha
      | off => rfl
      | force h => exact absurd h (hn.not_numeral (by simp))
  rw [if_neg (mt spells_none_iff.mp hn)]
  constructor
  · split
    · rename_i k hk
      split
      · rename_i hrange
        rintro ⟨⟩
        have hnum := (hforce hrange).mp hk
        have hle : k.toNat ≤ 9223372036854775807 := Int.toNat_le.mpr hrange.right
        rw [← Int.toNat_of_nonneg hrange.left]
        exact .force hnum hle
      · rintro ⟨⟩
    · rintro ⟨⟩
  · intro h
    cases h with
    | auto h => exact absurd h ha
    | off h => exact absurd h hn
    | force h hle =>
      rw [Text.integer?_eq_some_iff_numeral.mpr h]
      exact if_pos ⟨Int.natCast_nonneg _, Int.ofNat_le.mpr hle⟩

/-- **What is written in the language is read, and as what it stands for.** -/
theorem read_eq_ok_iff (s : String) : read s = .ok r ↔ Written s r := by
  have hcore : read s = .ok r ↔ readCore? (Text.strip s.toList) = some r := by
    unfold read
    cases readCore? (Text.strip s.toList) <;> simp
  rw [hcore, readCore?_eq_some_iff]
  constructor
  · intro h
    obtain ⟨before, after, hs, hb, ha⟩ := Text.exists_eq_append_strip s.toList
    exact ⟨before, _, after, hs, hb, ha, h⟩
  · rintro ⟨before, core, after, hs, hb, ha, h⟩
    rw [hs, Text.strip_of_padded hb ha h.isBlank h.ne_nil]
    exact h

/-- **What is refused is quoted**, padding and all. -/
theorem eq_unreadable_of_read {s : String} {f : Failure} (h : read s = .error f) :
    f = .misconfigured (.unreadable s) := by
  unfold read at h
  cases hr : readCore? (Text.strip s.toList) with
  | none =>
    rw [hr] at h
    cases h
    rfl
  | some r =>
    rw [hr] at h
    cases h

/-! ## Forced levels -/

/-- **A forced number is the level of its rank.** -/
theorem level_force_eq_ok_iff {k : Int} {table : DefectTable} {i : Identity} {l : Level} :
    (force k).level table i = .ok l ↔ k = l.rank := by
  rw [← Level.ofInt?_eq_some_iff]
  simp only [level]
  cases Level.ofInt? k <;> simp

/-- **Only a forced number is refused**, where there is no such level. -/
theorem level_eq_error_iff {table : DefectTable} {i : Identity} {f : Failure} :
    r.level table i = .error f ↔ ∃ k, r = .force k ∧ (k < 0 ∨ 4294967295 < k)
      ∧ f = .misconfigured (.levelOutOfRange k) := by
  cases r with
  | auto | off => simp [level]
  | force k =>
    have hrange : Level.ofInt? k = none ↔ k < 0 ∨ 4294967295 < k := by
      rw [Level.ofInt?_eq_none_iff]
      omega
    simp only [level, force.injEq, exists_eq_left', ← hrange]
    cases Level.ofInt? k <;> simp [eq_comm]

/-! ## For every text -/

/-- **How a text is read as a setting**, and what comes of it. -/
structure Reading (s : String) : Prop where
  /-- It is read just if it is written in the language, -/
  accepted : ∀ r, read s = .ok r ↔ Written s r
  /-- and else refused, -/
  refused : read s = .error (.misconfigured (.unreadable s)) ↔ ∀ r, ¬ Written s r
  /-- in words that quote it as it was given. -/
  quoted : ∀ f, read s = .error f →
    f.message = "invalid configuration: " ++ ("constraint spec '" ++ s
      ++ "' must be 'auto', 'none' or a non-negative integer")
  /-- The environment may hold it as well. -/
  environment : ofEnvironment (some s.toUTF8.data.toList) = read s
  /-- A number becomes the level of this very rank, under any table and for any provider, -/
  level : ∀ {n : Nat}, Written s (.force n) → ∀ (table : DefectTable) (i : Identity) (l : Level),
    (read s).bind (·.level table i) = .ok l ↔ l.rank = n
  /-- as far as there are levels, -/
  fits : ∀ {n : Nat}, Written s (.force n) → ∀ (table : DefectTable) (i : Identity),
    (∃ l, (read s).bind (·.level table i) = .ok l) ↔ n ≤ 4294967295
  /-- and is refused by its value beyond. -/
  outOfRange : ∀ {n : Nat}, Written s (.force n) → ∀ (table : DefectTable) (i : Identity),
    (read s).bind (·.level table i) = .error (.misconfigured (.levelOutOfRange n))
      ↔ 4294967295 < n

/-- **The language of settings is what the grammar says**, for every text. -/
theorem reading (s : String) : Reading s := by
  have hread {n : Nat} (h : Written s (.force n)) (table : DefectTable) (i : Identity) :
      (read s).bind (·.level table i) = (force n).level table i := by
    rw [(read_eq_ok_iff s).mpr h, Except.bind]
  exact {
    accepted := fun r => read_eq_ok_iff s
    refused := by
      constructor
      · intro h r hr
        rw [(read_eq_ok_iff s).mpr hr] at h
        cases h
      · intro h
        cases hr : read s with
        | ok r => exact absurd ((read_eq_ok_iff s).mp hr) (h r)
        | error f => rw [eq_unreadable_of_read hr]
    quoted := by
      intro f hf
      rw [eq_unreadable_of_read hf]
      rfl
    environment := by simp only [ofEnvironment, Text.decode_toUTF8]
    level := by
      intro n h table i l
      rw [hread h, level_force_eq_ok_iff, Int.natCast_inj, eq_comm]
    fits := by
      intro n h table i
      simp only [hread h, level_force_eq_ok_iff, Int.natCast_inj]
      constructor
      · rintro ⟨l, rfl⟩
        exact Nat.le_of_lt_succ l.rank_lt
      · intro hn
        exact ⟨⟨n, Nat.lt_succ_of_le hn⟩, rfl⟩
    outOfRange := by
      intro n h table i
      rw [hread h, level_eq_error_iff]
      constructor
      · rintro ⟨k, hk, hrange, -⟩
        obtain rfl := Setting.force.inj hk
        omega
      · intro hn
        exact ⟨n, rfl, .inr (by omega), rfl⟩ }

/-- A number may be a setting and yet no level. -/
example : (Setting.read "\t +04294967296 ").bind (·.level .empty ⟨"epoll", none⟩)
    = .error (.misconfigured (.levelOutOfRange 4294967296)) := by decide +kernel

end Setting

end EndpointControl
