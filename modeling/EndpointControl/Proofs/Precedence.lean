import EndpointControl.Constraint.Defects

/-!
# Which rule of a table decides

A table is read from the front, so an earlier rule can take from a later one all that it is about.
`Defect.Hides` says between two rules when that happens. It does not ask about identities: the
names agree, and what the earlier rule wants of a version the later one wants as well.

Nothing else hides a rule. If a rule is hidden, it is hidden by one single rule and not by several
together, because the identity that just meets it – its name, and its own beginning as the version
– meets no earlier rule that does not hide it. `DefectTable.precedence` puts this together for every
table, with what it means for rules that want a version of any kind.
-/

namespace EndpointControl

namespace Defect

variable {d e : Defect} {i : Identity}

/-- **The rule is about the identity.** -/
structure Matches (d : Defect) (i : Identity) : Prop where
  name : d.name = i.name
  version : ∀ p, d.versionStart = some p → ∃ rest, i.version = some (p ++ rest)

/-- **The rule takes everything from another one behind it.** -/
structure Hides (d e : Defect) : Prop where
  name : d.name = e.name
  version : ∀ p, d.versionStart = some p → ∃ rest, e.versionStart = some (p ++ rest)

/-- **The identity that just meets a rule.** -/
def least (d : Defect) : Identity := ⟨d.name, d.versionStart⟩

theorem beginsWith_eq_true_iff {v p : String} : beginsWith v p = true ↔ ∃ rest, v = p ++ rest := by
  rw [beginsWith, List.isPrefixOf_iff_prefix]
  constructor
  · rintro ⟨rest, h⟩
    refine ⟨String.ofList rest, String.toList_inj.mp ?_⟩
    rw [String.toList_append, String.toList_ofList, h]
  · rintro ⟨rest, rfl⟩
    rw [String.toList_append]
    exact List.prefix_append _ _

/-- **The table reads a rule as what it is about.** -/
theorem applies_eq_true_iff : d.applies i = true ↔ d.Matches i := by
  have hversion : d.applies i = true ↔ d.name = i.name
      ∧ ∀ p, d.versionStart = some p → ∃ v, i.version = some v ∧ beginsWith v p = true := by
    unfold applies
    rw [Bool.and_eq_true_iff, beq_iff_eq]
    cases d.versionStart <;> cases i.version <;> simp
  rw [hversion]
  constructor
  · rintro ⟨hname, hv⟩
    refine ⟨hname, fun p hp => ?_⟩
    obtain ⟨v, hv, hb⟩ := hv p hp
    obtain ⟨rest, rfl⟩ := beginsWith_eq_true_iff.mp hb
    exact ⟨rest, hv⟩
  · rintro ⟨hname, hv⟩
    refine ⟨hname, fun p hp => ?_⟩
    obtain ⟨rest, hv⟩ := hv p hp
    exact ⟨_, hv, beginsWith_eq_true_iff.mpr ⟨rest, rfl⟩⟩

/-- A rule is about the identity that just meets it. -/
theorem matches_least (d : Defect) : d.Matches d.least :=
  ⟨rfl, fun p hp => ⟨"", by rw [String.append_empty]; exact hp⟩⟩

/-- **A rule hides another if it is about the identity that just meets that one.** -/
theorem matches_least_iff : d.Matches e.least ↔ d.Hides e :=
  ⟨fun h => ⟨h.name, h.version⟩, fun h => ⟨h.name, h.version⟩⟩

/-- **What a hidden rule is about, the other is about as well.** -/
theorem Hides.matches (h : d.Hides e) (he : e.Matches i) : d.Matches i := by
  refine ⟨h.name.trans he.name, fun p hp => ?_⟩
  obtain ⟨rest, hrest⟩ := h.version p hp
  obtain ⟨rest', hv⟩ := he.version _ hrest
  exact ⟨rest ++ rest', by rw [hv, String.append_assoc]⟩

/-- A rule about all versions, but no provider without one, hides the rules about versions. -/
theorem hides_iff_of_empty (hname : d.name = e.name) (hd : d.versionStart = some "") :
    d.Hides e ↔ e.versionStart ≠ none := by
  constructor
  · rintro h hnone
    obtain ⟨rest, hrest⟩ := h.version _ hd
    rw [hnone] at hrest
    cases hrest
  · intro h
    obtain ⟨p, hp⟩ := Option.ne_none_iff_exists'.mp h
    refine ⟨hname, fun q hq => ⟨p, ?_⟩⟩
    obtain rfl := Option.some.inj (hd.symm.trans hq)
    rw [hp, String.empty_append]

/-- A rule about the provider at large is hidden only by such rules. -/
theorem hides_iff_of_none (he : e.versionStart = none) :
    d.Hides e ↔ d.name = e.name ∧ d.versionStart = none := by
  constructor
  · intro h
    refine ⟨h.name, Option.eq_none_iff_forall_ne_some.mpr fun p hp => ?_⟩
    obtain ⟨rest, hrest⟩ := h.version p hp
    rw [he] at hrest
    cases hrest
  · rintro ⟨hname, hnone⟩
    exact ⟨hname, fun p hp => absurd (hnone.symm.trans hp) (by simp)⟩

end Defect

namespace DefectTable

variable {rules : List Defect} {i : Identity} {d e : Defect} {j k : Nat} {l : Level}

/-- **The table of a sequence of rules**, put in one by one. -/
def ofRules (rules : List Defect) : DefectTable := rules.foldl push empty

/-- **This rule decides about the identity**: it is the first one about it. -/
structure Decides (rules : List Defect) (i : Identity) (k : Nat) (d : Defect) : Prop where
  place : rules[k]? = some d
  about : d.Matches i
  first : ∀ j e, j < k → rules[j]? = some e → ¬ e.Matches i

theorem rules_foldl_push (t : DefectTable) (rules : List Defect) :
    (rules.foldl push t).rules = t.rules ++ rules := by
  induction rules generalizing t with
  | nil => rw [List.foldl_nil, List.append_nil]
  | cons d rules ih =>
    rw [List.foldl_cons, ih, rules_push, List.append_assoc, List.singleton_append]

/-- The rules are in the table as they have been put in. -/
@[simp] theorem rules_ofRules (rules : List Defect) : (ofRules rules).rules = rules :=
  rules_foldl_push empty rules

/-- **The rule that a table finds is the one that decides.** -/
theorem find?_eq_some_iff_decides :
    rules.find? (·.applies i) = some d ↔ ∃ k, Decides rules i k d := by
  rw [List.find?_eq_some_iff_getElem]
  constructor
  · rintro ⟨ha, k, hk, hd, hfirst⟩
    refine ⟨k, (List.getElem?_eq_getElem hk).trans (congrArg some hd),
      Defect.applies_eq_true_iff.mp ha, fun j e hj he hm => ?_⟩
    obtain ⟨hlt, rfl⟩ := List.getElem?_eq_some_iff.mp he
    have hnot := hfirst j hj
    rw [Defect.applies_eq_true_iff.mpr hm] at hnot
    cases hnot
  · rintro ⟨k, hk, ha, hfirst⟩
    obtain ⟨hlt, rfl⟩ := List.getElem?_eq_some_iff.mp hk
    refine ⟨Defect.applies_eq_true_iff.mpr ha, k, hlt, rfl, fun j hj => ?_⟩
    have hnot := mt Defect.applies_eq_true_iff.mp
      (hfirst j _ hj (List.getElem?_eq_getElem (Nat.lt_trans hj hlt)))
    simpa using hnot

/-- **A level is found where a rule decides**, and it is that of the rule. -/
theorem lookup_eq_some_iff :
    (ofRules rules).lookup i = some l ↔ ∃ k d, Decides rules i k d ∧ d.level = l := by
  rw [lookup, rules_ofRules, Option.map_eq_some_iff]
  simp only [find?_eq_some_iff_decides]
  constructor
  · rintro ⟨d, ⟨k, h⟩, hl⟩
    exact ⟨k, d, h, hl⟩
  · rintro ⟨k, d, h, hl⟩
    exact ⟨d, ⟨k, h⟩, hl⟩

/-- **Nothing is found where no rule is about the identity.** -/
theorem lookup_eq_none_iff :
    (ofRules rules).lookup i = none ↔ ∀ d ∈ rules, ¬ d.Matches i := by
  rw [lookup, rules_ofRules, Option.map_eq_none_iff, List.find?_eq_none]
  simp only [Defect.applies_eq_true_iff]

/-- **A rule decides about somebody unless an earlier one hides it.** -/
theorem exists_decides_iff (hk : rules[k]? = some d) :
    (∃ i, Decides rules i k d) ↔ ∀ j e, j < k → rules[j]? = some e → ¬ e.Hides d := by
  constructor
  · rintro ⟨i, h⟩ j e hj he hhides
    exact h.first j e hj he (hhides.matches h.about)
  · intro h
    -- a rule that is about the identity that just meets this one hides it
    refine ⟨d.least, hk, d.matches_least, fun j e hj he hm => ?_⟩
    exact h j e hj he (Defect.matches_least_iff.mp hm)

/-- **Rules behind the others do not matter** to an identity that one of the others decides
about. -/
theorem Decides.append (h : Decides rules i k d) (more : List Defect) :
    Decides (rules ++ more) i k d := by
  have hlt : k < rules.length := (List.getElem?_eq_some_iff.mp h.place).1
  have hsame {j : Nat} (hj : j ≤ k) : (rules ++ more)[j]? = rules[j]? :=
    List.getElem?_append_left (Nat.lt_of_le_of_lt hj hlt)
  refine ⟨(hsame (Nat.le_refl k)).trans h.place, h.about, fun j e hj he => ?_⟩
  exact h.first j e hj ((hsame (Nat.le_of_lt hj)).symm.trans he)

/-! ## For every table -/

/-- **How a sequence of rules is read.** -/
structure Precedence (rules : List Defect) : Prop where
  /-- The rule that is chosen for an identity is the first one about it, -/
  chosen : ∀ i d, (ofRules rules).rules.find? (·.applies i) = some d ↔ ∃ k, Decides rules i k d
  /-- and it says what is found, -/
  found : ∀ i l, (ofRules rules).lookup i = some l ↔ ∃ k d, Decides rules i k d ∧ d.level = l
  /-- and nothing is found where there is none. -/
  unknown : ∀ i, (ofRules rules).lookup i = none ↔ ∀ d ∈ rules, ¬ d.Matches i
  /-- A rule decides about somebody unless one of the earlier ones hides it: -/
  decides : ∀ k d, rules[k]? = some d →
    ((∃ i, Decides rules i k d) ↔ ∀ j e, j < k → rules[j]? = some e → ¬ e.Hides d)
  /-- a rule about whatever version hides all about versions, -/
  versioned : ∀ {j k : Nat} {d e : Defect}, rules[j]? = some d → rules[k]? = some e → j < k →
    d.name = e.name → d.versionStart = some "" → e.versionStart ≠ none →
    ∀ i, ¬ Decides rules i k e
  /-- but a provider without a version is left to the first rule about it at large. -/
  unversioned : ∀ k d, rules[k]? = some d → d.versionStart = none →
    (Decides rules ⟨d.name, none⟩ k d
      ↔ ∀ j e, j < k → rules[j]? = some e → e.name = d.name → e.versionStart ≠ none)
  /-- More rules change nothing for whom there was one. -/
  more : ∀ i l later, (ofRules rules).lookup i = some l →
    (ofRules (rules ++ later)).lookup i = some l

/-- **The first rule that is about an identity decides**, in every table. -/
theorem precedence (rules : List Defect) : Precedence rules where
  chosen := fun i d => by rw [rules_ofRules, find?_eq_some_iff_decides]
  found := fun i l => lookup_eq_some_iff
  unknown := fun i => lookup_eq_none_iff
  decides := fun k d hk => exists_decides_iff hk
  versioned := by
    intro j k d e hj hk hlt hname hd he i hdec
    have hhides : d.Hides e := (Defect.hides_iff_of_empty hname hd).mpr he
    exact (exists_decides_iff hk).mp ⟨i, hdec⟩ j d hlt hj hhides
  unversioned := by
    intro k d hk hnone
    have hleast : (⟨d.name, none⟩ : Identity) = d.least := by rw [Defect.least, hnone]
    rw [hleast]
    constructor
    · intro h j e hj he hname hv
      exact h.first j e hj he (Defect.matches_least_iff.mpr
        ((Defect.hides_iff_of_none hnone).mpr ⟨hname, hv⟩))
    · intro h
      refine ⟨hk, d.matches_least, fun j e hj he hm => ?_⟩
      obtain ⟨hname, hv⟩ := (Defect.hides_iff_of_none hnone).mp (Defect.matches_least_iff.mp hm)
      exact h j e hj he hname hv
  more := by
    intro i l later h
    obtain ⟨k, d, hdec, hl⟩ := lookup_eq_some_iff.mp h
    exact lookup_eq_some_iff.mpr ⟨k, d, hdec.append later, hl⟩

end DefectTable

end EndpointControl
