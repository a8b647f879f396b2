import EndpointControl.Blueprint
import EndpointControl.Proofs.Language
import Mathlib.Data.List.Induction

/-!
# What is described

A draft keeps one value for each thing that can be said about a factory. What was said is a list of
choices, and this module says what comes of a draft in terms of that list alone: the last choice
about a topic holds (`Said`), and where there is none a default is in force (`InForce`).

A description has faults or it has none. `Fault` lists them with no regard to when they are looked
for, and `Fault.First` is the one that is found first; without faults there is one blueprint, whose
every part is in force (`Blueprint.IsOf`). That this is what a draft comes to is proved of every list
of choices (`Draft.Keeps.blueprint_eq_error_iff`, `Draft.Keeps.blueprint_eq_ok_iff`). Factories had
without a draft work on the terms of a draft that says no more than how many workers there are
(`onTerms_suggested`).
-/

namespace EndpointControl

/-! ## What has been said -/

/-- **What can be said something about.** -/
inductive Topic where
  | bossExecutor
  | workerExecutor
  | workerCount
  | provider
  | setting
  | platform
  deriving DecidableEq

/-- What the choice is about. -/
def Choice.topic : Choice → Topic
  | .bossExecutor _ => .bossExecutor
  | .workerExecutor _ => .workerExecutor
  | .workerCount _ => .workerCount
  | .provider _ => .provider
  | .setting _ => .setting
  | .platform _ => .platform

/-- **This is the last that has been said about its topic.** -/
def Said (cs : List Choice) (c : Choice) : Prop :=
  ∃ before after, cs = before ++ c :: after ∧ ∀ c' ∈ after, c'.topic ≠ c.topic

/-- **This is in force about a topic**: it has been said, or nothing has and it is the default. -/
def InForce {α : Type} (cs : List Choice) (about : α → Choice) (default a : α) : Prop :=
  Said cs (about a) ∨ a = default ∧ ∀ b, ¬ Said cs (about b)

variable {cs : List Choice} {c c' : Choice} {fl : Flavor} {d : Draft} {here : Platform}
  {e : Failure} {b : Blueprint}

theorem not_said_nil : ¬ Said [] c := by
  rintro ⟨before, after, h, -⟩
  simp at h

/-- **What is said last holds**, and what was said before as far as it is about something else. -/
theorem said_concat : Said (cs ++ [c']) c ↔ c' = c ∨ c'.topic ≠ c.topic ∧ Said cs c := by
  constructor
  · rintro ⟨before, after, h, hafter⟩
    rcases List.eq_nil_or_concat after with rfl | ⟨init, last, rfl⟩
    · exact .inl (List.singleton_inj.mp (List.append_inj' h rfl).right)
    · rw [List.concat_eq_append] at h hafter
      rw [← List.cons_append, ← List.append_assoc] at h
      obtain ⟨rfl, hlast⟩ := List.append_inj' h rfl
      obtain rfl := List.singleton_inj.mp hlast
      refine .inr ⟨hafter _ (by simp), before, init, rfl, fun x hx => hafter x ?_⟩
      exact List.mem_append_left _ hx
  · rintro (rfl | ⟨hne, before, after, rfl, hafter⟩)
    · exact ⟨cs, [], rfl, List.forall_mem_nil _⟩
    · refine ⟨before, after ++ [c'], by simp, fun x hx => ?_⟩
      rcases List.mem_append.mp hx with hx | hx
      · exact hafter x hx
      · obtain rfl := List.mem_singleton.mp hx
        exact hne

/-! ## Drafts keep what has been said -/

/-- **The draft holds what has been said** about a factory of this kind. -/
structure Draft.Keeps (d : Draft) (fl : Flavor) (cs : List Choice) : Prop where
  flavor : d.flavor = fl
  bossExecutor : ∀ x, d.bossExecutor = some x ↔ Said cs (.bossExecutor x)
  workerExecutor : ∀ x, d.workerExecutor = some x ↔ Said cs (.workerExecutor x)
  workerCount : ∀ n, d.workerCount = some n ↔ Said cs (.workerCount n)
  provider : ∀ p, d.provider = some p ↔ Said cs (.provider p)
  setting : ∀ v, d.setting = v ↔ InForce cs .setting .auto v
  platform : ∀ p, d.platform = some p ↔ Said cs (.platform p)

theorem Draft.keeps_blank (fl : Flavor) : (blank fl).Keeps fl [] := by
  constructor <;> simp [blank, not_said_nil, InForce, eq_comm]

/-- **A choice is kept**, and everything that it is not about stays. -/
theorem Draft.Keeps.choose (h : d.Keeps fl cs) (c : Choice) :
    (d.choose c).Keeps fl (cs ++ [c]) := by
  cases c <;> constructor <;>
    simp [Draft.choose, said_concat, InForce, Choice.topic, h.flavor, h.bossExecutor,
      h.workerExecutor, h.workerCount, h.provider, h.setting, h.platform]

/-- **A draft holds all that has been said.** -/
theorem Draft.keeps_chooseAll (fl : Flavor) (cs : List Choice) :
    ((blank fl).chooseAll cs).Keeps fl cs := by
  induction cs using List.reverseRecOn with
  | nil => exact keeps_blank fl
  | append_singleton cs c ih =>
    rw [chooseAll, List.foldl_append, List.foldl_cons, List.foldl_nil]
    exact ih.choose c

theorem eq_none_iff_not_said {α : Type} {o : Option α} {about : α → Choice}
    (h : ∀ a, o = some a ↔ Said cs (about a)) : o = none ↔ ∀ a, ¬ Said cs (about a) := by
  simp only [Option.eq_none_iff_forall_ne_some, ne_eq, h]

/-- Where a draft leaves something open the default is in force. -/
theorem getD_eq_iff_inForce {α : Type} {o : Option α} {about : α → Choice} {default a : α}
    (h : ∀ a, o = some a ↔ Said cs (about a)) :
    o.getD default = a ↔ InForce cs about default a := by
  simp only [InForce, ← h]
  cases o <;> simp [eq_comm]

/-! ## What can be wrong -/

/-- **What is wrong with a description**, whether or not something else is as well. -/
inductive Fault (fl : Flavor) (cs : List Choice) : Failure → Prop
  | noBossExecutor (hfl : fl = .client) (h : ∀ x, ¬ Said cs (.bossExecutor x)) :
      Fault fl cs (.missing .bossExecutor)
  | noWorkerExecutor (h : ∀ x, ¬ Said cs (.workerExecutor x)) :
      Fault fl cs (.missing .workerExecutor)
  | noWorkers (h : Said cs (.workerCount 0)) : Fault fl cs (.misconfigured .noWorkers)
  | levelOutOfRange {n : Int} (h : Said cs (.setting (.force n))) (hn : n < 0 ∨ 4294967295 < n) :
      Fault fl cs (.misconfigured (.levelOutOfRange n))

/-- When a fault is looked for. -/
def Failure.rank : Failure → Nat
  | .missing .bossExecutor => 0
  | .missing .workerExecutor => 1
  | .misconfigured .noWorkers => 2
  | _ => 3

/-- **The fault that is looked for first**, among all there are. -/
structure Fault.First (fl : Flavor) (cs : List Choice) (e : Failure) : Prop where
  fault : Fault fl cs e
  first : ∀ e', Fault fl cs e' → e.rank ≤ e'.rank

/-! ## What is built -/

/-- **The executors that have been named.** -/
inductive StaffedBy (fl : Flavor) (cs : List Choice) : Staffing → Prop
  | client {b w : ExecutorId} (hfl : fl = .client) (hb : Said cs (.bossExecutor b))
      (hw : Said cs (.workerExecutor w)) : StaffedBy fl cs (.client b w)
  | datagram {w : ExecutorId} (hfl : fl = .datagram) (hw : Said cs (.workerExecutor w)) :
      StaffedBy fl cs (.datagram w)

/-- **The terms that are in force.** What the platform supplies is twice as many workers as it has
processors, its provider, and its table of defects. -/
def OnTerms (here : Platform) (cs : List Choice) (t : Terms) : Prop :=
  ∃ p v, InForce cs .platform here p ∧ InForce cs .setting .auto v
    ∧ InForce cs .workerCount (min (2 * p.processors) 18446744073709551615) t.workerCount
    ∧ InForce cs .provider p.provider t.provider
    ∧ v.level p.defects t.provider.identity = .ok t.level

/-- **The blueprint of what has been described.** -/
structure Blueprint.IsOf (b : Blueprint) (here : Platform) (fl : Flavor) (cs : List Choice) :
    Prop where
  staffing : StaffedBy fl cs b.staffing
  terms : OnTerms here cs b.terms

namespace Draft.Keeps

/-- **A draft is staffed by the executors that have been named.** -/
theorem staffing_eq_ok_iff (h : d.Keeps fl cs) {s : Staffing} :
    d.staffing = .ok s ↔ StaffedBy fl cs s := by
  constructor
  · intro hs
    unfold staffing at hs
    split at hs
    · rename_i hfl
      split at hs
      · cases hs
      · rename_i x hb
        split at hs
        · cases hs
        · rename_i y hw
          cases hs
          exact .client (h.flavor.symm.trans hfl) ((h.bossExecutor x).mp hb)
            ((h.workerExecutor y).mp hw)
    · rename_i hfl
      split at hs
      · cases hs
      · rename_i y hw
        cases hs
        exact .datagram (h.flavor.symm.trans hfl) ((h.workerExecutor y).mp hw)
  · intro hs
    unfold staffing
    cases hs with
    | client hfl hb hw =>
      rw [h.flavor, hfl, (h.bossExecutor _).mpr hb, (h.workerExecutor _).mpr hw]
    | datagram hfl hw => rw [h.flavor, hfl, (h.workerExecutor _).mpr hw]

/-- **A draft works on the terms that are in force.** -/
theorem terms_eq_ok_iff (h : d.Keeps fl cs) {t : Terms} :
    d.terms here = .ok t ↔ OnTerms here cs t := by
  simp only [OnTerms, ← getD_eq_iff_inForce h.platform, ← h.setting,
    ← getD_eq_iff_inForce h.workerCount, ← getD_eq_iff_inForce h.provider]
  unfold terms
  dsimp only
  constructor
  · split
    · split
      · rename_i l hl
        intro ht
        cases ht
        exact ⟨_, _, rfl, rfl, rfl, rfl, hl⟩
      · rintro ⟨⟩
    · rintro ⟨⟩
  · obtain ⟨n, hn, p, l⟩ := t
    rintro ⟨_, _, rfl, rfl, hc, hp, hl⟩
    dsimp only at hc hp hl
    have hcount : d.count (d.platform.getD here) = n := hc
    subst hp hcount
    rw [dif_pos hn, hl]

/-- **What is missing is asked for first**, the boss's executor before that of the workers. -/
theorem first_of_staffing (h : d.Keeps fl cs) (he : d.staffing = .error e) :
    Fault.First fl cs e := by
  have hboss (hb : d.bossExecutor = none) := (eq_none_iff_not_said h.bossExecutor).mp hb
  have hworker (hw : d.workerExecutor = none) := (eq_none_iff_not_said h.workerExecutor).mp hw
  unfold staffing at he
  split at he
  · rename_i hfl
    split at he
    · rename_i hb
      cases he
      exact ⟨.noBossExecutor (h.flavor.symm.trans hfl) (hboss hb), fun _ _ => Nat.zero_le _⟩
    · rename_i x hb
      split at he
      · rename_i hw
        cases he
        refine ⟨.noWorkerExecutor (hworker hw), fun e' he' => ?_⟩
        cases he' with
        | noBossExecutor _ hno => exact absurd ((h.bossExecutor x).mp hb) (hno x)
        | noWorkerExecutor | noWorkers | levelOutOfRange => simp [Failure.rank]
      · cases he
  · rename_i hfl
    split at he
    · rename_i hw
      cases he
      refine ⟨.noWorkerExecutor (hworker hw), fun e' he' => ?_⟩
      cases he' with
      | noBossExecutor hfl' => rw [← h.flavor, hfl] at hfl'; cases hfl'
      | noWorkerExecutor | noWorkers | levelOutOfRange => simp [Failure.rank]
    · cases he

end Draft.Keeps

theorem StaffedBy.flavor {s : Staffing} (hs : StaffedBy fl cs s) : s.flavor = fl := by
  cases hs with
  | client hfl | datagram hfl => exact hfl.symm

/-- Where the executors have been named none is missing. -/
theorem StaffedBy.rank {s : Staffing} (hs : StaffedBy fl cs s) (he : Fault fl cs e) :
    2 ≤ e.rank := by
  cases he with
  | noBossExecutor hfl hno =>
    cases hs with
    | client _ hb => exact absurd hb (hno _)
    | datagram hfl' => rw [hfl] at hfl'; cases hfl'
  | noWorkerExecutor hno =>
    cases hs with
    | client _ _ hw | datagram _ hw => exact absurd hw (hno _)
  | noWorkers | levelOutOfRange => simp [Failure.rank]

namespace Draft.Keeps

/-- **What makes no sense is found next**, the number of workers before the level. -/
theorem first_of_terms (h : d.Keeps fl cs) {s : Staffing} (hs : StaffedBy fl cs s)
    (he : d.terms here = .error e) : Fault.First fl cs e := by
  unfold terms at he
  dsimp only at he
  split at he
  · rename_i hpos
    split at he
    · cases he
    · rename_i e' hl
      obtain rfl := Except.error.inj he
      obtain ⟨n, hv, hrange, rfl⟩ := Setting.level_eq_error_iff.mp hl
      have hsaid : Said cs (.setting (.force n)) := by
        rcases (h.setting _).mp hv with hsaid | ⟨hauto, -⟩
        · exact hsaid
        · cases hauto
      refine ⟨.levelOutOfRange hsaid hrange, fun e' he' => ?_⟩
      have hrank := hs.rank he'
      cases he' with
      | noBossExecutor | noWorkerExecutor => exact absurd hrank (by decide)
      | noWorkers h0 =>
        have hzero := (d.count_eq_zero_iff (d.platform.getD here)).mpr ((h.workerCount 0).mpr h0)
        exact absurd hzero hpos.ne'
      | levelOutOfRange => exact Nat.le_refl _
  · rename_i hpos
    obtain rfl := Except.error.inj he
    have hzero := (d.count_eq_zero_iff _).mp (Nat.eq_zero_of_not_pos hpos)
    exact ⟨.noWorkers ((h.workerCount 0).mp hzero), fun e' he' => hs.rank he'⟩

/-- **A blueprint is what has been described.** -/
theorem blueprint_eq_ok_iff (h : d.Keeps fl cs) : d.blueprint here = .ok b ↔ b.IsOf here fl cs := by
  have hparts : d.blueprint here = .ok b
      ↔ d.staffing = .ok b.staffing ∧ d.terms here = .ok b.terms := by
    obtain ⟨s, t⟩ := b
    unfold blueprint
    cases d.staffing <;> cases d.terms here <;> simp
  rw [hparts, h.staffing_eq_ok_iff, h.terms_eq_ok_iff]
  exact ⟨fun hb => ⟨hb.left, hb.right⟩, fun hb => ⟨hb.staffing, hb.terms⟩⟩

theorem first_of_blueprint (h : d.Keeps fl cs) (he : d.blueprint here = .error e) :
    Fault.First fl cs e := by
  unfold blueprint at he
  split at he
  · rename_i e' hs
    obtain rfl := Except.error.inj he
    exact h.first_of_staffing hs
  · rename_i s hs
    split at he
    · rename_i e' ht
      obtain rfl := Except.error.inj he
      exact h.first_of_terms (h.staffing_eq_ok_iff.mp hs) ht
    · cases he

/-- Nothing is wrong with a description that there is a blueprint of. -/
theorem not_fault (h : d.Keeps fl cs) (hb : b.IsOf here fl cs) : ¬ Fault fl cs e := by
  intro he
  have hrank := hb.staffing.rank he
  obtain ⟨p, v, -, hv, hcount, -, hl⟩ := hb.terms
  cases he with
  | noBossExecutor | noWorkerExecutor => exact absurd hrank (by decide)
  | noWorkers h0 =>
    have hzero : b.terms.workerCount = 0 := by
      rw [← (getD_eq_iff_inForce h.workerCount).mpr hcount, (h.workerCount 0).mpr h0,
        Option.getD_some]
    exact absurd hzero b.terms.workerCount_pos.ne'
  | @levelOutOfRange n hn hrange =>
    obtain rfl : v = .force n := ((h.setting v).mpr hv).symm.trans ((h.setting _).mpr (.inl hn))
    have herr : (Setting.force n).level p.defects b.terms.provider.identity = _ :=
      Setting.level_eq_error_iff.mpr ⟨n, rfl, hrange, rfl⟩
    rw [herr] at hl
    cases hl

/-- There is one fault that is found first. -/
theorem first_unique (h : d.Keeps fl cs) {e e' : Failure} (he : Fault.First fl cs e)
    (he' : Fault.First fl cs e') : e = e' := by
  have hrank : e.rank = e'.rank := Nat.le_antisymm (he.first _ he'.fault) (he'.first _ he.fault)
  -- only the last kind says more than its rank
  cases he.fault with
  | @levelOutOfRange n hn =>
    cases he'.fault with
    | @levelOutOfRange n' hn' =>
      have hsame : Setting.force n = .force n' :=
        ((h.setting _).mpr (.inl hn)).symm.trans ((h.setting _).mpr (.inl hn'))
      rw [Setting.force.inj hsame]
    | noBossExecutor | noWorkerExecutor | noWorkers => simp [Failure.rank] at hrank
  | noBossExecutor | noWorkerExecutor | noWorkers =>
    cases he'.fault <;> first | rfl | simp [Failure.rank] at hrank

/-- **Building fails for the fault that is found first.** -/
theorem blueprint_eq_error_iff (h : d.Keeps fl cs) :
    d.blueprint here = .error e ↔ Fault.First fl cs e := by
  refine ⟨h.first_of_blueprint, fun he => ?_⟩
  cases hd : d.blueprint here with
  | error e' => rw [h.first_unique he (h.first_of_blueprint hd)]
  | ok b => exact absurd he.fault (h.not_fault (h.blueprint_eq_ok_iff.mp hd))

/-- **There is a blueprint of every description without a fault.** -/
theorem exists_isOf_iff (h : d.Keeps fl cs) :
    (∃ b : Blueprint, b.IsOf here fl cs) ↔ ∀ e, ¬ Fault fl cs e := by
  constructor
  · rintro ⟨b, hb⟩ e
    exact h.not_fault hb
  · intro hno
    cases hd : d.blueprint here with
    | error e => exact absurd (h.first_of_blueprint hd).fault (hno e)
    | ok b => exact ⟨b, h.blueprint_eq_ok_iff.mp hd⟩

end Draft.Keeps

/-- **The terms that a platform suggests** are those of a draft on it that says how many workers
there are and leaves everything else as it is. -/
theorem onTerms_suggested {p : Platform} {n : Nat} (hn : 0 < n) (hp : InForce cs .platform here p)
    (hcount : InForce cs .workerCount (min (2 * p.processors) 18446744073709551615) n)
    (hprovider : ∀ q, ¬ Said cs (.provider q)) (hsetting : ∀ v, ¬ Said cs (.setting v)) :
    OnTerms here cs (.suggested p n hn) :=
  ⟨p, .auto, hp, .inr ⟨rfl, hsetting⟩, hcount, .inr ⟨rfl, hprovider⟩, rfl⟩

end EndpointControl
