import Mathlib.Data.List.Induction
import EndpointControl.Executor.Pool

/-!
# The books of a pool

Whoever offers a unit to a pool, shuts it down or ends a unit does so in several
sections under its lock, and between any two of them others may get theirs in. What
the pool then says of itself is right all the same, because each section leaves the
books of the pool balanced (`Pool.Books`): a unit counts as active from the section
that takes it to the section that lets it go, whatever comes in between and however
its work ends; an index is drawn once for each unit; the threads of the pool are
those of units between their beginning and their end.

Two sections can make the pool terminated, and both wake everybody who waits for it
before they give the lock back. So nobody sleeps while the pool is terminated, and
whoever is told that it is, is told the truth for good (`Pool.bookkeeping`).

Events are put one after the other in every order that the stages of the units allow,
so what is called by a unit at work is among them as well as what is called from
elsewhere.
-/

namespace EndpointControl

/-! ## What happens to a pool -/

/-- **One thing that happens to a pool.** -/
inductive PoolEvent where
  /-- A deed is done. -/
  | did (deed : Deed)
  /-- A unit is offered and refused. -/
  | refused
  /-- The thread of a unit at work, or one that is none of the pool's, asks whether it
  is one of the pool's. -/
  | asked (caller : Option Nat) (member : Bool)
  deriving DecidableEq, Repr

/-- The event lets a unit go. -/
def PoolEvent.lets : PoolEvent → Bool
  | .did (.release _) => true
  | _ => false

/-- **How many units have been taken.** -/
def unitsTaken (es : List PoolEvent) : Nat := es.count (.did .reserve)

/-- **How many units have been let go.** -/
def unitsGone (es : List PoolEvent) : Nat := es.countP PoolEvent.lets

/-- The unit has been let go. -/
def PoolUnit.isGone (x : PoolUnit) : Bool := x.stage = .gone

/-- The waiter, told to look again if it is asleep. -/
def Waiter.woken (x : Waiter) : Waiter :=
  match x.stage with
  | .asleep => { x with stage := .looking }
  | _ => x

/-- **Where a waiter can be** while the pool is terminated, or is not. -/
def Waiter.Fits (x : Waiter) (terminated : Bool) : Prop :=
  match x.stage with
  | .looking => True
  | .asleep => terminated = false
  | .returned answer => if answer then terminated = true else x.limited = true

namespace Pool

/-- The index of a unit, once drawn. -/
def index? (p : Pool) (u : Nat) : Option Nat := p.units[u]?.bind PoolUnit.index

/-- **Who can call**: a unit whose work runs, and everybody whose thread is none of the
pool's. -/
def CanCall (p : Pool) (caller : Option Nat) : Prop :=
  ∀ u ∈ caller, p.stage? u = some .entered

instance (p : Pool) (caller : Option Nat) : Decidable (p.CanCall caller) :=
  inferInstanceAs (Decidable (∀ u ∈ caller, _))

/-- **What becomes of the pool** when this happens, if it can happen. -/
def after (p : Pool) : PoolEvent → Option Pool
  | .did d => (p.perform d).map Prod.fst
  | .refused => if p.perform .reserve = none then some p else none
  | .asked caller member =>
    if p.CanCall caller ∧ p.isMember caller = member then some p else none

/-- **What becomes of the pool** when all this happens, one after the other. -/
def afterAll (p : Pool) (es : List PoolEvent) : Option Pool := es.foldlM after p

variable {p q : Pool} {d : Deed} {e : PoolEvent} {es es' : List PoolEvent} {u w : Nat}
  {ns : List PoolNotice}

@[simp] theorem afterAll_nil (p : Pool) : p.afterAll [] = some p := rfl

theorem afterAll_append (p : Pool) (es es' : List PoolEvent) :
    p.afterAll (es ++ es') = (p.afterAll es).bind (·.afterAll es') :=
  List.foldlM_append

theorem afterAll_concat (p : Pool) (es : List PoolEvent) (e : PoolEvent) :
    p.afterAll (es ++ [e]) = (p.afterAll es).bind (·.after e) := by
  rw [afterAll_append]
  congr 1
  funext q
  simp [afterAll]

/-- **A pool changes by the deeds that are done**, and by nothing else. -/
theorem after_eq_some (h : p.after e = some q) :
    (∃ d ns, e = .did d ∧ p.perform d = some (q, ns)) ∨ ((∀ d, e ≠ .did d) ∧ q = p) := by
  cases e with
  | did d =>
    obtain ⟨⟨q', ns⟩, hd, rfl⟩ := Option.map_eq_some_iff.mp h
    exact .inl ⟨d, ns, rfl, hd⟩
  | refused =>
    simp only [after, Option.ite_none_right_eq_some, Option.some.injEq] at h
    exact .inr ⟨nofun, h.2.symm⟩
  | asked caller member =>
    simp only [after, Option.ite_none_right_eq_some, Option.some.injEq] at h
    exact .inr ⟨nofun, h.2.symm⟩

/-- **Induction over what happens to a pool**, event by event. -/
theorem afterAll_induction {motive : List PoolEvent → Pool → Prop} (nil : motive [] p)
    (did : ∀ {es q q' d ns}, p.afterAll es = some q → motive es q →
      q.perform d = some (q', ns) → motive (es ++ [.did d]) q')
    (other : ∀ {es q e}, p.afterAll es = some q → motive es q → (∀ d, e ≠ .did d) →
      q.after e = some q → motive (es ++ [e]) q)
    (h : p.afterAll es = some q) : motive es q := by
  induction es using List.reverseRecOn generalizing q with
  | nil => cases h; exact nil
  | append_singleton es e ih =>
    rw [afterAll_concat] at h
    obtain ⟨q', hq', he⟩ := Option.bind_eq_some_iff.mp h
    rcases after_eq_some he with ⟨d, ns, rfl, hd⟩ | ⟨hne, rfl⟩
    · exact did hq' (ih hq') hd
    · exact other hq' (ih hq') hne he

/-! ## What one deed does -/

theorem waiters_tell (h : p.terminated = true) : p.tell.waiters = p.waiters.map Waiter.woken := by
  rw [tell, if_pos h]
  rfl

@[simp] theorem shutDown_tell (p : Pool) : p.tell.shutDown = p.shutDown := by
  unfold tell
  split <;> rfl

@[simp] theorem active_tell (p : Pool) : p.tell.active = p.active := by
  unfold tell
  split <;> rfl

@[simp] theorem units_tell (p : Pool) : p.tell.units = p.units := by
  unfold tell
  split <;> rfl

@[simp] theorem members_tell (p : Pool) : p.tell.members = p.members := by
  unfold tell
  split <;> rfl

@[simp] theorem nextIndex_tell (p : Pool) : p.tell.nextIndex = p.nextIndex := by
  unfold tell
  split <;> rfl

@[simp] theorem name_tell (p : Pool) : p.tell.name = p.name := by
  unfold tell
  split <;> rfl

@[simp] theorem terminated_tell (p : Pool) : p.tell.terminated = p.terminated := by
  simp [terminated]

/-- **What each deed does**, and to what it can be done. -/
inductive Does (p : Pool) : Deed → Pool → Prop where
  | reserve (accepting : p.shutDown = false) : Does p .reserve
      { p with active := p.active + 1, units := p.units.push ⟨.reserved, none⟩ }
  | draw {u : Nat} {x : PoolUnit} (hx : p.units[u]? = some x) (hs : x.stage = .reserved) :
      Does p (.draw u)
      { p with
        nextIndex := p.nextIndex + 1
        units := p.units.modify u fun _ => ⟨.named, some p.nextIndex⟩ }
  | enter {u : Nat} {x : PoolUnit} (hx : p.units[u]? = some x) (hs : x.stage = .named) :
      Does p (.enter u) { p.setStage u .entered with members := u :: p.members }
  | finish {u : Nat} {x : PoolUnit} (panic : Option Payload) (hx : p.units[u]? = some x)
      (hs : x.stage = .entered) : Does p (.finish u panic) (p.setStage u .ended)
  | leave {u : Nat} {x : PoolUnit} (hx : p.units[u]? = some x) (hs : x.stage = .ended) :
      Does p (.leave u) { p.setStage u .left with members := p.members.filter (· ≠ u) }
  | release {u : Nat} {x : PoolUnit} (hx : p.units[u]? = some x) (hs : x.stage = .left) :
      Does p (.release u) { p.setStage u .gone with active := p.active - 1 }.tell
  | shutDown : Does p .shutDown { p with shutDown := true }.tell
  | wait (limited : Bool) : Does p (.wait limited)
      { p with waiters := p.waiters.push ⟨.looking, limited⟩ }
  | look {w : Nat} {x : Waiter} (hx : p.waiters[w]? = some x) (hs : x.stage = .looking) :
      Does p (.look w) (p.setWaiter w (if p.terminated then .returned true else .asleep))
  | expire {w : Nat} {x : Waiter} (hx : p.waiters[w]? = some x) (hs : x.stage = .asleep)
      (hl : x.limited = true) : Does p (.expire w) (p.setWaiter w (.returned p.terminated))

theorem stage?_eq_some_iff {s : UnitStage} :
    p.stage? u = some s ↔ ∃ x, p.units[u]? = some x ∧ x.stage = s :=
  Option.map_eq_some_iff

theorem does_of_perform (h : p.perform d = some (q, ns)) : p.Does d q := by
  cases d with
  | reserve =>
    simp [perform] at h
    exact h.2.1 ▸ .reserve h.1
  | shutDown =>
    simp [perform] at h
    exact h.1 ▸ .shutDown
  | wait limited =>
    simp [perform] at h
    exact h.1 ▸ .wait limited
  | look w =>
    simp only [perform] at h
    split at h
    · cases h
      exact .look ‹_› rfl
    · cases h
  | expire w =>
    simp only [perform] at h
    split at h
    · cases h
      exact .expire ‹_› rfl rfl
    · cases h
  | draw u =>
    simp [perform, stage?_eq_some_iff] at h
    obtain ⟨⟨x, hx, hs⟩, rfl, -⟩ := h
    exact .draw hx hs
  | enter u =>
    simp [perform, stage?_eq_some_iff] at h
    obtain ⟨⟨x, hx, hs⟩, rfl, -⟩ := h
    exact .enter hx hs
  | finish u panic =>
    simp [perform, stage?_eq_some_iff] at h
    obtain ⟨⟨x, hx, hs⟩, rfl, -⟩ := h
    exact .finish panic hx hs
  | leave u =>
    simp only [perform, stage?_eq_some_iff, Option.ite_none_right_eq_some] at h
    obtain ⟨⟨x, hx, hs⟩, he⟩ := h
    cases he
    exact .leave hx hs
  | release u =>
    simp [perform, stage?_eq_some_iff] at h
    obtain ⟨⟨x, hx, hs⟩, rfl, -⟩ := h
    exact .release hx hs

theorem does_of_after (h : p.after (.did d) = some q) : p.Does d q := by
  obtain ⟨⟨q', ns⟩, hd, rfl⟩ := Option.map_eq_some_iff.mp h
  exact does_of_perform hd

/-- **A pool is shut down by being shut down**, and for good. -/
theorem Does.shutDown_iff (h : p.Does d q) :
    q.shutDown = true ↔ p.shutDown = true ∨ d = .shutDown := by
  cases h <;> simp [setStage, setWaiter]

/-! ## Units -/

/-- **One unit changes and the others stay.** -/
theorem exists_of_modify {x : PoolUnit} (hx : p.units[u]? = some x) (f : PoolUnit → PoolUnit) :
    ∃ l₁ l₂, p.units.toList = l₁ ++ x :: l₂ ∧ l₁.length = u
      ∧ (p.units.modify u f).toList = l₁ ++ f x :: l₂ := by
  obtain ⟨hu, hget⟩ := Array.getElem?_eq_some_iff.mp hx
  obtain ⟨l₁, a, l₂, hl, hlen, hm⟩ := List.exists_of_modify f (Array.length_toList.symm ▸ hu)
  have ha : a = x := by
    have : p.units.toList[u]? = some a := by simp [hl, ← hlen]
    rw [Array.getElem?_toList, hx] at this
    exact (Option.some.inj this).symm
  exact ⟨l₁, l₂, ha ▸ hl, hlen, by rw [Array.toList_modify, hm, ha]⟩

/-- How many units of a kind there are when one unit has changed. -/
theorem countP_modify {x : PoolUnit} (hx : p.units[u]? = some x) (f : PoolUnit → PoolUnit)
    (k : PoolUnit → Bool) :
    (p.units.modify u f).countP k + (if k x then 1 else 0)
      = p.units.countP k + if k (f x) then 1 else 0 := by
  obtain ⟨l₁, l₂, hl, -, hm⟩ := exists_of_modify hx f
  simp only [← Array.countP_toList, hl, hm, List.countP_append, List.countP_cons]
  omega

theorem stage?_setStage (p : Pool) (u v : Nat) (s : UnitStage) :
    (p.setStage u s).stage? v = if u = v then (p.stage? v).map fun _ => s else p.stage? v := by
  simp only [setStage, stage?, Array.getElem?_modify]
  split
  · cases p.units[v]? <;> rfl
  · rfl

theorem Does.size (h : p.Does d q) :
    q.units.size = p.units.size + if d = .reserve then 1 else 0 := by
  cases h <;> simp [setStage, setWaiter]

/-- **A unit is gone once it is let go**, and not before. -/
theorem Does.gone (h : p.Does d q) : q.units.countP PoolUnit.isGone
    = p.units.countP PoolUnit.isGone + if (PoolEvent.did d).lets then 1 else 0 := by
  cases h with
  | reserve | shutDown | wait | look | expire =>
    simp [setWaiter, PoolUnit.isGone, PoolEvent.lets]
  | draw hx hs =>
    have := countP_modify hx (fun _ => ⟨.named, some p.nextIndex⟩) PoolUnit.isGone
    simpa [PoolUnit.isGone, PoolEvent.lets, hs] using this
  | enter hx hs =>
    have := countP_modify hx (fun x => { x with stage := .entered }) PoolUnit.isGone
    simpa [PoolUnit.isGone, PoolEvent.lets, hs, setStage] using this
  | finish panic hx hs =>
    have := countP_modify hx (fun x => { x with stage := .ended }) PoolUnit.isGone
    simpa [PoolUnit.isGone, PoolEvent.lets, hs, setStage] using this
  | leave hx hs =>
    have := countP_modify hx (fun x => { x with stage := .left }) PoolUnit.isGone
    simpa [PoolUnit.isGone, PoolEvent.lets, hs, setStage] using this
  | release hx hs =>
    have := countP_modify hx (fun x => { x with stage := .gone }) PoolUnit.isGone
    simpa [PoolUnit.isGone, PoolEvent.lets, hs, setStage] using this

/-- **A unit that can be let go counts as active.** -/
theorem Does.active_pos (h : p.Does (.release u) q)
    (ha : p.active + p.units.countP PoolUnit.isGone = p.units.size) : 0 < p.active := by
  have hsize := h.size
  have hgone := h.gone
  have hle : q.units.countP PoolUnit.isGone ≤ q.units.size := Array.countP_le_size
  simp [PoolEvent.lets] at hsize hgone
  omega

/-- Whoever lets a unit go takes one from those that count, and there is one. -/
theorem Does.active_release (h : p.Does (.release u) q)
    (ha : p.active + p.units.countP PoolUnit.isGone = p.units.size) : q.active + 1 = p.active := by
  have hpos := h.active_pos ha
  cases h with
  | release => simp; omega

/-- **A unit counts as active until it is let go.** -/
theorem Does.active (h : p.Does d q)
    (ha : p.active + p.units.countP PoolUnit.isGone = p.units.size) :
    q.active + q.units.countP PoolUnit.isGone = q.units.size := by
  have hsize := h.size
  have hgone := h.gone
  have hpos := fun u (hd : d = .release u) => (hd ▸ h).active_pos ha
  have hactive : q.active = p.active + (if d = .reserve then 1 else 0)
      - if (PoolEvent.did d).lets then 1 else 0 := by
    cases h <;> simp [PoolEvent.lets, setStage, setWaiter]
  cases d with
  | release u =>
    have := hpos u rfl
    simp [PoolEvent.lets] at hsize hgone hactive
    omega
  | _ =>
    simp [PoolEvent.lets] at hsize hgone hactive
    omega

/-- **An index is drawn once**, when the unit is named. -/
theorem Does.undrawn (h : p.Does d q)
    (hu : ∀ x ∈ p.units.toList, x.index = none ↔ x.stage = .reserved) :
    ∀ x ∈ q.units.toList, x.index = none ↔ x.stage = .reserved := by
  have changed {u : Nat} {x : PoolUnit} {f : PoolUnit → PoolUnit} (hx : p.units[u]? = some x)
      (hf : (f x).index = none ↔ (f x).stage = .reserved) :
      ∀ y ∈ (p.units.modify u f).toList, y.index = none ↔ y.stage = .reserved := by
    obtain ⟨l₁, l₂, hl, -, hm⟩ := exists_of_modify hx f
    simp only [hl, hm, List.mem_append, List.mem_cons] at hu ⊢
    rintro y (hy | rfl | hy)
    · exact hu y (.inl hy)
    · exact hf
    · exact hu y (.inr (.inr hy))
  have still {u : Nat} {x : PoolUnit} {s s' : UnitStage} (hx : p.units[u]? = some x)
      (hs : x.stage = s) (hne : s ≠ .reserved) (hne' : s' ≠ .reserved) :
      ∀ y ∈ (p.setStage u s').units.toList, y.index = none ↔ y.stage = .reserved := by
    refine changed hx ?_
    have := hu x (Array.mem_toList_iff.mpr (Array.mem_of_getElem? hx))
    simpa [hs, hne, hne'] using this
  cases h with
  | reserve =>
    intro x hx
    simp only [Array.toList_push, List.mem_append, List.mem_singleton] at hx
    rcases hx with hx | rfl
    · exact hu x hx
    · simp
  | draw hx hs => exact changed hx (by simp)
  | enter hx hs => exact still hx hs nofun nofun
  | finish panic hx hs => exact still hx hs nofun nofun
  | leave hx hs => exact still hx hs nofun nofun
  | release hx hs =>
    rw [units_tell]
    exact still hx hs nofun nofun
  | shutDown => rwa [units_tell]
  | wait | look | expire => exact hu

theorem filterMap_index_modify {x : PoolUnit} (hx : p.units[u]? = some x)
    {f : PoolUnit → PoolUnit} (hf : (f x).index = x.index) :
    (p.units.modify u f).toList.filterMap PoolUnit.index
      = p.units.toList.filterMap PoolUnit.index := by
  obtain ⟨l₁, l₂, hl, -, hm⟩ := exists_of_modify hx f
  simp only [hl, hm, List.filterMap_append, List.filterMap_cons, hf]

/-- **The indices are drawn in order**, without gap or repetition. -/
theorem Does.indices (h : p.Does d q)
    (hu : ∀ x ∈ p.units.toList, x.index = none ↔ x.stage = .reserved)
    (hi : (p.units.toList.filterMap PoolUnit.index).Perm (List.range p.nextIndex)) :
    (q.units.toList.filterMap PoolUnit.index).Perm (List.range q.nextIndex) := by
  have still {u : Nat} {x : PoolUnit} {s : UnitStage} (hx : p.units[u]? = some x) :
      ((p.setStage u s).units.toList.filterMap PoolUnit.index).Perm (List.range p.nextIndex) := by
    rw [setStage, filterMap_index_modify hx rfl]
    exact hi
  cases h with
  | reserve => simpa using hi
  | draw hx hs =>
    -- the unit had no index, so the one it draws is added to those drawn before
    obtain ⟨l₁, l₂, hl, -, hm⟩ := exists_of_modify hx fun _ => ⟨.named, some p.nextIndex⟩
    have hnone := (hu _ (Array.mem_toList_iff.mpr (Array.mem_of_getElem? hx))).mpr hs
    simp only [hl, List.filterMap_append, List.filterMap_cons, hnone] at hi
    simp only [hm, List.filterMap_append, List.filterMap_cons, List.range_succ]
    exact List.perm_middle.trans ((hi.cons _).trans (List.perm_append_singleton _ _).symm)
  | enter hx hs => exact still hx
  | finish panic hx hs => exact still hx
  | leave hx hs => exact still hx
  | release hx hs =>
    rw [units_tell, nextIndex_tell]
    exact still hx
  | shutDown => rwa [units_tell, nextIndex_tell]
  | wait | look | expire => exact hi

/-- **A unit keeps its index.** -/
theorem Does.index_kept (h : p.Does d q)
    (hu : ∀ x ∈ p.units.toList, x.index = none ↔ x.stage = .reserved) {i : Nat}
    (hi : p.index? u = some i) : q.index? u = some i := by
  unfold index? at hi ⊢
  obtain ⟨x, hx, hxi⟩ := Option.bind_eq_some_iff.mp hi
  have still (v : Nat) (s : UnitStage) :
      ((p.setStage v s).units[u]?).bind PoolUnit.index = some i := by
    simp only [setStage, Array.getElem?_modify, hx]
    split <;> simpa using hxi
  cases h with
  | reserve =>
    have hlt : u < p.units.size := (Array.getElem?_eq_some_iff.mp hx).1
    simpa [Array.getElem?_push, Nat.ne_of_lt hlt] using hi
  | @draw v y hy hs =>
    have hne : v ≠ u := by
      rintro rfl
      have hnone := (hu y (Array.mem_toList_iff.mpr (Array.mem_of_getElem? hy))).mpr hs
      cases hx.symm.trans hy
      cases hnone.symm.trans hxi
    simpa [Array.getElem?_modify, hne] using hi
  | @enter v _ hy hs => exact still v .entered
  | @finish v _ panic hy hs => exact still v .ended
  | @leave v _ hy hs => exact still v .left
  | @release v _ hy hs =>
    rw [units_tell]
    exact still v .gone
  | shutDown => rwa [units_tell]
  | wait | look | expire => exact hi

/-- **The threads of the pool are those of units between their beginning and their
end.** -/
theorem Does.members (h : p.Does d q)
    (hm : ∀ u, u ∈ p.members ↔ p.stage? u = some .entered ∨ p.stage? u = some .ended) :
    ∀ u, u ∈ q.members ↔ q.stage? u = some .entered ∨ q.stage? u = some .ended := by
  intro u
  have stage {v : Nat} {x : PoolUnit} {s : UnitStage} (hx : p.units[v]? = some x)
      (hs : x.stage = s) : p.stage? v = some s := stage?_eq_some_iff.mpr ⟨x, hx, hs⟩
  cases h with
  | reserve =>
    -- the new unit is at neither stage, and is none of the old ones
    rw [hm u]
    simp only [stage?, Array.getElem?_push]
    split
    · rename_i hu
      simp [hu]
    · rfl
  | @draw v x hx hs =>
    rw [hm u]
    simp only [stage?, Array.getElem?_modify]
    split
    · rename_i hvu
      subst hvu
      simp [hx, hs]
    · rfl
  | @enter v x hx hs =>
    show u ∈ v :: p.members ↔ (p.setStage v .entered).stage? u = _ ∨ (p.setStage v _).stage? u = _
    have := stage hx hs
    rw [List.mem_cons, hm u, stage?_setStage]
    split
    · rename_i hvu
      subst hvu
      simp [this]
    · simp [Ne.symm ‹_›]
  | @finish v x panic hx hs =>
    have := stage hx hs
    show u ∈ p.members ↔ _
    rw [hm u, stage?_setStage]
    split
    · rename_i hvu
      subst hvu
      simp [this]
    · rfl
  | @leave v x hx hs =>
    show u ∈ p.members.filter (· ≠ v) ↔ (p.setStage v .left).stage? u = _ ∨
      (p.setStage v .left).stage? u = _
    have := stage hx hs
    rw [List.mem_filter, hm u, stage?_setStage]
    split
    · rename_i hvu
      subst hvu
      simp [this]
    · simp [Ne.symm ‹_›]
  | @release v x hx hs =>
    have := stage hx hs
    rw [members_tell, stage?, units_tell]
    show u ∈ p.members ↔ (p.setStage v .gone).stage? u = _ ∨ (p.setStage v .gone).stage? u = _
    rw [hm u, stage?_setStage]
    split
    · rename_i hvu
      subst hvu
      simp [this]
    · rfl
  | shutDown =>
    rw [members_tell, stage?, units_tell]
    exact hm u
  | wait | look | expire => exact hm u

/-! ## Termination -/

/-- **A pool that is terminated stays so.** -/
theorem Does.terminated (h : p.Does d q) (ht : p.terminated = true) : q.terminated = true := by
  cases h <;> simp_all [Pool.terminated, setStage, setWaiter]

/-- **A pool becomes terminated** when it is shut down with no unit active, and when the
last unit is let go after that. -/
theorem Does.turning (h : p.Does d q)
    (ha : p.active + p.units.countP PoolUnit.isGone = p.units.size)
    (hp : p.terminated = false) (hq : q.terminated = true) :
    (d = .shutDown ∧ p.active = 0)
      ∨ ((∃ u, d = .release u) ∧ p.active = 1 ∧ p.shutDown = true) := by
  have hpos := fun u (hd : d = .release u) => (hd ▸ h).active_pos ha
  cases h with
  | shutDown => simpa [Pool.terminated] using hq
  | @release u _ hx hs =>
    have := hpos u rfl
    simp [Pool.terminated, setStage] at hq
    exact .inr ⟨⟨u, rfl⟩, by omega, hq.1⟩
  | _ => simp_all [Pool.terminated, setStage, setWaiter]

/-- **Shutting a pool down and letting a unit go wake everybody**, if the pool is
terminated then. -/
theorem Does.woken (h : p.Does d q) (hd : d = .shutDown ∨ ∃ u, d = .release u)
    (hq : q.terminated = true) : q.waiters = p.waiters.map Waiter.woken := by
  cases h with
  | shutDown => exact waiters_tell (terminated_tell _ ▸ hq)
  | release => exact waiters_tell (terminated_tell _ ▸ hq)
  | _ => simp at hd

/-- Nobody is told anything while the pool is not terminated. -/
theorem Does.waiters_eq (h : p.Does d q) (hd : d = .shutDown ∨ ∃ u, d = .release u)
    (hq : q.terminated = false) : q.waiters = p.waiters := by
  have still {r : Pool} (hr : r.tell.terminated = false) : r.tell.waiters = r.waiters := by
    rw [terminated_tell] at hr
    rw [tell, hr]
    rfl
  cases h with
  | shutDown => exact still hq
  | release => exact still hq
  | _ => simp at hd

/-- Only these two deeds change whether the pool is terminated. -/
theorem Does.terminated_eq (h : p.Does d q) (hd : d ≠ .shutDown) (hd' : ∀ u, d ≠ .release u) :
    q.terminated = p.terminated := by
  cases h with
  | shutDown => exact absurd rfl hd
  | release => exact absurd rfl (hd' _)
  | _ => simp_all [Pool.terminated, setStage, setWaiter]

end Pool

theorem Waiter.Fits.woken {x : Waiter} {b : Bool} (h : x.Fits b) : x.woken.Fits true := by
  obtain ⟨_ | _ | answer, limited⟩ := x
  · trivial
  · trivial
  · cases answer
    · exact h
    · rfl

theorem Waiter.stage_woken {x : Waiter} {answer : Bool} (h : x.woken.stage = .returned answer) :
    x.stage = .returned answer := by
  obtain ⟨_ | _ | answer, limited⟩ := x
  · exact h
  · cases h
  · exact h

/-- A waiter is where it was, or it is the one that has been put elsewhere. -/
theorem Pool.mem_setWaiter {p : Pool} {w : Nat} {s : WaiterStage} {y : Waiter}
    (h : y ∈ (p.setWaiter w s).waiters) :
    y ∈ p.waiters ∨ ∃ x, p.waiters[w]? = some x ∧ y = { x with stage := s } := by
  obtain ⟨i, hi⟩ := Array.mem_iff_getElem?.mp h
  rw [setWaiter, Array.getElem?_modify] at hi
  split at hi
  · rename_i hwi
    obtain ⟨x, hx, rfl⟩ := Option.map_eq_some_iff.mp hi
    exact .inr ⟨x, hwi ▸ hx, rfl⟩
  · exact .inl (Array.mem_of_getElem? hi)

namespace Pool

variable {p q : Pool} {d : Deed} {e : PoolEvent} {es es' : List PoolEvent} {u w : Nat}
  {ns : List PoolNotice} {name : String}

/-- **Nobody is asleep while the pool is terminated**, nobody has been told that it is
while it is not, and nobody is sent away who has set no limit. -/
theorem Does.waiters (h : p.Does d q) (hw : ∀ x ∈ p.waiters, x.Fits p.terminated) :
    ∀ x ∈ q.waiters, x.Fits q.terminated := by
  by_cases hd : d = .shutDown ∨ ∃ u, d = .release u
  · cases hq : q.terminated with
    | true =>
      rw [h.woken hd hq]
      intro y hy
      obtain ⟨x, hx, rfl⟩ := Array.mem_map.mp hy
      exact (hw x hx).woken
    | false =>
      have hp : p.terminated = false := by
        cases hp : p.terminated with
        | true => exact (h.terminated hp).symm.trans hq
        | false => rfl
      rw [h.waiters_eq hd hq]
      exact hp ▸ hw
  · obtain ⟨hd₁, hd₂⟩ := not_or.mp hd
    rw [h.terminated_eq hd₁ (not_exists.mp hd₂)]
    cases h with
    | reserve | draw | enter | finish | leave => exact hw
    | shutDown => exact absurd rfl hd₁
    | release => exact absurd ⟨_, rfl⟩ hd₂
    | wait limited =>
      intro x hx
      rcases Array.mem_push.mp hx with hx | rfl
      · exact hw x hx
      · trivial
    | look hx hs =>
      intro y hy
      rcases mem_setWaiter hy with hy | ⟨x, hx', rfl⟩
      · exact hw y hy
      · cases ht : p.terminated <;> simp [Waiter.Fits]
    | expire hx hs hl =>
      intro y hy
      rcases mem_setWaiter hy with hy | ⟨x, hx', rfl⟩
      · exact hw y hy
      · cases hx.symm.trans hx'
        cases ht : p.terminated <;> simp [Waiter.Fits, hl]

/-- **Whoever is given an answer is told how things are.** -/
theorem Does.answer (h : p.Does d q) {answer : Bool} {x y : Waiter} (hx : p.waiters[w]? = some x)
    (hy : q.waiters[w]? = some y) (hxs : x.stage ≠ .returned answer)
    (hys : y.stage = .returned answer) : answer = q.terminated := by
  have same (hq : q.waiters = p.waiters) : answer = q.terminated := by
    rw [hq, hx] at hy
    cases hy
    exact absurd hys hxs
  have told (hd : d = .shutDown ∨ ∃ u, d = .release u) : answer = q.terminated := by
    cases hq : q.terminated with
    | true =>
      rw [h.woken hd hq, Array.getElem?_map, hx] at hy
      cases hy
      exact absurd (Waiter.stage_woken hys) hxs
    | false => exact hq ▸ same (h.waiters_eq hd hq)
  have set {v : Nat} {s : WaiterStage} (hq : q = p.setWaiter v s)
      (hs : ∀ b, s = .returned b → b = p.terminated) : answer = q.terminated := by
    subst hq
    simp only [setWaiter, Array.getElem?_modify, hx] at hy
    split at hy
    · cases hy
      exact hs answer hys
    · cases hy
      exact absurd hys hxs
  cases h with
  | reserve | draw | enter | finish | leave => exact same rfl
  | shutDown => exact told (.inl rfl)
  | release => exact told (.inr ⟨_, rfl⟩)
  | wait limited =>
    have hlt : w < p.waiters.size := (Array.getElem?_eq_some_iff.mp hx).1
    rw [Array.getElem?_push, if_neg (Nat.ne_of_lt hlt), hx] at hy
    cases hy
    exact absurd hys hxs
  | look =>
    refine set rfl ?_
    rintro b hb
    split at hb
    · cases hb
      exact Eq.symm ‹_›
    · cases hb
  | expire => exact set rfl fun b hb => by cases hb; rfl

/-! ## The books -/

/-- **The books of a pool**, which each deed leaves balanced. -/
structure Books (p : Pool) (es : List PoolEvent) : Prop where
  shutDown : p.shutDown = true ↔ .did .shutDown ∈ es
  taken : p.units.size = unitsTaken es
  gone : p.units.countP PoolUnit.isGone = unitsGone es
  active : p.active + p.units.countP PoolUnit.isGone = p.units.size
  undrawn : ∀ x ∈ p.units.toList, x.index = none ↔ x.stage = .reserved
  indices : (p.units.toList.filterMap PoolUnit.index).Perm (List.range p.nextIndex)
  members : ∀ u, u ∈ p.members ↔ p.stage? u = some .entered ∨ p.stage? u = some .ended
  waiters : ∀ x ∈ p.waiters, x.Fits p.terminated

theorem Books.fresh (name : String) : (Pool.fresh name).Books [] := by
  constructor <;> simp [Pool.fresh, unitsTaken, unitsGone, stage?]

theorem Books.did (b : p.Books es) (h : p.Does d q) : q.Books (es ++ [.did d]) where
  shutDown := by simp [h.shutDown_iff, b.shutDown, eq_comm]
  taken := by
    rw [h.size, b.taken, unitsTaken, unitsTaken, List.count_append]
    cases d <;> rfl
  gone := by simp [h.gone, b.gone, unitsGone, List.countP_singleton]
  active := h.active b.active
  undrawn := h.undrawn b.undrawn
  indices := h.indices b.undrawn b.indices
  members := h.members b.members
  waiters := h.waiters b.waiters

/-- What is no deed is not in the books. -/
theorem Books.other (b : p.Books es) (he : ∀ d, e ≠ .did d) : p.Books (es ++ [e]) where
  shutDown := by simp [b.shutDown, (he _).symm]
  taken := by simp [b.taken, unitsTaken, he]
  gone := by
    have : e.lets = false := by
      cases e with
      | did d => exact absurd rfl (he d)
      | refused | asked => rfl
    simp [b.gone, unitsGone, this]
  active := b.active
  undrawn := b.undrawn
  indices := b.indices
  members := b.members
  waiters := b.waiters

/-- **The books of a pool are balanced**, whatever happens to it. -/
theorem books (h : (fresh name).afterAll es = some p) : p.Books es :=
  afterAll_induction (motive := fun es p => p.Books es) (Books.fresh name)
    (fun _ ih hd => Books.did ih (does_of_perform hd)) (fun _ ih he _ => Books.other ih he) h

/-- **What was refused leaves no trace**: the pool is as it would be without. -/
theorem afterAll_filter (h : p.afterAll es = some q) :
    p.afterAll (es.filter (· ≠ .refused)) = some q := by
  refine afterAll_induction (motive := fun es q => p.afterAll (es.filter (· ≠ .refused)) = some q)
    rfl (fun _ ih hd => ?_) (fun {es q e} _ ih he hq => ?_) h
  · rw [List.filter_append, afterAll_append, ih]
    simp [afterAll, after, hd]
  · rw [List.filter_append, afterAll_append, ih]
    by_cases hr : e = .refused <;> simp [afterAll, hr, hq]

/-- **What is true of a pool for good** outlasts all that happens to it. -/
theorem afterAll_mono {P : Pool → Prop}
    (deed : ∀ {p q : Pool} {d}, P p → p.Does d q → P q) (h : p.afterAll es = some q) (hp : P p) :
    P q :=
  afterAll_induction (motive := fun _ q => P q) hp (fun _ ih hd => deed ih (does_of_perform hd))
    (fun _ ih _ _ => ih) h

/-- A pool keeps its name. -/
theorem name_of_afterAll (h : (fresh name).afterAll es = some p) : p.name = name :=
  afterAll_mono (P := fun p => p.name = name)
    (fun hp hd => by cases hd <;> simpa [setStage, setWaiter] using hp) h rfl

theorem unitName_eq {x : PoolUnit} {i : Nat} (hx : p.units[u]? = some x) (hi : x.index = some i) :
    p.unitName u = p.threadName i := by
  obtain ⟨s, _⟩ := x
  cases hi
  simp [unitName, hx]

/-- The names of the threads are made from the indices that have been drawn. -/
theorem map_unitName (h : ∀ x ∈ p.units.toList, x.index ≠ none) :
    (List.range p.units.size).map p.unitName
      = (p.units.toList.filterMap PoolUnit.index).map p.threadName := by
  have hmap : ∀ l : List PoolUnit, (∀ x ∈ l, x.index ≠ none) →
      l.map (fun x => p.threadName (x.index.getD 0))
        = (l.filterMap PoolUnit.index).map p.threadName := by
    intro l hl
    induction l with
    | nil => rfl
    | cons x l ih =>
      obtain ⟨i, hi⟩ := Option.ne_none_iff_exists'.mp (hl x (List.mem_cons_self ..))
      simp [hi, ih fun y hy => hl y (List.mem_cons_of_mem x hy)]
  rw [← hmap _ h]
  refine List.ext_getElem (by simp) fun u hu hu' => ?_
  have hlt : u < p.units.size := by simpa using hu
  obtain ⟨i, hi⟩ := Option.ne_none_iff_exists'.mp
    (h p.units[u] (Array.mem_toList_iff.mpr (Array.getElem_mem hlt)))
  simp [unitName_eq (Array.getElem?_eq_getElem hlt) hi, hi]

/-- No more indices are drawn than units are taken. -/
theorem Books.nextIndex_le (b : p.Books es) : p.nextIndex ≤ unitsTaken es := by
  rw [← b.taken, ← Array.length_toList, ← List.length_range (n := p.nextIndex),
    ← b.indices.length_eq]
  exact List.length_filterMap_le ..

/-- **When every unit has its index, as many have been drawn as there are units**, and
the names go up to their number. -/
theorem Books.names (b : p.Books es) (h : ∀ x ∈ p.units.toList, x.stage ≠ .reserved) :
    ((List.range p.units.size).map p.unitName).Perm
      ((List.range (unitsTaken es)).map p.threadName) := by
  have hi : ∀ x ∈ p.units.toList, x.index ≠ none :=
    fun x hx hnone => h x hx ((b.undrawn x hx).mp hnone)
  have hnames := b.indices.map p.threadName
  rw [← map_unitName hi] at hnames
  have hlen := hnames.length_eq
  simp only [List.length_map, List.length_range, b.taken] at hlen
  rwa [← hlen] at hnames

/-- **Everybody who asks is told whether a unit is asking.** -/
theorem asked_of_afterAll (h : (fresh name).afterAll es = some p) :
    ∀ caller answer, .asked caller answer ∈ es → answer = caller.isSome := by
  refine afterAll_induction
    (motive := fun es _ => ∀ caller answer, .asked caller answer ∈ es → answer = caller.isSome)
    nofun (fun _ ih _ caller answer hmem => ?_) (fun {es q e} hq ih _ he caller answer hmem => ?_) h
  · exact ih caller answer (by simpa using hmem)
  · rcases List.mem_append.mp hmem with hmem | hmem
    · exact ih caller answer hmem
    · obtain rfl := (List.mem_singleton.mp hmem).symm
      simp only [after, Option.ite_none_right_eq_some] at he
      obtain ⟨⟨hcall, rfl⟩, -⟩ := he
      cases caller with
      | none => rfl
      | some u => simp [isMember, (books hq).members u, hcall u rfl]

/-- **A unit whose work is over can go**, and counts no more. -/
theorem Books.exists_leave (b : p.Books es) (hu : p.stage? u = some .ended) :
    ∃ q, p.afterAll [.did (.leave u), .did (.release u)] = some q ∧ q.active + 1 = p.active := by
  let q : Pool := { p.setStage u .left with members := p.members.filter (· ≠ u) }
  have hq : p.after (.did (.leave u)) = some q := by simp [after, perform, hu, q]
  have hqs : q.stage? u = some .left := by
    show (p.setStage u .left).stage? u = some .left
    rw [stage?_setStage, if_pos rfl, hu]
    rfl
  obtain ⟨r, hr⟩ : ∃ r, q.after (.did (.release u)) = some r := by simp [after, perform, hqs]
  refine ⟨r, by simp [afterAll, hq, hr], ?_⟩
  exact (does_of_after hr).active_release ((does_of_after hq).active b.active)

/-- **What a pool says of itself**, after all that has happened to it and at whatever
comes next. -/
structure Bookkeeping (name : String) (es : List PoolEvent) (p : Pool) : Prop where
  /-- The active units are those that have been taken and not let go. -/
  active : p.active + unitsGone es = unitsTaken es
  /-- Whoever lets a unit go finds one counted. -/
  counted : ∀ {u q}, p.after (.did (.release u)) = some q → q.active + 1 = p.active
  /-- However the work of a unit ends makes no difference, -/
  ending : ∀ u panic, p.after (.did (.finish u panic)) = p.after (.did (.finish u none))
  /-- and a unit whose work is over can go, and counts no more. -/
  leaving : ∀ u, p.stage? u = some .ended →
    ∃ q, p.afterAll [.did (.leave u), .did (.release u)] = some q ∧ q.active + 1 = p.active
  /-- No word overflows that can hold the number of units taken. -/
  words : p.active ≤ unitsTaken es ∧ p.nextIndex ≤ unitsTaken es
  /-- A unit is refused exactly after the pool has been shut down, -/
  refused : p.perform .reserve = none ↔ .did .shutDown ∈ es
  /-- and what was refused leaves no trace. -/
  traceless : (fresh name).afterAll (es.filter (· ≠ .refused)) = some p
  /-- The indices of the units that have one are 0, 1, 2 and so on, each once. -/
  indices : (p.units.toList.filterMap PoolUnit.index).Perm (List.range p.nextIndex)
  /-- When every unit taken has been named, the names go up to their number, -/
  names : (∀ x ∈ p.units.toList, x.stage ≠ .reserved) →
    ((List.range p.units.size).map p.unitName).Perm
      ((List.range (unitsTaken es)).map fun i => name ++ "-" ++ toString i)
  /-- and a unit keeps its index. -/
  kept : ∀ {es' q u i}, p.afterAll es' = some q → p.index? u = some i → q.index? u = some i
  /-- The thread of a unit belongs to the pool from its beginning to its end, -/
  member : ∀ u, p.isMember (some u) = true
    ↔ p.stage? u = some .entered ∨ p.stage? u = some .ended
  /-- and everybody who has asked was told whether a unit was asking. -/
  asked : ∀ caller answer, .asked caller answer ∈ es → answer = caller.isSome
  /-- The pool is terminated exactly if it has been shut down and all units are gone, -/
  terminated : p.terminated = true ↔ .did .shutDown ∈ es ∧ unitsGone es = unitsTaken es
  /-- and that for good. -/
  forGood : p.terminated = true → ∀ {es' q}, p.afterAll es' = some q → q.terminated = true
  /-- It becomes so when it is shut down with no unit active, or the last unit is let go. -/
  turning : ∀ {e q}, p.after e = some q → p.terminated = false → q.terminated = true →
    (e = .did .shutDown ∧ p.active = 0)
      ∨ ((∃ u, e = .did (.release u)) ∧ p.active = 1 ∧ .did .shutDown ∈ es)
  /-- Then everybody who is asleep is told to look. -/
  woken : ∀ {e q}, p.after e = some q → (e = .did .shutDown ∨ ∃ u, e = .did (.release u)) →
    q.terminated = true → q.waiters = p.waiters.map Waiter.woken
  /-- Nobody is asleep while the pool is terminated, -/
  awake : p.terminated = true → ∀ x ∈ p.waiters, x.stage ≠ .asleep
  /-- nobody has been told that it is while it is not, -/
  truth : ∀ x ∈ p.waiters, x.stage = .returned true → p.terminated = true
  /-- and only who has set a limit has been told that it is not, -/
  limited : ∀ x ∈ p.waiters, x.stage = .returned false → x.limited = true
  /-- because it was not at that moment. -/
  timely : ∀ {e q answer} {w : Nat} {x y : Waiter}, p.after e = some q → p.waiters[w]? = some x →
    q.waiters[w]? = some y → x.stage ≠ .returned answer → y.stage = .returned answer →
    answer = q.terminated
  /-- Whoever looks while the pool is terminated is told so, -/
  found : ∀ {w : Nat} {x : Waiter}, p.waiters[w]? = some x → x.stage = .looking →
    p.terminated = true → p.after (.did (.look w)) = some (p.setWaiter w (.returned true))
  /-- and whose time runs out is sent away. -/
  expired : ∀ {w : Nat} {x : Waiter}, p.waiters[w]? = some x → x.stage = .asleep →
    x.limited = true → p.after (.did (.expire w)) = some (p.setWaiter w (.returned false))

/-- **A pool keeps its books right**, whatever is done to it, in whatever order, by its
own units and by others, and however units end. -/
theorem bookkeeping (h : (fresh name).afterAll es = some p) : Bookkeeping name es p := by
  have b := books h
  have hactive : p.active + unitsGone es = unitsTaken es := by
    rw [← b.gone, ← b.taken]
    exact b.active
  have hname := name_of_afterAll h
  exact
  { active := hactive
    counted := fun hq => (does_of_after hq).active_release b.active
    ending := fun u panic => by
      simp only [after, perform]
      split <;> rfl
    leaving := fun u hu => b.exists_leave hu
    words := ⟨by omega, b.nextIndex_le⟩
    refused := by rw [perform_reserve_eq_none_iff, b.shutDown]
    traceless := afterAll_filter h
    indices := b.indices
    names := fun hx => by
      have hthread : p.threadName = fun i => name ++ "-" ++ toString i :=
        funext fun i => by rw [threadName, hname]
      exact hthread ▸ b.names hx
    kept := fun {es' q u i} hq hi =>
      (afterAll_mono
        (P := fun p => (∀ x ∈ p.units.toList, x.index = none ↔ x.stage = .reserved)
          ∧ p.index? u = some i)
        (fun hp hd => ⟨hd.undrawn hp.1, hd.index_kept hp.1 hp.2⟩) hq ⟨b.undrawn, hi⟩).2
    member := fun u => by simp [isMember, b.members u]
    asked := asked_of_afterAll h
    terminated := by
      simp only [Pool.terminated, Bool.and_eq_true, beq_iff_eq, b.shutDown]
      constructor <;> rintro ⟨hs, ha⟩ <;> exact ⟨hs, by omega⟩
    forGood := fun ht _ _ hq =>
      afterAll_mono (P := fun p => p.terminated = true) (fun hp hd => hd.terminated hp) hq ht
    turning := fun {e q} hq hp ht => by
      rcases after_eq_some hq with ⟨d, ns, rfl, hd⟩ | ⟨-, rfl⟩
      · rcases (does_of_after hq).turning b.active hp ht with ⟨rfl, ha⟩ | ⟨⟨u, rfl⟩, ha, hs⟩
        · exact .inl ⟨rfl, ha⟩
        · exact .inr ⟨⟨u, rfl⟩, ha, b.shutDown.mp hs⟩
      · cases hp.symm.trans ht
    woken := fun {e q} hq he ht => by
      rcases he with rfl | ⟨u, rfl⟩
      · exact (does_of_after hq).woken (.inl rfl) ht
      · exact (does_of_after hq).woken (.inr ⟨u, rfl⟩) ht
    awake := fun ht x hx hs => by
      have := b.waiters x hx
      simp [Waiter.Fits, hs, ht] at this
    truth := fun x hx hs => by
      have := b.waiters x hx
      simpa [Waiter.Fits, hs] using this
    limited := fun x hx hs => by
      have := b.waiters x hx
      simpa [Waiter.Fits, hs] using this
    timely := fun {e q w x y answer} hq hx hy hxs hys => by
      rcases after_eq_some hq with ⟨d, ns, rfl, hd⟩ | ⟨-, rfl⟩
      · exact (does_of_after hq).answer hx hy hxs hys
      · cases hx.symm.trans hy
        exact absurd hys hxs
    found := fun {w x} hx hs ht => by
      obtain ⟨_, l⟩ := x
      cases hs
      simp [after, perform, hx, ht]
    expired := fun {w x} hx hs hl => by
      have hw := b.waiters x (Array.mem_of_getElem? hx)
      obtain ⟨_, l⟩ := x
      cases hs
      cases hl
      simp [Waiter.Fits] at hw
      simp [after, perform, hx, hw] }

/-- A unit at work offers another and shuts the pool down; it is refused a third. The
other panics and goes while somebody waits, and then the first one goes. -/
def nestedEvents : List PoolEvent :=
  [.did .reserve, .did (.draw 0), .did (.enter 0), .asked (some 0) true,
    .did .reserve, .did (.draw 1), .did (.wait false), .did (.look 0), .did .shutDown,
    .refused, .asked none false, .did (.enter 1), .did (.finish 1 (some .other)), .did (.leave 1),
    .did (.release 1), .did (.finish 0 none), .did (.leave 0), .did (.release 0), .did (.look 0)]

/-- In the end the pool is terminated, and whoever has waited has been told so. -/
theorem bookkeeping_nested : ∃ p, (fresh "pool").afterAll nestedEvents = some p
    ∧ p.terminated = true ∧ p.waiters = #[⟨.returned true, false⟩]
    ∧ unitsTaken nestedEvents = 2 ∧ Bookkeeping "pool" nestedEvents p := by
  let p : Pool := ⟨"pool", true, 0, [], 2, #[⟨.gone, some 0⟩, ⟨.gone, some 1⟩],
    #[⟨.returned true, false⟩]⟩
  have h : (fresh "pool").afterAll nestedEvents = some p := by decide +kernel
  exact ⟨p, h, rfl, rfl, rfl, bookkeeping h⟩

end Pool

end EndpointControl
