import EndpointControl.Proofs.Courses

/-!
# Letting executors go, in order

Whoever lets executors go has a list of handles to them, and several handles may lead to one
executor. What is then asked of whom depends on what the executors answer, and this module says
how, for every list and whatever they answer (`Termination.orderly`).

Executors of some `Manner` reply to each request as they like, given all that has gone before. Among
them an undertaking runs by itself (`Termination.after`), and there are three ways for it to go
(`Termination.Course`): somebody runs the caller, and it is over as soon as they say so; everybody
says some time that they have terminated, and it is over after the last of them; or somebody never
does, and is waited for again and again. In all three everybody has been shut down first.

A thread of a machine that lets executors go does what such an undertaking does, whatever other
threads do meanwhile (`Machine.Leads.termination`).
-/

namespace EndpointControl

/-- **The manner of executors**: what they reply to a request, given all that has been asked and
answered before. -/
abbrev Manner := List Answer → (q : Request) → q.Reply

/-- The executors reply in this way to what has been asked. -/
def Manner.Gives (b : Manner) (as : List Answer) : Prop :=
  ∀ (before : List Answer) (q : Request) (reply : q.Reply) (later : List Answer),
    as = before ++ ⟨q, reply⟩ :: later → b before q = reply

namespace Termination

/-! ## The executors behind the handles -/

/-- **The executors behind the handles**, each once, in the order of their first mention. -/
structure FirstMentions (handles xs : List ExecutorId) : Prop where
  nodup : xs.Nodup
  mem : ∀ x, x ∈ xs ↔ x ∈ handles
  order : xs.Pairwise fun x y => handles.idxOf x < handles.idxOf y

theorem distinct_concat (handles : List ExecutorId) (x : ExecutorId) :
    distinct (handles ++ [x]) = mention (distinct handles) x := by
  simp [distinct, List.foldl_append]

/-- **Handles without repetitions are first mentions.** -/
theorem firstMentions_distinct (handles : List ExecutorId) :
    FirstMentions handles (distinct handles) := by
  refine ⟨nodup_distinct handles, fun x => mem_distinct, ?_⟩
  induction handles using List.reverseRecOn with
  | nil => exact List.Pairwise.nil
  | append_singleton handles x ih =>
    -- a further handle does not change where the others are first mentioned
    have hkept : (distinct handles).Pairwise fun y z =>
        (handles ++ [x]).idxOf y < (handles ++ [x]).idxOf z := by
      refine ih.imp_of_mem fun {y z} hy hz h => ?_
      rwa [List.idxOf_append_of_mem (mem_distinct.mp hy),
        List.idxOf_append_of_mem (mem_distinct.mp hz)]
    rw [distinct_concat, mention]
    split
    · exact hkept
    · rename_i hx
      refine List.pairwise_append.mpr ⟨hkept, List.pairwise_singleton _ _, fun y hy z hz => ?_⟩
      obtain rfl := List.mem_singleton.mp hz
      rw [List.idxOf_append_of_mem (mem_distinct.mp hy),
        List.idxOf_append_of_notMem (mem_distinct.not.mp hx)]
      exact Nat.lt_add_right _ (List.idxOf_lt_length_of_mem (mem_distinct.mp hy))

/-! ## An undertaking by itself -/

/-- **An undertaking under way**: what has been asked and answered so far, and how far the
executors have been let go. -/
structure Underway where
  /-- What has been asked, with the answers, in order. -/
  answers : List Answer
  /-- How far the executors have been let go. -/
  stands : Termination

/-- Asks an executor of this manner, and goes on with the answer. -/
def Underway.ask (b : Manner) (v : Underway) (q : Request) (after : q.Reply → Termination) :
    Underway :=
  ⟨v.answers ++ [⟨q, b v.answers q⟩], after (b v.answers q)⟩

/-- **One turn** among executors of this manner. -/
def Underway.next (b : Manner) (v : Underway) : Underway :=
  match v.stands.turn with
  | .shutDown x after => v.ask b (.shutDown x) fun () => after
  | .isMember x after => v.ask b (.isMember x) after
  | .await x after => v.ask b (.await x) after
  | .note _ after => ⟨v.answers, after⟩
  | .go after => ⟨v.answers, after⟩
  | .stop => v

/-- **Letting the executors behind the handles go**, so many turns of it. -/
def after (b : Manner) (handles : List ExecutorId) (n : Nat) : Underway :=
  (Underway.next b)^[n] ⟨[], .begin handles⟩

/-- The undertaking is over, and this is all that has been asked and answered. -/
def Returns (b : Manner) (handles : List ExecutorId) (as : List Answer) : Prop :=
  ∃ n, after b handles n = ⟨as, .done⟩

variable {b : Manner} {handles d left : List ExecutorId} {as : List Answer} {v v' v'' : Underway}
  {x : ExecutorId} {n : Nat}

theorem after_add (b : Manner) (handles : List ExecutorId) (m n : Nat) :
    after b handles (m + n) = (Underway.next b)^[n] (after b handles m) := by
  rw [after, after, Nat.add_comm, Function.iterate_add_apply]

theorem after_succ (b : Manner) (handles : List ExecutorId) (n : Nat) :
    after b handles (n + 1) = (after b handles n).next b := after_add b handles n 1

/-- An undertaking that is over stays so. -/
theorem after_of_done {m : Nat} (h : after b handles m = ⟨as, .done⟩) (hn : m ≤ n) :
    after b handles n = ⟨as, .done⟩ := by
  obtain ⟨k, rfl⟩ := Nat.exists_eq_add_of_le hn
  rw [after_add, h]
  exact Function.iterate_fixed rfl k

theorem Underway.prefix_next (b : Manner) (v : Underway) : v.answers <+: (v.next b).answers := by
  unfold next
  split <;> first | exact List.prefix_append .. | exact List.prefix_rfl

/-- **What has been asked and answered stays so.** -/
theorem answers_mono (b : Manner) (handles : List ExecutorId) {m : Nat} (h : m ≤ n) :
    (after b handles m).answers <+: (after b handles n).answers := by
  induction h with
  | refl => exact List.prefix_rfl
  | step _ ih => exact ih.trans (after_succ b handles _ ▸ Underway.prefix_next b _)

end Termination

/-! ## Executors reply in their manner -/

theorem Manner.Gives.concat {b : Manner} {as : List Answer} (h : b.Gives as) (q : Request) :
    b.Gives (as ++ [⟨q, b as q⟩]) := by
  intro before q' reply later heq
  rcases List.eq_nil_or_concat later with rfl | ⟨init, last, rfl⟩
  · obtain ⟨rfl, hlast⟩ := List.append_inj' heq rfl
    cases hlast
    rfl
  · rw [List.concat_eq_append, ← List.cons_append, ← List.append_assoc] at heq
    exact h _ _ _ _ (List.append_inj' heq rfl).1

namespace Termination

variable {b : Manner} {handles d left : List ExecutorId} {as : List Answer} {v v' v'' : Underway}
  {x : ExecutorId} {n : Nat}

/-- **Every answer is one that executors of this manner give.** -/
theorem gives_after (b : Manner) (handles : List ExecutorId) (n : Nat) :
    b.Gives (after b handles n).answers := by
  induction n with
  | zero =>
    intro before q reply later heq
    simp [after] at heq
  | succ n ih =>
    rw [after_succ, Underway.next]
    split <;> first | exact ih.concat _ | exact ih

/-! ## From one phase to the next -/

/-- **Some time an undertaking that stands here stands there.** -/
def Underway.Reaches (b : Manner) (v v' : Underway) : Prop := ∃ n, (Underway.next b)^[n] v = v'

theorem Underway.Reaches.trans (h : v.Reaches b v') (h' : v'.Reaches b v'') : v.Reaches b v'' := by
  obtain ⟨m, rfl⟩ := h
  obtain ⟨n, rfl⟩ := h'
  exact ⟨n + m, Function.iterate_add_apply ..⟩

theorem Underway.Reaches.refl (b : Manner) (v : Underway) : v.Reaches b v := ⟨0, rfl⟩

theorem Underway.Reaches.one (h : v.next b = v') : v.Reaches b v' := ⟨1, h⟩

theorem Underway.Reaches.after (h : (Termination.after b handles n).Reaches b v) :
    ∃ m, Termination.after b handles m = v := by
  obtain ⟨k, rfl⟩ := h
  exact ⟨n + k, after_add ..⟩

/-- These are shut down. -/
def shutDowns (xs : List ExecutorId) : List Answer := xs.map fun x => ⟨.shutDown x, ()⟩

/-- These are asked whether they run the caller, and say that they do not. -/
def denials (xs : List ExecutorId) : List Answer := xs.map fun x => ⟨.isMember x, false⟩

/-- The executor is waited for so many times in vain. -/
def slices (x : ExecutorId) (k : Nat) : List Answer := List.replicate k ⟨.await x, false⟩

/-- **These are waited for**, each so many times in vain and then until it says that it has
terminated. -/
def waits (k : ExecutorId → Nat) (xs : List ExecutorId) : List Answer :=
  xs.flatMap fun x => slices x (k x) ++ [⟨.await x, true⟩]

@[simp] theorem slices_zero (x : ExecutorId) : slices x 0 = [] := rfl

theorem slices_succ (x : ExecutorId) (k : Nat) :
    slices x (k + 1) = slices x k ++ [⟨.await x, false⟩] :=
  List.replicate_succ'

@[simp] theorem waits_nil (k : ExecutorId → Nat) : waits k [] = [] := rfl

theorem waits_cons (k : ExecutorId → Nat) (x : ExecutorId) (xs : List ExecutorId) :
    waits k (x :: xs) = slices x (k x) ++ [⟨.await x, true⟩] ++ waits k xs := rfl

theorem reaches_asking (b : Manner) (d left : List ExecutorId) (as : List Answer) :
    (Underway.mk as (.shuttingDown d left)).Reaches b ⟨as ++ shutDowns left, .asking d d⟩ := by
  induction left generalizing as with
  | nil =>
    rw [shutDowns, List.map_nil, List.append_nil]
    exact .one rfl
  | cons x left ih =>
    have hnext := ih (as ++ [⟨.shutDown x, ()⟩])
    rw [List.append_assoc] at hnext
    exact Underway.Reaches.trans (.one rfl) hnext

/-- **The first who runs the caller ends it**; else everybody is waited for. -/
theorem reaches_waiting (b : Manner) (d left : List ExecutorId) (as : List Answer) :
    (∃ before x later, left = before ++ x :: later
      ∧ (Underway.mk as (.asking d left)).Reaches b
        ⟨as ++ denials before ++ [⟨.isMember x, true⟩], .ownThread⟩)
    ∨ (Underway.mk as (.asking d left)).Reaches b ⟨as ++ denials left, .waiting d⟩ := by
  induction left generalizing as with
  | nil =>
    rw [denials, List.map_nil, List.append_nil]
    exact .inr (.one rfl)
  | cons x left ih =>
    cases hx : b as (.isMember x) with
    | true =>
      refine .inl ⟨[], x, left, rfl, .one ?_⟩
      simp [Underway.next, turn, Underway.ask, hx, denials]
    | false =>
      have hone : (Underway.mk as (.asking d (x :: left))).next b
          = ⟨as ++ [⟨.isMember x, false⟩], .asking d left⟩ := by
        simp [Underway.next, turn, Underway.ask, hx]
      rcases ih (as ++ [⟨.isMember x, false⟩]) with ⟨before, y, later, rfl, h⟩ | h
      · rw [List.append_assoc as] at h
        exact .inl ⟨x :: before, y, later, rfl, Underway.Reaches.trans (.one hone) h⟩
      · rw [List.append_assoc as] at h
        exact .inr (Underway.Reaches.trans (.one hone) h)

/-- Whoever says so many times that they have not terminated is waited for once more. -/
theorem reaches_slices (as : List Answer) (x : ExecutorId) (left : List ExecutorId)
    (h : ∀ k < n, b (as ++ slices x k) (.await x) = false) :
    (Underway.mk as (.waiting (x :: left))).Reaches b
      ⟨as ++ slices x n, .waiting (x :: left)⟩ := by
  induction n with
  | zero =>
    rw [slices_zero, List.append_nil]
    exact .refl b _
  | succ n ih =>
    have hone : (Underway.mk (as ++ slices x n) (.waiting (x :: left))).next b
        = ⟨as ++ slices x (n + 1), .overdue x left⟩ := by
      simp [Underway.next, turn, Underway.ask, h n n.lt_succ_self, slices_succ]
    exact ((ih fun k hk => h k (Nat.lt_succ_of_lt hk)).trans (.one hone)).trans (.one rfl)

theorem waits_congr {k k' : ExecutorId → Nat} {xs : List ExecutorId}
    (h : ∀ x ∈ xs, k x = k' x) : waits k xs = waits k' xs := by
  induction xs with
  | nil => rfl
  | cons x xs ih =>
    rw [waits_cons, waits_cons, ih fun y hy => h y (List.mem_cons_of_mem x hy),
      h x List.mem_cons_self]

/-- **Everybody terminates some time**, or there is a first who never does. -/
theorem reaches_done (b : Manner) {left : List ExecutorId} (nodup : left.Nodup)
    (as : List Answer) :
    (∃ k, (Underway.mk as (.waiting left)).Reaches b ⟨as ++ waits k left, .done⟩)
    ∨ ∃ before x later k, left = before ++ x :: later
      ∧ ∀ n, (Underway.mk as (.waiting left)).Reaches b
        ⟨as ++ waits k before ++ slices x n, .waiting (x :: later)⟩ := by
  induction left generalizing as with
  | nil =>
    refine .inl ⟨0, ?_⟩
    rw [waits_nil, List.append_nil]
    exact .one rfl
  | cons x left ih =>
    obtain ⟨hx, nodup⟩ := List.nodup_cons.mp nodup
    by_cases hends : ∃ n, b (as ++ slices x n) (.await x) = true
    · -- the others are waited for after so many slices
      classical
      have hslices : ∀ k < Nat.find hends, b (as ++ slices x k) (.await x) = false :=
        fun k hk => by simpa using Nat.find_min hends hk
      have hone : (Underway.mk (as ++ slices x (Nat.find hends)) (.waiting (x :: left))).next b
          = ⟨as ++ slices x (Nat.find hends) ++ [⟨.await x, true⟩], .waiting left⟩ := by
        simp [Underway.next, turn, Underway.ask, Nat.find_spec hends]
      have hfirst := (reaches_slices as x left hslices).trans (.one hone)
      have hwaits (k : ExecutorId → Nat) {xs : List ExecutorId} (hxs : x ∉ xs) :
          as ++ slices x (Nat.find hends) ++ [⟨.await x, true⟩] ++ waits k xs
            = as ++ waits (Function.update k x (Nat.find hends)) (x :: xs) := by
        have hcongr : waits (Function.update k x (Nat.find hends)) xs = waits k xs :=
          waits_congr fun y hy => Function.update_of_ne (ne_of_mem_of_not_mem hy hxs) _ _
        rw [waits_cons, Function.update_self, hcongr]
        simp only [List.append_assoc]
      rcases ih nodup (as ++ slices x (Nat.find hends) ++ [⟨.await x, true⟩]) with
        ⟨k, h⟩ | ⟨before, y, later, k, rfl, h⟩
      · rw [hwaits k hx] at h
        exact .inl ⟨_, hfirst.trans h⟩
      · refine .inr ⟨x :: before, y, later, Function.update k x (Nat.find hends), rfl, fun n => ?_⟩
        have hn := h n
        rw [hwaits k fun hmem => hx (List.mem_append_left _ hmem)] at hn
        exact hfirst.trans hn
    · have hslices (k : Nat) : b (as ++ slices x k) (.await x) = false := by
        simpa using fun h => hends ⟨k, h⟩
      refine .inr ⟨[], x, left, 0, rfl, fun n => ?_⟩
      rw [waits_nil, List.append_nil]
      exact reaches_slices as x left fun k _ => hslices k

/-! ## The three ways for it to go -/

/-- Everybody is shut down, and everybody says that they do not run the caller. -/
def denied (d : List ExecutorId) : List Answer := shutDowns d ++ denials d

/-- **How letting these executors go goes**, each of them named once. -/
inductive Course (b : Manner) (handles d : List ExecutorId) : Prop where
  /-- The first to be asked who runs the caller says so, and nothing else happens. -/
  | ownThread {before later : List ExecutorId} {x : ExecutorId} (hd : d = before ++ x :: later)
    (h : Returns b handles (shutDowns d ++ denials before ++ [⟨.isMember x, true⟩]))
  /-- Nobody runs the caller. Each is waited for until it says that it has terminated. -/
  | terminated (k : ExecutorId → Nat) (h : Returns b handles (denied d ++ waits k d))
  /-- Nobody runs the caller. All before this one say that they have terminated, and this one is
  waited for without end. -/
  | endless {before later : List ExecutorId} {x : ExecutorId} (k : ExecutorId → Nat)
    (hd : d = before ++ x :: later)
    (h : ∀ n, ∃ i, after b handles i
      = ⟨denied d ++ waits k before ++ slices x n, .waiting (x :: later)⟩)

/-- First of all everybody is shut down. -/
theorem exists_after_shutDowns (b : Manner) (handles : List ExecutorId) :
    ∃ i, after b handles i
      = ⟨shutDowns (distinct handles), .asking (distinct handles) (distinct handles)⟩ :=
  Underway.Reaches.after (n := 0) (reaches_asking b (distinct handles) (distinct handles) [])

/-- **There are three ways for it to go.** -/
theorem course (b : Manner) (handles : List ExecutorId) : Course b handles (distinct handles) := by
  obtain ⟨i, hi⟩ := exists_after_shutDowns b handles
  rcases reaches_waiting b (distinct handles) (distinct handles) (shutDowns (distinct handles)) with
    ⟨before, x, later, hd, h⟩ | h
  · rw [← hi] at h
    exact .ownThread hd (h.trans (.one rfl)).after
  · rcases reaches_done b (nodup_distinct handles) (denied (distinct handles)) with
      ⟨k, hk⟩ | ⟨before, x, later, k, hd, hn⟩
    · rw [← hi] at h
      exact .terminated k (h.trans hk).after
    · rw [← hi] at h
      exact .endless k hd fun n => (h.trans (hn n)).after

/-! ## What is said on the way -/

theorem isMember_notMem_waits (k : ExecutorId → Nat) (xs : List ExecutorId) (x : ExecutorId) :
    (⟨.isMember x, true⟩ : Answer) ∉ waits k xs := by
  simp [waits, slices]

theorem await_mem_waits {k : ExecutorId → Nat} {xs : List ExecutorId} {x : ExecutorId} :
    (⟨.await x, true⟩ : Answer) ∈ waits k xs ↔ x ∈ xs := by
  simp [waits, slices]

theorem await_notMem_waits (k : ExecutorId → Nat) {xs : List ExecutorId} {x : ExecutorId}
    (hx : x ∉ xs) (ended : Bool) : (⟨.await x, ended⟩ : Answer) ∉ waits k xs := by
  have hne : ∀ y ∈ xs, x ≠ y := fun y hy heq => hx (heq ▸ hy)
  simp only [waits, slices, List.mem_flatMap, List.mem_append, List.mem_replicate,
    List.mem_singleton, Sigma.mk.injEq, Request.await.injEq]
  rintro ⟨y, hy, ⟨-, heq, -⟩ | ⟨heq, -⟩⟩ <;> exact hne y hy heq

theorem isMember_notMem_denied (d : List ExecutorId) (x : ExecutorId) :
    (⟨.isMember x, true⟩ : Answer) ∉ denied d := by
  simp [denied, shutDowns, denials]

theorem await_notMem_denied (d : List ExecutorId) (x : ExecutorId) (ended : Bool) :
    (⟨.await x, ended⟩ : Answer) ∉ denied d := by
  simp [denied, shutDowns, denials]

theorem notMem_before {before later : List ExecutorId} (h : (before ++ x :: later).Nodup) :
    x ∉ before :=
  fun hmem => (List.nodup_append.mp h).2.2 x hmem x List.mem_cons_self rfl

section Endless

variable {p : List Answer} {u : Termination}

/-- Whatever is said while somebody is waited for without end. -/
theorem mem_of_endless (h : ∀ n, ∃ i, after b handles i = ⟨p ++ slices x n, u⟩) {a : Answer}
    {i : Nat} (ha : a ∈ (after b handles i).answers) : ∃ n, a ∈ p ++ slices x n := by
  obtain ⟨j, hj⟩ := h ((after b handles i).answers.length + 1)
  refine ⟨(after b handles i).answers.length + 1, ?_⟩
  rcases Nat.le_total i j with hij | hij
  · have hprefix := answers_mono b handles hij
    rw [hj] at hprefix
    exact hprefix.subset ha
  · -- what is said later is not shorter
    have hlength := (answers_mono b handles hij).length_le
    rw [hj] at hlength
    simp [slices] at hlength
    omega

theorem not_returns_of_endless (hu : u ≠ .done)
    (h : ∀ n, ∃ i, after b handles i = ⟨p ++ slices x n, u⟩) : ¬ Returns b handles as := by
  rintro ⟨i, hi⟩
  obtain ⟨j, hj⟩ := h (as.length + 1)
  rcases Nat.le_total i j with hij | hij
  · exact hu (Underway.mk.inj (hj.symm.trans (after_of_done hi hij))).2
  · have hlength := (answers_mono b handles hij).length_le
    rw [hi, hj] at hlength
    simp [slices] at hlength
    omega

end Endless

/-- **It is over some time** exactly if somebody says that they run the caller, or everybody says
some time that they have terminated. -/
theorem returns_iff (b : Manner) (handles : List ExecutorId) : (∃ as, Returns b handles as)
    ↔ (∃ n x, (⟨.isMember x, true⟩ : Answer) ∈ (after b handles n).answers)
      ∨ ∀ x ∈ handles, ∃ n, (⟨.await x, true⟩ : Answer) ∈ (after b handles n).answers := by
  have hnodup := nodup_distinct handles
  cases course b handles with
  | ownThread hd h =>
    obtain ⟨n, hn⟩ := h
    exact iff_of_true ⟨_, n, hn⟩ (.inl ⟨n, _, by rw [hn]; exact List.mem_append_right _ (.head _)⟩)
  | terminated k h =>
    obtain ⟨n, hn⟩ := h
    refine iff_of_true ⟨_, n, hn⟩ (.inr fun x hx => ⟨n, ?_⟩)
    rw [hn]
    exact List.mem_append_right _ (await_mem_waits.mpr (mem_distinct.mpr hx))
  | @endless before later x k hd h =>
    have hne : Termination.waiting (x :: later) ≠ .done := nofun
    refine iff_of_false (fun ⟨as, has⟩ => not_returns_of_endless hne h has) ?_
    rintro (⟨n, y, hy⟩ | hall)
    · obtain ⟨m, hm⟩ := mem_of_endless h hy
      simp [isMember_notMem_denied, isMember_notMem_waits, slices] at hm
    · have hx : x ∈ distinct handles := hd ▸ List.mem_append_right _ List.mem_cons_self
      obtain ⟨n, hn⟩ := hall x (mem_distinct.mp hx)
      obtain ⟨m, hm⟩ := mem_of_endless h hn
      have hbefore : x ∉ before := notMem_before (hd ▸ hnodup)
      simp [await_notMem_denied, await_mem_waits, slices, hbefore] at hm

/-- **Nobody is waited for before all have been shut down.** -/
theorem shutDown_mem_of_await {before later : List Answer} {ended : Bool}
    (h : (after b handles n).answers = before ++ ⟨.await x, ended⟩ :: later) :
    ∀ y ∈ handles, (⟨.shutDown y, ()⟩ : Answer) ∈ before := by
  obtain ⟨i, hi⟩ := exists_after_shutDowns b handles
  have hnot : (⟨.await x, ended⟩ : Answer) ∉ shutDowns (distinct handles) := by simp [shutDowns]
  have hmem : (⟨.await x, ended⟩ : Answer) ∈ before ++ [⟨.await x, ended⟩] :=
    List.mem_append_right _ (.head _)
  have hsofar : before ++ [⟨.await x, ended⟩] <+: (after b handles n).answers := by
    rw [h]
    exact ⟨later, by simp⟩
  have hprefix : shutDowns (distinct handles) <+: before := by
    rcases Nat.le_total n i with hni | hni
    · have hle := hsofar.trans (answers_mono b handles hni)
      rw [hi] at hle
      exact absurd (hle.subset hmem) hnot
    · have hle := answers_mono b handles hni
      rw [hi] at hle
      rcases List.prefix_or_prefix_of_prefix hle hsofar with hle | hle
      · rcases List.prefix_concat_iff.mp hle with heq | hle
        · rw [← heq] at hmem
          exact absurd hmem hnot
        · exact hle
      · exact absurd (hle.subset hmem) hnot
  intro y hy
  exact hprefix.subset (List.mem_map_of_mem (mem_distinct.mpr hy))

/-! ## Executors that mind only what they are asked themselves -/

/-- **Executors that know whether they run the caller**, and what to say when they are waited for
the first time, the second time, and so on. -/
def ofExecutors (own : ExecutorId → Bool) (ended : ExecutorId → Nat → Bool) : Manner
  | _, .isMember x => own x
  | as, .await x => ended x (as.countP fun a => a.1 = .await x)
  | _, .shutDown _ => ()
  | _, .execute .. => true
  | _, .openMultiplexer .. => .error ""
  | _, .wake .. => .ok ()
  | _, .wait .. => .ok 0

/-- **Such executors are let go some time** exactly if one of them runs the caller, or each of them
says at one time or another that it has terminated. -/
theorem returns_ofExecutors_iff (own : ExecutorId → Bool) (ended : ExecutorId → Nat → Bool)
    (handles : List ExecutorId) : (∃ as, Returns (ofExecutors own ended) handles as)
    ↔ (∃ x ∈ handles, own x = true) ∨ ∀ x ∈ handles, ∃ k, ended x k = true := by
  have hgives := gives_after (ofExecutors own ended) handles
  have hnodup := nodup_distinct handles
  cases course (ofExecutors own ended) handles with
  | @ownThread before later x hd h =>
    obtain ⟨n, hn⟩ := h
    have hx : x ∈ distinct handles := hd ▸ List.mem_append_right _ List.mem_cons_self
    have hn' := hgives n
    rw [hn] at hn'
    exact iff_of_true ⟨_, n, hn⟩ (.inl ⟨x, mem_distinct.mp hx, hn' _ _ _ [] rfl⟩)
  | terminated k h =>
    obtain ⟨n, hn⟩ := h
    refine iff_of_true ⟨_, n, hn⟩ (.inr fun x hx => ?_)
    have hmem : (⟨.await x, true⟩ : Answer)
        ∈ (after (ofExecutors own ended) handles n).answers := by
      rw [hn]
      exact List.mem_append_right _ (await_mem_waits.mpr (mem_distinct.mpr hx))
    obtain ⟨before, later, hsplit⟩ := List.append_of_mem hmem
    exact ⟨_, hgives n _ _ _ _ hsplit⟩
  | @endless before later x k hd h =>
    have hne : Termination.waiting (x :: later) ≠ .done := nofun
    have hx : x ∈ distinct handles := hd ▸ List.mem_append_right _ List.mem_cons_self
    refine iff_of_false (fun ⟨as, has⟩ => not_returns_of_endless hne h has) ?_
    rintro (⟨y, hy, hown⟩ | hall)
    · -- everybody has said that they do not run the caller
      obtain ⟨i, hi⟩ := h 0
      have hmem : (⟨.isMember y, false⟩ : Answer)
          ∈ (after (ofExecutors own ended) handles i).answers := by
        rw [hi]
        simp [denied, denials, hy]
      obtain ⟨pre, post, hsplit⟩ := List.append_of_mem hmem
      exact Bool.false_ne_true ((hgives i _ _ _ _ hsplit).symm.trans hown)
    · -- the one who is waited for without end has been waited for that many times
      obtain ⟨m, hm⟩ := hall x (mem_distinct.mp hx)
      obtain ⟨i, hi⟩ := h (m + 1)
      have hsplit : (after (ofExecutors own ended) handles i).answers
          = (denied (distinct handles) ++ waits k before ++ slices x m) ++ [⟨.await x, false⟩] := by
        rw [hi, slices_succ, List.append_assoc _ (slices x m)]
      have hbefore : x ∉ before := notMem_before (hd ▸ hnodup)
      have hcount : (denied (distinct handles) ++ waits k before ++ slices x m).countP
          (fun a : Answer => a.1 = .await x) = m := by
        rw [List.countP_append, List.countP_eq_zero.mpr, slices, List.countP_replicate]
        · simp
        · rintro a ha hax
          obtain ⟨q, reply⟩ := a
          obtain rfl := of_decide_eq_true hax
          rcases List.mem_append.mp ha with ha | ha
          · exact await_notMem_denied _ _ _ ha
          · exact await_notMem_waits k hbefore _ ha
      have hfalse := hgives i _ _ _ _ hsplit
      rw [ofExecutors, hcount, hm] at hfalse
      exact Bool.false_ne_true hfalse.symm

end Termination

/-! ## Threads that let executors go -/

/-- Some executors reply in this way. -/
theorem Manner.exists_gives (as : List Answer) : ∃ b : Manner, b.Gives as := by
  classical
  refine ⟨fun before q => if h : ∃ reply later, as = before ++ ⟨q, reply⟩ :: later then h.choose
    else Termination.ofExecutors (fun _ => false) (fun _ _ => false) before q, ?_⟩
  intro before q reply later heq
  have h : ∃ reply later, as = before ++ ⟨q, reply⟩ :: later := ⟨reply, later, heq⟩
  obtain ⟨later', heq'⟩ := h.choose_spec
  have hsame := (List.cons.inj (List.append_cancel_left (heq.symm.trans heq'))).1
  dsimp only
  rw [dif_pos h]
  exact (eq_of_heq (Sigma.mk.inj hsame).2).symm

theorem Manner.Gives.left {b : Manner} {as as' : List Answer} (h : b.Gives (as ++ as')) :
    b.Gives as :=
  fun before q reply later heq =>
    h before q reply (later ++ as') (by rw [heq, List.append_assoc, List.cons_append])

section Thread

variable {b : Manner} {s : Store} {t : ThreadId} {f : FactoryId} {u : Termination}
  {as : List Answer} {c' : Control}

/-- **A thread that acts while it lets executors go** takes a turn in which nothing is asked, or
it is at the end. -/
theorem Control.termination_of_act {g : Store → Store} {ns : List Note} (as : List Answer)
    (h : (Control.running [.release f (.terminate u)]).move s t = .act g c' ns) :
    (∃ u', (Termination.Underway.mk as u).next b = ⟨as, u'⟩
      ∧ c' = .running [.release f (.terminate u')])
    ∨ u = .done ∧ c' = .running [.release f .announceEnd] := by
  cases Control.moves_of_running h with
  | release found hp =>
    simp only [ReleasePoint.move] at hp
    cases hu : u.turn <;> simp only [hu] at hp
    case note n after =>
      cases hp
      exact .inl ⟨after, by simp [Termination.Underway.next, hu], rfl⟩
    case go after =>
      cases hp
      exact .inl ⟨after, by simp [Termination.Underway.next, hu], rfl⟩
    case stop =>
      cases hp
      exact .inr ⟨by unfold Termination.turn at hu; split at hu <;> simp_all, rfl⟩
    all_goals cases hp

/-- **A thread that asks while it lets executors go** takes a turn in which this is asked. -/
theorem Control.termination_of_ask {q : Request} {after : q.Reply → Control} {reply : q.Reply}
    (h : (Control.running [.release f (.terminate u)]).move s t = .ask q after)
    (hb : b as q = reply) :
    ∃ u', (Termination.Underway.mk as u).next b = ⟨as ++ [⟨q, reply⟩], u'⟩
      ∧ after reply = .running [.release f (.terminate u')] := by
  obtain ⟨fr, below, heq, hask⟩ := Control.asks h
  cases heq
  subst hb
  cases hask with
  | shutDown hu | isMember hu | await hu =>
    exact ⟨_, by simp [Termination.Underway.next, Termination.Underway.ask, hu], rfl⟩

end Thread

namespace Machine

variable {m m' : Machine} {js : List Incident} {t : ThreadId} {f : FactoryId} {b : Manner}
  {handles : List ExecutorId}

/-- The thread is letting executors go, or it has let them go and is about to say so. -/
def StandsAt (m : Machine) (t : ThreadId) (f : FactoryId) (u : Termination) : Prop :=
  m.control? t = some (.running [.release f (.terminate u)])
    ∨ u = .done ∧ (m.control? t = some (.running [.release f .announceEnd])
      ∨ m.control? t = some (.finished .released))

/-- **A thread that lets the executors behind the handles go** does what an undertaking does by
itself among executors that reply as it is answered, whatever else happens. -/
theorem Leads.termination (h : m.Leads js m')
    (hc : m.control? t = some (.running [.release f (.terminate (.begin handles))]))
    (hb : b.Gives (answersTo t js)) :
    ∃ i, (Termination.after b handles i).answers = answersTo t js
      ∧ m'.StandsAt t f (Termination.after b handles i).stands := by
  induction h with
  | refl => exact ⟨0, rfl, .inl hc⟩
  | @advance js m' m'' i h a ih =>
    rw [answersTo_concat] at hb ⊢
    obtain ⟨n, hanswers, hstands⟩ := ih hb.left
    by_cases hi : ∃ hap, i = .stepped t hap
    · obtain ⟨hap, rfl⟩ := hi
      cases a with
      | @act _ c c' g ns hc' hmove =>
        have hsame : (Incident.stepped t (.acted ns)).answersTo t = [] := rfl
        rw [hsame, List.append_nil]
        rcases hstands with hc'' | ⟨hdone, hc'' | hc''⟩
        · obtain rfl := Option.some.inj (hc'.symm.trans hc'')
          rcases Control.termination_of_act (answersTo t js) hmove with
            ⟨u, hnext, rfl⟩ | ⟨hdone, rfl⟩
          · rw [← hanswers] at hnext
            have hafter := (Termination.after_succ b handles n).trans hnext
            refine ⟨n + 1, ?_⟩
            rw [hafter]
            exact ⟨hanswers, .inl (control?_act_self hc')⟩
          · exact ⟨n, hanswers, .inr ⟨hdone, .inl (control?_act_self hc')⟩⟩
        · obtain rfl := Option.some.inj (hc'.symm.trans hc'')
          cases Control.moves_of_running hmove with
          | release found hp =>
            cases hp
            exact ⟨n, hanswers, .inr ⟨hdone, .inr (control?_act_self hc')⟩⟩
        · obtain rfl := Option.some.inj (hc'.symm.trans hc'')
          cases hmove
      | @answer _ c q after hc' hmove reply =>
        have hone : (Incident.stepped t (.answered q reply)).answersTo t = [⟨q, reply⟩] :=
          if_pos rfl
        rw [hone] at hb ⊢
        rcases hstands with hc'' | ⟨-, hc'' | hc''⟩
        · obtain rfl := Option.some.inj (hc'.symm.trans hc'')
          obtain ⟨u, hnext, hu⟩ := Control.termination_of_ask hmove (hb _ _ _ [] rfl)
          rw [← hanswers] at hnext
          have hafter := (Termination.after_succ b handles n).trans hnext
          refine ⟨n + 1, ?_⟩
          rw [hafter, hanswers]
          exact ⟨rfl, .inl (hu ▸ control?_answer_self reply hc')⟩
        · obtain rfl := Option.some.inj (hc'.symm.trans hc'')
          obtain ⟨fr, below, heq, hask⟩ := Control.asks hmove
          cases heq
          cases hask
        · obtain rfl := Option.some.inj (hc'.symm.trans hc'')
          cases hmove
    · have hne : ∀ hap, i ≠ .stepped t hap := fun hap heq => hi ⟨hap, heq⟩
      rw [Incident.answersTo_of_ne hne, List.append_nil]
      refine ⟨n, hanswers, ?_⟩
      have hkept {c : Control} (hc' : m'.control? t = some c) : m''.control? t = some c := by
        rw [a.control?_of_ne (lt_size_of_control? hc') hne, hc']
      rcases hstands with hc' | ⟨hdone, hc' | hc'⟩
      · exact .inl (hkept hc')
      · exact .inr ⟨hdone, .inl (hkept hc')⟩
      · exact .inr ⟨hdone, .inr (hkept hc')⟩

end Machine

/-! ## For every list of handles -/

namespace Termination

/-- **How the executors behind these handles are let go**, whatever they are like. -/
structure InOrder (handles : List ExecutorId) : Prop where
  /-- They are taken in the order of their first mention, each once. -/
  order : FirstMentions handles (distinct handles)
  /-- There are three ways for it to go, which say what is asked of whom and in which order. -/
  course : ∀ b, Course b handles (distinct handles)
  /-- On the way everything is kept that has been asked and answered, -/
  kept : ∀ b {m n : Nat}, m ≤ n → (after b handles m).answers <+: (after b handles n).answers
  /-- and answered by the executors. -/
  given : ∀ (b : Manner) (n : Nat), b.Gives (after b handles n).answers
  /-- It is over some time if somebody runs the caller or everybody has terminated, else never. -/
  returns : ∀ b, (∃ as, Returns b handles as)
    ↔ (∃ n x, (⟨.isMember x, true⟩ : Answer) ∈ (after b handles n).answers)
      ∨ ∀ x ∈ handles, ∃ n, (⟨.await x, true⟩ : Answer) ∈ (after b handles n).answers
  /-- Among executors that mind only what they are asked themselves, this depends on what they would
  answer, had they been asked. -/
  mindful : ∀ own ended, (∃ as, Returns (ofExecutors own ended) handles as)
    ↔ (∃ x ∈ handles, own x = true) ∨ ∀ x ∈ handles, ∃ k, ended x k = true
  /-- Nobody is waited for before all have been shut down, -/
  shutFirst : ∀ b {n : Nat} {before later : List Answer} {x : ExecutorId} {ended : Bool},
    (after b handles n).answers = before ++ ⟨.await x, ended⟩ :: later →
    ∀ y ∈ handles, (⟨.shutDown y, ()⟩ : Answer) ∈ before
  /-- and then for a tenth of a second at a time. -/
  slice : ∀ x, (Request.await x).limit? = some 100
  /-- So does a thread that lets them go, at every point of the history of a machine. -/
  threads : ∀ {m m' : Machine} {js : List Incident} {t : ThreadId} {f : FactoryId},
    m.control? t = some (.running [.release f (.terminate (.begin handles))]) → m.Leads js m' →
    ∃ b i, (after b handles i).answers = answersTo t js
      ∧ m'.StandsAt t f (after b handles i).stands

/-- **Executors are let go in order**, for every list of handles. -/
theorem orderly (handles : List ExecutorId) : InOrder handles where
  order := firstMentions_distinct handles
  course := fun b => course b handles
  kept := fun b => answers_mono b handles
  given := fun b => gives_after b handles
  returns := fun b => returns_iff b handles
  mindful := fun own ended => returns_ofExecutors_iff own ended handles
  shutFirst := fun _ => shutDown_mem_of_await
  slice := fun _ => rfl
  threads := fun {_ _ js t _} hc h => by
    obtain ⟨b, hb⟩ := Manner.exists_gives (answersTo t js)
    exact ⟨b, h.termination hc hb⟩

end Termination

end EndpointControl
