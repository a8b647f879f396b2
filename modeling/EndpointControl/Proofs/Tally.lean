import Mathlib.Algebra.Order.BigOperators.Group.Finset
import EndpointControl.Proofs.Steps

/-!
# Counting over threads

Much of what is true of a machine is a matter of how many threads are where. A
weight says how much a thread counts, given its name and where it is, and
`Machine.total` adds the weights up. A step moves one thread, so it replaces one
summand (`Machine.total_setControl`); a call adds one (`Machine.total_spawn`).
-/

open Finset

namespace EndpointControl

namespace Machine

/-- What a thread counts. A thread that there is not counts nothing. -/
def weightOf (m : Machine) (w : ThreadId → Control → Nat) (t : ThreadId) : Nat :=
  ((m.control? t).map (w t)).getD 0

/-- **What all threads count together.** -/
def total (m : Machine) (w : ThreadId → Control → Nat) : Nat :=
  ∑ t ∈ range m.threads.size, m.weightOf w t

variable {m m' : Machine} {t t' : ThreadId} {c c' : Control} {w w' : ThreadId → Control → Nat}

theorem weightOf_eq (h : m.control? t = some c) : m.weightOf w t = w t c := by
  rw [weightOf, h, Option.map_some, Option.getD_some]

/-- Only the places of the threads count. -/
theorem total_congr (hs : m'.threads = m.threads)
    (hw : ∀ t c, m.control? t = some c → w' t c = w t c) : m'.total w' = m.total w := by
  rw [total, total, hs]
  refine sum_congr rfl fun t _ => ?_
  have hc : m'.control? t = m.control? t := by rw [control?, control?, hs]
  rw [weightOf, weightOf, hc]
  cases h : m.control? t with
  | none => rfl
  | some c => exact hw t c h

/-- Weights that are counted together. -/
theorem total_add (m : Machine) (w w' : ThreadId → Control → Nat) :
    m.total (fun t c => w t c + w' t c) = m.total w + m.total w' := by
  rw [total, total, total, ← sum_add_distrib]
  refine sum_congr rfl fun t _ => ?_
  rw [weightOf, weightOf, weightOf]
  cases m.control? t <;> rfl

/-- Who counts no more, counts no more together. -/
theorem total_le_total (h : ∀ t c, m.control? t = some c → w t c ≤ w' t c) :
    m.total w ≤ m.total w' := by
  refine sum_le_sum fun t _ => ?_
  rw [weightOf, weightOf]
  cases hc : m.control? t with
  | none => exact le_rfl
  | some c => exact h t c hc

theorem weightOf_le_total (w : ThreadId → Control → Nat) (h : m.control? t = some c) :
    w t c ≤ m.total w := by
  rw [← weightOf_eq (m := m) (w := w) h]
  exact single_le_sum (fun _ _ => Nat.zero_le _) (mem_range.mpr (lt_size_of_control? h))

/-- Two threads count no more than all. -/
theorem weightOf_add_le_total (w : ThreadId → Control → Nat) (hne : t ≠ t')
    (h : m.control? t = some c) (h' : m.control? t' = some c') : w t c + w t' c' ≤ m.total w := by
  rw [← weightOf_eq (m := m) (w := w) h, ← weightOf_eq (m := m) (w := w) h',
    ← sum_pair (f := m.weightOf w) hne]
  refine sum_le_sum_of_subset fun x hx => ?_
  rcases mem_insert.mp hx with rfl | hx
  · exact mem_range.mpr (lt_size_of_control? h)
  · rw [mem_singleton.mp hx]
    exact mem_range.mpr (lt_size_of_control? h')

/-- All together count nothing exactly when none of them counts anything. -/
theorem total_eq_zero_iff :
    m.total w = 0 ↔ ∀ t c, m.control? t = some c → w t c = 0 := by
  constructor
  · intro h t c hc
    exact Nat.le_zero.mp (h ▸ weightOf_le_total w hc)
  · intro h
    refine sum_eq_zero fun t _ => ?_
    rw [weightOf]
    cases hc : m.control? t with
    | none => rfl
    | some c => exact h t c hc

/-- **Something counts only if somebody does.** -/
theorem exists_of_total_pos (h : 0 < m.total w) :
    ∃ t c, m.control? t = some c ∧ 0 < w t c := by
  by_contra hno
  refine absurd (total_eq_zero_iff.mpr fun t c hc => ?_) h.ne'
  by_contra hw
  exact hno ⟨t, c, hc, Nat.pos_of_ne_zero hw⟩

/-- **Moving a thread replaces what it counts.** -/
theorem total_setControl (w : ThreadId → Control → Nat) (h : m.control? t = some c)
    (c' : Control) : (m.setControl t c').total w + w t c = m.total w + w t c' := by
  have hmem : t ∈ range m.threads.size := mem_range.mpr (lt_size_of_control? h)
  have hsize : (m.setControl t c').threads.size = m.threads.size := by simp [setControl]
  have hrest : ∑ x ∈ (range m.threads.size).erase t, (m.setControl t c').weightOf w x
      = ∑ x ∈ (range m.threads.size).erase t, m.weightOf w x := by
    refine sum_congr rfl fun x hx => ?_
    rw [weightOf, control?_setControl, if_neg (ne_of_mem_erase hx).symm, weightOf]
  have hself : (m.setControl t c').weightOf w t = w t c' :=
    weightOf_eq (control?_setControl_self h c')
  -- both sums with the moved thread taken out
  have hnew : (m.setControl t c').weightOf w t
      + ∑ x ∈ (range m.threads.size).erase t, (m.setControl t c').weightOf w x
      = ∑ x ∈ range m.threads.size, (m.setControl t c').weightOf w x := add_sum_erase _ _ hmem
  have hold : m.weightOf w t + ∑ x ∈ (range m.threads.size).erase t, m.weightOf w x
      = ∑ x ∈ range m.threads.size, m.weightOf w x := add_sum_erase _ _ hmem
  rw [hself, hrest] at hnew
  rw [weightOf_eq h] at hold
  rw [total, total, hsize]
  omega

/-- **A new thread counts in addition.** -/
theorem total_spawn (w : ThreadId → Control → Nat) (m : Machine) (x : Option ExecutorId)
    (c : Control) : (m.spawn x c).total w = m.total w + w m.threads.size c := by
  have hsize : (m.spawn x c).threads.size = m.threads.size + 1 := by simp [spawn]
  have hlast : (m.spawn x c).weightOf w m.threads.size = w m.threads.size c :=
    weightOf_eq (by rw [control?_spawn, if_pos rfl])
  rw [total, hsize, sum_range_succ, hlast, total]
  congr 1
  refine sum_congr rfl fun t ht => ?_
  rw [weightOf, control?_spawn, if_neg (mem_range.mp ht).ne, weightOf]

theorem total_act (w : ThreadId → Control → Nat) (h : m.control? t = some c)
    (g : Store → Store) (c' : Control) :
    (m.act t g c').total w + w t c = m.total w + w t c' :=
  total_setControl (m := { m with store := g m.store }) w h c'

/-- **An answer moves the thread that asked**, and a loop that begins counts nothing. -/
theorem total_answer {w : ThreadId → Control → Nat} (h : m.control? t = some c)
    (hw : ∀ t l mux, w t (.running [.serve l mux .announce]) = 0) {r : Request}
    (after : r.Reply → Control) (reply : r.Reply) :
    (m.answer t r after reply).total w + w t c = m.total w + w t (after reply) := by
  have hset := total_setControl w h (after reply)
  rcases answer_eq m t r after reply with he | ⟨x, l, mux, -, he⟩ <;> rw [he]
  · exact hset
  · rw [total_spawn, hw]
    exact hset

@[simp] theorem total_build (w : ThreadId → Control → Nat) (m : Machine) (b : Blueprint) :
    (m.build b).total w = m.total w := rfl

@[simp] theorem total_empty (w : ThreadId → Control → Nat) : empty.total w = 0 := rfl

end Machine

end EndpointControl
