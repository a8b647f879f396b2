/-!
# Locks

A lock is held by one thread at a time and not taken twice, not even by the
thread that holds it. A `LockTable` records who holds what. A lock that is not in
the table is free.
-/

namespace EndpointControl

/-- A thread, by its place among all threads there have been. -/
abbrev ThreadId := Nat

/-- **Who holds which lock.** -/
structure LockTable (L : Type) where
  /-- The locks that are held, each with its holder. -/
  entries : List (L × ThreadId)
  deriving DecidableEq, Repr

namespace LockTable

variable {L : Type} [DecidableEq L]

/-- No lock is held. -/
def free : LockTable L := ⟨[]⟩

/-- The thread that holds the lock. -/
def holder? (t : LockTable L) (l : L) : Option ThreadId :=
  (t.entries.find? fun e => e.1 = l).map (·.2)

/-- The thread takes the lock. -/
def take (t : LockTable L) (l : L) (h : ThreadId) : LockTable L := ⟨(l, h) :: t.entries⟩

/-- The lock is given back. -/
def give (t : LockTable L) (l : L) : LockTable L := ⟨t.entries.filter fun e => e.1 ≠ l⟩

@[simp] theorem holder?_free (l : L) : (free : LockTable L).holder? l = none := rfl

/-- Taking a lock makes the thread its holder and touches no other lock. -/
@[simp] theorem holder?_take (t : LockTable L) (l l' : L) (h : ThreadId) :
    (t.take l h).holder? l' = if l = l' then some h else t.holder? l' := by
  unfold holder? take
  by_cases e : l = l'
  · simp [e]
  · simp [e]

/-- Giving a lock back frees it and touches no other lock. -/
@[simp] theorem holder?_give (t : LockTable L) (l l' : L) :
    (t.give l).holder? l' = if l = l' then none else t.holder? l' := by
  unfold holder? give
  rw [List.find?_filter]
  by_cases e : l = l'
  · subst e
    simp
  · simp only [if_neg e]
    congr 2
    funext x
    by_cases hx : x.1 = l'
    · simp [hx, Ne.symm e]
    · simp [hx]

end LockTable

end EndpointControl
