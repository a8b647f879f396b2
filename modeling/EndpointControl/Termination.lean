import EndpointControl.Notice

/-!
# Terminating executors

Letting go of executors has three phases. Every distinct executor is shut down,
in order of first mention. Then each is asked, in the same order, whether the
caller is one of its threads, up to the first that agrees: a caller that is run
by an executor would wait for itself, so nothing is waited for then. Otherwise
each executor is waited for, slice by slice, until it says that it has
terminated.

`Termination` is where such an undertaking stands, and `Termination.turn` is what
comes next: an inquiry together with what its answer leads to. What executors
answer is nobody's business here, so the undertaking is defined for every list of
handles and every behaviour of the executors behind them.
-/

namespace EndpointControl

/-- **How far the executors have been let go.** -/
inductive Termination where
  /-- Shutting down what is left in the second list. -/
  | shuttingDown (distinct left : List ExecutorId)
  /-- Asking what is left in the second list whether it runs the caller. -/
  | asking (distinct left : List ExecutorId)
  /-- The caller is run by one of them. -/
  | ownThread
  /-- Waiting for the executors left, the first of them first. -/
  | waiting (left : List ExecutorId)
  /-- The first executor left took longer than a slice. -/
  | overdue (executor : ExecutorId) (later : List ExecutorId)
  /-- Nothing is left to do. -/
  | done
  deriving DecidableEq, Repr

/-- **What comes next.** -/
inductive Termination.Turn where
  /-- Shut an executor down. -/
  | shutDown (executor : ExecutorId) (after : Termination)
  /-- Ask an executor whether it runs the caller. -/
  | isMember (executor : ExecutorId) (after : Bool → Termination)
  /-- Wait one slice for an executor. -/
  | await (executor : ExecutorId) (after : Bool → Termination)
  /-- Say something. -/
  | note (notice : Notice) (after : Termination)
  /-- Go on without a word. -/
  | go (after : Termination)
  /-- Stop. -/
  | stop

namespace Termination

/-- An executor is mentioned after these. -/
def mention (seen : List ExecutorId) (x : ExecutorId) : List ExecutorId :=
  if x ∈ seen then seen else seen ++ [x]

/-- The handles without repetitions, in order of first mention. -/
def distinct (handles : List ExecutorId) : List ExecutorId := handles.foldl mention []

/-- The undertaking for a list of handles, not yet begun. -/
def begin (handles : List ExecutorId) : Termination :=
  .shuttingDown (distinct handles) (distinct handles)

/-- **The next thing to do.** -/
def turn : Termination → Turn
  | .shuttingDown d (x :: r) => .shutDown x (.shuttingDown d r)
  | .shuttingDown d [] => .go (.asking d d)
  | .asking d (x :: r) => .isMember x fun own => if own then .ownThread else .asking d r
  | .asking d [] => .go (.waiting d)
  | .ownThread => .note .notAwaiting .done
  | .waiting (x :: r) => .await x fun ended => if ended then .waiting r else .overdue x r
  | .waiting [] => .go .done
  | .overdue x r => .note (.awaiting x) (.waiting (x :: r))
  | .done => .stop

/-! ## Handles without repetitions -/

@[simp] theorem mem_mention {seen : List ExecutorId} {x y : ExecutorId} :
    y ∈ mention seen x ↔ y ∈ seen ∨ y = x := by
  unfold mention
  split
  · rename_i h
    constructor
    · exact .inl
    · rintro (hy | rfl)
      · exact hy
      · exact h
  · simp

/-- A mention repeats nothing. -/
theorem nodup_mention {seen : List ExecutorId} (h : seen.Nodup) (x : ExecutorId) :
    (mention seen x).Nodup := by
  unfold mention
  split
  · exact h
  · rename_i hx
    refine List.nodup_append.mpr ⟨h, by simp, ?_⟩
    intro a ha b hb hab
    rw [List.mem_singleton.mp hb] at hab
    exact hx (hab ▸ ha)

theorem mem_foldl_mention {handles seen : List ExecutorId} {x : ExecutorId} :
    x ∈ handles.foldl mention seen ↔ x ∈ seen ∨ x ∈ handles := by
  induction handles generalizing seen with
  | nil => simp
  | cons y r ih => rw [List.foldl_cons, ih, mem_mention, List.mem_cons, or_assoc]

theorem nodup_foldl_mention (handles : List ExecutorId) {seen : List ExecutorId}
    (h : seen.Nodup) : (handles.foldl mention seen).Nodup := by
  induction handles generalizing seen with
  | nil => exact h
  | cons y r ih => exact ih (nodup_mention h y)

/-- **Every executor that is mentioned is let go**, and no other. -/
@[simp] theorem mem_distinct {handles : List ExecutorId} {x : ExecutorId} :
    x ∈ distinct handles ↔ x ∈ handles := by
  simp [distinct, mem_foldl_mention]

/-- **No executor is let go twice.** -/
theorem nodup_distinct (handles : List ExecutorId) : (distinct handles).Nodup :=
  nodup_foldl_mention handles List.nodup_nil

end Termination

end EndpointControl
