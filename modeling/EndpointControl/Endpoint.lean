/-!
# The life of an endpoint

An endpoint is open, may be connecting, may become registered with a worker, and
ends closed. Four operations move it, and each says what it does in every state:

* `Status.beginConnect` leaves the open state and is refused anywhere else;
* `Status.revert` takes back a connection attempt that did not get through;
* `Status.register` is the worker's: it succeeds unless the endpoint is closed;
* `Status.close` ends the life, and only the first call does so.

The remote address belongs to the attempt: it is written when an attempt begins
and taken away when one is taken back.
-/

namespace EndpointControl

/-- A remote address in its canonical text. -/
abbrev Address := String

/-- **Where an endpoint is in its life.** -/
inductive State where
  /-- Created, or back from an attempt that was given up. -/
  | opened
  /-- On its way to a remote address. -/
  | connecting
  /-- Known to the multiplexer of its worker. -/
  | registered
  /-- At its end. -/
  | closed
  deriving DecidableEq, Repr

/-- The name of the state as it is printed. -/
def State.text : State → String
  | .opened => "Open"
  | .connecting => "Connecting"
  | .registered => "Registered"
  | .closed => "Closed"

/-- What the lock of an endpoint guards: its state, and the address of the
attempt it is on or got through with. -/
structure Status where
  /-- Where the endpoint is in its life. -/
  state : State
  /-- The address of the current or last accepted attempt. -/
  remote : Option Address
  deriving DecidableEq, Repr

namespace Status

/-- A new endpoint is open and has no address. -/
def initial : Status := ⟨.opened, none⟩

/-- **An attempt begins in the open state only.** Elsewhere the state is the
reason for the refusal. -/
def beginConnect (s : Status) (remote : Address) : Except State Status :=
  match s.state with
  | .opened => .ok ⟨.connecting, some remote⟩
  | other => .error other

/-- **Taking an attempt back** opens a connecting endpoint again and forgets the
address; any other endpoint keeps its status. -/
def revert (s : Status) : Status :=
  match s.state with
  | .connecting => ⟨.opened, none⟩
  | _ => s

/-- **Registration** succeeds unless the endpoint is closed, also for an endpoint
that is registered already. -/
def register (s : Status) : Status × Bool :=
  match s.state with
  | .closed => (s, false)
  | _ => (⟨.registered, s.remote⟩, true)

/-- **Closing** keeps the address and tells whether this call was the one that
closed. -/
def close (s : Status) : Status × Bool :=
  match s.state with
  | .closed => (s, false)
  | _ => (⟨.closed, s.remote⟩, true)

@[simp] theorem beginConnect_opened (r : Option Address) (a : Address) :
    beginConnect ⟨.opened, r⟩ a = .ok ⟨.connecting, some a⟩ := rfl

/-- An attempt is refused exactly outside the open state. -/
theorem beginConnect_eq_error_iff (s : Status) (a : Address) (st : State) :
    s.beginConnect a = .error st ↔ s.state = st ∧ st ≠ .opened := by
  unfold beginConnect
  split
  · rename_i h
    simp only [reduceCtorEq, false_iff]
    intro hst
    exact hst.2 (hst.1.symm.trans h)
  · rename_i h
    simp only [Except.error.injEq]
    constructor
    · intro hst
      exact ⟨hst, fun hop => h (hst.trans hop)⟩
    · exact And.left

/-- A status that is not connecting is left alone by a revert. -/
theorem revert_of_ne {s : Status} (h : s.state ≠ .connecting) : s.revert = s := by
  unfold revert
  split
  · contradiction
  · rfl

@[simp] theorem revert_connecting (r : Option Address) :
    revert ⟨.connecting, r⟩ = initial := rfl

/-- Taking an attempt back twice is taking it back once. -/
@[simp] theorem revert_revert (s : Status) : s.revert.revert = s.revert := by
  obtain ⟨st, r⟩ := s
  cases st <;> rfl

/-- Registration reports exactly whether the endpoint was still alive. -/
@[simp] theorem register_snd (s : Status) : s.register.2 = decide (s.state ≠ .closed) := by
  obtain ⟨st, r⟩ := s
  cases st <;> rfl

/-- Closing reports exactly whether the endpoint was still alive. -/
@[simp] theorem close_snd (s : Status) : s.close.2 = decide (s.state ≠ .closed) := by
  obtain ⟨st, r⟩ := s
  cases st <;> rfl

/-- After a close the endpoint is closed. -/
@[simp] theorem close_fst_state (s : Status) : s.close.1.state = .closed := by
  obtain ⟨st, r⟩ := s
  cases st <;> rfl

end Status

end EndpointControl
