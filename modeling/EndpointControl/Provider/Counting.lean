import EndpointControl.Provider

/-!
# A provider that counts

A counting provider opens multiplexers on which nothing ever happens but
wake-ups, and counts what is asked of it: every attempt to open, also a failed
one, and every wake-up that reached one of its multiplexers. It counts in numbers;
words show the same until there have been 2^64 uses. It can be told to fail every
attempt.

A wake-up stays pending until the next wait takes it away. However many came
since the last wait, one is pending; a wait reports no events, with or without
one.

`CountingProvider` is one such provider together with its multiplexers. What
clients hold are handles, and several handles may lead to one provider: `Handles`
is a set of handles that came about by copying, which shares the provider, and by
attaching a version, which makes a new one.
-/

namespace EndpointControl

/-- **A provider that counts what is asked of it.** -/
structure CountingProvider where
  /-- What it says it is. -/
  identity : Identity
  /-- It fails every attempt to open. -/
  failing : Bool
  /-- The attempts to open so far. -/
  opens : Nat
  /-- The wake-ups delivered so far. -/
  wakes : Nat
  /-- For each of its multiplexers, whether a wake-up is pending. -/
  pending : Array Bool
  deriving DecidableEq, Repr

namespace CountingProvider

/-- A provider of which nothing has been asked. -/
def fresh (identity : Identity) (failing : Bool) : CountingProvider :=
  ⟨identity, failing, 0, 0, #[]⟩

/-- A new provider like this one, with a version. It shares nothing. -/
def withVersion (p : CountingProvider) (version : String) : CountingProvider :=
  fresh { p.identity with version := some version } p.failing

/-- What a failing provider says. -/
def failureText (p : CountingProvider) : String := p.identity.text ++ " is configured to fail"

/-- **An attempt to open**: the number of the new multiplexer, or the cause of the
failure. It counts either way. -/
def openNext (p : CountingProvider) : CountingProvider × Except String Nat :=
  if p.failing then ({ p with opens := p.opens + 1 }, .error p.failureText)
  else ({ p with opens := p.opens + 1, pending := p.pending.push false }, .ok p.pending.size)

/-- **A wake-up** is counted and stays pending. -/
def wake (p : CountingProvider) (number : Nat) : CountingProvider :=
  { p with wakes := p.wakes + 1, pending := p.pending.modify number fun _ => true }

/-- **A wait** takes the pending wake-up away. -/
def wait (p : CountingProvider) (number : Nat) : CountingProvider :=
  { p with pending := p.pending.modify number fun _ => false }

/-- A wake-up is pending on the multiplexer. -/
def isPending (p : CountingProvider) (number : Nat) : Bool := (p.pending[number]?).getD false

@[simp] theorem opens_openNext (p : CountingProvider) : p.openNext.1.opens = p.opens + 1 := by
  unfold openNext
  split <;> rfl

@[simp] theorem wakes_openNext (p : CountingProvider) : p.openNext.1.wakes = p.wakes := by
  unfold openNext
  split <;> rfl

@[simp] theorem wakes_wake (p : CountingProvider) (n : Nat) : (p.wake n).wakes = p.wakes + 1 := rfl

@[simp] theorem identity_openNext (p : CountingProvider) :
    p.openNext.1.identity = p.identity := by
  unfold openNext
  split <;> rfl

@[simp] theorem failing_openNext (p : CountingProvider) : p.openNext.1.failing = p.failing := by
  unfold openNext
  split <;> rfl

theorem size_pending_openNext (p : CountingProvider) :
    p.pending.size ≤ p.openNext.1.pending.size := by
  unfold openNext
  split
  · exact Nat.le_refl _
  · simp

@[simp] theorem size_pending_wake (p : CountingProvider) (n : Nat) :
    (p.wake n).pending.size = p.pending.size := Array.size_modify

@[simp] theorem size_pending_wait (p : CountingProvider) (n : Nat) :
    (p.wait n).pending.size = p.pending.size := Array.size_modify

/-- Opening another multiplexer leaves a pending wake-up pending, and sends none. -/
@[simp] theorem isPending_openNext (p : CountingProvider) (n : Nat) :
    p.openNext.1.isPending n = p.isPending n := by
  unfold openNext
  split
  · rfl
  · simp only [isPending, Array.getElem?_push]
    split
    · rename_i hn
      simp [hn]
    · rfl

/-- A wake-up is pending where it went and changes nothing elsewhere. -/
theorem isPending_wake (p : CountingProvider) (n k : Nat) :
    (p.wake n).isPending k = if n = k ∧ k < p.pending.size then true else p.isPending k := by
  simp only [isPending, wake, Array.getElem?_modify]
  by_cases h : n = k
  · subst h
    by_cases hk : n < p.pending.size <;> simp [hk]
  · simp [h]

/-- A wait takes away what is pending on its multiplexer and nothing else. -/
theorem isPending_wait (p : CountingProvider) (n k : Nat) :
    (p.wait n).isPending k = if n = k then false else p.isPending k := by
  simp only [isPending, wait, Array.getElem?_modify]
  by_cases h : n = k
  · subst h
    by_cases hk : n < p.pending.size <;> simp [hk]
  · simp [h]

end CountingProvider

/-! ## Handles -/

/-- **Handles to counting providers**, and the multiplexers opened through
them. -/
structure Handles where
  /-- The providers. -/
  providers : Array CountingProvider
  /-- For each handle, the provider it leads to. -/
  handles : Array Nat
  /-- For each multiplexer, its provider and its number there. -/
  muxes : Array (Nat × Nat)
  deriving DecidableEq, Repr

/-- **What can be done with handles and multiplexers.** -/
inductive HandleUse where
  /-- Copy a handle. -/
  | copy (handle : Nat)
  /-- Attach a version to what a handle leads to. -/
  | attach (handle : Nat) (version : String)
  /-- Open a multiplexer. -/
  | openThrough (handle : Nat)
  /-- Wake a multiplexer. -/
  | wake (mux : Nat)
  /-- Wait on a multiplexer, with or without a limit of time. -/
  | wait (mux : Nat) (limited : Bool)
  deriving DecidableEq, Repr

/-- **What comes of it.** -/
inductive HandleResult where
  /-- It was done. -/
  | done
  /-- A multiplexer was opened; this is its number. -/
  | opened (mux : Nat)
  /-- Opening failed. -/
  | failed (cause : String)
  /-- The wait ended with this many events. -/
  | events (count : Nat)
  /-- The wait would not have ended. -/
  | wouldBlock
  /-- There is no such handle or multiplexer. -/
  | noSuch
  deriving DecidableEq, Repr

namespace Handles

/-- One handle to one provider. -/
def single (p : CountingProvider) : Handles := ⟨#[p], #[0], #[]⟩

/-- The provider that the handle leads to. -/
def provider? (h : Handles) (handle : Nat) : Option (Nat × CountingProvider) :=
  h.handles[handle]?.bind fun g => h.providers[g]?.map fun p => (g, p)

/-- Changes one provider. -/
def modify (h : Handles) (g : Nat) (f : CountingProvider → CountingProvider) : Handles :=
  { h with providers := h.providers.modify g f }

/-- **One use.** -/
def use (h : Handles) : HandleUse → Handles × HandleResult
  | .copy k =>
    match h.provider? k with
    | some (g, _) => ({ h with handles := h.handles.push g }, .done)
    | none => (h, .noSuch)
  | .attach k v =>
    match h.provider? k with
    | some (_, p) =>
      ({ h with
          providers := h.providers.push (p.withVersion v)
          handles := h.handles.push h.providers.size }, .done)
    | none => (h, .noSuch)
  | .openThrough k =>
    match h.provider? k with
    | some (g, p) =>
      match p.openNext with
      | (p', .ok n) =>
        ({ h.modify g (fun _ => p') with muxes := h.muxes.push (g, n) }, .opened h.muxes.size)
      | (p', .error cause) => (h.modify g fun _ => p', .failed cause)
    | none => (h, .noSuch)
  | .wake m =>
    match h.muxes[m]? with
    | some (g, n) => (h.modify g (·.wake n), .done)
    | none => (h, .noSuch)
  | .wait m limited =>
    match h.muxes[m]? with
    | some (g, n) =>
      if limited || (h.providers[g]?.map (·.isPending n)).getD false then
        (h.modify g (·.wait n), .events 0)
      else (h, .wouldBlock)
    | none => (h, .noSuch)

/-- For each handle, its provider as it is now. -/
def views (h : Handles) : List CountingProvider :=
  h.handles.toList.filterMap fun g => h.providers[g]?

/-- For each multiplexer, whether a wake-up is pending. -/
def pending (h : Handles) : List Bool :=
  h.muxes.toList.map fun m => (h.providers[m.1]?.map (·.isPending m.2)).getD false

end Handles

end EndpointControl
