import EndpointControl.Factory
import EndpointControl.Locks

/-!
# The store

The store is the memory that the threads share: all factories, all endpoints, and
the locks. A thread changes it one access at a time – one flag, one counter, or
what one lock guards – so a store is what everybody can see between two such
accesses.

There are four kinds of lock. Each loop has three, for its slot, for its queue,
and one that queueing and draining take in turn at the levels that ask for it;
each endpoint has one for its status.
-/

namespace EndpointControl

/-- **An endpoint**: the worker it is bound to for life, its number within its
factory, and its status. -/
structure Endpoint where
  /-- The factory that made it. -/
  factory : FactoryId
  /-- The worker it is bound to. -/
  worker : Nat
  /-- Its number within its factory. -/
  number : UInt64
  /-- Where it is in its life. -/
  status : Status
  deriving DecidableEq, Repr

/-- The loop of the worker that the endpoint is bound to. -/
def Endpoint.home (e : Endpoint) : LoopId := ⟨e.factory, .worker e.worker⟩

/-- The loop of the boss that handles the attempts of the endpoint. -/
def Endpoint.boss (e : Endpoint) : LoopId := ⟨e.factory, .boss⟩

/-- **The locks there are.** -/
inductive Lock where
  /-- Guards the slot of a loop. -/
  | slot (loop : LoopId)
  /-- Keeps queueing for a loop and draining its queue apart. -/
  | registration (loop : LoopId)
  /-- Guards the queue of a loop. -/
  | queue (loop : LoopId)
  /-- Guards the status of an endpoint. -/
  | status (endpoint : EndpointId)
  deriving DecidableEq, Repr

/-- **The memory that the threads share.** -/
structure Store where
  /-- The factories, in the order in which they were built. -/
  factories : Array Factory
  /-- The endpoints, in the order in which they came about. -/
  endpoints : Array Endpoint
  /-- Who holds which lock. -/
  locks : LockTable Lock
  deriving DecidableEq, Repr

namespace Store

/-- The store in which nothing has been built. -/
def empty : Store := ⟨#[], #[], .free⟩

/-- The loop, if there is such a one. -/
def loop? (s : Store) (l : LoopId) : Option Loop :=
  s.factories[l.factory]?.bind (·.loop? l.seat)

/-- Changes one factory. -/
def modifyFactory (s : Store) (f : FactoryId) (g : Factory → Factory) : Store :=
  { s with factories := s.factories.modify f g }

/-- Changes one loop. -/
def modifyLoop (s : Store) (l : LoopId) (g : Loop → Loop) : Store :=
  s.modifyFactory l.factory fun f => f.modifyLoop l.seat g

/-- Changes the status of one endpoint. -/
def setStatus (s : Store) (e : EndpointId) (st : Status) : Store :=
  { s with endpoints := s.endpoints.modify e fun r => { r with status := st } }

/-- The thread takes the lock. -/
def takeLock (s : Store) (l : Lock) (t : ThreadId) : Store :=
  { s with locks := s.locks.take l t }

/-- The lock is given back. -/
def giveLock (s : Store) (l : Lock) : Store := { s with locks := s.locks.give l }

/-- **Building a factory adds it with every loop idle** and touches nothing
else. -/
def build (s : Store) (b : Blueprint) : Store :=
  { s with factories := s.factories.push (.ofBlueprint b) }

/-- A new endpoint of a factory, bound to one of its workers. -/
def enroll (s : Store) (f : FactoryId) (worker : Nat) (number : UInt64) : Store :=
  { s with endpoints := s.endpoints.push ⟨f, worker, number, .initial⟩ }

/-! ## What each change leaves alone -/

section Frame

variable (s : Store) (l l' : LoopId) (k : Lock) (t : ThreadId)

@[simp] theorem loop?_takeLock : (s.takeLock k t).loop? l = s.loop? l := rfl

@[simp] theorem loop?_giveLock : (s.giveLock k).loop? l = s.loop? l := rfl

@[simp] theorem loop?_setStatus (e : EndpointId) (st : Status) :
    (s.setStatus e st).loop? l = s.loop? l := rfl

@[simp] theorem loop?_enroll (f : FactoryId) (w : Nat) (n : UInt64) :
    (s.enroll f w n).loop? l = s.loop? l := rfl

@[simp] theorem locks_modifyLoop (g : Loop → Loop) : (s.modifyLoop l g).locks = s.locks := rfl

@[simp] theorem endpoints_modifyLoop (g : Loop → Loop) :
    (s.modifyLoop l g).endpoints = s.endpoints := rfl

/-- **Changing a loop changes that loop and no other.** -/
theorem loop?_modifyLoop (g : Loop → Loop) :
    (s.modifyLoop l g).loop? l' = if l = l' then (s.loop? l').map g else s.loop? l' := by
  obtain ⟨f, st⟩ := l
  obtain ⟨f', st'⟩ := l'
  simp only [loop?, modifyLoop, modifyFactory, Array.getElem?_modify, LoopId.mk.injEq]
  by_cases hf : f = f'
  · subst hf
    cases h : s.factories[f]? with
    | none => simp
    | some fac => simp [Factory.loop?_modifyLoop]
  · simp [hf]

end Frame

end Store

end EndpointControl
