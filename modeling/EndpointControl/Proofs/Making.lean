import EndpointControl.Proofs.Once

/-!
# While channels are made

Many threads may be making channels of one factory at once. Here nothing else goes on:
the provider opens what it is asked for, executors take every loop, and no loop that
has been taken gets to run (`Machine.Makes`). Threads may still be interleaved at every
point, and wakes may end in any way.

Then nobody fails. A thread that makes a channel goes through the points of its call,
starts its worker on the way and, for a datagram endpoint, submits its registration
(`Control.Making`). What a step of it does to the factory is next to nothing: it picks a
worker, draws a number, or lets its endpoint come about (`Control.Issues`).
-/

namespace EndpointControl

/-! ## Histories in which channels are made -/

/-- The thread runs a loop. -/
def Control.isLoop : Control → Bool
  | .running (.serve .. :: _) => true
  | _ => false

/-- **Whoever asks is obliged**: multiplexers are opened, and loops are taken. -/
def Happening.Obliges : Happening → Prop
  | .answered (.openMultiplexer ..) reply => ∃ mux, reply = .ok mux
  | .answered (.execute ..) taken => taken = true
  | _ => True

/-- How many multiplexers have been woken. -/
def Happening.wakes : Happening → Nat
  | .answered (.wake ..) _ => 1
  | _ => 0

namespace Machine

/-- **What may happen while channels of a factory are made.** Nobody calls anything
else, no loop gets to run, and whoever asks is obliged. -/
def Permits (m : Machine) (f : FactoryId) : Incident → Prop
  | .stepped t h => (∀ c, m.control? t = some c → c.isLoop = false) ∧ h.Obliges
  | .called _ o => o = .create f
  | .built _ => True

/-- **A history in which channels of a factory are made**, and nothing else. -/
inductive Makes (f : FactoryId) : List Incident → Machine → Prop where
  /-- In the beginning there is nothing. -/
  | empty : Makes f [] .empty
  /-- One thing more happens. -/
  | advance {is : List Incident} {m m' : Machine} {i : Incident} (h : Makes f is m)
    (a : m.Advance i m') (permitted : m.Permits f i) : Makes f (is ++ [i]) m'

variable {m m' : Machine} {is : List Incident} {i : Incident} {f : FactoryId}

theorem Makes.run (h : Makes f is m) : Run is m := by
  induction h with
  | empty => exact .empty
  | advance h a permitted ih => exact a.run ih

end Machine

/-! ## Where the threads can be -/

/-- The start has not failed. -/
def StartPoint.isWell : StartPoint → Bool
  | .leave (.error _) => false
  | _ => true

/-- The submission has not failed, and has found a multiplexer to wake. -/
def SubmitPoint.isWell : SubmitPoint → Bool
  | .starting | .refuse _ | .refused _ => false
  | .serialize none | .takeQueue none | .append none => false
  | _ => true

/-- The call has not failed, and what it has called has returned. -/
def CreatePoint.isWell : CreatePoint → Bool
  | .starting .. | .submitting _ | .failed _ => false
  | _ => true

/-- **Where a thread can be that makes a channel of the factory.** -/
inductive Control.Making (f : FactoryId) : Control → Prop where
  /-- It is in its call. -/
  | create {p : CreatePoint} (h : p.isWell = true) : Making f (.running [.create f p])
  /-- It starts a worker for the endpoint. -/
  | start {w : Nat} {n : UInt64} {p : StartPoint} (h : p.isWell = true) :
    Making f (.running [.start ⟨f, .worker w⟩ p, .create f (.starting w n)])
  /-- It submits the registration of the endpoint. -/
  | submit {l : LoopId} {e : EndpointId} {p : SubmitPoint} (h : p.isWell = true) :
    Making f (.running [.submit l (.registration e) p, .create f (.submitting e)])
  /-- It looks whether the worker has been started, which it has. -/
  | look {l : LoopId} {e : EndpointId} {p : StartPoint}
    (h : p = .readShutDown ∨ p = .readStarted) :
    Making f (.running
      [.start l p, .submit l (.registration e) .starting, .create f (.submitting e)])
  /-- It has made its channel. -/
  | made {e : EndpointId} : Making f (.finished (.created (.ok e)))

/-- **Nothing has been told to end**, nothing has ended, and no factory has let go. -/
structure Store.Undisturbed (s : Store) : Prop where
  shutDown : ∀ l, ¬ s.ShutDown l
  exited : ∀ l, ¬ s.Exited l
  released : ∀ (f : FactoryId) (fac : Factory), s.factories[f]? = some fac → fac.released = false

/-! ## What such a thread has in hand -/

/-- **What a thread has in hand** that makes a channel. -/
structure Hand where
  /-- The worker that it has picked, until its endpoint has come about. -/
  tickets : List Nat
  /-- The number that it has drawn, until its endpoint has come about. -/
  numbers : List UInt64
  /-- The endpoint that has come about for it. -/
  endpoints : List EndpointId
  /-- How many wakes it has still to make. -/
  unwoken : Nat

/-- Nothing in hand. -/
def Hand.empty : Hand := ⟨[], [], [], 0⟩

/-- The worker that the call has picked, until its endpoint has come about. -/
def CreatePoint.ticket : CreatePoint → List Nat
  | .drawNumber w | .start w _ | .starting w _ | .count w _ | .announceBound w _ | .enroll w _ =>
    [w]
  | _ => []

/-- The number that the call has drawn, until its endpoint has come about. -/
def CreatePoint.number : CreatePoint → List UInt64
  | .start _ n | .starting _ n | .count _ n | .announceBound _ n | .enroll _ n => [n]
  | _ => []

/-- The endpoint that has come about for the call. -/
def CreatePoint.endpoint : CreatePoint → List EndpointId
  | .submit e | .submitting e | .announce e => [e]
  | _ => []

/-- The registration has still to be queued and its worker to be woken. -/
def Frame.isUnwoken : Frame → Bool
  | .create _ (.submit _) => true
  | .submit _ _ p =>
    match p with
    | .wakeFailed _ | .leave | .refuse _ | .refused _ => false
    | _ => true
  | _ => false

namespace Control

/-- The workers that have been picked by the thread. -/
def tickets : Control → List Nat
  | .running stack => stack.flatMap fun
    | .create _ p => p.ticket
    | _ => []
  | .finished _ => []

/-- The numbers that have been drawn by the thread. -/
def numbers : Control → List UInt64
  | .running stack => stack.flatMap fun
    | .create _ p => p.number
    | _ => []
  | .finished _ => []

/-- **The endpoints that have come about for the thread.** -/
def endpoints : Control → List EndpointId
  | .running stack => stack.flatMap fun
    | .create _ p => p.endpoint
    | _ => []
  | .finished (.created (.ok e)) => [e]
  | .finished _ => []

/-- How many wakes the thread has still to make. -/
def unwoken : Control → Nat
  | .running stack => stack.countP Frame.isUnwoken
  | .finished _ => 0

/-- **What the thread has in hand.** -/
def hand (c : Control) : Hand := ⟨c.tickets, c.numbers, c.endpoints, c.unwoken⟩

end Control

/-- The cursor of a factory and the number that it gives out next. -/
def Store.issued (s : Store) (f : FactoryId) : UInt64 × UInt64 :=
  ((s.factories[f]?).map fun fac => (fac.cursor, fac.nextNumber)).getD (0, 0)

/-! ## One step of such a thread -/

/-- **What a step does that has to do with channels of the factory.** -/
inductive Control.Issues (f : FactoryId) (s s' : Store) : Control → Control → Prop where
  /-- Nothing. -/
  | aside {c c' : Control} (hissued : s'.issued f = s.issued f)
    (hendpoints : s'.endpoints = s.endpoints) (hhand : c'.hand = c.hand) : Issues f s s' c c'
  /-- It picks a worker. -/
  | picks {fac : Factory} (found : s.factories[f]? = some fac)
    (hissued : s'.issued f = (fac.cursor + 1, fac.nextNumber))
    (hendpoints : s'.endpoints = s.endpoints) :
    Issues f s s' (.running [.create f .pickWorker])
      (.running [.create f (.drawNumber fac.nextWorker)])
  /-- It draws a number. -/
  | draws {fac : Factory} {w : Nat} (found : s.factories[f]? = some fac)
    (hissued : s'.issued f = (fac.cursor, fac.nextNumber + 1))
    (hendpoints : s'.endpoints = s.endpoints) :
    Issues f s s' (.running [.create f (.drawNumber w)])
      (.running [.create f (.start w fac.nextNumber)])
  /-- It lets its endpoint come about. -/
  | enrolls {fac : Factory} {w : Nat} {n : UInt64} {c' : Control}
    (found : s.factories[f]? = some fac) (hissued : s'.issued f = s.issued f)
    (hendpoints : s'.endpoints = s.endpoints.push ⟨f, w, n, .initial⟩)
    (hhand : c'.hand = ⟨[], [], [s.endpoints.size], if fac.flavor = .datagram then 1 else 0⟩) :
    Issues f s s' (.running [.create f (.enroll w n)]) c'

section Procedures

variable {s : Store} {t : ThreadId} {f : FactoryId} {g : Store → Store} {c c' : Control}
  {ns : List Note}

theorem Store.issued_eq {fac : Factory} (h : s.factories[f]? = some fac) :
    s.issued f = (fac.cursor, fac.nextNumber) := by
  rw [issued, h, Option.map_some, Option.getD_some]

theorem Store.issued_modifyFactory (f' : FactoryId) {k : Factory → Factory}
    (h : ∀ fac, ((k fac).cursor, (k fac).nextNumber) = (fac.cursor, fac.nextNumber)) :
    (s.modifyFactory f' k).issued f = s.issued f := by
  simp only [issued, modifyFactory, Array.getElem?_modify]
  split
  · cases s.factories[f]? with
    | none => rfl
    | some fac => exact h fac
  · rfl

theorem Store.issued_modifyLoop (l : LoopId) (k : Loop → Loop) :
    (s.modifyLoop l k).issued f = s.issued f :=
  s.issued_modifyFactory l.factory fun fac => by cases hseat : l.seat <;> simp [Factory.modifyLoop]

/-- **A step of the call.** -/
theorem CreatePoint.making_of_act {p : CreatePoint} {fac : Factory} (hu : s.Undisturbed)
    (found : s.factories[f]? = some fac) (hp : p.isWell = true)
    (h : p.move s [] f fac = .act g c' ns) :
    c'.Making f ∧ (Control.running [.create f p]).Issues f s (g s) c' := by
  cases p with
  | starting | submitting | failed => cases hp
  | readReleased =>
    simp [move, hu.released f fac found] at h
    obtain ⟨rfl, rfl, -⟩ := h
    exact ⟨.create rfl, .aside rfl rfl rfl⟩
  | pickWorker =>
    simp [move] at h
    obtain ⟨rfl, rfl, -⟩ := h
    refine ⟨.create rfl, .picks found ?_ rfl⟩
    simp [Store.issued, Store.modifyFactory, Array.getElem?_modify, found]
  | drawNumber w =>
    simp [move] at h
    obtain ⟨rfl, rfl, -⟩ := h
    refine ⟨.create rfl, .draws found ?_ rfl⟩
    simp [Store.issued, Store.modifyFactory, Array.getElem?_modify, found]
  | start w n =>
    simp [move] at h
    obtain ⟨rfl, rfl, -⟩ := h
    exact ⟨.start rfl, .aside rfl rfl rfl⟩
  | count w n =>
    simp [move] at h
    obtain ⟨rfl, rfl, -⟩ := h
    exact ⟨.create rfl, .aside (s.issued_modifyFactory f fun _ => rfl) rfl rfl⟩
  | announceBound w n =>
    simp [move] at h
    obtain ⟨rfl, rfl, -⟩ := h
    exact ⟨.create rfl, .aside rfl rfl rfl⟩
  | enroll w n =>
    simp [move] at h
    obtain ⟨rfl, rfl, -⟩ := h
    constructor
    · cases fac.flavor <;> exact .create rfl
    · refine .enrolls found rfl rfl ?_
      cases fac.flavor <;> rfl
  | submit e =>
    simp only [move] at h
    split at h <;> simp at h
    obtain ⟨rfl, rfl, -⟩ := h
    exact ⟨.submit rfl, .aside rfl rfl rfl⟩
  | announce e =>
    simp only [move] at h
    split at h <;> simp at h
    obtain ⟨rfl, rfl, -⟩ := h
    exact ⟨.made, .aside rfl rfl rfl⟩

/-- **A step of the start of a worker.** -/
theorem StartPoint.making_of_act {p : StartPoint} {w : Nat} {n : UInt64} {lp : Loop}
    (hu : s.Undisturbed) (found : s.loop? ⟨f, .worker w⟩ = some lp) (hp : p.isWell = true)
    (h : p.move s t [.create f (.starting w n)] ⟨f, .worker w⟩ lp = .act g c' ns) :
    c'.Making f ∧ (Control.running
      [.start ⟨f, .worker w⟩ p, .create f (.starting w n)]).Issues f s (g s) c' := by
  have hdown : lp.shutDown = false := by
    cases hd : lp.shutDown with
    | false => rfl
    | true => exact absurd ⟨lp, found, hd⟩ (hu.shutDown _)
  cases p with
  | openNew | execute => simp [move] at h
  | takeSlot =>
    simp [move] at h
    obtain ⟨-, rfl, rfl, -⟩ := h
    exact ⟨.start rfl, .aside rfl rfl rfl⟩
  | readShutDown | rereadShutDown =>
    simp [move, hdown] at h
    obtain ⟨rfl, rfl, -⟩ := h
    exact ⟨.start rfl, .aside rfl rfl rfl⟩
  | readStarted =>
    simp [move] at h
    obtain ⟨rfl, rfl, -⟩ := h
    split
    · exact ⟨.create rfl, .aside rfl rfl rfl⟩
    · exact ⟨.start rfl, .aside rfl rfl rfl⟩
  | rereadStarted =>
    simp [move] at h
    obtain ⟨rfl, rfl, -⟩ := h
    split <;> exact ⟨.start rfl, .aside rfl rfl rfl⟩
  | inspectSlot =>
    simp [move] at h
    obtain ⟨rfl, rfl, -⟩ := h
    cases lp.slot <;> exact ⟨.start rfl, .aside rfl rfl rfl⟩
  | fillSlot mux | mark =>
    simp [move] at h
    obtain ⟨rfl, rfl, -⟩ := h
    exact ⟨.start rfl, .aside (s.issued_modifyLoop _ _) rfl rfl⟩
  | announce =>
    simp [move] at h
    obtain ⟨rfl, rfl, -⟩ := h
    exact ⟨.start rfl, .aside rfl rfl rfl⟩
  | leave r =>
    cases r with
    | error e => cases hp
    | ok =>
      simp [move] at h
      obtain ⟨rfl, rfl, -⟩ := h
      exact ⟨.create rfl, .aside rfl rfl rfl⟩

/-- **A step of the submission of a registration.** Its worker has been started, so there is
a multiplexer to wake. -/
theorem SubmitPoint.making_of_act {p : SubmitPoint} {l : LoopId} {e : EndpointId} {lp : Loop}
    (hu : s.Undisturbed) (found : s.loop? l = some lp) (hp : p.isWell = true)
    (hslot : p = .readSlot → lp.slot.isSome = true)
    (h : p.move s t [.create f (.submitting e)] l lp (.registration e) = .act g c' ns) :
    c'.Making f ∧ (Control.running
      [.submit l (.registration e) p, .create f (.submitting e)]).Issues f s (g s) c' := by
  have hdown : lp.shutDown = false := by
    cases hd : lp.shutDown with
    | false => rfl
    | true => exact absurd ⟨lp, found, hd⟩ (hu.shutDown _)
  cases p with
  | starting | refuse | refused => cases hp
  | wake => simp [move] at h
  | start =>
    simp [move] at h
    obtain ⟨rfl, rfl, -⟩ := h
    exact ⟨.look (.inl rfl), .aside rfl rfl rfl⟩
  | readShutDown =>
    simp [move, hdown] at h
    obtain ⟨rfl, rfl, -⟩ := h
    exact ⟨.submit rfl, .aside rfl rfl rfl⟩
  | takeSlot =>
    simp [move] at h
    obtain ⟨-, rfl, rfl, -⟩ := h
    exact ⟨.submit rfl, .aside rfl rfl rfl⟩
  | readSlot =>
    obtain ⟨mux, hmux⟩ := Option.isSome_iff_exists.mp (hslot rfl)
    simp [move, hmux] at h
    obtain ⟨rfl, rfl, -⟩ := h
    exact ⟨.submit rfl, .aside rfl rfl rfl⟩
  | serialize mo =>
    cases mo with
    | none => cases hp
    | some mux =>
      simp only [move] at h
      split at h <;> simp at h
      · obtain ⟨-, rfl, rfl, -⟩ := h
        exact ⟨.submit rfl, .aside rfl rfl rfl⟩
      · obtain ⟨rfl, rfl, -⟩ := h
        exact ⟨.submit rfl, .aside rfl rfl rfl⟩
  | takeQueue mo =>
    cases mo with
    | none => cases hp
    | some mux =>
      simp [move] at h
      obtain ⟨-, rfl, rfl, -⟩ := h
      exact ⟨.submit rfl, .aside rfl rfl rfl⟩
  | append mo =>
    cases mo with
    | none => cases hp
    | some mux =>
      simp [move] at h
      obtain ⟨rfl, rfl, -⟩ := h
      exact ⟨.submit rfl, .aside (s.issued_modifyLoop _ _) rfl rfl⟩
  | wakeFailed cause =>
    simp [move] at h
    obtain ⟨rfl, rfl, -⟩ := h
    exact ⟨.submit rfl, .aside rfl rfl rfl⟩
  | leave =>
    simp only [move] at h
    split at h <;> simp at h
    all_goals
      obtain ⟨rfl, rfl, -⟩ := h
      exact ⟨.create rfl, .aside rfl rfl rfl⟩

/-- **A look at a worker that has been started** finds that it has. -/
theorem StartPoint.look_of_act {p : StartPoint} {l : LoopId} {e : EndpointId} {lp : Loop}
    (hu : s.Undisturbed) (found : s.loop? l = some lp) (hstarted : lp.started = true)
    (hp : p = .readShutDown ∨ p = .readStarted)
    (h : p.move s t [.submit l (.registration e) .starting, .create f (.submitting e)] l lp
      = .act g c' ns) :
    c'.Making f ∧ (Control.running [.start l p, .submit l (.registration e) .starting,
      .create f (.submitting e)]).Issues f s (g s) c' := by
  have hdown : lp.shutDown = false := by
    cases hd : lp.shutDown with
    | false => rfl
    | true => exact absurd ⟨lp, found, hd⟩ (hu.shutDown _)
  rcases hp with rfl | rfl
  · simp [move, hdown] at h
    obtain ⟨rfl, rfl, -⟩ := h
    exact ⟨.look (.inr rfl), .aside rfl rfl rfl⟩
  · simp [move, hstarted] at h
    obtain ⟨rfl, rfl, -⟩ := h
    exact ⟨.submit rfl, .aside rfl rfl rfl⟩

/-- **A step of a thread that makes a channel.** -/
theorem Control.Making.act (hm : c.Making f) (hu : s.Undisturbed) (hs : s.Sound) (hc : c.Sound s)
    (hslot : ∀ l, s.Started l → (s.slot? l).isSome = true)
    (h : c.move s t = .act g c' ns) : c'.Making f ∧ c.Issues f s (g s) c' := by
  cases hm with
  | made => cases h
  | create hp =>
    cases moves_of_running h with
    | create found h => exact CreatePoint.making_of_act hu found hp h
  | start hp =>
    cases moves_of_running h with
    | start found h => exact StartPoint.making_of_act hu found hp h
  | @submit l e p hp =>
    cases moves_of_running h with
    | submit found h =>
      refine SubmitPoint.making_of_act hu found hp (fun hpoint => ?_) h
      subst hpoint
      rw [← Store.slot?_eq found]
      exact hslot l hc.1.2
  | @look l e p hp =>
    cases moves_of_running h with
    | start found h =>
      -- the endpoint is bound to a worker that has been started
      obtain ⟨r, hr, rfl⟩ := hc.2.2.2.1.1
      exact StartPoint.look_of_act hu found ((Store.started_iff found).mp (hs.bound hr)) hp h

/-- **An answer to such a thread.** It has woken its worker if that is what it asked for. -/
theorem Control.Making.ask {q : Request} {after : q.Reply → Control} {reply : q.Reply}
    (hm : c.Making f) (h : c.move s t = .ask q after)
    (hobliges : (Happening.answered q reply).Obliges) :
    (after reply).Making f ∧ c.hand = { (after reply).hand with
      unwoken := (after reply).hand.unwoken + (Happening.answered q reply).wakes } := by
  cases hm with
  | made => cases h
  | create hp =>
    obtain ⟨fr, below, heq, ha⟩ := asks h
    cases heq
    cases ha
  | look hp =>
    obtain ⟨fr, below, heq, ha⟩ := asks h
    cases heq
    rcases hp with rfl | rfl <;> cases ha
  | start hp =>
    obtain ⟨fr, below, heq, ha⟩ := asks h
    cases heq
    cases ha with
    | openNew =>
      obtain ⟨mux, rfl⟩ := hobliges
      exact ⟨.start rfl, rfl⟩
    | execute =>
      obtain rfl := show reply = true from hobliges
      exact ⟨.start rfl, rfl⟩
  | submit hp =>
    obtain ⟨fr, below, heq, ha⟩ := asks h
    cases heq
    cases ha with
    | wakeSubmit => cases reply <;> exact ⟨.submit rfl, rfl⟩

/-- **Such a thread tells no loop to end**, and lets no factory go. -/
theorem Control.Making.undisturbed (hm : c.Making f) (hu : s.Undisturbed)
    (h : c.move s t = .act g c' ns) : (g s).Undisturbed := by
  have hflags := flags_of_act h
  refine ⟨fun l hd => ?_, fun l he => ?_, fun f' fac' hf' => ?_⟩
  · rcases hflags.shutDown l hd with hd | ⟨below, rfl⟩
    · exact hu.shutDown l hd
    · cases hm
  · rcases hflags.exited l he with he | ⟨mux, n, below, rfl⟩
    · exact hu.exited l he
    · cases hm
  · by_contra hrel
    rcases hflags.released f' fac' hf' (eq_true_of_ne_false hrel) with ⟨fac, hf, hr⟩ | ⟨below, rfl⟩
    · cases (hu.released f' fac hf).symm.trans hr
    · cases hm

theorem Store.Undisturbed.build (hu : s.Undisturbed) (b : Blueprint) :
    (s.build b).Undisturbed := by
  have hflags : Flags s (.finished .served) (s.build b) := Flags.build b
  refine ⟨fun l hd => ?_, fun l he => ?_, fun f' fac' hf' => ?_⟩
  · rcases hflags.shutDown l hd with hd | ⟨below, h⟩
    · exact hu.shutDown l hd
    · cases h
  · rcases hflags.exited l he with he | ⟨mux, n, below, h⟩
    · exact hu.exited l he
    · cases h
  · by_contra hrel
    rcases hflags.released f' fac' hf' (eq_true_of_ne_false hrel) with ⟨fac, hf, hr⟩ | ⟨below, h⟩
    · cases (hu.released f' fac hf).symm.trans hr
    · cases h

theorem Control.Making.isLoop (hm : c.Making f) : c.isLoop = false := by
  cases hm <;> rfl

namespace Machine

variable {m m' : Machine} {is : List Incident} {i : Incident}

/-- **Where everybody is while channels are made**: nothing has been disturbed, and every
thread makes a channel or is a loop that does not run. -/
structure AtWork (m : Machine) (f : FactoryId) : Prop where
  undisturbed : m.store.Undisturbed
  making : ∀ {t c}, m.control? t = some c →
    c.Making f ∨ ∃ l mux, c = .running [.serve l mux .announce]

/-- Whoever may move makes a channel. -/
theorem AtWork.of_moves (h : m.AtWork f) {hap : Happening}
    (permitted : m.Permits f (.stepped t hap)) (hc : m.control? t = some c) : c.Making f := by
  rcases h.making hc with h | ⟨l, mux, rfl⟩
  · exact h
  · exact absurd (permitted.1 _ hc) nofun

theorem AtWork.empty : Machine.empty.AtWork f where
  undisturbed := by
    refine ⟨?_, ?_, ?_⟩
    · rintro l ⟨lp, hl, -⟩
      simp [Machine.empty, Store.empty, Store.loop?] at hl
    · rintro l ⟨lp, hl, -⟩
      simp [Machine.empty, Store.empty, Store.loop?] at hl
    · intro f' fac hf
      simp [Machine.empty, Store.empty] at hf
  making := fun hc => by simp [Machine.empty, control?] at hc

/-- A new thread that makes a channel is at work as well, and a new loop does not run. -/
theorem AtWork.spawn (h : m.AtWork f) (home : Option ExecutorId)
    (hc : c.Making f ∨ ∃ l mux, c = .running [.serve l mux .announce]) :
    (m.spawn home c).AtWork f where
  undisturbed := h.undisturbed
  making := fun {t d} hd => by
    rw [control?_spawn] at hd
    split at hd
    · cases hd
      exact hc
    · exact h.making hd

/-- A thread that goes on making its channel. -/
theorem AtWork.setControl (h : m.AtWork f) (hc' : c'.Making f) :
    (m.setControl t c').AtWork f where
  undisturbed := h.undisturbed
  making := fun {t' d} hd => by
    rw [control?_setControl] at hd
    split at hd
    · obtain ⟨-, -, rfl⟩ := Option.map_eq_some_iff.mp hd
      exact .inl hc'
    · exact h.making hd

theorem AtWork.of_store (h : m.AtWork f) {s : Store} (hu : s.Undisturbed) :
    AtWork ⟨s, m.threads⟩ f where
  undisturbed := hu
  making := fun hc => h.making hc

/-- **While channels are made everybody is at work.** -/
theorem Makes.atWork (h : Makes f is m) : m.AtWork f := by
  induction h with
  | empty => exact .empty
  | @advance is m m' i h a permitted ih =>
    obtain ⟨hs, hsound⟩ := h.run.reachable.sound
    have hslot (l : LoopId) (hstarted : m.store.Started l) :=
      (h.run.traffic.slot_of_started hstarted).1
    cases a with
    | act hc hmove =>
      have hmaking := ih.of_moves permitted hc
      exact (ih.setControl (hmaking.act ih.undisturbed hs (hsound _ _ hc) hslot hmove).1).of_store
        (hmaking.undisturbed ih.undisturbed hmove)
    | @answer t c q after hc hmove reply =>
      have hset := ih.setControl (t := t) ((ih.of_moves permitted hc).ask hmove permitted.2).1
      rcases m.answer_eq t q after reply with heq | ⟨x, l, mux, -, heq⟩
      · exact heq ▸ hset
      · exact heq ▸ hset.spawn (some x) (.inr ⟨l, mux, rfl⟩)
    | call home o =>
      cases permitted
      exact ih.spawn home (.inl (.create rfl))
    | build b => exact ih.of_store (ih.undisturbed.build b)

end Machine

end Procedures

end EndpointControl
