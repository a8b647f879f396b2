import EndpointControl.Proofs.Serving

/-!
# When anybody may call anything

A history begins with the operations of clients, and what these call in turn is
laid down by the library. What is said of a single loop is meant for more than
that: however many threads start it, submit to it and tell it to end, and in
whatever order. So `Machine.Unfolds` lets incidents happen as they do in a history
and lets anybody call any procedure in between; `Machine.Traffic` is what unfolds
from the empty machine. Every history is traffic (`Machine.Run.traffic`), and what
holds of all traffic holds of a loop in any surroundings.

A direct call leaves nothing in the history: it is seen by what its thread does.
What remains of the order of stacks is that a caller awaits what stands on it
(`Machine.Traffic.stacked`).
-/

namespace EndpointControl

namespace Machine

/-! ## Traffic -/

/-- **Incidents and direct calls lead from one machine to another.** -/
inductive Unfolds (m : Machine) : List Incident → Machine → Prop where
  /-- Nothing happens. -/
  | refl : Unfolds m [] m
  /-- One thing more happens. -/
  | advance {is : List Incident} {m' m'' : Machine} {i : Incident} (h : Unfolds m is m')
    (a : m'.Advance i m'') : Unfolds m (is ++ [i]) m''
  /-- Somebody calls a procedure. -/
  | use {is : List Incident} {m' : Machine} (h : Unfolds m is m') (home : Option ExecutorId)
    {fr : Frame} (hnew : fr.isNew = true) : Unfolds m is (m'.spawn home (.running [fr]))

/-- **What can have happened when anybody may call anything**, and the machine that
it leads to. -/
def Traffic (is : List Incident) (m : Machine) : Prop := empty.Unfolds is m

variable {m m' m'' : Machine} {i : Incident} {is is' : List Incident}

theorem Unfolds.trans (h : m.Unfolds is m') (h' : m'.Unfolds is' m'') :
    m.Unfolds (is ++ is') m'' := by
  induction h' with
  | refl => rwa [List.append_nil]
  | advance _ a ih =>
    rw [← List.append_assoc]
    exact ih.advance a
  | use _ home hnew ih => exact ih.use home hnew

theorem Unfolds.grows (h : m.Unfolds is m') : m.store.Grows m'.store := by
  induction h with
  | refl => exact .refl _
  | advance _ a ih => exact ih.trans a.grows
  | use _ home hnew ih => exact ih

/-- What happens can be cut around any incident. -/
theorem Unfolds.split (h : m.Unfolds (is ++ i :: is') m'') :
    ∃ m₁ m₂, m.Unfolds is m₁ ∧ m₁.Advance i m₂ ∧ m₂.Unfolds is' m'' := by
  generalize heq : is ++ i :: is' = js at h
  induction h generalizing is' with
  | refl => exact absurd heq (by simp)
  | @advance js m₁ m₂ i' h a ih =>
    rcases List.eq_nil_or_concat is' with rfl | ⟨is', i'', rfl⟩
    · obtain ⟨rfl, hi⟩ := List.append_inj' heq rfl
      obtain rfl := List.singleton_inj.mp hi
      exact ⟨m₁, m₂, h, a, .refl⟩
    · rw [List.concat_eq_append, ← List.cons_append, ← List.append_assoc] at heq
      obtain ⟨rfl, hi⟩ := List.append_inj' heq rfl
      obtain rfl := List.singleton_inj.mp hi
      obtain ⟨m', m'', h₁, ha, h₂⟩ := ih rfl
      exact ⟨m', m'', h₁, ha, by rw [List.concat_eq_append]; exact h₂.advance a⟩
  | use h home hnew ih =>
    obtain ⟨m', m'', h₁, ha, h₂⟩ := ih heq
    exact ⟨m', m'', h₁, ha, h₂.use home hnew⟩

theorem Leads.unfolds (h : m.Leads is m') : m.Unfolds is m' := by
  induction h with
  | refl => exact .refl
  | advance _ a ih => exact ih.advance a

theorem Traffic.unfolds (h : Traffic is m) (h' : m.Unfolds is' m') : Traffic (is ++ is') m' :=
  Unfolds.trans h h'

theorem Traffic.advance (h : Traffic is m) (a : m.Advance i m') : Traffic (is ++ [i]) m' :=
  Unfolds.advance h a

/-- **Every history is traffic.** -/
theorem Run.traffic (r : Run is m) : Traffic is m :=
  r.induction (motive := Traffic) .refl fun _ ih a => ih.advance a

/-- **Induction over traffic**, incident by incident and call by call. -/
theorem Traffic.induction {motive : List Incident → Machine → Prop} (empty : motive [] .empty)
    (advance : ∀ {is m i m'}, Traffic is m → motive is m → m.Advance i m' → motive (is ++ [i]) m')
    (use : ∀ {is m fr} home, Traffic is m → motive is m → fr.isNew = true →
      motive is (m.spawn home (.running [fr]))) (h : Traffic is m) : motive is m := by
  unfold Traffic at h
  induction h with
  | refl => exact empty
  | advance h a ih => exact advance h ih a
  | use h home hnew ih => exact use home h ih hnew

end Machine

/-! ## Who awaits whom -/

namespace Frame

theorem SameCall.rfl {fr : Frame} : SameCall fr fr := by cases fr <;> constructor

theorem SameCall.trans {a b c : Frame} (h : SameCall a b) (h' : SameCall b c) : SameCall a c := by
  cases h <;> cases h' <;> constructor

/-- **A caller awaits the return of what it has called**, and has called nothing
but this. -/
def Awaits (caller callee : Frame) : Prop :=
  match caller with
  | .submit l _ .starting => SameCall (.start l .readShutDown) callee
  | .submit _ j (.refused _) => SameCall (.ofDropped j) callee
  | .create f (.starting w _) => SameCall (.start ⟨f, .worker w⟩ .readShutDown) callee
  | .create _ (.submitting e) => ∃ l, SameCall (.submit l (.registration e) .start) callee
  | .connect e a .submitting => ∃ l, SameCall (.submit l (.attempt e a) .start) callee
  | .attempt e _ .submitting => ∃ l, SameCall (.submit l (.registration e) .start) callee
  | .attempt e _ .leave => SameCall (.drop e .takeStatus) callee
  | .serve _ _ (.run ..) => ∃ j, SameCall (.ofJob j) callee
  | .serve _ _ (.discard ..) => ∃ j, SameCall (.ofDropped j) callee
  | .release f (.signalWorkers _) => ∃ st, SameCall (.signal ⟨f, st⟩ .raise) callee
  | _ => False

/-- **Each procedure of a stack awaits the one that stands on it.** -/
def Stacked : Frame → List Frame → Prop
  | _, [] => True
  | callee, caller :: rest => caller.Awaits callee ∧ caller.Stacked rest

variable {fr fr' : Frame} {below : List Frame}

theorem Awaits.congr {caller : Frame} (h : caller.Awaits fr) (hsame : fr.SameCall fr') :
    caller.Awaits fr' := by
  unfold Awaits at h ⊢
  split at h
  all_goals first | exact h.trans hsame | exact h.imp fun _ h => h.trans hsame | exact h

theorem Stacked.congr (h : fr.Stacked below) (hsame : fr.SameCall fr') : fr'.Stacked below := by
  cases below with
  | nil => trivial
  | cons caller rest => exact ⟨h.1.congr hsame, h.2⟩

/-- Nobody calls what only clients call, and what only executors run. -/
theorem Awaits.isRoot {caller : Frame} (h : caller.Awaits fr) : fr.isRoot = false := by
  unfold Awaits at h
  split at h
  case h_8 => obtain ⟨j, h⟩ := h; cases j <;> cases h <;> rfl
  case h_11 => exact h.elim
  all_goals first | (cases h; rfl) | (obtain ⟨_, h⟩ := h; cases h; rfl)

/-- Nothing stands below a procedure that nobody calls. -/
theorem Stacked.eq_nil (h : fr.Stacked below) (hr : fr.isRoot = true) : below = [] := by
  cases below with
  | nil => rfl
  | cons caller rest => exact absurd (hr.symm.trans h.1.isRoot) nofun

end Frame

/-- **The stack of the thread is in order.** -/
def Control.Stacked : Control → Prop
  | .running (fr :: below) => fr.Stacked below
  | _ => True

section Procedures

variable {s : Store} {t : ThreadId} {fr fr' callee : Frame} {below : List Frame}
  {g : Store → Store} {c c' : Control} {ns : List Note}

/-- A return calls nobody. -/
@[simp] theorem Control.call_ne_back (r : Except Failure Unit) :
    .running (callee :: fr' :: below) ≠ back below r := by
  cases below with
  | nil => exact nofun
  | cons caller rest =>
    intro h
    have hlength := congrArg List.length (Control.running.inj h)
    simp at hlength
    omega

/-- **Whoever calls awaits what it calls.** -/
theorem Control.awaits_of_calls
    (h : (Control.running (fr :: below)).move s t = .act g (.running (callee :: fr' :: below)) ns) :
    fr'.Awaits callee := by
  cases moves_of_running h with
  | @start _ _ p found hp =>
    cases p <;> simp [StartPoint.move] at hp
    all_goals split at hp <;> simp at hp
  | @submit _ _ _ p found hp =>
    cases p <;> simp [SubmitPoint.move] at hp
    case start => obtain ⟨-, ⟨rfl, rfl⟩, -⟩ := hp; exact .start
    case refuse => obtain ⟨-, ⟨rfl, rfl⟩, -⟩ := hp; exact .drop
    all_goals split at hp <;> simp at hp
  | @signal _ _ p found hp =>
    cases p <;> simp [SignalPoint.move] at hp
    split at hp <;> simp at hp
  | @serve _ _ _ p found hp =>
    cases p
    case run batch n =>
      cases batch <;> simp [ServePoint.move] at hp
      obtain ⟨-, ⟨rfl, rfl⟩, -⟩ := hp
      exact ⟨_, .rfl⟩
    case report n => cases n <;> simp [ServePoint.move] at hp
    case discard rest n =>
      cases rest <;> simp [ServePoint.move] at hp
      obtain ⟨-, ⟨rfl, rfl⟩, -⟩ := hp
      exact ⟨_, .rfl⟩
    all_goals simp [ServePoint.move] at hp
    all_goals split at hp <;> simp at hp
  | @attempt _ _ _ p found hp =>
    cases p <;> simp [AttemptPoint.move] at hp
    all_goals obtain ⟨-, ⟨rfl, rfl⟩, -⟩ := hp
    · exact ⟨_, .submit⟩
    · exact .drop
  | @registration _ _ p found hp =>
    cases p <;> simp [RegistrationPoint.move] at hp
    split at hp <;> simp at hp
  | @drop _ _ p found hp => cases p <;> simp [DropPoint.move] at hp
  | @create _ _ p found hp =>
    cases p <;> simp [CreatePoint.move] at hp
    case start => obtain ⟨-, ⟨rfl, rfl⟩, -⟩ := hp; exact .start
    all_goals split at hp <;> simp at hp
    obtain ⟨-, ⟨rfl, rfl⟩, -⟩ := hp
    exact ⟨_, .submit⟩
  | @connect _ _ _ p found hp =>
    cases p <;> simp [ConnectPoint.move] at hp
    case submit => obtain ⟨-, ⟨rfl, rfl⟩, -⟩ := hp; exact ⟨_, .submit⟩
    all_goals split at hp <;> simp at hp
  | @close _ _ p found hp => cases p <;> simp [ClosePoint.move] at hp
  | @release _ _ p found hp =>
    cases p <;> simp [ReleasePoint.move] at hp
    case signalBoss => obtain ⟨-, ⟨rfl, rfl⟩, -⟩ := hp; exact ⟨_, .signal⟩
    case signalWorkers =>
      split at hp <;> simp at hp
      obtain ⟨-, ⟨rfl, rfl⟩, -⟩ := hp
      exact ⟨_, .signal⟩
    all_goals split at hp <;> simp at hp

/-- **A step leaves the stack in order.** -/
theorem Control.stacked_of_act (hc : c.Stacked) (h : c.move s t = .act g c' ns) : c'.Stacked := by
  obtain ⟨fr, below, rfl, hgoes⟩ := goes_of_act h
  cases hgoes with
  | within hsame => exact hc.congr hsame
  | calls hsame hnew => exact ⟨awaits_of_calls h, hc.congr hsame⟩
  | @returns r hroot =>
    cases below with
    | nil => trivial
    | cons caller rest => exact hc.2.congr (Frame.sameCall_resume caller r)
  | ends => trivial

/-- An answer leaves the stack as it is. -/
theorem Control.stacked_of_ask {q : Request} {after : q.Reply → Control} (reply : q.Reply)
    (hc : c.Stacked) (h : c.move s t = .ask q after) : (after reply).Stacked := by
  obtain ⟨fr, fr', below, rfl, hsame, hafter⟩ := goes_of_ask reply h
  rw [hafter]
  exact hc.congr hsame

end Procedures

/-- **In all traffic every stack is in order.** -/
theorem Machine.Traffic.stacked {m : Machine} {is : List Incident} (h : Traffic is m) :
    ∀ t c, m.control? t = some c → c.Stacked := by
  refine h.induction (motive := fun _ m => ∀ t c, m.control? t = some c → c.Stacked)
    (fun t c hc => by simp [control?, Machine.empty] at hc) (fun _ ih a t d hd => ?advance)
    (fun home _ ih hnew t d hd => ?use)
  case advance =>
    cases a.places hd with
    | kept hc => exact ih t d hc
    | acted hc hmove => exact Control.stacked_of_act (ih t _ hc) hmove
    | answered reply hc hmove hafter =>
      exact hafter ▸ Control.stacked_of_ask reply (ih t _ hc) hmove
    | @called _ o _ hd => rw [hd]; cases o <;> trivial
    | served _ _ _ hd => rw [hd]; trivial
  case use =>
    rw [control?_spawn] at hd
    split at hd
    · obtain rfl := Option.some.inj hd
      trivial
    · exact ih t d hd

/-! ## Playing traffic -/

/-- **Traffic**, with the machine that it leads to. -/
structure Scene where
  incidents : List Incident
  machine : Machine
  traffic : Machine.Traffic incidents machine

namespace Scene

/-- Nothing has happened. -/
def empty : Scene := ⟨[], .empty, .refl⟩

/-- Somebody builds a factory. -/
def build (sc : Scene) (b : Blueprint) : Scene := ⟨_, _, sc.traffic.advance (.build b)⟩

/-- Somebody calls an operation. -/
def call (sc : Scene) (o : Operation) : Scene := ⟨_, _, sc.traffic.advance (.call none o)⟩

/-- Somebody calls a procedure. -/
def use (sc : Scene) (fr : Frame) (hnew : fr.isNew = true) : Scene :=
  ⟨_, _, Machine.Unfolds.use sc.traffic none hnew⟩

/-- **A thread makes so many steps**, and is answered in this way. -/
def turn (sc : Scene) (t : ThreadId) (replies : (q : Request) → q.Reply) : Nat → Scene
  | 0 => sc
  | n + 1 =>
    match hmove : sc.machine.move t with
    | .act _ _ _ =>
      turn ⟨_, _, sc.traffic.advance (Machine.Step.act hmove).advance⟩ t replies n
    | .ask q _ =>
      turn ⟨_, _, sc.traffic.advance (Machine.Step.answer hmove (replies q)).advance⟩ t replies n
    | .blocked _ | .stuck => sc

end Scene

end EndpointControl
