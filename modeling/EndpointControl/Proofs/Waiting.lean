import Mathlib.Logic.Relation
import EndpointControl.Proofs.Forwarding
import EndpointControl.Proofs.Exclusion

/-!
# Waiting for locks

A thread that wants a lock which somebody holds waits until it is given back, and nobody
can take a lock twice. So threads could wait for one another in a circle, or one for
itself. They do not, since locks are taken in an order: first the turn of a boss, then
that of a worker, then one of the locks that are held briefly, and of these one at a
time (`Lock.rank`). Whoever waits for a lock holds none but lower ones
(`Machine.Run.rank_lt`).

Two facts carry this. A thread that holds a lock briefly is not about to take any
(`Frame.grip_of_wants`). And whoever waits for a turn and has one is a boss that hands an
endpoint over to a worker: the jobs of a boss are the only ones that submit, and they
submit to workers of its own factory (`Machine.Run.boss_of_mem_turns`).

So the locks that threads wait for become higher along any chain of waits. A chain never
closes, and it ends with a thread that waits for nobody (`Machine.Reachable.deadlockFree`).
-/

namespace EndpointControl

/-! ## What a thread wants -/

/-- **The lock that a procedure takes at its point.** -/
def Frame.wants : Frame → Option Lock
  | .start l .takeSlot | .submit l _ .takeSlot | .signal l .takeSlot => some (.slot l)
  | .submit l _ (.serialize _) | .serve l _ .serialize => some (.registration l)
  | .submit l _ (.takeQueue _) | .serve l _ .takeQueue | .serve l _ .takeQueueLast =>
    some (.queue l)
  | .connect e _ .takeStatus | .registration e .takeStatus | .drop e .takeStatus
  | .close e .takeStatus => some (.status e)
  | _ => none

namespace Move

variable {s : Store} {t : ThreadId} {c : Control} {k l : Lock}

/-- The lock that is waited for. -/
def lock? : Move → Option Lock
  | .blocked k => some k
  | _ => none

theorem lock?_eq_some_iff {mv : Move} : mv.lock? = some k ↔ mv = .blocked k := by
  cases mv <;> simp [lock?]

@[simp] theorem takeLock_eq_blocked :
    takeLock s t l c = .blocked k ↔ l = k ∧ ∃ u, s.locks.holder? l = some u := by
  unfold takeLock
  cases s.locks.holder? l with
  | none => simp [change]
  | some u => simp

@[simp] theorem tell_ne_blocked {ns : List Note} : tell c ns ≠ .blocked k := nofun

@[simp] theorem go_ne_blocked : go c ≠ .blocked k := nofun

@[simp] theorem say_ne_blocked {n : Notice} : say n c ≠ .blocked k := nofun

@[simp] theorem change_ne_blocked {g : Store → Store} : change g c ≠ .blocked k := nofun

end Move

section Procedures

variable {s : Store} {t : ThreadId} {fr : Frame} {below : List Frame} {c : Control} {k : Lock}

/-- **A procedure waits for the lock that it takes at its point**, and because somebody has
it. -/
theorem Frame.Moves.wants (h : fr.Moves s t below (.blocked k)) :
    fr.wants = some k ∧ ∃ u, s.locks.holder? k = some u := by
  have wanted {k' : Lock} (hk : k' = k ∧ ∃ u, s.locks.holder? k' = some u) :
      some k' = some k ∧ ∃ u, s.locks.holder? k = some u :=
    ⟨congrArg some hk.1, hk.1 ▸ hk.2⟩
  cases h with
  | @start _ _ p found hp =>
    cases p <;> simp [StartPoint.move] at hp
    exact wanted hp
  | @submit _ _ _ p found hp =>
    cases p <;> simp [SubmitPoint.move] at hp
    case takeSlot | takeQueue => exact wanted hp
    case serialize =>
      split at hp <;> simp at hp
      exact wanted hp
    case leave => split at hp <;> simp at hp
  | @signal _ _ p found hp =>
    cases p <;> simp [SignalPoint.move] at hp
    exact wanted hp
  | @serve _ _ _ p found hp =>
    cases p
    case run batch n => cases batch <;> simp [ServePoint.move] at hp
    case report n => cases n <;> simp [ServePoint.move] at hp
    case discard rest n => cases rest <;> simp [ServePoint.move] at hp
    all_goals simp [ServePoint.move] at hp
    case takeQueue | takeQueueLast => exact wanted hp
    case serialize =>
      split at hp <;> simp at hp
      exact wanted hp
    case endTurn => split at hp <;> simp at hp
  | @attempt _ _ _ p found hp => cases p <;> simp [AttemptPoint.move] at hp
  | @registration _ _ p found hp =>
    cases p <;> simp [RegistrationPoint.move] at hp
    exact wanted hp
  | @drop _ _ p found hp =>
    cases p <;> simp [DropPoint.move] at hp
    exact wanted hp
  | @create _ _ p found hp =>
    cases p <;> simp [CreatePoint.move] at hp
    all_goals split at hp <;> simp at hp
  | @connect _ _ _ p found hp =>
    cases p <;> simp [ConnectPoint.move] at hp
    case takeStatus => exact wanted hp
    case begin => split at hp <;> simp at hp
  | @close _ _ p found hp =>
    cases p <;> simp [ClosePoint.move] at hp
    exact wanted hp
  | @release _ _ p found hp =>
    cases p <;> simp [ReleasePoint.move] at hp
    all_goals split at hp <;> simp at hp

/-- **A thread that waits stands in a procedure** that wants the lock. -/
theorem Control.wants_of_blocked (h : c.move s t = .blocked k) :
    ∃ fr below, c = .running (fr :: below) ∧ fr.wants = some k
      ∧ ∃ u, s.locks.holder? k = some u := by
  match c, h with
  | .running (fr :: below), h => exact ⟨fr, below, rfl, (Frame.moves h nofun).wants⟩

/-- **Whoever is about to take a lock holds none briefly.** -/
theorem Frame.grip_of_wants (h : fr.wants = some k) : fr.grip = none := by
  unfold wants at h
  split at h
  case h_13 => cases h
  all_goals rfl

/-- **Whoever is about to take a turn** submits to the loop, or runs it. -/
theorem Frame.cases_of_wants_turn {l : LoopId} (h : fr.wants = some (.registration l)) :
    (∃ j m, fr = .submit l j (.serialize m)) ∨ ∃ m, fr = .serve l m .serialize := by
  unfold wants at h
  split at h <;> cases h
  · exact .inl ⟨_, _, rfl⟩
  · exact .inr ⟨_, rfl⟩

end Procedures

/-! ## The order of locks -/

/-- **The order in which a thread takes locks.** -/
def Lock.rank : Lock → Nat
  | .registration ⟨_, .boss⟩ => 0
  | .registration ⟨_, .worker _⟩ => 1
  | .slot _ | .queue _ | .status _ => 2

theorem Lock.rank_of_isBrief {k : Lock} (h : k.isBrief = true) : k.rank = 2 := by
  cases k with
  | registration => cases h
  | _ => rfl

theorem Lock.rank_registration_le (l : LoopId) : (Lock.registration l).rank ≤ 1 := by
  obtain ⟨f, _ | w⟩ := l
  · exact Nat.zero_le 1
  · exact Nat.le_refl 1

theorem Lock.rank_le (k : Lock) : k.rank ≤ 2 := by
  cases k with
  | registration l => exact (rank_registration_le l).trans (Nat.le_succ 1)
  | _ => exact Nat.le_refl 2

namespace Machine

variable {m : Machine} {is : List Incident} {t u v : ThreadId} {k k' : Lock} {l l' : LoopId}

theorem move_eq {c : Control} (hc : m.control? t = some c) : m.move t = c.move m.store t := by
  rw [move, hc]

/-- A thread that waits is in the midst of its procedures. -/
theorem wants_of_blocked (h : m.move t = .blocked k) :
    ∃ fr below, m.control? t = some (.running (fr :: below)) ∧ fr.wants = some k
      ∧ ∃ u, m.store.locks.holder? k = some u := by
  obtain ⟨c, hc, hmove⟩ := control?_of_move_ne_stuck (m := m) (t := t) (by rw [h]; nofun)
  obtain ⟨fr, below, rfl, hwants⟩ := Control.wants_of_blocked (hmove ▸ h)
  exact ⟨fr, below, hc, hwants⟩

/-- **Whoever submits and has a turn below is the boss of the worker that it submits to.** -/
theorem Run.boss_of_mem_turns (r : Run is m) {j : Job} {mo : Option Multiplexer}
    {below : List Frame}
    (hc : m.control? t = some (.running (.submit l j (.serialize mo) :: below)))
    (hmem : l' ∈ (Control.running below).turns) :
    l' = ⟨l.factory, .boss⟩ ∧ ∃ w, l.seat = .worker w := by
  obtain ⟨hsound, hcontrol⟩ := r.reachable.sound
  obtain ⟨⟨hplaced, -⟩, -, hb⟩ := hcontrol t _ hc
  obtain ⟨caller, rest, rfl, hcall, -, hrest⟩ := hb.exists_caller rfl
  cases hcall with
  | submitCreate | submitConnect =>
    -- a client that submits has no turn
    obtain rfl := hrest.eq_nil rfl
    cases hmem
  | @submitAttempt _ e a =>
    obtain ⟨caller, rest, rfl, hcall, -, hrest⟩ := hrest.exists_caller rfl
    cases hcall with
    | @attemptServe _ _ _ l₀ mux batch n =>
      obtain rfl := hrest.eq_nil rfl
      obtain rfl : l' = l₀ := List.mem_singleton.mp hmem
      -- whoever runs a loop and has an errand runs the loop of a boss
      obtain ⟨q, hq, rfl⟩ := hplaced
      have hcharged := r.charged hc (e := e) (x := .admitted) rfl
      have hbound := Store.bound?_eq_some_iff.mpr ⟨q, hq, rfl⟩
      obtain ⟨fac, hfac⟩ := hsound.factory hq
      have hflavor : m.store.flavor? e = some fac.flavor := by
        rw [Store.flavor?, hq, Option.bind_some, hfac, Option.map_some]
      cases hfl : fac.flavor with
      | client =>
        have hboss := hcharged.client _ hbound (hflavor.trans (congrArg some hfl))
        refine ⟨?_, q.worker, rfl⟩
        simpa [Frame.serving?] using hboss
      | datagram => cases hcharged.datagram _ hbound (hflavor.trans (congrArg some hfl))

/-- **Locks are taken in their order**: whoever waits for one holds none but lower ones. -/
theorem Run.rank_lt (r : Run is m) (hwaits : m.move t = .blocked k)
    (hholds : m.store.locks.holder? k' = some t) : k'.rank < k.rank := by
  obtain ⟨fr, below, hc, hwants, -⟩ := wants_of_blocked hwaits
  have hgrip := Frame.grip_of_wants hwants
  cases hk' : k'.isBrief with
  | true =>
    have hheld := (r.traffic.holder?_eq_some_iff hk').mp hholds
    rw [grip?_eq hc, Control.grip_running, hgrip] at hheld
    cases hheld
  | false =>
    match k', hk' with
    | .registration l', _ =>
      cases hk : k.isBrief with
      | true =>
        rw [Lock.rank_of_isBrief hk]
        exact Nat.lt_succ_of_le (Lock.rank_registration_le l')
      | false =>
        -- somebody who has a turn wants another
        match k, hk with
        | .registration l, _ =>
          have hmem := (r.traffic.turned.holder?_eq_some_iff.mp hholds).2
          rw [turns_eq hc] at hmem
          rcases Frame.cases_of_wants_turn hwants with ⟨j, mo, rfl⟩ | ⟨mux, rfl⟩
          · obtain ⟨rfl, w, hw⟩ := r.boss_of_mem_turns hc hmem
            obtain ⟨f, s⟩ := l
            obtain rfl : s = .worker w := hw
            exact Nat.zero_lt_one
          · -- below a loop there is nothing
            obtain rfl := (r.traffic.stacked t _ hc).eq_nil rfl
            cases hmem

/-! ## Waits -/

/-- **The thread waits for a lock that the other holds.** -/
def WaitsFor (m : Machine) (t u : ThreadId) : Prop :=
  ∃ k, m.move t = .blocked k ∧ m.store.locks.holder? k = some u

/-- **The thread waits for nobody.** -/
def Unblocked (m : Machine) (t : ThreadId) : Prop := ∀ k, m.move t ≠ .blocked k

theorem waitsFor_iff : m.WaitsFor t u
    ↔ (m.move t).lock?.bind (fun k => m.store.locks.holder? k) = some u := by
  simp only [WaitsFor, Option.bind_eq_some_iff, Move.lock?_eq_some_iff]

theorem unblocked_iff : m.Unblocked t ↔ (m.move t).lock? = none := by
  simp only [Unblocked, Option.eq_none_iff_forall_ne_some, ne_eq, Move.lock?_eq_some_iff]

instance : Decidable (m.WaitsFor t u) := decidable_of_iff _ waitsFor_iff.symm

instance : Decidable (m.Unblocked t) := decidable_of_iff _ unblocked_iff.symm

/-- **Along a chain of waits the locks that are waited for become higher.** -/
theorem Run.rank_lt_of_transGen (r : Run is m) (h : Relation.TransGen m.WaitsFor t u)
    (ht : m.move t = .blocked k) (hu : m.move u = .blocked k') : k.rank < k'.rank := by
  induction h generalizing k' with
  | single h =>
    obtain ⟨k₀, hk₀, hheld⟩ := h
    obtain rfl := Move.blocked.inj (ht.symm.trans hk₀)
    exact r.rank_lt hu hheld
  | tail _ h ih =>
    obtain ⟨k₀, hk₀, hheld⟩ := h
    exact (ih hk₀).trans (r.rank_lt hu hheld)

/-- **A chain of waits comes to an end.** -/
theorem Run.exists_unblocked (r : Run is m) (ht : m.move t = .blocked k) :
    ∃ u, Relation.TransGen m.WaitsFor t u ∧ m.Unblocked u := by
  -- by induction on how far the lock is from the last in their order
  induction hn : 2 - k.rank using Nat.strong_induction_on generalizing t k with
  | _ n ih =>
    obtain ⟨-, -, -, -, u, hu⟩ := wants_of_blocked ht
    have hwaits : m.WaitsFor t u := ⟨k, ht, hu⟩
    by_cases hfree : m.Unblocked u
    · exact ⟨u, .single hwaits, hfree⟩
    · obtain ⟨k', hk'⟩ := not_forall_not.mp hfree
      have hlt := r.rank_lt hk' hu
      have hle := k'.rank_le
      obtain ⟨v, hv, hfree⟩ := ih (2 - k'.rank) (by omega) hk' rfl
      exact ⟨v, .head hwaits hv, hfree⟩

/-- **Nobody waits for ever for the sake of a lock.** -/
structure DeadlockFree (m : Machine) : Prop where
  /-- Locks are taken in their order, so nobody waits for a lock that they hold, -/
  ordered : ∀ t k k', m.move t = .blocked k → m.store.locks.holder? k' = some t → k'.rank < k.rank
  /-- and threads do not wait for one another in a circle. -/
  acyclic : ∀ t, ¬ Relation.TransGen m.WaitsFor t t
  /-- Whoever waits does so, in the end, for somebody who waits for nobody. -/
  ends : ∀ t k, m.move t = .blocked k → ∃ u, Relation.TransGen m.WaitsFor t u ∧ m.Unblocked u
  /-- A loop that waits on its multiplexer holds no lock of any kind. -/
  emptyHanded : ∀ t l mux below k, m.control? t = some (.running (.serve l mux .wait :: below)) →
    m.store.locks.holder? k ≠ some t

/-- **There is no deadlock among the locks**, whatever clients, bosses and workers of any
factories are doing, and at any levels. -/
theorem Reachable.deadlockFree (h : m.Reachable) : m.DeadlockFree := by
  obtain ⟨is, r⟩ := h
  refine ⟨fun t k k' => r.rank_lt, fun t hcycle => ?acyclic, fun t k => r.exists_unblocked,
    fun t l mux below k hc hheld => ?emptyHanded⟩
  case acyclic =>
    obtain ⟨u, ⟨k, hk, -⟩, -⟩ := Relation.TransGen.head'_iff.mp hcycle
    exact Nat.lt_irrefl _ (r.rank_lt_of_transGen hcycle hk hk)
  case emptyHanded =>
    obtain rfl := (r.traffic.stacked t _ hc).eq_nil rfl
    cases hk : k.isBrief with
    | true =>
      have hgrip := (r.traffic.holder?_eq_some_iff hk).mp hheld
      rw [grip?_eq hc] at hgrip
      cases hgrip
    | false =>
      match k, hk with
      | .registration l', _ => exact r.traffic.turned.holder?_ne (turns_eq hc) hheld

/-- Somebody calls an operation, and gets so far with it. -/
def visit (m : Machine) (o : Operation) (n : Nat) : Machine :=
  (m.spawn none o.control).play m.threads.size n

theorem Reachable.visit (h : m.Reachable) (o : Operation) (n : Nat) : (m.visit o n).Reachable :=
  (h.call none o).play _ _

/-- Three endpoints of a careful factory. A worker is about to register the first, which
somebody is closing; the boss is about to hand the second over to the worker; and somebody
wants to connect the third. -/
def inLine : Machine :=
  let made :=
    (((empty.build .careful).visit (.create 0) 40).visit (.create 0) 40).visit (.create 0) 40
  let registering := ((made.visit (.connect 0 "127.0.0.1:9") 40).play 5 23).play 1 5
  let handing := ((registering.visit (.close 0) 1).visit (.connect 1 "127.0.0.1:9") 40).play 5 40
  handing.visit (.connect 2 "127.0.0.1:9") 40

theorem reachable_inLine : inLine.Reachable :=
  (((((((((reachable_empty.build _).visit _ _).visit _ _).visit _ _).visit _ _).play _ _).play
    _ _).visit _ _).visit _ _).play _ _ |>.visit _ _

/-- The client waits for the boss, the boss for the worker, and the worker for whoever closes
the endpoint; and that one waits for nobody. -/
theorem deadlockFree_inLine :
    inLine.Reachable ∧ inLine.DeadlockFree ∧ inLine.WaitsFor 8 5 ∧ inLine.WaitsFor 5 1
      ∧ inLine.WaitsFor 1 6 ∧ inLine.Unblocked 6 :=
  ⟨reachable_inLine, reachable_inLine.deadlockFree, by decide +kernel, by decide +kernel,
    by decide +kernel, by decide +kernel⟩

end Machine

end EndpointControl
