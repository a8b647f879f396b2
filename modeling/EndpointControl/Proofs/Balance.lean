import Mathlib.Algebra.Order.Floor.Div
import Mathlib.Data.Int.CardIntervalMod
import EndpointControl.Proofs.Making

/-!
# Endpoints are spread evenly

The cursor of a factory and its counter are two words, and whoever makes a channel gets
a worker from the one and a number from the other, in two steps, between which others
may get theirs. So the numbers do not tell the workers; but what has been picked and
drawn is either in somebody's hand or with an endpoint (`Machine.Dealt`), and what is in
nobody's hand any more is with the endpoints.

When everybody has returned it is therefore the same for all orders in which the threads
may have got to run: the numbers are those from zero on, the workers have had their turns
in a circle, those whose turn has come have been opened and taken once each, and of a
datagram factory each has been woken once for every endpoint (`Machine.Makes.spread`).
-/

open Finset

namespace EndpointControl

/-- How many multiplexers have been woken in an incident. -/
def Incident.wakes : Incident → Nat
  | .stepped _ h => h.wakes
  | _ => 0

/-- **How many multiplexers have been woken.** -/
def wakes (is : List Incident) : Nat := (is.map Incident.wakes).sum

@[simp] theorem wakes_concat (is : List Incident) (i : Incident) :
    wakes (is ++ [i]) = wakes is + i.wakes := by
  simp [wakes]

/-- Somebody asks for a channel of the factory. -/
def Incident.asks (f : FactoryId) : Incident → Bool
  | .called _ o => o = .create f
  | _ => false

/-- **How many channels of the factory have been asked for.** -/
def asked (is : List Incident) (f : FactoryId) : Nat := is.countP (Incident.asks f)

@[simp] theorem asked_concat (is : List Incident) (i : Incident) (f : FactoryId) :
    asked (is ++ [i]) f = asked is f + if i.asks f then 1 else 0 := by
  simp [asked, List.countP_singleton]

/-- Somebody asks a provider for a multiplexer. -/
def Incident.isOpening : Incident → Bool
  | .stepped _ (.answered (.openMultiplexer ..) _) => true
  | _ => false

/-- An executor takes a loop. -/
def Incident.isTaking : Incident → Bool
  | .stepped _ (.answered (.execute ..) true) => true
  | _ => false

/-- **How often providers have been asked for multiplexers.** -/
def openRequests (is : List Incident) : Nat := is.countP Incident.isOpening

/-- **How many loops executors have taken.** -/
def takings (is : List Incident) : Nat := is.countP Incident.isTaking

/-- **Where everybody takes turns in a circle**, each has its turn so often. -/
theorem count_turns {width w : Nat} (h : w < width) (n : Nat) :
    Nat.count (· % width = w) n = (n - w) ⌈/⌉ width := by
  have hpos := Nat.zero_lt_of_lt h
  have hmod : (fun i => i % width = w) = (· ≡ w [MOD width]) := by
    funext i
    rw [Nat.ModEq, Nat.mod_eq_of_lt h]
  have hcount := Nat.count_modEq_card n hpos w
  rw [Nat.mod_eq_of_lt h] at hcount
  simp only [hmod]
  rw [hcount, Nat.ceilDiv_eq_add_pred_div]
  have hdiv := Nat.div_add_mod n width
  have hlt := Nat.mod_lt n hpos
  have hcomm : width * (n / width) = n / width * width := Nat.mul_comm _ _
  symm
  split
  · -- the last round gets as far as this one
    rw [Nat.div_eq_iff hpos, Nat.add_mul, Nat.one_mul]
    constructor <;> omega
  · rw [Nat.div_eq_iff hpos, Nat.add_zero]
    constructor
    · rcases Nat.eq_zero_or_pos (n / width) with hz | hround
      · rw [hz]
        omega
      · have := Nat.le_mul_of_pos_left width hround
        omega
    · omega

/-- Words of which each below a number occurs once, and no other, are the numbers below it. -/
theorem perm_range_of_count {l : List UInt64} {n : Nat} (hn : n ≤ 2 ^ 64)
    (h : ∀ k, l.count k = if k.toNat < n then 1 else 0) :
    (l.map UInt64.toNat).Perm (List.range n) := by
  have hnodup : l.Nodup := List.nodup_iff_count_le_one.mpr fun k => by
    rw [h]
    split <;> omega
  refine (List.perm_ext_iff_of_nodup (hnodup.map fun _ _ => UInt64.toNat_inj.mp)
    List.nodup_range).mpr fun i => ?_
  rw [List.mem_map, List.mem_range]
  constructor
  · rintro ⟨k, hk, rfl⟩
    by_contra hlt
    have := List.count_pos_iff.mpr hk
    rw [h, if_neg hlt] at this
    omega
  · intro hi
    have hword := UInt64.toNat_ofNat_of_lt' (hi.trans_le hn)
    refine ⟨.ofNat i, ?_, hword⟩
    rw [← List.count_pos_iff, h, hword, if_pos hi]
    exact Nat.one_pos

/-- How many places of a list hold something of a kind. -/
theorem card_filter_range {α : Type} (l : List α) (q : α → Bool) :
    #{i ∈ range l.length | (l[i]?).any q} = l.countP q := by
  induction l using List.reverseRecOn with
  | nil => rfl
  | append_singleton l a ih =>
    have hsame : #{i ∈ range l.length | ((l ++ [a])[i]?).any q}
        = #{i ∈ range l.length | (l[i]?).any q} := by
      congr 1
      refine filter_congr fun i hi => ?_
      rw [List.getElem?_append_left (mem_range.mp hi)]
    rw [List.length_append, List.length_singleton, range_add_one, filter_insert,
      List.countP_append, ← ih, ← hsame]
    simp only [List.getElem?_concat_length, Option.any_some, List.countP_singleton]
    split
    · rw [card_insert_of_notMem (by simp)]
    · rfl

/-- The endpoints of a kind, counted one by one. -/
theorem Store.card_endpointsOf (s : Store) (p : LoopId → Bool) :
    (s.endpointsOf p).card = s.endpoints.countP fun r => p r.home := by
  rw [endpointsOf, ← Array.countP_toList, ← card_filter_range, Array.length_toList]
  congr 1
  refine filter_congr fun e _ => ?_
  rw [Array.getElem?_toList, Option.any_map]

theorem Store.issued_build (s : Store) (b : Blueprint) (f : FactoryId) :
    (s.build b).issued f = s.issued f := by
  rw [issued, issued, build, Array.getElem?_push]
  split
  · subst ‹f = _›
    simp [Factory.ofBlueprint]
  · rfl

/-- Whoever has made a channel has its endpoint. -/
theorem Control.count_endpoints_made (e : EndpointId) :
    (Control.finished (.created (.ok e))).hand.endpoints.count e = 1 :=
  List.count_singleton_self

/-- A thread picks one worker and draws one number for its endpoint. -/
theorem Control.Making.hand_le {c : Control} {f : FactoryId} (hm : c.Making f) :
    c.hand.tickets.length + c.hand.endpoints.length ≤ 1
      ∧ c.hand.numbers.length + c.hand.endpoints.length ≤ 1 := by
  have hcreate (p : CreatePoint) : p.ticket.length + p.endpoint.length ≤ 1
      ∧ p.number.length + p.endpoint.length ≤ 1 := by
    cases p <;> simp [CreatePoint.ticket, CreatePoint.number, CreatePoint.endpoint]
  cases hm with
  | made => exact ⟨le_rfl, le_rfl⟩
  | create | start | submit | look =>
    simpa [hand, tickets, numbers, endpoints] using hcreate _

/-- What it has in hand is on its way to its worker. -/
theorem Control.Making.stage_of_cargo {c : Control} {f : FactoryId} {e : EndpointId} {σ : Stage}
    (hm : c.Making f) (h : (e, σ) ∈ c.cargo) : σ = .travelling := by
  cases hm with
  | made => exact absurd h List.not_mem_nil
  | @create p hp => cases p <;> simp_all [Frame.cargo]
  | start => simp [Frame.cargo] at h
  | look =>
    simp [Frame.cargo, SubmitPoint.stages] at h
    exact h.2
  | @submit l e p hp =>
    cases p <;> simp_all [Frame.cargo, SubmitPoint.stages, SubmitPoint.isWell]

/-- **The thread has opened the loop and is about to start it.** -/
def Control.hasOpened (l : LoopId) : Control → Bool
  | .running (.start l' (.execute _) :: _) | .running (.start l' .mark :: _) => l' = l
  | _ => false

theorem Control.started_of_hasOpened {s : Store} {t : ThreadId} {l : LoopId} {c c' : Control}
    {g : Store → Store} {ns : List Note} (hl : c.hasOpened l = true)
    (h : c.move s t = .act g c' ns) : (g s).Started l := by
  unfold hasOpened at hl
  split at hl
  · cases moves_of_running h with
    | start found h => simp [StartPoint.move] at h
  · obtain rfl := of_decide_eq_true hl
    cases moves_of_running h with
    | start found h =>
      simp [StartPoint.move] at h
      obtain ⟨rfl, -, -⟩ := h
      exact ⟨_, Store.loop?_modifyLoop_self found _, rfl⟩
  · cases hl

theorem Control.hasOpened_of_ask {s : Store} {t : ThreadId} {l : LoopId} {c : Control}
    {q : Request} {after : q.Reply → Control} {reply : q.Reply} (hl : c.hasOpened l = true)
    (h : c.move s t = .ask q after) (hobliges : (Happening.answered q reply).Obliges) :
    (after reply).hasOpened l = true := by
  obtain ⟨fr, below, rfl, ha⟩ := asks h
  cases ha with
  | execute =>
    obtain rfl := show reply = true from hobliges
    exact hl
  | _ => cases hl

namespace Machine

variable {m m' : Machine} {is : List Incident} {i : Incident} {f : FactoryId}

/-- What all threads have in hand, as much as `u` says. -/
def inHand (m : Machine) (u : Hand → Nat) : Nat := m.total fun _ c => u c.hand

/-- **What becomes of the factory and of what threads have in hand** when something
happens while channels are made. -/
inductive Turn (f : FactoryId) (m : Machine) (i : Incident) (m' : Machine) : Prop where
  /-- Nothing. -/
  | still (hissued : m'.store.issued f = m.store.issued f)
    (hendpoints : m'.store.endpoints = m.store.endpoints) (hwakes : i.wakes = 0)
    (hand : ∀ u, u .empty = 0 → m'.inHand u = m.inHand u)
  /-- Somebody wakes a worker. -/
  | wakes {h : Hand} (hissued : m'.store.issued f = m.store.issued f)
    (hendpoints : m'.store.endpoints = m.store.endpoints) (hwakes : i.wakes = 1)
    (hand : ∀ u, u .empty = 0 →
      m'.inHand u + u { h with unwoken := h.unwoken + 1 } = m.inHand u + u h)
  /-- Somebody picks a worker. -/
  | picks {fac : Factory} (found : m.store.factories[f]? = some fac)
    (hissued : m'.store.issued f = (fac.cursor + 1, fac.nextNumber))
    (hendpoints : m'.store.endpoints = m.store.endpoints) (hwakes : i.wakes = 0)
    (hand : ∀ u, u .empty = 0 → m'.inHand u = m.inHand u + u ⟨[fac.nextWorker], [], [], 0⟩)
  /-- Somebody draws a number. -/
  | draws {fac : Factory} {w : Nat} (found : m.store.factories[f]? = some fac)
    (hissued : m'.store.issued f = (fac.cursor, fac.nextNumber + 1))
    (hendpoints : m'.store.endpoints = m.store.endpoints) (hwakes : i.wakes = 0)
    (hand : ∀ u, u .empty = 0 →
      m'.inHand u + u ⟨[w], [], [], 0⟩ = m.inHand u + u ⟨[w], [fac.nextNumber], [], 0⟩)
  /-- Somebody lets an endpoint come about. -/
  | enrolls {fac : Factory} {w : Nat} {n : UInt64} (found : m.store.factories[f]? = some fac)
    (hissued : m'.store.issued f = m.store.issued f)
    (hendpoints : m'.store.endpoints = m.store.endpoints.push ⟨f, w, n, .initial⟩)
    (hwakes : i.wakes = 0)
    (hand : ∀ u, u .empty = 0 → m'.inHand u + u ⟨[w], [n], [], 0⟩
      = m.inHand u
        + u ⟨[], [], [m.store.endpoints.size], if fac.flavor = .datagram then 1 else 0⟩)

/-- **One incident while channels are made** is one of these. -/
theorem Makes.turn (h : Makes f is m) (a : m.Advance i m') (permitted : m.Permits f i) :
    m.Turn f i m' := by
  obtain ⟨hs, hsound⟩ := h.run.reachable.sound
  cases a with
  | @act t c c' g ns hc hmove =>
    have hslot (l : LoopId) (hstarted : m.store.Started l) :=
      (h.run.traffic.slot_of_started hstarted).1
    have hissues := ((h.atWork.of_moves permitted hc).act h.atWork.undisturbed hs
      (hsound _ _ hc) hslot hmove).2
    have htotal (u : Hand → Nat) := total_act (fun _ c => u c.hand) hc g c'
    cases hissues with
    | aside hissued hendpoints hhand =>
      exact .still hissued hendpoints rfl fun u _ => by
        have := htotal u
        rw [hhand] at this
        exact Nat.add_right_cancel this
    | picks found hissued hendpoints =>
      exact .picks found hissued hendpoints rfl fun u hu => by
        have : u (Control.running [.create f .pickWorker]).hand = 0 := hu
        have h' := htotal u
        rw [this] at h'
        exact h'
    | draws found hissued hendpoints =>
      exact .draws found hissued hendpoints rfl fun u _ => htotal u
    | enrolls found hissued hendpoints hhand =>
      exact .enrolls found hissued hendpoints rfl fun u _ => by
        have := htotal u
        rw [hhand] at this
        exact this
  | @answer t c q after hc hmove reply =>
    obtain ⟨-, hhand⟩ := (h.atWork.of_moves permitted hc).ask hmove permitted.2
    have htotal (u : Hand → Nat) (hu : u .empty = 0) :=
      total_answer (w := fun _ c => u c.hand) hc (fun _ _ _ => hu) after reply
    have hstore := store_answer m t q after reply
    rcases Nat.eq_zero_or_pos (Happening.answered q reply).wakes with hz | hpos
    · refine .still (by rw [hstore]) (by rw [hstore]) hz fun u hu => ?_
      have := htotal u hu
      rw [hhand, hz] at this
      exact Nat.add_right_cancel this
    · have hone : (Happening.answered q reply).wakes = 1 := by
        unfold Happening.wakes at hpos ⊢
        split at hpos
        · rfl
        · exact absurd hpos (Nat.lt_irrefl 0)
      refine .wakes (h := (after reply).hand) (by rw [hstore]) (by rw [hstore]) hone fun u hu => ?_
      have := htotal u hu
      rw [hhand, hone] at this
      exact this
  | call home o =>
    cases permitted
    refine .still rfl rfl rfl fun u hu => ?_
    rw [inHand, total_spawn]
    exact congrArg _ hu
  | build b => exact .still (m.store.issued_build b f) rfl rfl fun u _ => rfl

/-! ## What has been handed out -/

/-- How many workers have been picked. -/
def picked (m : Machine) : Nat := m.inHand (·.tickets.length) + m.store.endpoints.size

/-- How many numbers have been drawn. -/
def drawn (m : Machine) : Nat := m.inHand (·.numbers.length) + m.store.endpoints.size

/-- **Each endpoint has come about for one thread**, and they are all as new. -/
structure Made (m : Machine) (f : FactoryId) : Prop where
  fresh : ∀ r ∈ m.store.endpoints, r.factory = f ∧ r.status = .initial
  count : m.inHand (·.endpoints.length) = m.store.endpoints.size
  once : ∀ e : Nat, m.inHand (·.endpoints.count e) = if e < m.store.endpoints.size then 1 else 0

theorem Makes.made (h : Makes f is m) : m.Made f := by
  induction h with
  | empty => exact ⟨by simp [Machine.empty, Store.empty], rfl, fun e => rfl⟩
  | @advance is m m' i h a permitted ih =>
    obtain ⟨hfresh, hcount, honce⟩ := ih
    cases h.turn a permitted with
    | still _ hendpoints _ hand | wakes _ hendpoints _ hand | picks _ _ hendpoints _ hand
    | draws _ _ hendpoints _ hand =>
      refine ⟨hendpoints ▸ hfresh, ?_, fun e => ?_⟩
      · have := hand (·.endpoints.length) rfl
        simp_all
      · have := hand (·.endpoints.count e) rfl
        simp_all
    | enrolls _ _ hendpoints _ hand =>
      refine ⟨?_, ?_, fun e => ?_⟩
      · rw [hendpoints]
        intro r hr
        rcases Array.mem_push.mp hr with hr | rfl
        · exact hfresh r hr
        · exact ⟨rfl, rfl⟩
      · have := hand (·.endpoints.length) rfl
        simp_all
      · have hone : m'.inHand (·.endpoints.count e) = m.inHand (·.endpoints.count e)
            + if m.store.endpoints.size = e then 1 else 0 := by
          simpa [List.count_singleton] using hand (·.endpoints.count e) rfl
        rw [hone, honce e, hendpoints, Array.size_push]
        split_ifs <;> omega

/-- **As many wakes have been made** as datagram endpoints have come about, but for those
that are still to be made. -/
theorem Makes.wakes_eq (h : Makes f is m) {fl : Flavor}
    (hfl : ∀ fac, m.store.factories[f]? = some fac → fac.flavor = fl) :
    wakes is + m.inHand (·.unwoken) = if fl = .datagram then m.store.endpoints.size else 0 := by
  induction h with
  | empty => exact (ite_self 0).symm
  | @advance is m m' i h a permitted ih =>
    have hfl' (fac : Factory) (hfac : m.store.factories[f]? = some fac) : fac.flavor = fl := by
      obtain ⟨fac', hfac', hgrows⟩ := a.grows.factory hfac
      rw [← hgrows.flavor]
      exact hfl fac' hfac'
    have ih := ih hfl'
    rw [wakes_concat]
    cases h.turn a permitted with
    | still _ hendpoints hwakes hand | picks _ _ hendpoints hwakes hand
    | draws _ _ hendpoints hwakes hand =>
      have := hand (·.unwoken) rfl
      rw [hendpoints, hwakes]
      simp_all
    | wakes _ hendpoints hwakes hand =>
      have := hand (·.unwoken) rfl
      dsimp only at this
      rw [hendpoints, hwakes]
      omega
    | enrolls found _ hendpoints hwakes hand =>
      have := hand (·.unwoken) rfl
      rw [hendpoints, hwakes, Array.size_push]
      simp only [hfl' _ found] at this
      split_ifs at * <;> omega

/-- **Each channel that has been asked for has a thread.** -/
theorem Makes.asked_eq (h : Makes f is m) :
    m.total (fun _ c => if c.isLoop then 0 else 1) = asked is f := by
  induction h with
  | empty => rfl
  | @advance is m m' i h a permitted ih =>
    rw [asked_concat, ← ih]
    cases a with
    | @act t c c' g ns hc hmove =>
      obtain ⟨hs, hsound⟩ := h.run.reachable.sound
      have hslot (l : LoopId) (hstarted : m.store.Started l) :=
        (h.run.traffic.slot_of_started hstarted).1
      have hmaking := h.atWork.of_moves permitted hc
      have hmaking' := (hmaking.act h.atWork.undisturbed hs (hsound _ _ hc) hslot hmove).1
      have := total_act (fun _ c => if c.isLoop then 0 else 1) hc g c'
      simp only [hmaking.isLoop, hmaking'.isLoop] at this
      exact Nat.add_right_cancel this
    | @answer t c q after hc hmove reply =>
      have hmaking := h.atWork.of_moves permitted hc
      have hmaking' := (hmaking.ask hmove permitted.2).1
      have := total_answer (w := fun _ c => if c.isLoop then 0 else 1) hc (fun _ _ _ => rfl) after
        reply
      simp only [hmaking.isLoop, hmaking'.isLoop] at this
      exact Nat.add_right_cancel this
    | call home o =>
      cases permitted
      rw [total_spawn]
      simp [Incident.asks, Operation.control, Control.isLoop]
    | build b => rfl

/-- **No more has been handed out than asked for.** -/
theorem Makes.picked_le (h : Makes f is m) : m.picked ≤ asked is f ∧ m.drawn ≤ asked is f := by
  have hle (u : Hand → Nat) (hu : u .empty = 0) (hle : ∀ c : Control, c.Making f → u c.hand ≤ 1) :
      m.inHand u ≤ asked is f := by
    rw [← h.asked_eq]
    refine total_le_total fun t c hc => ?_
    rcases h.atWork.making hc with hm | ⟨l, mux, rfl⟩
    · rw [hm.isLoop]
      exact hle c hm
    · exact hu.le
  have hadd (u v : Hand → Nat) : m.inHand (fun x => u x + v x) = m.inHand u + m.inHand v :=
    total_add m _ _
  constructor
  · rw [picked, ← h.made.count, ← hadd]
    exact hle _ rfl fun c hm => hm.hand_le.1
  · rw [drawn, ← h.made.count, ← hadd]
    exact hle _ rfl fun c hm => hm.hand_le.2

/-- **What has been handed out**, and to whom. -/
structure Dealt (m : Machine) (f : FactoryId) (width : Nat) : Prop where
  issued : m.store.issued f = (.ofNat m.picked, .ofNat m.drawn)
  workers : ∀ w, m.inHand (·.tickets.count w) + m.store.endpoints.countP (·.worker = w)
    = Nat.count (· % width = w) m.picked
  numbers : ∀ n, m.inHand (·.numbers.count n) + m.store.endpoints.countP (·.number = n)
    = if n.toNat < m.drawn then 1 else 0

/-- What stays the same while nobody is given anything. -/
theorem Dealt.still {width : Nat} (d : m.Dealt f width)
    (hissued : m'.store.issued f = m.store.issued f)
    (hendpoints : m'.store.endpoints = m.store.endpoints)
    (htickets : ∀ w, m'.inHand (·.tickets.count w) = m.inHand (·.tickets.count w))
    (hnumbers : ∀ n, m'.inHand (·.numbers.count n) = m.inHand (·.numbers.count n))
    (hpicked : m'.picked = m.picked) (hdrawn : m'.drawn = m.drawn) : m'.Dealt f width where
  issued := by rw [hissued, d.issued, hpicked, hdrawn]
  workers := fun w => by rw [htickets, hendpoints, hpicked, d.workers]
  numbers := fun n => by rw [hnumbers, hendpoints, hdrawn, d.numbers]

section Dealing

variable {width w : Nat} {n : UInt64} {fac : Factory}

/-- **Whoever picks a worker gets the next in the circle.** -/
theorem Dealt.picks (d : m.Dealt f width) (found : m.store.factories[f]? = some fac)
    (hwidth : fac.terms.workerCount = width) (hpicked : m.picked < 2 ^ 64)
    (hissued : m'.store.issued f = (fac.cursor + 1, fac.nextNumber))
    (hendpoints : m'.store.endpoints = m.store.endpoints)
    (hand : ∀ u, u .empty = 0 → m'.inHand u = m.inHand u + u ⟨[fac.nextWorker], [], [], 0⟩) :
    m'.Dealt f width := by
  have hold := d.issued
  rw [Store.issued_eq found, Prod.mk.injEq] at hold
  have hnext : fac.nextWorker = m.picked % width := by
    rw [Factory.nextWorker, hold.1, hwidth, UInt64.toNat_ofNat_of_lt' hpicked]
  have hpicks : m'.picked = m.picked + 1 := by
    have := hand (·.tickets.length) rfl
    rw [picked, picked, hendpoints, this]
    exact Nat.add_right_comm ..
  have hdraws : m'.drawn = m.drawn := by
    rw [drawn, drawn, hendpoints, hand (·.numbers.length) rfl]
    rfl
  refine ⟨?_, fun w => ?_, fun n => ?_⟩
  · rw [hissued, hold.1, hold.2, hpicks, hdraws]
    simp
  · have hw : m'.inHand (·.tickets.count w) = m.inHand (·.tickets.count w)
        + if m.picked % width = w then 1 else 0 := by
      simpa [List.count_singleton, hnext] using hand (·.tickets.count w) rfl
    have := d.workers w
    rw [hw, hendpoints, hpicks, Nat.count_succ]
    omega
  · have hn : m'.inHand (·.numbers.count n) = m.inHand (·.numbers.count n) :=
      hand (·.numbers.count n) rfl
    rw [hn, hendpoints, hdraws, d.numbers]

/-- **Whoever draws a number gets the next.** -/
theorem Dealt.draws (d : m.Dealt f width) (found : m.store.factories[f]? = some fac)
    (hdrawn : m.drawn < 2 ^ 64)
    (hissued : m'.store.issued f = (fac.cursor, fac.nextNumber + 1))
    (hendpoints : m'.store.endpoints = m.store.endpoints)
    (hand : ∀ u, u .empty = 0 →
      m'.inHand u + u ⟨[w], [], [], 0⟩ = m.inHand u + u ⟨[w], [fac.nextNumber], [], 0⟩) :
    m'.Dealt f width := by
  have hold := d.issued
  rw [Store.issued_eq found, Prod.mk.injEq] at hold
  have hpicks : m'.picked = m.picked := by
    rw [picked, picked, hendpoints, Nat.add_right_cancel (hand (·.tickets.length) rfl)]
  have hdraws : m'.drawn = m.drawn + 1 := by
    have := hand (·.numbers.length) rfl
    rw [drawn, drawn, hendpoints]
    exact (congrArg (· + _) this).trans (Nat.add_right_comm ..)
  refine ⟨?_, fun w' => ?_, fun n => ?_⟩
  · rw [hissued, hold.1, hold.2, hpicks, hdraws]
    simp
  · have hw : m'.inHand (·.tickets.count w') = m.inHand (·.tickets.count w') :=
      Nat.add_right_cancel (hand (·.tickets.count w') rfl)
    rw [hw, hendpoints, hpicks, d.workers]
  · have hiff : fac.nextNumber = n ↔ n.toNat = m.drawn := by
      rw [hold.2, ← UInt64.toNat_inj, UInt64.toNat_ofNat_of_lt' hdrawn]
      exact eq_comm
    have hn : m'.inHand (·.numbers.count n) = m.inHand (·.numbers.count n)
        + if n.toNat = m.drawn then 1 else 0 := by
      simpa [List.count_singleton, hiff] using hand (·.numbers.count n) rfl
    have := d.numbers n
    rw [hn, hendpoints, hdraws]
    split_ifs at * <;> omega

/-- **An endpoint comes about with what its thread has had in hand.** -/
theorem Dealt.enrolls (d : m.Dealt f width) {h' : Hand} (htickets : h'.tickets = [])
    (hnumbers : h'.numbers = []) (hissued : m'.store.issued f = m.store.issued f)
    (hendpoints : m'.store.endpoints = m.store.endpoints.push ⟨f, w, n, .initial⟩)
    (hand : ∀ u, u .empty = 0 → m'.inHand u + u ⟨[w], [n], [], 0⟩ = m.inHand u + u h') :
    m'.Dealt f width := by
  have hpicks : m'.picked = m.picked := by
    have := hand (·.tickets.length) rfl
    simp only [htickets, List.length_singleton, List.length_nil] at this
    rw [picked, picked, hendpoints, Array.size_push]
    omega
  have hdraws : m'.drawn = m.drawn := by
    have := hand (·.numbers.length) rfl
    simp only [hnumbers, List.length_singleton, List.length_nil] at this
    rw [drawn, drawn, hendpoints, Array.size_push]
    omega
  refine ⟨by rw [hissued, d.issued, hpicks, hdraws], fun w' => ?_, fun n' => ?_⟩
  · have hw : m'.inHand (·.tickets.count w') + (if w = w' then 1 else 0)
        = m.inHand (·.tickets.count w') := by
      simpa [List.count_singleton, htickets] using hand (·.tickets.count w') rfl
    rw [hendpoints, hpicks, ← d.workers w', Array.countP_push]
    simp only [decide_eq_true_eq]
    omega
  · have hn : m'.inHand (·.numbers.count n') + (if n = n' then 1 else 0)
        = m.inHand (·.numbers.count n') := by
      simpa [List.count_singleton, hnumbers] using hand (·.numbers.count n') rfl
    rw [hendpoints, hdraws, ← d.numbers n', Array.countP_push]
    simp only [decide_eq_true_eq]
    omega

/-- **Whatever happens, the account of what has been dealt is right again.** -/
theorem Dealt.turn (d : m.Dealt f width)
    (hwidth : ∀ fac, m.store.factories[f]? = some fac → fac.terms.workerCount = width)
    (hpicked : m.picked < 2 ^ 64) (hdrawn : m.drawn < 2 ^ 64) (hturn : m.Turn f i m') :
    m'.Dealt f width := by
  cases hturn with
  | still hissued hendpoints _ hand =>
    refine d.still hissued hendpoints (fun w => hand (·.tickets.count w) rfl)
      (fun n => hand (·.numbers.count n) rfl) ?_ ?_
    · rw [picked, picked, hendpoints, hand (·.tickets.length) rfl]
    · rw [drawn, drawn, hendpoints, hand (·.numbers.length) rfl]
  | wakes hissued hendpoints _ hand =>
    refine d.still hissued hendpoints
      (fun w => Nat.add_right_cancel (hand (·.tickets.count w) rfl))
      (fun n => Nat.add_right_cancel (hand (·.numbers.count n) rfl)) ?_ ?_
    · rw [picked, picked, hendpoints, Nat.add_right_cancel (hand (·.tickets.length) rfl)]
    · rw [drawn, drawn, hendpoints, Nat.add_right_cancel (hand (·.numbers.length) rfl)]
  | picks found hissued hendpoints _ hand =>
    exact d.picks found (hwidth _ found) hpicked hissued hendpoints hand
  | draws found hissued hendpoints _ hand => exact d.draws found hdrawn hissued hendpoints hand
  | enrolls _ hissued hendpoints _ hand => exact d.enrolls rfl rfl hissued hendpoints hand

end Dealing

/-- **Workers are picked in a circle and numbers drawn in order**, as long as both can be
counted in a word. -/
theorem Makes.dealt (h : Makes f is m) {width : Nat}
    (hwidth : ∀ fac, m.store.factories[f]? = some fac → fac.terms.workerCount = width)
    (hword : asked is f < 2 ^ 64) : m.Dealt f width := by
  induction h with
  | empty => exact ⟨rfl, fun w => rfl, fun n => rfl⟩
  | @advance is m m' i h a permitted ih =>
    have hwidth' (fac : Factory) (hfac : m.store.factories[f]? = some fac) :
        fac.terms.workerCount = width := by
      obtain ⟨fac', hfac', hgrows⟩ := a.grows.factory hfac
      rw [← hgrows.terms]
      exact hwidth fac' hfac'
    have hword' : asked is f < 2 ^ 64 := by
      rw [asked_concat] at hword
      exact (Nat.le_add_right ..).trans_lt hword
    exact (ih hwidth' hword').turn hwidth' (h.picked_le.1.trans_lt hword')
      (h.picked_le.2.trans_lt hword') (h.turn a permitted)

/-! ## The registrations of datagram endpoints -/

/-- Nothing of any endpoint is anywhere but on its way to its worker. -/
theorem AtWork.tokens_eq_zero (h : m.AtWork f) (e : EndpointId) {σ : Stage}
    (hσ : σ ≠ .travelling) : m.tokens e σ = 0 := by
  have hqueued : m.store.queued e σ = 0 := by
    rw [Store.queued, count_cargo, if_neg hσ]
  have hthreads : m.total (fun _ c => c.cargo.count (e, σ)) = 0 := by
    refine total_eq_zero_iff.mpr fun t c hc => List.count_eq_zero.mpr fun hmem => hσ ?_
    rcases h.making hc with hm | ⟨l, mux, rfl⟩
    · exact hm.stage_of_cargo hmem
    · exact absurd hmem List.not_mem_nil
  rw [tokens, hqueued, hthreads]

/-- **The registration of a datagram endpoint is on its way**, and nobody takes it up. -/
theorem Makes.travelling (h : Makes f is m) {e : EndpointId}
    (hfl : m.store.flavor? e = some .datagram) : m.tokens e .travelling = 1 := by
  induction h with
  | empty => simp [Machine.empty, Store.empty, Store.flavor?] at hfl
  | @advance is m m' i h a permitted ih =>
    have h' := h.advance a permitted
    obtain ⟨leg, b⟩ := a.booked h.run.reachable is e
    have htokens (σ : Stage) : m'.tokens e σ + leg.takes.count σ
        = m.tokens e σ + leg.puts.count σ := b.tokens σ
    have hzero (σ : Stage) (hσ : σ ≠ .travelling) : leg.takes.count σ = leg.puts.count σ := by
      have := htokens σ
      rw [h.atWork.tokens_eq_zero e hσ, h'.atWork.tokens_eq_zero e hσ] at this
      omega
    cases hold : m.store.flavor? e with
    | none =>
      -- it has just come about
      have hin := h.run.inOrder e
      rw [Account.InOrder, show (m.account is e).flavor = none from hold] at hin
      have hnone : m.tokens e .travelling = 0 := hin.tokens .travelling
      have hfounds : leg.Founds none (some .datagram) := hold ▸ hfl ▸ b.founds
      have := htokens .travelling
      cases leg with
      | enroll fl =>
        cases hfounds.2
        rw [hnone] at this
        exact this
      | _ => cases hfounds
    | some fl =>
      have hkept : m'.store.flavor? e = m.store.flavor? e :=
        b.flavor_eq (show m.store.flavor? e ≠ none by rw [hold]; rintro ⟨⟩)
      have hone := ih (hkept ▸ hfl)
      have := htokens .travelling
      rw [hone] at this
      cases leg with
      | idle | begin | commit | acknowledge | turnAway | redrop | forget | revert | count
      | close =>
        exact this
      | accept => exact absurd (hzero .committed (by decide)) (by decide)
      | abandon => exact absurd (hzero .dropping (by decide)) (by decide)
      | refuse => exact absurd (hzero .dropping (by decide)) (by decide)
      | register => exact absurd (hzero .counting (by decide)) (by decide)
      | enroll fl => cases b.founds.1.symm.trans hold
      | pass =>
        -- only a closed endpoint is passed over
        have hclosed : m.store.state? e = some .closed := b.state.1
        obtain ⟨r, hr, hst⟩ := Option.map_eq_some_iff.mp hclosed
        rw [(h.made.fresh r (Array.mem_of_getElem? hr)).2] at hst
        cases hst

/-! ## Loops that are opened and taken -/

/-- **A worker that has been opened has been started**, or somebody is about to start it. -/
theorem Makes.started_or (h : Makes f is m) {l : LoopId}
    (hslot : (m.store.slot? l).isSome = true) :
    m.store.Started l ∨ ∃ t c, m.control? t = some c ∧ c.hasOpened l = true := by
  induction h with
  | empty => simp [Machine.empty, Store.empty, Store.slot?, Store.loop?] at hslot
  | @advance is m m' i h a permitted ih =>
    have hkept (hslot : (m.store.slot? l).isSome = true) :
        m'.store.Started l ∨ ∃ t c, m'.control? t = some c ∧ c.hasOpened l = true := by
      rcases ih hslot with hs | ⟨t, c, hc, hl⟩
      · exact .inl (a.grows.started hs)
      by_cases hi : ∃ hap, i = .stepped t hap
      · obtain ⟨hap, rfl⟩ := hi
        cases a with
        | act hc' hmove =>
          cases hc.symm.trans hc'
          exact .inl (Control.started_of_hasOpened hl hmove)
        | answer hc' hmove reply =>
          cases hc.symm.trans hc'
          refine .inr ⟨t, _, control?_answer_self reply hc, ?_⟩
          exact Control.hasOpened_of_ask hl hmove permitted.2
      · refine .inr ⟨t, c, ?_, hl⟩
        rw [a.control?_of_ne (lt_size_of_control? hc) fun hap heq => hi ⟨hap, heq⟩, hc]
    cases a with
    | @act t c c' g ns hc hmove =>
      by_cases hold : (m.store.slot? l).isSome = true
      · exact hkept hold
      · have hdeals : c.Deals l m.store (g m.store) c' ns :=
          Control.deals_of_act (h.run.traffic.stacked t c hc) hmove
        have hnew : (g m.store).slot? l ≠ m.store.slot? l := fun heq => hold (heq ▸ hslot)
        cases hdeals with
        | aside hloop => exact absurd (Store.SameStart.of_loop hloop).slot hnew
        | fills found hloop =>
          exact .inr ⟨t, _, control?_act_self hc, decide_eq_true rfl⟩
        | marks found hloop | raises found hloop | pushes found hloop =>
          exact absurd ((Store.slot?_eq hloop).trans (Store.slot?_eq found).symm) hnew
        | turns => cases h.atWork.of_moves permitted hc
    | answer hc hmove reply =>
      rw [store_answer] at hslot
      exact hkept hslot
    | call home o => exact hkept hslot
    | build b => exact hkept ((m.store.sameStart_build b l).slot ▸ hslot)

/-- Whoever asks to open a loop or to have it taken asks for a worker of the factory. -/
theorem Makes.seat_of_asks (h : Makes f is m) {t : ThreadId} {q : Request} {reply : q.Reply}
    (a : m.Advance (.stepped t (.answered q reply)) m')
    (permitted : m.Permits f (.stepped t (.answered q reply))) {l : LoopId}
    (hq : (∃ p, q = .openMultiplexer l p) ∨ ∃ x mux, q = .execute x l mux) :
    ∃ w, l = ⟨f, .worker w⟩ ∧ ∃ lp, m'.store.loop? l = some lp := by
  have hgrows := a.grows
  cases a with
  | answer hc hmove reply =>
    have hm := h.atWork.of_moves permitted hc
    obtain ⟨fr, below, rfl, ha⟩ := Control.asks hmove
    cases ha with
    | openNew found | execute found =>
      obtain ⟨l', hl', -⟩ := hgrows.loop found
      cases hm with
      | start hp =>
        rcases hq with ⟨p, heq⟩ | ⟨x, mux, heq⟩ <;> cases heq
        exact ⟨_, rfl, l', hl'⟩
      | look hp => rcases hp with hp | hp <;> cases hp
    | wakeSubmit | wakeSignal | wait | shutDown | isMember | await =>
      rcases hq with ⟨p, heq⟩ | ⟨x, mux, heq⟩ <;> cases heq

/-- A seat of the factory is counted once among its workers. -/
theorem sum_seat {width : Nat} {l : LoopId}
    (h : ∃ w, l = ⟨f, .worker w⟩ ∧ ∃ lp, m.store.loop? l = some lp)
    (hsize : ∀ fac, m.store.factories[f]? = some fac → fac.workers.size = width) :
    ∑ w ∈ range width, (if l = ⟨f, .worker w⟩ then 1 else 0) = 1 := by
  obtain ⟨w, rfl, lp, hlp⟩ := h
  obtain ⟨fac, hfac, hseat⟩ := Option.bind_eq_some_iff.mp hlp
  have hlt : w < width := by
    have := fac.isSome_loop? (.worker w)
    rw [hseat] at this
    exact hsize fac hfac ▸ of_decide_eq_true this.symm
  simp [hlt]

section Requests

variable {width : Nat}

/-- **Each multiplexer that is opened** is opened for one of the workers. -/
theorem Makes.opened_eq (h : Makes f is m) (a : m.Advance i m') (permitted : m.Permits f i)
    (hsize : ∀ fac, m'.store.factories[f]? = some fac → fac.workers.size = width) :
    ∑ w ∈ range width, (i.opened ⟨f, .worker w⟩).length = if i.isOpening then 1 else 0 := by
  cases i with
  | stepped t hap =>
    cases hap with
    | answered q reply =>
      cases q with
      | openMultiplexer l p =>
        obtain ⟨mux, rfl⟩ := permitted.2
        refine Eq.trans (sum_congr rfl fun w _ => ?_)
          (sum_seat (h.seat_of_asks a permitted (.inl ⟨p, rfl⟩)) hsize)
        simp only [Incident.opened]
        split <;> rfl
      | _ => exact sum_const_zero
    | acted ns => exact sum_const_zero
  | _ => exact sum_const_zero

/-- **Each loop that an executor takes** is one of the workers. -/
theorem Makes.taken_eq (h : Makes f is m) (a : m.Advance i m') (permitted : m.Permits f i)
    (hsize : ∀ fac, m'.store.factories[f]? = some fac → fac.workers.size = width) :
    ∑ w ∈ range width, i.taken ⟨f, .worker w⟩ = if i.isTaking then 1 else 0 := by
  cases i with
  | stepped t hap =>
    cases hap with
    | answered q reply =>
      cases q with
      | execute x l mux =>
        obtain rfl := show reply = true from permitted.2
        exact sum_seat (h.seat_of_asks a permitted (.inr ⟨x, mux, rfl⟩)) hsize
      | _ => exact sum_const_zero
    | acted ns => exact sum_const_zero
  | _ => exact sum_const_zero

/-- **What has been opened and taken has been for the workers** of the factory. -/
theorem Makes.openRequests_eq (h : Makes f is m)
    (hsize : ∀ fac, m.store.factories[f]? = some fac → fac.workers.size = width) :
    openRequests is = ∑ w ∈ range width, (opened is ⟨f, .worker w⟩).length
      ∧ takings is = ∑ w ∈ range width, taken is ⟨f, .worker w⟩ := by
  induction h with
  | empty => simp [openRequests, takings]
  | @advance is m m' i h a permitted ih =>
    have hsize' (fac : Factory) (hfac : m.store.factories[f]? = some fac) :
        fac.workers.size = width := by
      obtain ⟨fac', hfac', hgrows⟩ := a.grows.factory hfac
      rw [← hgrows.workers]
      exact hsize fac' hfac'
    obtain ⟨ihopen, ihtake⟩ := ih hsize'
    constructor
    · simp only [openRequests, List.countP_append, List.countP_singleton, opened_concat,
        List.length_append, sum_add_distrib, h.opened_eq a permitted hsize]
      exact congrArg (· + _) ihopen
    · simp only [takings, List.countP_append, List.countP_singleton, taken_concat,
        sum_add_distrib, h.taken_eq a permitted hsize]
      exact congrArg (· + _) ihtake

end Requests

/-- **Nobody starts anything but workers** of the factory. -/
theorem Makes.seat_of_started (h : Makes f is m) {l : LoopId} (hs : m.store.Started l) :
    ∃ w, l = ⟨f, .worker w⟩ := by
  induction h with
  | empty =>
    obtain ⟨lp, hl, -⟩ := hs
    simp [Machine.empty, Store.empty, Store.loop?] at hl
  | @advance is m m' i h a permitted ih =>
    rcases a.started_of hs with hold | ⟨t, below, c', g, ns, hc, hmove, rfl, -⟩
    · exact ih hold
    · cases h.atWork.of_moves permitted hc with
      | start => exact ⟨_, rfl⟩
      | look hp => rcases hp with hp | hp <;> cases hp

/-! ## When everybody has returned -/

/-- **Everybody has returned**, but for loops that do not run. -/
def Returned (m : Machine) : Prop :=
  ∀ th ∈ m.threads, th.control.isLoop = true ∨ th.control.isOver = true

instance (m : Machine) : Decidable m.Returned := inferInstanceAs (Decidable (∀ th ∈ m.threads, _))

variable {t t' : ThreadId} {e : EndpointId}

/-- Whoever has returned has made its channel. -/
theorem Makes.made_of_returned (h : Makes f is m) (returned : m.Returned) {c : Control}
    (hc : m.control? t = some c) : (∃ e, c = .finished (.created (.ok e)))
      ∨ ∃ l mux, c = .running [.serve l mux .announce] := by
  rcases h.atWork.making hc with hm | hloop
  · left
    obtain ⟨th, hth, rfl⟩ := Option.map_eq_some_iff.mp hc
    rcases returned th (Array.mem_of_getElem? hth) with hl | hover
    · cases hm.isLoop.symm.trans hl
    · generalize th.control = c at hm hover
      cases hm with
      | made => exact ⟨_, rfl⟩
      | _ => cases hover
  · exact .inr hloop

theorem Makes.atRest (h : Makes f is m) (returned : m.Returned) : m.AtRest := by
  intro th hth
  obtain ⟨t, ht⟩ := Array.mem_iff_getElem?.mp hth
  have hc : m.control? t = some th.control := congrArg (Option.map Thread.control) ht
  rcases h.made_of_returned returned hc with ⟨e, heq⟩ | ⟨l, mux, heq⟩ <;> rw [heq] <;> rfl

/-- Then nobody has anything in hand but its endpoint. -/
theorem Makes.inHand_of_returned (h : Makes f is m) (returned : m.Returned) {u : Hand → Nat}
    (hu : u .empty = 0) (hmade : ∀ e, u ⟨[], [], [e], 0⟩ = 0) : m.inHand u = 0 := by
  refine total_eq_zero_iff.mpr fun t c hc => ?_
  rcases h.made_of_returned returned hc with ⟨e, rfl⟩ | ⟨l, mux, rfl⟩
  · exact hmade e
  · exact hu

/-- **As many endpoints have come about as channels have been asked for**, and as many
workers have been picked and numbers drawn. -/
theorem Makes.size_of_returned (h : Makes f is m) (returned : m.Returned) :
    m.store.endpoints.size = asked is f ∧ m.picked = asked is f ∧ m.drawn = asked is f := by
  have hsize : m.store.endpoints.size = asked is f := by
    rw [← h.made.count, ← h.asked_eq]
    refine total_congr rfl fun t c hc => ?_
    rcases h.made_of_returned returned hc with ⟨e, rfl⟩ | ⟨l, mux, rfl⟩ <;> rfl
  refine ⟨hsize, ?_, ?_⟩
  · rw [picked, h.inHand_of_returned returned (u := (·.tickets.length)) rfl fun _ => rfl, hsize,
      Nat.zero_add]
  · rw [drawn, h.inHand_of_returned returned (u := (·.numbers.length)) rfl fun _ => rfl, hsize,
      Nat.zero_add]

/-- Every worker has as many endpoints as it has had its turn. -/
theorem Makes.card_boundTo (h : Makes f is m) (returned : m.Returned)
    {fac : Factory} (hfac : m.store.factories[f]? = some fac) (hword : asked is f < 2 ^ 64)
    (w : Nat) : (m.store.boundTo f w).card
      = Nat.count (· % fac.terms.workerCount = w) (asked is f) := by
  have hdealt : m.Dealt f fac.terms.workerCount :=
    h.dealt (fun fac' hfac' => by rw [Option.some.inj (hfac'.symm.trans hfac)]) hword
  have hw := hdealt.workers w
  rw [h.inHand_of_returned returned (u := (·.tickets.count w)) rfl fun _ => rfl, Nat.zero_add,
    (h.size_of_returned returned).2.1] at hw
  rw [Store.boundTo, Store.card_endpointsOf, ← hw, ← Array.countP_toList, ← Array.countP_toList]
  refine List.countP_congr fun r hr => ?_
  have hfactory := (h.made.fresh r (Array.mem_toList_iff.mp hr)).1
  simp [Endpoint.home, hfactory]

theorem Makes.assigned_eq (h : Makes f is m) (returned : m.Returned) (w : Nat) :
    m.store.assigned f w = (m.store.boundTo f w).card := by
  rw [h.run.assigned_eq, Nat.add_eq_left]
  refine total_eq_zero_iff.mpr fun t c hc => ?_
  rcases h.made_of_returned returned hc with ⟨e, rfl⟩ | ⟨l, mux, rfl⟩ <;> rfl

/-- **The workers have been started** whose turn has come. -/
theorem Makes.started_iff (h : Makes f is m) (returned : m.Returned)
    {fac : Factory} (hfac : m.store.factories[f]? = some fac) (hword : asked is f < 2 ^ 64)
    (w : Nat) : m.store.Started ⟨f, .worker w⟩
      ↔ w < min fac.terms.workerCount (asked is f) := by
  rw [h.run.worker_started_iff (h.atRest returned), h.assigned_eq returned,
    h.card_boundTo returned hfac hword, Nat.lt_min, Nat.pos_iff_ne_zero, Nat.count_ne_iff_exists]
  constructor
  · rintro ⟨i, hi, rfl⟩
    exact ⟨Nat.mod_lt _ fac.terms.workerCount_pos, (Nat.mod_le _ _).trans_lt hi⟩
  · rintro ⟨hwidth, hn⟩
    exact ⟨w, hn, Nat.mod_eq_of_lt hwidth⟩

/-- **Exactly these are running.** -/
theorem Makes.running_iff (h : Makes f is m) (returned : m.Returned)
    {fac : Factory} (hfac : m.store.factories[f]? = some fac) (hword : asked is f < 2 ^ 64)
    (l : LoopId) : m.store.Running l
      ↔ ∃ w < min fac.terms.workerCount (asked is f), l = ⟨f, .worker w⟩ := by
  have hstarted : m.store.Running l ↔ m.store.Started l := by
    refine exists_congr fun lp => and_congr_right fun hlp => ?_
    have hexited : lp.exited = false :=
      eq_false_of_ne_true fun he => h.atWork.undisturbed.exited l ⟨lp, hlp, he⟩
    simp [Loop.running, hexited]
  rw [hstarted]
  constructor
  · intro hs
    obtain ⟨w, rfl⟩ := h.seat_of_started hs
    exact ⟨w, (h.started_iff returned hfac hword w).mp hs, rfl⟩
  · rintro ⟨w, hw, rfl⟩
    exact (h.started_iff returned hfac hword w).mpr hw

/-- **Each of them has been opened once and taken once**, and no other loop has. -/
theorem Makes.launches_eq (h : Makes f is m) (returned : m.Returned) (l : LoopId) :
    m.store.Started l ∧ (opened is l).length = 1 ∧ taken is l = 1
      ∨ ¬ m.store.Started l ∧ (opened is l).length = 0 ∧ taken is l = 0 := by
  have hidle : ∀ t c, m.control? t = some c → c.isUnsettled l = false := fun t c hc => by
    rcases h.made_of_returned returned hc with ⟨e, rfl⟩ | ⟨l, mux, rfl⟩ <;> rfl
  obtain ⟨hopened, hstarted⟩ := (h.run.traffic.launch l).settled hidle
  rw [hopened]
  rcases hstarted with ⟨hs, hslot, htaken⟩ | ⟨hs, htaken⟩
  · obtain ⟨mux, hmux⟩ := Option.isSome_iff_exists.mp hslot
    rw [hmux]
    exact .inl ⟨hs, rfl, htaken⟩
  · cases hslot : m.store.slot? l with
    | none => exact .inr ⟨hs, rfl, htaken⟩
    | some mux =>
      -- whoever would have to start it has returned
      rcases h.started_or (l := l) (by rw [hslot]; rfl) with hs' | ⟨t, c, hc, hl⟩
      · exact absurd hs' hs
      · rcases h.made_of_returned returned hc with ⟨e, rfl⟩ | ⟨l, mux, rfl⟩ <;> cases hl

/-- **As many multiplexers are opened and loops taken** as workers have had a turn. -/
theorem Makes.launched (h : Makes f is m) (returned : m.Returned)
    {fac : Factory} (hfac : m.store.factories[f]? = some fac) (hword : asked is f < 2 ^ 64) :
    openRequests is = min fac.terms.workerCount (asked is f)
      ∧ takings is = min fac.terms.workerCount (asked is f) := by
  have hstarted (w : Nat) : m.store.Started ⟨f, .worker w⟩
      ↔ w < min fac.terms.workerCount (asked is f) := h.started_iff returned hfac hword w
  -- a worker whose turn has come is there
  have hle : min fac.terms.workerCount (asked is f) ≤ fac.workers.size := by
    by_contra hlt
    obtain ⟨lp, hlp, -⟩ := (hstarted fac.workers.size).mpr (Nat.lt_of_not_le hlt)
    have := fac.isSome_loop? (.worker fac.workers.size)
    rw [Store.loop?, hfac, Option.bind_some] at hlp
    rw [hlp] at this
    exact absurd (of_decide_eq_true this.symm) (Nat.lt_irrefl _)
  have hsum {u : Nat → Nat}
      (hu : ∀ w, u w = if w < min fac.terms.workerCount (asked is f) then 1 else 0) :
      ∑ w ∈ range fac.workers.size, u w = min fac.terms.workerCount (asked is f) := by
    have hfilter : {w ∈ range fac.workers.size | w < min fac.terms.workerCount (asked is f)}
        = range (min fac.terms.workerCount (asked is f)) := by
      ext w
      simp only [mem_filter, mem_range]
      omega
    simp only [hu]
    rw [← card_filter, hfilter, card_range]
  have hwidth (fac' : Factory) (hfac' : m.store.factories[f]? = some fac') :
      fac'.workers.size = fac.workers.size := by
    rw [Option.some.inj (hfac'.symm.trans hfac)]
  obtain ⟨hopen, htake⟩ := h.openRequests_eq hwidth
  refine ⟨hopen.trans (hsum fun w => ?_), htake.trans (hsum fun w => ?_)⟩
  all_goals
    rcases h.launches_eq returned ⟨f, .worker w⟩ with ⟨hs, ho, ht⟩ | ⟨hs, ho, ht⟩
    · simp [(hstarted w).mp hs, ho, ht]
    · simp only [if_neg (mt (hstarted w).mpr hs), ho, ht]

/-- **What has come of all the calls for channels** when everybody has returned: so many
calls on a factory of so many workers. -/
structure Spread (m : Machine) (is : List Incident) (f : FactoryId) (fac : Factory) (calls : Nat) :
    Prop where
  /-- Every call has succeeded, -/
  granted : ∀ t, CarriesOut is t (.create f) →
    ∃ e ∈ m.store.ofFactory f, m.control? t = some (.finished (.created (.ok e)))
  /-- each has an endpoint of its own, -/
  apart : ∀ {t t' e}, m.control? t = some (.finished (.created (.ok e))) →
    m.control? t' = some (.finished (.created (.ok e))) → t = t'
  /-- and the numbers of the endpoints are those from zero on, each once. -/
  numbers : ((m.store.endpoints.toList.filter (·.factory = f)).map (·.number.toNat)).Perm
    (List.range calls)
  /-- The endpoints are spread evenly over the workers, which know how many they have. -/
  assigned : ∀ w < fac.terms.workerCount,
    (m.store.boundTo f w).card = (calls - w) ⌈/⌉ fac.terms.workerCount
      ∧ m.store.assigned f w = (calls - w) ⌈/⌉ fac.terms.workerCount
  /-- The first workers are running, as many as there are endpoints for, and nothing else. -/
  running : ∀ l, m.store.Running l
    ↔ ∃ w < min fac.terms.workerCount calls, l = ⟨f, .worker w⟩
  /-- As many multiplexers have been opened and as many loops taken. -/
  launched : openRequests is = min fac.terms.workerCount calls
    ∧ takings is = min fac.terms.workerCount calls
  /-- A worker has been woken for every datagram endpoint, and for no other, -/
  wakes : wakes is = match fac.flavor with
    | .client => 0
    | .datagram => calls
  /-- whose registration is queued once with its own worker, and nothing else is. -/
  queued : fac.flavor = .datagram → ∀ w,
    (∀ e ∈ m.store.boundTo f w, (m.store.queue ⟨f, .worker w⟩).count (.registration e) = 1)
      ∧ ∀ j ∈ m.store.queue ⟨f, .worker w⟩, ∃ e ∈ m.store.boundTo f w, j = .registration e

/-- Whoever has been given an endpoint has been given one that there is. -/
theorem Makes.mem_ofFactory (h : Makes f is m) {e : Nat}
    (hc : m.control? t = some (.finished (.created (.ok e)))) : e ∈ m.store.ofFactory f := by
  have hle := weightOf_le_total (fun _ c => c.hand.endpoints.count e) hc
  rw [Control.count_endpoints_made] at hle
  have hone := h.made.once e
  have hlt : e < m.store.endpoints.size := by
    by_contra hge
    rw [if_neg hge] at hone
    exact absurd (hle.trans_eq hone) (Nat.lt_irrefl 0)
  refine Store.mem_endpointsOf.mpr ⟨_, Array.getElem?_eq_getElem hlt, decide_eq_true ?_⟩
  exact (h.made.fresh _ (Array.getElem_mem hlt)).1

/-- Nobody else has been given the same one. -/
theorem Makes.apart (h : Makes f is m) {e : Nat}
    (hc : m.control? t = some (.finished (.created (.ok e))))
    (hc' : m.control? t' = some (.finished (.created (.ok e)))) : t = t' := by
  by_contra hne
  have hle := weightOf_add_le_total (fun _ c => c.hand.endpoints.count e) hne hc hc'
  have hone : (m.total fun _ c => c.hand.endpoints.count e) ≤ 1 := by
    refine (h.made.once e).le.trans ?_
    split <;> omega
  simp only [Control.count_endpoints_made] at hle
  omega

/-- What is queued with a worker are registrations of its endpoints. -/
theorem Makes.eq_registration (h : Makes f is m) {w : Nat} {j : Job}
    (hj : j ∈ m.store.queue ⟨f, .worker w⟩) : ∃ e ∈ m.store.boundTo f w, j = .registration e := by
  obtain ⟨hs, -⟩ := h.run.reachable.sound
  cases hl : m.store.loop? ⟨f, .worker w⟩ with
  | none => simp [Store.queue, hl] at hj
  | some lp =>
    rw [Store.queue_eq hl] at hj
    have hplaced := hs.placed hl j hj
    cases j with
    | attempt e a =>
      obtain ⟨r, -, hboss⟩ := hplaced
      cases hboss
    | registration e =>
      obtain ⟨r, hr, hhome⟩ := hplaced
      exact ⟨e, Store.mem_endpointsOf.mpr ⟨r, hr, decide_eq_true hhome⟩, rfl⟩

/-- The registration of a datagram endpoint is queued with its worker. -/
theorem Makes.count_registration (h : Makes f is m) (returned : m.Returned) {fac : Factory}
    (hfac : m.store.factories[f]? = some fac) (hfl : fac.flavor = .datagram) {w : Nat}
    (he : e ∈ m.store.boundTo f w) :
    (m.store.queue ⟨f, .worker w⟩).count (.registration e) = 1 := by
  obtain ⟨hs, -⟩ := h.run.reachable.sound
  obtain ⟨r, hr, hhome⟩ := Store.mem_endpointsOf.mp he
  have hhome : r.home = ⟨f, .worker w⟩ := of_decide_eq_true hhome
  have hfactory : r.factory = f := congrArg LoopId.factory hhome
  have hone := h.travelling (e := e) (by simp [Store.flavor?, hr, hfactory, hfac, hfl])
  rw [(h.run.reachable.tokens_of_atRest (h.atRest returned) hr).1, unrun, hr] at hone
  -- no loop has taken a batch
  have hbatch (l : LoopId) : (m.total fun _ c => carrying e (c.batch l)) = 0 := by
    refine total_eq_zero_iff.mpr fun t c hc => ?_
    rcases h.made_of_returned returned hc with ⟨e, rfl⟩ | ⟨l, mux, rfl⟩ <;> rfl
  -- and the boss, if there is one, has not been started
  have hboss : m.store.queue r.boss = [] := by
    cases hl : m.store.loop? r.boss with
    | none => simp [Store.queue, hl]
    | some lp =>
      by_contra hne
      rw [Store.queue_eq hl] at hne
      have hstarted : m.store.Started r.boss :=
        ⟨lp, hl, hs.used hl fun hq => hne (hq ▸ rfl)⟩
      obtain ⟨w', hw'⟩ := h.seat_of_started hstarted
      cases hw'
  simp only [unrunOn, hbatch, hboss, hhome, Nat.add_zero] at hone
  rw [show carrying e [] = 0 from rfl, Nat.zero_add] at hone
  rw [← hone, carrying, List.count]
  refine List.countP_congr fun j hj => ?_
  obtain ⟨e', -, rfl⟩ := h.eq_registration hj
  rw [beq_iff_eq, Job.registration.injEq]
  exact decide_eq_true_iff.symm

/-- **Channels are made evenly**, whatever the order in which those who make them get to
run. -/
theorem Makes.spread (h : Makes f is m) (returned : m.Returned) {fac : Factory}
    (hfac : m.store.factories[f]? = some fac) (hword : asked is f < 2 ^ 64) :
    m.Spread is f fac (asked is f) := by
  obtain ⟨hsize, hpicked, hdrawn⟩ := h.size_of_returned returned
  have hdealt : m.Dealt f fac.terms.workerCount :=
    h.dealt (fun fac' hfac' => by rw [Option.some.inj (hfac'.symm.trans hfac)]) hword
  refine ⟨?granted, h.apart, ?numbers, ?assigned, h.running_iff returned hfac hword,
    h.launched returned hfac hword, ?wakes,
    fun hfl w => ⟨fun e he => ?_, fun j => h.eq_registration⟩⟩
  case granted =>
    intro t ho
    obtain ⟨hlen, hfrom⟩ := h.run.originates
    have hlt : t < m.threads.size := hlen ▸ (List.getElem?_eq_some_iff.mp ho).1
    obtain ⟨c, hc⟩ : ∃ c, m.control? t = some c :=
      ⟨_, congrArg (Option.map Thread.control) (Array.getElem?_eq_getElem hlt)⟩
    rcases h.made_of_returned returned hc with ⟨e, rfl⟩ | ⟨l, mux, rfl⟩
    · exact ⟨e, h.mem_ofFactory hc, hc⟩
    · exact absurd (h.run.from_of_carriesOut ho hc) nofun
  case numbers =>
    have hall : m.store.endpoints.toList.filter (·.factory = f) = m.store.endpoints.toList :=
      List.filter_eq_self.mpr fun r hr =>
        decide_eq_true (h.made.fresh r (Array.mem_toList_iff.mp hr)).1
    rw [hall, show (fun r : Endpoint => r.number.toNat) = UInt64.toNat ∘ Endpoint.number from rfl,
      ← List.map_map]
    refine perm_range_of_count hword.le fun n => ?_
    have := hdealt.numbers n
    rw [h.inHand_of_returned returned (u := (·.numbers.count n)) rfl fun _ => rfl, Nat.zero_add,
      hdrawn] at this
    rw [← this, List.count, List.countP_map, ← Array.countP_toList]
    rfl
  case assigned =>
    intro w hw
    rw [h.assigned_eq returned, h.card_boundTo returned hfac hword, count_turns hw]
    exact ⟨rfl, rfl⟩
  case wakes =>
    have hfl (fac' : Factory) (hfac' : m.store.factories[f]? = some fac') :
        fac'.flavor = fac.flavor := by
      rw [Option.some.inj (hfac'.symm.trans hfac)]
    have := h.wakes_eq hfl
    rw [h.inHand_of_returned returned (u := (·.unwoken)) rfl fun _ => rfl, hsize] at this
    rw [← Nat.add_zero (wakes is), this]
    cases fac.flavor <;> rfl
  exact h.count_registration returned hfac hfl he

end Machine

/-! ## Playing such a history -/

/-- A datagram factory with an executor for its two workers. -/
def Blueprint.pair : Blueprint :=
  ⟨.datagram 0, ⟨2, Nat.two_pos, ⟨0, ⟨"fake", none⟩⟩, .unconstrained⟩⟩

/-- **Channels are made of a factory**, and what it leads to. -/
structure Rush (f : FactoryId) where
  incidents : List Incident
  machine : Machine
  makes : Machine.Makes f incidents machine

namespace Rush

variable {f : FactoryId}

/-- Nothing has happened. -/
def empty : Rush f := ⟨_, _, .empty⟩

/-- Somebody builds a factory. -/
def build (ru : Rush f) (b : Blueprint) : Rush f := ⟨_, _, ru.makes.advance (.build b) trivial⟩

/-- Somebody asks for a channel. -/
def call (ru : Rush f) : Rush f := ⟨_, _, ru.makes.advance (.call none (.create f)) rfl⟩

theorem obliges_granted (q : Request) :
    (Happening.answered q (Machine.granted q)).Obliges := by
  cases q with
  | openMultiplexer l p => exact ⟨_, rfl⟩
  | execute x l mux => rfl
  | _ => trivial

/-- **A thread makes so many steps**, unless it is a loop. -/
def turn (ru : Rush f) (t : ThreadId) : Nat → Rush f
  | 0 => ru
  | n + 1 =>
    if hloop : ∀ c ∈ ru.machine.control? t, c.isLoop = false then
      match hmove : ru.machine.move t with
      | .act _ _ _ =>
        turn ⟨_, _, ru.makes.advance (Machine.Step.act hmove).advance ⟨hloop, trivial⟩⟩ t n
      | .ask q _ =>
        turn ⟨_, _, ru.makes.advance (Machine.Step.answer hmove (Machine.granted q)).advance
          ⟨hloop, obliges_granted q⟩⟩ t n
      | .blocked _ | .stuck => ru
    else ru

/-- Three channels are made of a datagram factory with two workers. The last to come draws
the first number, and two are about to start the same worker at once. -/
def crowded : Rush 0 :=
  let called := (((empty.build .pair).call).call).call
  let picked := ((called.turn 0 2).turn 1 2).turn 2 2
  let drawn := ((picked.turn 2 1).turn 0 1).turn 1 1
  let started := ((drawn.turn 0 4).turn 2 4).turn 0 9
  ((started.turn 2 40).turn 1 40).turn 0 40

end Rush

/-- In the end the first worker has two of the endpoints and the second has one. -/
theorem spread_crowded : ∃ fac, Rush.crowded.machine.store.factories[0]? = some fac
    ∧ fac.flavor = .datagram ∧ fac.terms.workerCount = 2
    ∧ Rush.crowded.machine.Returned ∧ asked Rush.crowded.incidents 0 = 3
    ∧ Rush.crowded.machine.store.assigned 0 0 = 2
    ∧ Rush.crowded.machine.Spread Rush.crowded.incidents 0 fac 3 := by
  have hsome : (Rush.crowded.machine.store.factories[0]?).isSome = true := by decide +kernel
  obtain ⟨fac, hfac⟩ := Option.isSome_iff_exists.mp hsome
  have hflavor : (Rush.crowded.machine.store.factories[0]?).map Factory.flavor
      = some .datagram := by decide +kernel
  have hcount : (Rush.crowded.machine.store.factories[0]?).map (·.terms.workerCount)
      = some 2 := by decide +kernel
  have hreturned : Rush.crowded.machine.Returned := by decide +kernel
  have hasked : asked Rush.crowded.incidents 0 = 3 := by decide +kernel
  have hassigned : Rush.crowded.machine.store.assigned 0 0 = 2 := by decide +kernel
  rw [hfac] at hflavor hcount
  refine ⟨fac, hfac, Option.some.inj hflavor, Option.some.inj hcount, hreturned, hasked,
    hassigned, ?_⟩
  have hspread := Rush.crowded.makes.spread hreturned hfac (by rw [hasked]; decide)
  rwa [hasked] at hspread

end EndpointControl
