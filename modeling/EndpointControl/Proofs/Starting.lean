import Mathlib.Algebra.GroupWithZero.Nat
import EndpointControl.Proofs.Dealings

/-!
# A loop is started once

A loop is opened and offered to its executor by whoever holds the lock of its slot,
and by nobody else. So what has been done for it can be read off the store,
unless somebody is just in the middle of it: what has been opened is what the slot
holds, and an executor has taken the loop exactly if it is marked as started
(`Machine.Launch`). A multiplexer is opened only for an empty slot, and an
executor is asked only for a loop that has not been started, so over a whole
history no loop is opened or taken twice (`Machine.Traffic.length_opened_le`,
`Machine.Traffic.taken_le`).

Since a slot that is full stays as it is, the multiplexer that somebody has read
from it is the one that all others use (`Machine.Unfolds.slot_kept`).
-/

namespace EndpointControl

/-! ## What has been done for a loop -/

/-- The multiplexers that an incident has opened for the loop. -/
def Incident.opened (l : LoopId) : Incident → List Multiplexer
  | .stepped _ (.answered (.openMultiplexer l' _) (.ok m)) => if l' = l then [m] else []
  | _ => []

/-- How often an executor has taken the loop in an incident. -/
def Incident.taken (l : LoopId) : Incident → Nat
  | .stepped _ (.answered (.execute _ l' _) true) => if l' = l then 1 else 0
  | _ => 0

/-- **The multiplexers that have been opened for the loop.** -/
def opened (is : List Incident) (l : LoopId) : List Multiplexer := is.flatMap (Incident.opened l)

/-- **How often an executor has taken the loop.** -/
def taken (is : List Incident) (l : LoopId) : Nat := (is.map (Incident.taken l)).sum

section Counting

variable (is : List Incident) (i : Incident) (l : LoopId)

@[simp] theorem opened_nil : opened [] l = [] := rfl

@[simp] theorem taken_nil : taken [] l = 0 := rfl

@[simp] theorem opened_concat : opened (is ++ [i]) l = opened is l ++ i.opened l := by
  simp [opened]

@[simp] theorem taken_concat : taken (is ++ [i]) l = taken is l + i.taken l := by
  simp [taken]

end Counting

/-- **The multiplexer in the slot of the loop.** -/
def Store.slot? (s : Store) (l : LoopId) : Option Multiplexer := (s.loop? l).bind (·.slot)

theorem Store.slot?_eq {s : Store} {l : LoopId} {lp : Loop} (h : s.loop? l = some lp) :
    s.slot? l = lp.slot := by
  rw [slot?, h, Option.bind_some]

theorem Store.started_iff {s : Store} {l : LoopId} {lp : Loop} (h : s.loop? l = some lp) :
    s.Started l ↔ lp.started = true := by
  simp [Started, h]

/-- **Two stores agree on how far a loop has been started.** -/
structure Store.SameStart (s s' : Store) (l : LoopId) : Prop where
  slot : s'.slot? l = s.slot? l
  started : s'.Started l ↔ s.Started l

theorem Store.SameStart.of_loop {s s' : Store} {l : LoopId} (h : s'.loop? l = s.loop? l) :
    s.SameStart s' l :=
  ⟨by rw [slot?, h, slot?], by rw [Started, h, Started]⟩

/-- A change of a loop that leaves the slot and the mark alone. -/
theorem Store.SameStart.of_change {s s' : Store} {l : LoopId} {lp lp' : Loop}
    (found : s.loop? l = some lp) (found' : s'.loop? l = some lp') (hslot : lp'.slot = lp.slot)
    (hstarted : lp'.started = lp.started) : s.SameStart s' l :=
  ⟨by rw [slot?_eq found, slot?_eq found', hslot],
    by rw [started_iff found, started_iff found', hstarted]⟩

/-- **Building touches no loop that there is**, and those that it adds are idle. -/
theorem Store.loop?_build (s : Store) (b : Blueprint) (l : LoopId) :
    (s.build b).loop? l = s.loop? l
      ∨ s.loop? l = none ∧ ∃ p v x, (s.build b).loop? l = some (.idle p v x) := by
  cases hl : s.loop? l with
  | some lp =>
    obtain ⟨fac, hfac, hlp⟩ := Option.bind_eq_some_iff.mp hl
    have hlt : l.factory < s.factories.size := (Array.getElem?_eq_some_iff.mp hfac).1
    left
    rw [loop?, build, Array.getElem?_push_lt hlt, ← Array.getElem?_eq_getElem hlt, hfac,
      Option.bind_some, hlp]
  | none =>
    cases hl' : (s.build b).loop? l with
    | none => exact .inl rfl
    | some lp =>
      rcases loop?_of_build hl' with h | ⟨p, v, x, rfl⟩
      · cases hl.symm.trans h
      · exact .inr ⟨rfl, p, v, x, rfl⟩

/-- What is built has not been started. -/
theorem Store.sameStart_build (s : Store) (b : Blueprint) (l : LoopId) :
    s.SameStart (s.build b) l := by
  rcases s.loop?_build b l with h | ⟨hnone, p, v, x, h⟩
  · exact .of_loop h
  · exact ⟨by rw [slot?_eq h, slot?, hnone]; rfl, by simp [Started, hnone, h, Loop.idle]⟩

/-- **Everything that has been done for the loop shows.** What has been opened is
in the slot, and whoever was taken by an executor is marked as started, with a
multiplexer. -/
def Settled (s : Store) (is : List Incident) (l : LoopId) : Prop :=
  opened is l = (s.slot? l).toList
    ∧ (s.Started l ∧ (s.slot? l).isSome ∧ taken is l = 1 ∨ ¬ s.Started l ∧ taken is l = 0)

/-- **What holds for whoever stands at this point** of starting the loop. -/
def StartPoint.Fits (s : Store) (is : List Incident) (l : LoopId) : StartPoint → Prop
  | .inspectSlot => ¬ s.Started l
  | .openNew => s.slot? l = none ∧ ¬ s.Started l
  | .fillSlot m => s.slot? l = none ∧ ¬ s.Started l ∧ opened is l = [m] ∧ taken is l = 0
  | .execute m => s.slot? l = some m ∧ ¬ s.Started l
  | .mark => (s.slot? l).isSome ∧ ¬ s.Started l ∧ opened is l = (s.slot? l).toList ∧ taken is l = 1
  | _ => True

/-- At these points more has been done for the loop than shows. -/
def StartPoint.isUnsettled : StartPoint → Bool
  | .fillSlot _ | .mark => true
  | _ => false

/-- **The thread has done more for the loop than shows.** -/
def Control.isUnsettled (l : LoopId) : Control → Bool
  | .running (.start l' p :: _) => l' = l && p.isUnsettled
  | _ => false

/-- **How far a loop has been started**, as seen by those who start it and by all
others. -/
structure Machine.Launch (m : Machine) (is : List Incident) (l : LoopId) : Prop where
  fits : ∀ {t : ThreadId} {p : StartPoint} {below : List Frame},
    m.control? t = some (.running (.start l p :: below)) → p.Fits m.store is l
  settled : (∀ t c, m.control? t = some c → c.isUnsettled l = false) → Settled m.store is l

namespace StartPoint

variable {s s' : Store} {is is' : List Incident} {l : LoopId} {p : StartPoint}

theorem Fits.congr (h : p.Fits s is l) (hs : s.SameStart s' l) (ho : opened is' l = opened is l)
    (ht : taken is' l = taken is l) : p.Fits s' is' l := by
  cases p <;> simp only [Fits, hs.slot, hs.started, ho, ht] at h ⊢ <;> exact h

theorem fits_of_grip_eq_none (h : (Frame.start l p).grip = none) : p.Fits s is l := by
  cases p <;> trivial

/-- Whoever starts a loop and has the lock of its slot, has that of no other. -/
theorem grip_eq (h : (Frame.start l p).grip ≠ none) : (Frame.start l p).grip = some (.slot l) := by
  cases p <;> first | rfl | exact absurd rfl h

end StartPoint

theorem Settled.congr {s s' : Store} {is is' : List Incident} {l : LoopId} (h : Settled s is l)
    (hs : s.SameStart s' l) (ho : opened is' l = opened is l) (ht : taken is' l = taken is l) :
    Settled s' is' l := by
  rw [Settled, hs.slot, hs.started, ho, ht]
  exact h

theorem Control.grip_of_isUnsettled {c : Control} {l : LoopId} (h : c.isUnsettled l = true) :
    c.grip = some (.slot l) := by
  unfold isUnsettled at h
  split at h
  · rename_i l' p _
    obtain ⟨hl, hp⟩ := Bool.and_eq_true_iff.mp h
    obtain rfl := of_decide_eq_true hl
    cases p <;> first | rfl | exact absurd hp nofun
  · exact absurd h nofun

section Procedures

variable {s : Store} {t : ThreadId} {l : LoopId} {g : Store → Store} {c c' : Control}
  {ns : List Note} {is : List Incident}

/-- **A step leaves alone how far a loop has been started**, unless it fills the
slot or marks the loop. -/
theorem Control.Deals.sameStart {s' : Store} (h : c.Deals l s s' c' ns)
    (hc : c.isUnsettled l = false) : s.SameStart s' l := by
  cases h with
  | aside hloop => exact .of_loop hloop
  | fills | marks => simp [isUnsettled, StartPoint.isUnsettled] at hc
  | raises found hloop => exact .of_change found hloop rfl rfl
  | pushes found hloop => exact .of_change found hloop rfl rfl
  | turns found hloop hserving turn => cases turn <;> exact .of_change found hloop rfl rfl

/-- **Only a step of the start itself leads to a point of it under the lock.** -/
theorem Control.start_of_act {p : StartPoint} {below : List Frame} (hc : c.Stacked)
    (h : c.move s t = .act g (.running (.start l p :: below)) ns)
    (hp : (Frame.start l p).grip ≠ none) : ∃ p₀ lp, c = .running (.start l p₀ :: below)
      ∧ s.loop? l = some lp
      ∧ p₀.move s t below l lp = .act g (.running (.start l p :: below)) ns := by
  obtain ⟨fr, rest, rfl, hgoes⟩ := goes_of_act h
  generalize hc' : Control.running (.start l p :: below) = c' at hgoes h
  cases hgoes with
  | within hsame =>
    obtain ⟨rfl, rfl⟩ := List.cons.inj (Control.running.inj hc')
    cases hsame with
    | start =>
      cases moves_of_running h with
      | start found hmove => exact ⟨_, _, rfl, found, hmove⟩
  | calls hsame hnew =>
    obtain ⟨rfl, -⟩ := List.cons.inj (Control.running.inj hc')
    exact absurd (Frame.grip_of_isNew hnew) hp
  | @returns r hroot =>
    have hgrip : (back rest r).grip = none := Frame.Stacked.grip_back hc r
    rw [← hc'] at hgrip
    exact absurd hgrip hp
  | ends => exact absurd hc' nofun

/-- **One step of a start** brings about what holds at its next point. -/
theorem StartPoint.fits_of_move {p₀ p : StartPoint} {lp : Loop} {below : List Frame}
    (found : s.loop? l = some lp)
    (h : p₀.move s t below l lp = .act g (.running (.start l p :: below)) ns)
    (h₀ : p₀.Fits s is l) : p.Fits (g s) is l := by
  cases p₀ <;> simp [StartPoint.move] at h
  case takeSlot => obtain ⟨-, -, rfl, -⟩ := h; trivial
  case rereadShutDown => obtain ⟨-, rfl, -⟩ := h; split <;> trivial
  case rereadStarted =>
    obtain ⟨rfl, rfl, -⟩ := h
    split
    · trivial
    · rename_i hup
      exact fun hs => hup ((Store.started_iff found).mp hs)
  case inspectSlot =>
    obtain ⟨rfl, rfl, -⟩ := h
    split
    · rename_i m hm
      exact ⟨(Store.slot?_eq found).trans hm, h₀⟩
    · rename_i hm
      exact ⟨(Store.slot?_eq found).trans hm, h₀⟩
  case fillSlot m =>
    obtain ⟨rfl, rfl, -⟩ := h
    have found' := Store.loop?_modifyLoop_self found fun l => { l with slot := some m }
    refine ⟨Store.slot?_eq found', fun hs => h₀.2.1 ?_⟩
    exact (Store.started_iff found).mpr ((Store.started_iff found').mp hs)
  case readShutDown | readStarted =>
    obtain ⟨-, hc, -⟩ := h
    split at hc
    · exact absurd hc.symm (Control.back_ne _ _ _)
    · simp at hc; exact hc ▸ trivial
  case mark | announce => obtain ⟨-, rfl, -⟩ := h; trivial
  case leave r => exact absurd h.2.1.symm (Control.back_ne _ _ _)

/-- **An answer to a start** brings about what holds at its next point. -/
theorem StartPoint.fits_of_ask {p : StartPoint} {below : List Frame} {q : Request}
    {after : q.Reply → Control} (reply : q.Reply) (h : c.move s t = .ask q after)
    (hafter : after reply = .running (.start l p :: below))
    (h₀ : ∀ p₀, c = .running (.start l p₀ :: below) → p₀.Fits s is l)
    (hsettled : Settled s is l) :
    p.Fits s (is ++ [.stepped t (.answered q reply)]) l := by
  obtain ⟨fr, rest, rfl, ha⟩ := Control.asks h
  cases ha with
  | @openNew id lp found =>
    cases reply with
    | ok m =>
      obtain ⟨⟨rfl, rfl⟩, rfl⟩ : (id = l ∧ StartPoint.fillSlot m = p) ∧ rest = below := by
        simpa using hafter
      obtain ⟨hslot, hstarted⟩ := h₀ _ rfl
      refine ⟨hslot, hstarted, ?_, ?_⟩
      · simp [hsettled.1, hslot, Incident.opened]
      · have htaken := (hsettled.2.resolve_left fun h => hstarted h.1).2
        simp [htaken, Incident.taken]
    | error cause =>
      obtain ⟨⟨rfl, rfl⟩, rfl⟩ : (id = l ∧ _ = p) ∧ rest = below := by simpa using hafter
      trivial
  | @execute id lp m found =>
    obtain ⟨⟨rfl, rfl⟩, rfl⟩ : (id = l ∧ _ = p) ∧ rest = below := by simpa using hafter
    cases reply with
    | true =>
      obtain ⟨hslot, hstarted⟩ := h₀ _ rfl
      refine ⟨by rw [hslot, Option.isSome_some], hstarted, ?_, ?_⟩
      · simp [hsettled.1, Incident.opened]
      · have htaken := (hsettled.2.resolve_left fun h => hstarted h.1).2
        simp [htaken, Incident.taken]
    | false => trivial
  | wakeSubmit | wakeSignal => cases reply <;> exact absurd hafter nofun
  | _ => exact absurd hafter nofun

/-- **Whoever opens a multiplexer or has a loop taken** stands under the lock of its slot,
and everything that has been done before shows. -/
theorem Control.grip_of_launch {q : Request} {after : q.Reply → Control} (reply : q.Reply)
    (h : c.move s t = .ask q after) :
    ((Incident.stepped t (.answered q reply)).opened l = []
      ∧ (Incident.stepped t (.answered q reply)).taken l = 0)
    ∨ c.grip = some (.slot l) ∧ (after reply).isUnsettled l = true := by
  obtain ⟨fr, rest, rfl, ha⟩ := asks h
  cases ha with
  | @openNew id lp found =>
    cases reply with
    | ok m =>
      by_cases hid : id = l
      · subst hid
        exact .inr ⟨rfl, by simp [isUnsettled, StartPoint.isUnsettled]⟩
      · exact .inl ⟨if_neg hid, rfl⟩
    | error cause => exact .inl ⟨rfl, rfl⟩
  | @execute id lp m found =>
    cases reply with
    | true =>
      by_cases hid : id = l
      · subst hid
        exact .inr ⟨rfl, by simp [isUnsettled, StartPoint.isUnsettled]⟩
      · exact .inl ⟨rfl, if_neg hid⟩
    | false => exact .inl ⟨rfl, rfl⟩
  | _ => exact .inl ⟨rfl, rfl⟩

/-- Whoever asks has not done more than shows. -/
theorem Control.isUnsettled_of_ask {q : Request} {after : q.Reply → Control}
    (h : c.move s t = .ask q after) : c.isUnsettled l = false := by
  obtain ⟨fr, rest, rfl, ha⟩ := asks h
  cases ha <;> simp [isUnsettled, StartPoint.isUnsettled]

/-- **After a step of one who has done more than shows, everything shows.** -/
theorem Control.shows_of_act (h : c.move s t = .act g c' ns)
    (h₀ : ∀ p₀ below, c = .running (.start l p₀ :: below) → p₀.Fits s is l)
    (hu : c.isUnsettled l = true) : Settled (g s) is l := by
  unfold isUnsettled at hu
  split at hu
  case h_2 => exact absurd hu nofun
  case h_1 l' p below =>
    obtain ⟨hl, hp⟩ := Bool.and_eq_true_iff.mp hu
    obtain rfl := of_decide_eq_true hl
    cases moves_of_running h with
    | start found hmove =>
      cases p <;> simp [StartPoint.isUnsettled] at hp <;> simp [StartPoint.move] at hmove
      case fillSlot m =>
        obtain ⟨hslot, hstarted, hopened, htaken⟩ := h₀ _ _ rfl
        obtain ⟨rfl, -, -⟩ := hmove
        have found' := Store.loop?_modifyLoop_self found fun l => { l with slot := some m }
        refine ⟨by rw [hopened, Store.slot?_eq found']; rfl, .inr ⟨fun hs => hstarted ?_, htaken⟩⟩
        exact (Store.started_iff found).mpr ((Store.started_iff found').mp hs)
      case mark =>
        obtain ⟨hslot, hstarted, hopened, htaken⟩ := h₀ _ _ rfl
        obtain ⟨rfl, -, -⟩ := hmove
        have found' := Store.loop?_modifyLoop_self found fun l => { l with started := true }
        rw [Store.slot?_eq found] at hslot hopened
        refine ⟨(Store.slot?_eq found').symm ▸ hopened, .inl ⟨?_, ?_, htaken⟩⟩
        · exact (Store.started_iff found').mpr rfl
        · exact (Store.slot?_eq found').symm ▸ hslot

end Procedures

/-! ## All histories -/

namespace Machine

variable {m m' : Machine} {is : List Incident} {i : Incident} {l : LoopId} {t : ThreadId}

/-- Nobody else has the lock of the slot, so what has been done shows, unless the
thread itself has done more. -/
theorem Launch.settled_of_grip (hl : m.Launch is l) (h : Traffic is m) {c : Control}
    (hc : m.control? t = some c) (hk : c.grip = some (.slot l)) (hu : c.isUnsettled l = false) :
    Settled m.store is l := by
  refine hl.settled fun t' d hd => ?_
  by_contra hd'
  have hgrip := Control.grip_of_isUnsettled (Bool.eq_true_of_not_eq_false hd')
  obtain rfl := h.eq_of_grip rfl hc hd hk hgrip
  obtain rfl := Option.some.inj (hc.symm.trans hd)
  exact hd' hu

/-- A new thread that is not starting the loop changes nothing. -/
theorem Launch.spawn (hl : m.Launch is l) (home : Option ExecutorId) {c : Control}
    (hc : ∀ p below, c = .running (.start l p :: below) → (Frame.start l p).grip = none) :
    (m.spawn home c).Launch is l where
  fits {t p below} h := by
    rw [control?_spawn] at h
    split at h
    · exact StartPoint.fits_of_grip_eq_none (hc p below (Option.some.inj h))
    · exact hl.fits h
  settled h := hl.settled fun t d hd =>
    h t d (control?_spawn_of_eq_some hd ..)

theorem Launch.act (hl : m.Launch is l) (h : Traffic is m) {c c' : Control} {g : Store → Store}
    {ns : List Note} (hc : m.control? t = some c) (hmove : c.move m.store t = .act g c' ns) :
    (m.act t g c').Launch is l := by
  have hst := h.stacked t c hc
  have h₀ (p₀ : StartPoint) (below : List Frame) (heq : c = .running (.start l p₀ :: below)) :
      p₀.Fits m.store is l := hl.fits (heq ▸ hc)
  constructor
  case fits =>
    intro t' p below hd
    by_cases hk : (Frame.start l p).grip = none
    · exact StartPoint.fits_of_grip_eq_none hk
    rw [control?_act] at hd
    split at hd
    · -- the thread itself has come from another point of the start
      obtain ⟨-, -, rfl⟩ := Option.map_eq_some_iff.mp hd
      obtain ⟨p₀, lp, rfl, found, hmove'⟩ := Control.start_of_act hst hmove hk
      exact StartPoint.fits_of_move found hmove' (h₀ _ _ rfl)
    · -- others under the lock keep it from filling the slot and from marking the loop
      rename_i hne
      refine (hl.fits hd).congr ((Control.deals_of_act hst hmove).sameStart ?_) rfl rfl
      by_contra hu
      have hgrip := Control.grip_of_isUnsettled (Bool.eq_true_of_not_eq_false hu)
      exact hne (h.eq_of_grip rfl hc hd hgrip (StartPoint.grip_eq hk))
  case settled =>
    intro hidle
    by_cases hu : c.isUnsettled l = true
    · exact Control.shows_of_act hmove h₀ hu
    · have hu := Bool.eq_false_of_not_eq_true hu
      refine (hl.settled fun t' d hd => ?_).congr
        ((Control.deals_of_act hst hmove).sameStart hu) rfl rfl
      by_cases ht : t = t'
      · subst ht
        obtain rfl := Option.some.inj (hc.symm.trans hd)
        exact hu
      · exact hidle t' d (by rw [control?_act, if_neg ht, hd])

theorem Launch.answer (hl : m.Launch is l) (h : Traffic is m) {c : Control} {q : Request}
    {after : q.Reply → Control} (hc : m.control? t = some c)
    (hmove : c.move m.store t = .ask q after) (reply : q.Reply) :
    (m.answer t q after reply).Launch (is ++ [.stepped t (.answered q reply)]) l := by
  have hu := Control.isUnsettled_of_ask (l := l) hmove
  have hstore : (m.answer t q after reply).store = m.store := store_answer ..
  have hset : (m.setControl t (after reply)).Launch
      (is ++ [.stepped t (.answered q reply)]) l := by
    constructor
    case fits =>
      intro t' p below hd
      by_cases hk : (Frame.start l p).grip = none
      · exact StartPoint.fits_of_grip_eq_none hk
      have hk := StartPoint.grip_eq hk
      rw [control?_setControl] at hd
      split at hd
      · obtain ⟨-, -, heq⟩ := Option.map_eq_some_iff.mp hd
        have hgrip : c.grip = some (.slot l) := by
          rw [← Control.grip_of_ask reply hmove, heq]
          exact hk
        exact StartPoint.fits_of_ask reply hmove heq (fun p₀ heq => hl.fits (heq ▸ hc))
          (hl.settled_of_grip h hc hgrip hu)
      · rename_i hne
        rcases Control.grip_of_launch (l := l) reply hmove with ⟨ho, ht⟩ | ⟨hgrip, -⟩
        · exact (hl.fits hd).congr (.of_loop rfl) (by rw [opened_concat, ho, List.append_nil])
            (by rw [taken_concat, ht, Nat.add_zero])
        · exact absurd (h.eq_of_grip rfl hc hd hgrip hk) hne
    case settled =>
      intro hidle
      have hself : (m.setControl t (after reply)).control? t = some (after reply) :=
        control?_setControl_self hc _
      rcases Control.grip_of_launch (l := l) reply hmove with ⟨ho, ht⟩ | ⟨-, hu'⟩
      · refine Settled.congr (hl.settled fun t' d hd => ?_) (.of_loop rfl)
          (by rw [opened_concat, ho, List.append_nil]) (by rw [taken_concat, ht, Nat.add_zero])
        by_cases hne : t = t'
        · subst hne
          obtain rfl := Option.some.inj (hc.symm.trans hd)
          exact hu
        · exact hidle t' d (by rw [control?_setControl, if_neg hne, hd])
      · exact absurd ((hidle t _ hself).symm.trans hu') nofun
  rcases answer_eq m t q after reply with he | ⟨x, l', mux, -, he⟩ <;> rw [he]
  · exact hset
  · exact hset.spawn _ nofun

/-- **In all traffic a loop is started by one thread at a time.** -/
theorem Traffic.launch (h : Traffic is m) (l : LoopId) : m.Launch is l := by
  refine h.induction (motive := fun is m => m.Launch is l) ?empty
    (fun {is m i m'} h ih a => ?advance) (fun home _ ih hnew => ?use)
  case empty =>
    refine ⟨fun h => by simp [control?, Machine.empty] at h, fun _ => ⟨rfl, .inr ⟨?_, rfl⟩⟩⟩
    simp [Store.Started, Store.loop?, Machine.empty, Store.empty]
  case use =>
    refine ih.spawn home fun p below heq => ?_
    obtain ⟨rfl, -⟩ := List.cons.inj (Control.running.inj heq)
    exact Frame.grip_of_isNew hnew
  case advance =>
    have hcalm {i : Incident} {is : List Incident} {m' : Machine} (hl : m'.Launch is l)
        (ho : i.opened l = []) (ht : i.taken l = 0) : m'.Launch (is ++ [i]) l := by
      have ho : opened (is ++ [i]) l = opened is l := by rw [opened_concat, ho, List.append_nil]
      have ht : taken (is ++ [i]) l = taken is l := by rw [taken_concat, ht, Nat.add_zero]
      exact ⟨fun hc => (hl.fits hc).congr (.of_loop rfl) ho ht,
        fun hidle => (hl.settled hidle).congr (.of_loop rfl) ho ht⟩
    cases a with
    | act hc hmove => exact hcalm (ih.act h hc hmove) rfl rfl
    | answer hc hmove reply => exact ih.answer h hc hmove reply
    | call home o => exact hcalm (ih.spawn home (by cases o <;> rintro _ _ ⟨⟩)) rfl rfl
    | build b =>
      have hsame := Store.sameStart_build m.store b l
      exact hcalm ⟨fun hc => (ih.fits hc).congr hsame rfl rfl,
        fun hidle => (ih.settled hidle).congr hsame rfl rfl⟩ rfl rfl

/-! ## Once and for all -/

/-- **What has been done shows, or somebody is about to show it.** -/
theorem Launch.settled_or (hl : m.Launch is l) : Settled m.store is l
    ∨ (m.store.slot? l = none ∧ ¬ m.store.Started l ∧ (∃ mux, opened is l = [mux])
      ∧ taken is l = 0)
    ∨ ((m.store.slot? l).isSome ∧ ¬ m.store.Started l ∧ opened is l = (m.store.slot? l).toList
      ∧ taken is l = 1) := by
  by_cases hidle : ∀ t c, m.control? t = some c → c.isUnsettled l = false
  · exact .inl (hl.settled hidle)
  · push Not at hidle
    obtain ⟨t, c, hc, hu⟩ := hidle
    unfold Control.isUnsettled at hu
    split at hu
    case h_2 => exact absurd rfl hu
    case h_1 l' p below =>
      obtain ⟨hl', hp⟩ := Bool.and_eq_true_iff.mp (Bool.eq_true_of_not_eq_false hu)
      obtain rfl := of_decide_eq_true hl'
      cases p <;> simp [StartPoint.isUnsettled] at hp
      case fillSlot mux =>
        obtain ⟨hslot, hstarted, hopened, htaken⟩ := hl.fits hc
        exact .inr (.inl ⟨hslot, hstarted, ⟨mux, hopened⟩, htaken⟩)
      case mark => exact .inr (.inr (hl.fits hc))

/-- **No loop is opened twice.** -/
theorem Traffic.length_opened_le (h : Traffic is m) (l : LoopId) : (opened is l).length ≤ 1 := by
  rcases (h.launch l).settled_or with ⟨ho, -⟩ | ⟨-, -, ⟨mux, ho⟩, -⟩ | ⟨-, -, ho, -⟩ <;> rw [ho]
  · cases m.store.slot? l <;> simp
  · simp
  · cases m.store.slot? l <;> simp

/-- **No loop is taken twice.** -/
theorem Traffic.taken_le (h : Traffic is m) (l : LoopId) : taken is l ≤ 1 := by
  rcases (h.launch l).settled_or with ⟨-, ⟨-, -, ht⟩ | ⟨-, ht⟩⟩ | ⟨-, -, -, ht⟩ | ⟨-, -, -, ht⟩ <;>
    omega

/-- **What is in the slot is what has been opened.** -/
theorem Traffic.opened_of_slot (h : Traffic is m) {mux : Multiplexer}
    (hslot : m.store.slot? l = some mux) : opened is l = [mux] := by
  rcases (h.launch l).settled_or with ⟨ho, -⟩ | ⟨hnone, -⟩ | ⟨-, -, ho, -⟩
  · rw [ho, hslot, Option.toList_some]
  · exact absurd (hslot.symm.trans hnone) nofun
  · rw [ho, hslot, Option.toList_some]

/-- A loop that has been started has its multiplexer, and an executor has taken it. -/
theorem Traffic.slot_of_started (h : Traffic is m) (hs : m.store.Started l) :
    (m.store.slot? l).isSome ∧ taken is l = 1 := by
  rcases (h.launch l).settled_or with ⟨-, ⟨-, h⟩ | ⟨hno, -⟩⟩ | ⟨-, hno, -⟩ | ⟨-, hno, -⟩
  · exact h
  all_goals exact absurd hs hno

/-- **A slot that is full stays as it is.** -/
theorem Traffic.slot_kept (h : Traffic is m) (a : m.Advance i m') {mux : Multiplexer}
    (hslot : m.store.slot? l = some mux) : m'.store.slot? l = some mux := by
  cases a with
  | @act t c c' g ns hc hmove =>
    by_cases hu : c.isUnsettled l = true
    · -- the slot is filled only while it is empty
      have hsettled : Settled (g m.store) is l :=
        Control.shows_of_act hmove (fun p below heq => (h.launch l).fits (heq ▸ hc)) hu
      have hopened := hsettled.1.symm.trans (h.opened_of_slot hslot)
      rw [store_act]
      cases hslot' : (g m.store).slot? l with
      | none => simp [hslot'] at hopened
      | some mux' => simpa [hslot'] using hopened
    · rw [store_act, ((Control.deals_of_act (h.stacked t c hc) hmove).sameStart
        (Bool.eq_false_of_not_eq_true hu)).slot, hslot]
  | answer => rwa [store_answer]
  | call => exact hslot
  | build b => rwa [Machine.build, (m.store.sameStart_build b l).slot]

theorem Unfolds.slot_kept {is' : List Incident} (h : m.Unfolds is' m') (ht : Traffic is m)
    {mux : Multiplexer} (hslot : m.store.slot? l = some mux) : m'.store.slot? l = some mux := by
  induction h with
  | refl => exact hslot
  | advance h a ih => exact (ht.unfolds h).slot_kept a ih
  | use _ _ _ ih => exact ih

end Machine

end EndpointControl
