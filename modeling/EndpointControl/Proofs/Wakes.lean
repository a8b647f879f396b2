import EndpointControl.Proofs.Waking
import EndpointControl.Proofs.Acceptance

/-!
# Accounting for wakes

A loop is woken for two reasons: because a job has been appended to its queue, and
because it has been told to end. Whoever does the one or the other wakes the loop
once, and nobody else does; only a loop that is told to end before it has a multiplexer
is not woken at all. So at any time, for each loop, the wakes there have been and those
that are still to come are as many as jobs have been appended, and one more if the loop
has been told to end and has its multiplexer (`Machine.Traffic.tolled`).

It matters here that of all that tell a loop to end only the first goes on to wake it,
and that a start which has looked at the flag before it went up may still fill the slot
while that one waits for the lock.
-/

open Finset

namespace EndpointControl

/-- Somebody wakes the multiplexer of the loop, whatever comes of it. -/
def Incident.isWake (l : LoopId) : Incident → Bool
  | .stepped _ (.answered (.wake l' _) _) => l' = l
  | _ => false

/-- **How often the loop has been woken.** -/
def wakesAt (is : List Incident) (l : LoopId) : Nat := is.countP (Incident.isWake l)

@[simp] theorem wakesAt_nil (l : LoopId) : wakesAt [] l = 0 := rfl

@[simp] theorem wakesAt_concat (is : List Incident) (i : Incident) (l : LoopId) :
    wakesAt (is ++ [i]) l = wakesAt is l + if i.isWake l then 1 else 0 := by
  rw [wakesAt, List.countP_append, List.countP_singleton, wakesAt]

theorem wakesAt_eq_sum (is : List Incident) (l : LoopId) :
    wakesAt is l = (is.map fun i => if i.isWake l then 1 else 0).sum := by
  induction is with
  | nil => rfl
  | cons i is ih =>
    rw [wakesAt, List.countP_cons, ← wakesAt, ih, List.map_cons, List.sum_cons, Nat.add_comm]

/-- The loop has been told to end. -/
def Store.isTold (s : Store) (l : LoopId) : Bool := (s.loop? l).any (·.shutDown)

theorem Store.isTold_iff {s : Store} {l : LoopId} : s.isTold l = true ↔ s.ShutDown l := by
  rw [isTold, Option.any_eq_true, ShutDown]

/-- **The thread has appended a job to the queue of the loop** and not woken the loop
since. -/
def Control.owes (l : LoopId) : Control → Nat
  | .running (.submit l' _ (.wake _) :: _) => if l' = l then 1 else 0
  | _ => 0

/-- **The thread has raised the flag of the loop** and has still to wake the loop, if
there is a multiplexer to wake. -/
def Control.rings (l : LoopId) : Control → Nat
  | .running (.signal l' p :: _) => if l' = l ∧ p.isUnwoken then 1 else 0
  | _ => 0

/-- The submission has not looked yet whether the loop has been told to end, or has found that it
has. -/
def SubmitPoint.isClear : SubmitPoint → Bool
  | .start | .readShutDown | .refuse _ | .refused _ => true
  | _ => false

/-- **A thread that is in the midst of no submission and of no call that tells a loop to end.** It
may be at the beginning of one, or have been turned away. -/
def Control.isClear : Control → Bool
  | .running (.submit _ _ p :: _) => p.isClear
  | .running (.signal _ p :: _) => p = .raise
  | _ => true

/-! ## One step -/

section Procedures

variable {s s' : Store} {t : ThreadId} {l : LoopId} {fr : Frame} {below : List Frame}
  {g : Store → Store} {c c' : Control} {ns : List Note}

/-- A call that is just beginning is in the midst of neither. -/
theorem Control.isClear_of_isNew (hnew : fr.isNew = true) (below : List Frame) :
    (Control.running (fr :: below)).isClear = true := by
  cases fr with
  | submit l' j p => cases p <;> first | rfl | exact absurd hnew nofun
  | signal l' p => cases p <;> first | rfl | exact absurd hnew nofun
  | _ => rfl

/-- Nor is whoever goes on because a call has returned. -/
theorem Frame.Stacked.isClear_back (h : fr.Stacked below) (r : Except Failure Unit) :
    (Control.back below r).isClear = true := by
  cases below with
  | nil => rfl
  | cons caller rest =>
    have hawaits := h.1
    unfold Awaits at hawaits
    split at hawaits
    case h_11 => exact hawaits.elim
    all_goals cases r <;> rfl

/-- **Only a submission, or a call that tells a loop to end, leads into the midst of itself.** -/
theorem Control.Goes.within_or_isClear (h : c.Goes fr below) (hst : fr.Stacked below) :
    (∃ fr', fr.SameCall fr' ∧ c = .running (fr' :: below)) ∨ c.isClear = true := by
  cases h with
  | within hsame => exact .inl ⟨_, hsame, rfl⟩
  | calls _ hnew => exact .inr (isClear_of_isNew hnew _)
  | returns => exact .inr (hst.isClear_back _)
  | ends => exact .inr rfl

theorem Control.owes_of_isClear (h : c.isClear = true) : c.owes l = 0 := by
  unfold owes
  split
  · cases h
  · rfl

theorem Control.rings_of_isClear (h : c.isClear = true) : c.rings l = 0 := by
  unfold rings
  split
  · obtain rfl := of_decide_eq_true h
    exact if_neg fun hp => absurd hp.2 nofun
  · rfl

/-- Only a step of a submission leads to where a job has been appended. -/
theorem Control.Goes.owes (h : c.Goes fr below) (hst : fr.Stacked below)
    (hfr : ∀ l j p, fr ≠ .submit l j p) : c.owes l = 0 := by
  rcases h.within_or_isClear hst with ⟨fr', hsame, rfl⟩ | hclear
  · cases hsame with
    | submit => exact absurd rfl (hfr _ _ _)
    | _ => rfl
  · exact owes_of_isClear hclear

/-- Only a step of a call that tells a loop to end leads to where its flag is up. -/
theorem Control.Goes.rings (h : c.Goes fr below) (hst : fr.Stacked below)
    (hfr : ∀ l p, fr ≠ .signal l p) : c.rings l = 0 := by
  rcases h.within_or_isClear hst with ⟨fr', hsame, rfl⟩ | hclear
  · cases hsame with
    | signal => exact absurd rfl (hfr _ _)
    | _ => rfl
  · exact rings_of_isClear hclear

/-- **A submission has to wake its loop from when it has appended its job.** -/
theorem SubmitPoint.owes_of_move {l' : LoopId} {lp : Loop} {j : Job} {p : SubmitPoint}
    (h : p.move s t below l' lp j = .act g c ns) (hst : (Frame.submit l' j p).Stacked below)
    (ha : (Frame.submit l' j p).Aware s) :
    c.owes l = (ns.flatMap (Note.pushes l)).length := by
  cases p <;> simp [SubmitPoint.move] at h
  case append mo =>
    obtain ⟨-, rfl, rfl⟩ := h
    obtain ⟨mux, rfl, -⟩ := ha
    by_cases hl : l' = l <;> simp [Control.owes, hl]
  case start | refuse =>
    obtain ⟨-, rfl, rfl⟩ := h
    exact Control.owes_of_isClear (Control.isClear_of_isNew rfl _)
  case readShutDown =>
    obtain ⟨-, rfl, rfl⟩ := h
    split <;> rfl
  case takeSlot | takeQueue =>
    obtain ⟨-, -, rfl, rfl⟩ := h
    rfl
  case serialize m =>
    split at h <;> simp at h
    · obtain ⟨-, -, rfl, rfl⟩ := h
      rfl
    · obtain ⟨-, rfl, rfl⟩ := h
      rfl
  case leave =>
    split at h <;> simp at h <;> obtain ⟨-, rfl, rfl⟩ := h <;>
      exact Control.owes_of_isClear (hst.isClear_back _)
  case refused =>
    obtain ⟨-, rfl, rfl⟩ := h
    exact Control.owes_of_isClear (hst.isClear_back _)
  all_goals
    obtain ⟨-, rfl, rfl⟩ := h
    rfl

/-- **What a step does to the flag of a loop** and to those who have raised it. -/
inductive Control.Rings (l : LoopId) (s s' : Store) (c c' : Control) : Prop where
  /-- Nothing. -/
  | still (htold : s'.isTold l = s.isTold l) (hrings : c'.rings l = c.rings l)
  /-- Whoever has raised the flag finds no multiplexer to wake. -/
  | spares (htold : s'.isTold l = s.isTold l) (hslot : s.slot? l = none)
    (hrings : c'.rings l ≤ c.rings l)
  /-- The flag goes up. -/
  | raises (hdown : s.isTold l = false) (hup : s'.isTold l = true) (hc : c.rings l = 0)
    (hrings : c'.rings l = 1)

theorem SignalPoint.rings_of_move {l' : LoopId} {lp : Loop} {p : SignalPoint}
    (found : s.loop? l' = some lp) (h : p.move s t below l' lp = .act g c ns)
    (hst : (Frame.signal l' p).Stacked below) :
    Control.Rings l s (g s) (.running (.signal l' p :: below)) c := by
  cases p <;> simp [SignalPoint.move] at h
  case raise =>
    obtain ⟨rfl, rfl, -⟩ := h
    by_cases hl : l' = l
    · subst hl
      have hup : (s.modifyLoop l' fun l => { l with shutDown := true }).isTold l' = true := by
        rw [Store.isTold, Store.loop?_modifyLoop_self found, Option.any_some]
      have hold : s.isTold l' = lp.shutDown := by rw [Store.isTold, found, Option.any_some]
      cases hd : lp.shutDown with
      | true =>
        refine .still (hup.trans (hold.trans hd).symm) ?_
        rw [if_pos rfl, Control.rings_of_isClear (hst.isClear_back _)]
        simp [Control.rings, isUnwoken]
      | false =>
        exact .raises (hold.trans hd) hup (by simp [Control.rings, isUnwoken])
          (by simp [Control.rings, isUnwoken])
    · refine .still (by rw [Store.isTold, Store.loop?_modifyLoop_of_ne hl, Store.isTold]) ?_
      split
      · rw [Control.rings_of_isClear (hst.isClear_back _)]
        simp [Control.rings, hl]
      · simp [Control.rings, hl]
  case takeSlot =>
    obtain ⟨-, rfl, rfl, -⟩ := h
    exact .still rfl rfl
  case readSlot =>
    obtain ⟨rfl, rfl, -⟩ := h
    by_cases hl : l' = l
    · subst hl
      cases hslot : lp.slot with
      | some m => exact .still rfl rfl
      | none =>
        refine .spares rfl ((Store.slot?_eq found).trans hslot) ?_
        simp [Control.rings, isUnwoken]
    · exact .still rfl (by simp [Control.rings, hl])
  case wakeFailed | giveSlot =>
    obtain ⟨rfl, rfl, -⟩ := h
    exact .still rfl (by simp [Control.rings, isUnwoken])
  case announce =>
    obtain ⟨rfl, rfl, -⟩ := h
    refine .still rfl ?_
    rw [Control.rings_of_isClear (hst.isClear_back _)]
    simp [Control.rings, isUnwoken]

/-- Whoever does not submit appends nothing. -/
theorem Control.pushes_eq_nil (hc : c.Stacked) (h : c.move s t = .act g c' ns)
    (hne : ∀ l j p below, c ≠ .running (.submit l j p :: below)) :
    ns.flatMap (Note.pushes l) = [] :=
  List.eq_nil_iff_forall_not_mem.mpr fun j hj => by
    obtain ⟨mo, below, heq⟩ := append_of_pushed hc h (Machine.mem_pushes.mp hj)
    exact hne _ _ _ _ heq

/-- The flag of a loop goes up in one place. -/
theorem Control.Deals.isTold (h : c.Deals l s s' c' ns)
    (hc : ∀ p below, c ≠ .running (.signal l p :: below)) : s'.isTold l = s.isTold l := by
  have hchange {lp lp' : Loop} (found : s.loop? l = some lp) (found' : s'.loop? l = some lp')
      (hsame : lp'.shutDown = lp.shutDown) : s'.isTold l = s.isTold l := by
    rw [Store.isTold, Store.isTold, found, found', Option.any_some, Option.any_some, hsame]
  cases h with
  | aside hloop => rw [Store.isTold, hloop, Store.isTold]
  | fills found hloop | marks found hloop | pushes found hloop => exact hchange found hloop rfl
  | raises => exact absurd rfl (hc _ _)
  | turns found hloop _ turn => exact hchange found hloop (by cases turn <;> rfl)

/-- **Whoever acts has no job to wake the loop for, and has one then if it has just
appended it.** -/
theorem Control.owes_of_act (hc : c.Stacked) (ha : c.Aware s) (h : c.move s t = .act g c' ns) :
    c.owes l = 0 ∧ c'.owes l = (ns.flatMap (Note.pushes l)).length := by
  have hnil := pushes_eq_nil (l := l) hc h
  obtain ⟨fr, below, rfl, hgoes⟩ := goes_of_act h
  by_cases hfr : ∃ l' j p, fr = .submit l' j p
  · obtain ⟨l', j, p, rfl⟩ := hfr
    cases moves_of_running h with
    | submit found hp =>
      refine ⟨?_, p.owes_of_move hp hc (aware_cons.mp ha).1⟩
      cases p <;> first | rfl | simp [SubmitPoint.move] at hp
  · have hne (l' j p) : fr ≠ .submit l' j p := fun heq => hfr ⟨l', j, p, heq⟩
    refine ⟨?_, ?_⟩
    · cases fr <;> first | rfl | exact absurd rfl (hne _ _ _)
    · rw [hgoes.owes hc hne, hnil, List.length_nil]
      exact fun l' j p below' heq => hne l' j p (List.cons.inj (running.inj heq)).1

theorem Control.rings_of_act (hc : c.Stacked) (h : c.move s t = .act g c' ns) :
    Control.Rings l s (g s) c c' := by
  have hdeals : c.Deals l s (g s) c' ns := deals_of_act hc h
  obtain ⟨fr, below, rfl, hgoes⟩ := goes_of_act h
  by_cases hfr : ∃ l' p, fr = .signal l' p
  · obtain ⟨l', p, rfl⟩ := hfr
    cases moves_of_running h with
    | signal found hp => exact p.rings_of_move found hp hc
  · have hne (l' p) : fr ≠ .signal l' p := fun heq => hfr ⟨l', p, heq⟩
    refine .still (hdeals.isTold fun p below' heq => ?_) ((hgoes.rings hc hne).trans ?_)
    · exact hne l p (List.cons.inj (running.inj heq)).1
    · cases fr <;> first | rfl | exact absurd rfl (hne _ _)

/-- **Whoever wakes a loop has owed it that**, and owes it nothing afterwards. -/
theorem Control.wakes_of_ask {q : Request} {after : q.Reply → Control} (reply : q.Reply)
    (h : c.move s t = .ask q after) :
    (after reply).owes l = 0 ∧ (after reply).rings l = 0
      ∧ (if (Incident.stepped t (.answered q reply)).isWake l then 1 else 0)
        = c.owes l + c.rings l := by
  obtain ⟨fr, below, rfl, hask⟩ := asks h
  cases hask with
  | wakeSubmit =>
    cases reply <;> exact ⟨rfl, rfl, by simp [Incident.isWake, owes, rings]⟩
  | wakeSignal =>
    cases reply <;>
      refine ⟨rfl, ?_, ?_⟩ <;> simp [Incident.isWake, owes, rings, SignalPoint.isUnwoken]
  | openNew | execute => cases reply <;> exact ⟨rfl, rfl, rfl⟩
  | _ => exact ⟨rfl, rfl, rfl⟩

/-- **Where a submission is about to wake its loop**, it has just appended its job. -/
theorem Control.appends_of_act {j : Job} {mux : Multiplexer} (hc : c.Stacked) (ha : c.Aware s)
    (h : c.move s t = .act g (.running (.submit l j (.wake mux) :: below)) ns) :
    ns = [.pushed l j] := by
  obtain ⟨-, howes⟩ := owes_of_act (l := l) hc ha h
  have hone : (Control.running (.submit l j (.wake mux) :: below)).owes l = 1 := if_pos rfl
  have hpos : 0 < (ns.flatMap (Note.pushes l)).length := by rw [← howes, hone]; exact Nat.one_pos
  obtain ⟨j', hj'⟩ := List.exists_mem_of_length_pos hpos
  obtain ⟨mo, below', rfl⟩ := append_of_pushed hc h (Machine.mem_pushes.mp hj')
  cases moves_of_running h with
  | submit found hp =>
    simp [SubmitPoint.move] at hp
    obtain ⟨-, ⟨⟨rfl, -⟩, -⟩, rfl⟩ := hp
    rfl

/-- Whoever is about to wake a loop has its multiplexer. -/
theorem Control.slot_of_owes (ha : c.Aware s) (h : c.owes l ≠ 0) :
    ∃ mux, s.slot? l = some mux := by
  unfold owes at h
  split at h
  · rename_i l' j mux below
    by_cases hl : l' = l
    · exact ⟨mux, hl ▸ (aware_cons.mp ha).1⟩
    · exact absurd (if_neg hl) h
  · exact absurd rfl h

end Procedures

namespace Machine

variable {m m' : Machine} {i : Incident} {is : List Incident} {l : LoopId} {t : ThreadId}
  {fr : Frame}

/-- How many have appended a job and not woken the loop since. -/
def owing (m : Machine) (l : LoopId) : Nat := m.total fun _ c => c.owes l

/-- How many have raised the flag of the loop and have still to wake it. -/
def ringing (m : Machine) (l : LoopId) : Nat := m.total fun _ c => c.rings l

/-- **The wakes of a loop are accounted for.** -/
structure Tolled (m : Machine) (is : List Incident) (l : LoopId) : Prop where
  /-- Only whoever has raised the flag first wakes the loop for it. -/
  single : m.ringing l ≤ (m.store.isTold l).toNat
  /-- To a loop without a multiplexer nothing has been appended. -/
  shut : m.store.slot? l = none → pushed is l = []
  /-- Each wake, and each that is still to come, is for a job or for the flag. -/
  even : ∀ mux, m.store.slot? l = some mux → wakesAt is l + m.owing l + m.ringing l
    = (pushed is l).length + (m.store.isTold l).toNat

theorem Traffic.owing_eq_zero (h : Traffic is m) (hslot : m.store.slot? l = none) :
    m.owing l = 0 := by
  refine total_eq_zero_iff.mpr fun t c hc => ?_
  by_contra hne
  obtain ⟨mux, hmux⟩ := Control.slot_of_owes (h.aware t c hc) hne
  exact absurd (hslot.symm.trans hmux) nofun

theorem Traffic.wakesAt_eq_zero (h : Traffic is m) (hslot : m.store.slot? l = none) :
    wakesAt is l = 0 := by
  refine List.countP_eq_zero.mpr fun i hi hw => ?_
  unfold Incident.isWake at hw
  split at hw
  · rename_i mux _
    obtain rfl := of_decide_eq_true hw
    have hmux := h.slot_of_names _ hi mux
      (List.mem_ite_nil_right.mpr ⟨rfl, List.mem_singleton_self _⟩)
    exact absurd (hslot.symm.trans hmux) nofun
  · exact absurd hw nofun

/-- While somebody goes on to start a loop that has been told to end, whoever has raised
the flag has still to wake it. -/
theorem Traffic.ringing_of_launching (h : Traffic is m)
    (hsingle : m.ringing l ≤ (m.store.isTold l).toNat) {c : Control}
    (hc : m.control? t = some c) (hlaunching : c.isLaunching l = true) :
    m.ringing l = (m.store.isTold l).toNat := by
  refine Nat.le_antisymm hsingle ?_
  cases htold : m.store.isTold l with
  | false => exact Nat.zero_le _
  | true =>
    rcases h.sealed_or (Store.isTold_iff.mp htold) with hs | ⟨t', below, hc'⟩
    · exact absurd ((hs.idle t c hc).symm.trans hlaunching) nofun
    · have hone : Control.rings l (.running (.signal l .takeSlot :: below)) = 1 :=
        if_pos ⟨rfl, rfl⟩
      exact hone.symm.trans_le (weightOf_le_total (fun _ c => c.rings l) hc')

theorem Tolled.act {c c' : Control} {g : Store → Store} {ns : List Note} (ht : m.Tolled is l)
    (h : Traffic is m) (hc : m.control? t = some c) (hmove : c.move m.store t = .act g c' ns) :
    (m.act t g c').Tolled (is ++ [.stepped t (.acted ns)]) l := by
  have hstacked := h.stacked t c hc
  have h' := h.advance (.act hc hmove)
  obtain ⟨hc₀, hc₁⟩ := Control.owes_of_act (l := l) hstacked (h.aware t c hc) hmove
  have howing : (m.act t g c').owing l + c.owes l = m.owing l + c'.owes l :=
    total_act (fun _ c => c.owes l) hc g c'
  have hringing : (m.act t g c').ringing l + c.rings l = m.ringing l + c'.rings l :=
    total_act (fun _ c => c.rings l) hc g c'
  have hpushed : pushed (is ++ [.stepped t (.acted ns)]) l
      = pushed is l ++ ns.flatMap (Note.pushes l) := pushed_concat ..
  have hwakes : wakesAt (is ++ [.stepped t (.acted ns)]) l = wakesAt is l := wakesAt_concat ..
  have hrings : Control.Rings l m.store (g m.store) c c' := Control.rings_of_act hstacked hmove
  constructor
  case single =>
    have := ht.single
    rw [store_act]
    cases hrings with
    | still htold hr | spares htold _ hr =>
      rw [htold]
      omega
    | raises hdown hup hr hr' =>
      rw [hdown, Bool.toNat_false] at this
      rw [hup, Bool.toNat_true]
      omega
  case shut =>
    intro hnone
    have hold : m.store.slot? l = none := by
      by_contra hne
      obtain ⟨mux, hmux⟩ := Option.ne_none_iff_exists'.mp hne
      exact absurd (hnone.symm.trans (h.slot_kept (.act hc hmove) hmux)) nofun
    have hidle := h'.owing_eq_zero hnone
    have hnil : ns.flatMap (Note.pushes l) = [] := List.eq_nil_of_length_eq_zero (by omega)
    rw [hpushed, ht.shut hold, hnil, List.append_nil]
  case even =>
    intro mux hmux
    rw [hpushed, List.length_append, hwakes]
    cases hslot : m.store.slot? l with
    | some mux₀ =>
      have heven := ht.even mux₀ hslot
      cases hrings with
      | still htold hr =>
        rw [store_act, htold]
        omega
      | spares _ hnone => exact absurd (hslot.symm.trans hnone) nofun
      | raises hdown hup hr hr' =>
        rw [hdown, Bool.toNat_false] at heven
        rw [store_act, hup, Bool.toNat_true]
        omega
    | none =>
      -- the slot is filled, by somebody whom the flag has not stopped
      have hnew : (g m.store).slot? l ≠ m.store.slot? l := fun heq =>
        absurd (hslot.symm.trans (heq.symm.trans hmux)) nofun
      have hdeals : c.Deals l m.store (g m.store) c' ns := Control.deals_of_act hstacked hmove
      have hwakes₀ := h.wakesAt_eq_zero hslot
      have howing₀ := h.owing_eq_zero hslot
      cases hdeals with
      | aside hloop => exact absurd (Store.SameStart.of_loop hloop).slot hnew
      | fills found hloop =>
        have hlaunching := h.ringing_of_launching ht.single hc
          (by simp [Control.isLaunching, StartPoint.isLaunching])
        have htold : (g m.store).isTold l = m.store.isTold l := by
          rw [Store.isTold, hloop, Store.isTold, found]
          rfl
        rw [store_act, htold, ht.shut hslot, hwakes₀, Nat.add_right_cancel howing, howing₀,
          Nat.add_right_cancel hringing, hlaunching]
        rfl
      | marks found hloop | raises found hloop | pushes found hloop =>
        exact absurd ((Store.slot?_eq hloop).trans (Store.slot?_eq found).symm) hnew
      | turns found hloop _ turn =>
        refine absurd ((Store.slot?_eq hloop).trans (.trans ?_ (Store.slot?_eq found).symm)) hnew
        cases turn <;> rfl

theorem Tolled.answer {c : Control} {q : Request} {after : q.Reply → Control} (reply : q.Reply)
    (ht : m.Tolled is l) (hc : m.control? t = some c)
    (hmove : c.move m.store t = .ask q after) :
    (m.answer t q after reply).Tolled (is ++ [.stepped t (.answered q reply)]) l := by
  obtain ⟨howes, hrings, hwake⟩ := Control.wakes_of_ask (l := l) reply hmove
  have howing : (m.answer t q after reply).owing l + c.owes l = m.owing l + (after reply).owes l :=
    total_answer hc (fun _ _ _ => rfl) after reply
  have hringing : (m.answer t q after reply).ringing l + c.rings l
      = m.ringing l + (after reply).rings l := total_answer hc (fun _ _ _ => rfl) after reply
  have hpushed : pushed (is ++ [.stepped t (.answered q reply)]) l = pushed is l :=
    (pushed_concat ..).trans (List.append_nil _)
  have hstore := store_answer m t q after reply
  constructor
  case single =>
    have := ht.single
    rw [hstore]
    omega
  case shut =>
    rw [hstore, hpushed]
    exact ht.shut
  case even =>
    intro mux hmux
    have heven := ht.even mux (hstore ▸ hmux)
    rw [hpushed, hstore, wakesAt_concat]
    omega

/-- Whoever has just begun has nothing to wake a loop for. -/
theorem Tolled.spawn {c : Control} (ht : m.Tolled is l) (home : Option ExecutorId)
    (hc : c.isClear = true) : (m.spawn home c).Tolled is l := by
  have howing : (m.spawn home c).owing l = m.owing l := by
    rw [owing, total_spawn, Control.owes_of_isClear hc, owing, Nat.add_zero]
  have hringing : (m.spawn home c).ringing l = m.ringing l := by
    rw [ringing, total_spawn, Control.rings_of_isClear hc, ringing, Nat.add_zero]
  constructor
  case single => exact hringing ▸ ht.single
  case shut => exact ht.shut
  case even =>
    intro mux hmux
    rw [howing, hringing]
    exact ht.even mux hmux

theorem Store.isTold_build (s : Store) (b : Blueprint) (l : LoopId) :
    (s.build b).isTold l = s.isTold l := by
  rcases s.loop?_build b l with h | ⟨hnone, p, v, x, h⟩
  · rw [Store.isTold, h, Store.isTold]
  · rw [Store.isTold, h, Store.isTold, hnone]
    rfl

/-- **In all traffic the wakes of each loop are accounted for**, whoever submits to it and
tells it to end, and whether it has been opened by then or not. -/
theorem Traffic.tolled (h : Traffic is m) (l : LoopId) : m.Tolled is l := by
  refine h.induction (motive := fun is m => m.Tolled is l) ?empty
    (fun {is m i m'} h ih a => ?advance) (fun home _ ih hnew => ?use)
  case empty =>
    refine ⟨Nat.zero_le _, fun _ => rfl, fun mux hslot => ?_⟩
    simp [Store.slot?, Store.loop?, Machine.empty, Store.empty] at hslot
  case advance =>
    have hcalm {i : Incident} {m' : Machine} (ht : m'.Tolled is l) (hns : i.notes = [])
        (hw : i.isWake l = false) : m'.Tolled (is ++ [i]) l := by
      have hpushed : pushed (is ++ [i]) l = pushed is l := by simp [hns]
      have hwakes : wakesAt (is ++ [i]) l = wakesAt is l := by simp [hw]
      exact ⟨ht.single, hpushed ▸ ht.shut, hpushed ▸ hwakes ▸ ht.even⟩
    cases a with
    | act hc hmove => exact ih.act h hc hmove
    | answer hc hmove reply => exact ih.answer reply hc hmove
    | call home o => exact hcalm (ih.spawn home (by cases o <;> rfl)) rfl rfl
    | build b =>
      have hslot := (m.store.sameStart_build b l).slot
      have htold := Store.isTold_build m.store b l
      exact hcalm ⟨htold ▸ ih.single, hslot ▸ ih.shut, htold ▸ hslot ▸ ih.even⟩ rfl rfl
  case use => exact ih.spawn home (Control.isClear_of_isNew hnew _)

/-! ## What a wake is for -/

/-- **The last thing that the thread did was to append the job** to the queue of the
loop. -/
def HasAppended (is : List Incident) (t : ThreadId) (l : LoopId) (j : Job) : Prop :=
  ∃ is₁ is₂, is = is₁ ++ .stepped t (.acted [.pushed l j]) :: is₂ ∧ ∀ h, .stepped t h ∉ is₂

theorem HasAppended.append {j : Job} (h : HasAppended is t l j) (hne : ∀ h, i ≠ .stepped t h) :
    HasAppended (is ++ [i]) t l j := by
  obtain ⟨is₁, is₂, rfl, hstill⟩ := h
  refine ⟨is₁, is₂ ++ [i], by simp, fun h hi => ?_⟩
  rcases List.mem_append.mp hi with hi | hi
  · exact hstill h hi
  · exact hne h (List.mem_singleton.mp hi).symm

/-- **Whoever is about to wake a loop for a job** has just appended it. -/
theorem Traffic.hasAppended (h : Traffic is m) : ∀ {t l j mux below},
    m.control? t = some (.running (.submit l j (.wake mux) :: below)) →
    HasAppended is t l j := by
  refine h.induction (motive := fun is m => ∀ {t l j mux below},
    m.control? t = some (.running (.submit l j (.wake mux) :: below)) → HasAppended is t l j)
    ?empty (fun {is m i m'} h ih a t l j mux below hd => ?advance)
    (fun home _ ih hnew t l j mux below hd => ?use)
  case empty => exact fun hc => by simp [control?, Machine.empty] at hc
  case advance =>
    cases a.places hd with
    | kept hc hne => exact (ih hc).append hne
    | acted hc hmove _ hi =>
      rw [Control.appends_of_act (h.stacked t _ hc) (h.aware t _ hc) hmove] at hi
      exact ⟨is, [], by rw [hi], fun _ => List.not_mem_nil⟩
    | answered reply hc hmove hafter =>
      obtain ⟨fr, rest, rfl, hask⟩ := Control.asks hmove
      cases hask <;> cases reply <;> simp at hafter
    | @called _ o _ hd => cases o <;> cases hd
    | served _ _ _ hd => cases hd
  case use =>
    rw [control?_spawn] at hd
    split at hd
    · obtain ⟨rfl, -⟩ := List.cons.inj (Control.running.inj (Option.some.inj hd))
      cases hnew
    · exact ih hd

end Machine

end EndpointControl
