import EndpointControl.Proofs.Exclusion
import EndpointControl.Proofs.Wakes

/-!
# Wakes that come in during a drain

At the levels that ask for turns a submission wakes its loop within its own turn, so it never
does while the loop takes a batch or runs one. Telling a loop to end takes no turn: the one
who does it wakes the loop under the lock of the slot, and a loop that is held up in the
midst of its batch – a boss by the wake of a hand-off, for instance – is woken all the same
(`Machine.exists_intrusion`).

This is the only wake that can come in (`Machine.Traffic.intrusion`). It is the wake of the
call that has raised the flag, so there is none while the loop has not been told to end; and
only whoever finds the flag down goes on to wake the loop, so once it is over there is no
other.
-/

namespace EndpointControl

/-- **A release is what tells loops to end**, if the call has a caller at all. -/
theorem Frame.Stacked.caller_of_signal {l : LoopId} {p : SignalPoint} {below : List Frame}
    (h : (Frame.signal l p).Stacked below) : below = [] ∨ ∃ f q, below = [.release f q] := by
  cases below with
  | nil => exact .inl rfl
  | cons caller rest =>
    obtain ⟨hawaits, hrest⟩ := h
    unfold Awaits at hawaits
    split at hawaits
    case h_10 f q =>
      obtain rfl := hrest.eq_nil rfl
      exact .inr ⟨f, _, rfl⟩
    case h_8 | h_9 =>
      obtain ⟨j, hj⟩ := hawaits
      cases j <;> cases hj
    all_goals first | exact hawaits.elim | (obtain ⟨_, ⟨⟩⟩ := hawaits)

/-- Whoever is about to wake the loop for having told it to end counts among those. -/
@[simp] theorem Control.rings_wake (l : LoopId) (mux : Multiplexer) (below : List Frame) :
    (Control.running (.signal l (.wake mux) :: below)).rings l = 1 :=
  if_pos ⟨rfl, rfl⟩

namespace Machine

variable {m m' m'' : Machine} {is js : List Incident} {t u : ThreadId} {l : LoopId}
  {mux : Multiplexer} {reply : Except String Unit} {below : List Frame}

/-- **The thread drains the loop**: it takes what is queued or runs it, and has the turn if the
level asks for one. -/
def Drains (m : Machine) (t : ThreadId) (l : LoopId) : Prop :=
  ∃ above mux p below, m.control? t = some (.running (above ++ .serve l mux p :: below))
    ∧ (Frame.serve l mux p).turn? = some l

/-- **Somebody wakes a loop** for a job, or because of having told it to end. -/
theorem Advance.cause_of_wake (a : m.Advance (.stepped u (.answered (.wake l mux) reply)) m') :
    ∃ below, (∃ j, m.control? u = some (.running (.submit l j (.wake mux) :: below)))
      ∨ m.control? u = some (.running (.signal l (.wake mux) :: below)) := by
  cases a with
  | answer hc hmove reply =>
    obtain ⟨fr, below, rfl, hask⟩ := Control.asks hmove
    cases hask with
    | wakeSubmit => exact ⟨below, .inl ⟨_, hc⟩⟩
    | wakeSignal => exact ⟨below, .inr hc⟩

/-- **Nothing keeps whoever has told a loop to end from waking it**, neither a lock nor what the
loop is doing. -/
theorem exists_wake (hu : m.control? u = some (.running (.signal l (.wake mux) :: below)))
    {lp : Loop} (found : m.store.loop? l = some lp) (reply : Except String Unit) :
    ∃ m', m.Advance (.stepped u (.answered (.wake l mux) reply)) m' := by
  have hask : ∃ after, (Control.running (.signal l (.wake mux) :: below)).move m.store u
      = .ask (.wake l mux) after := by
    simp only [Control.move, Frame.move, found, SignalPoint.move]
    exact ⟨_, rfl⟩
  obtain ⟨after, hmove⟩ := hask
  exact ⟨_, .answer hu hmove reply⟩

theorem one_le_ringing (hu : m.control? u = some (.running (.signal l (.wake mux) :: below))) :
    1 ≤ m.ringing l :=
  (Control.rings_wake l mux below).symm.trans_le (weightOf_le_total (fun _ c => c.rings l) hu)

/-- **With the wake it is through.** -/
theorem Advance.ringing_of_wake
    (hu : m.control? u = some (.running (.signal l (.wake mux) :: below)))
    (a : m.Advance (.stepped u (.answered (.wake l mux) reply)) m') :
    m'.ringing l + 1 = m.ringing l := by
  cases a with
  | @answer _ c _ after hc hmove =>
    obtain rfl := Option.some.inj (hu.symm.trans hc)
    obtain ⟨-, hzero, -⟩ := Control.wakes_of_ask (l := l) reply hmove
    have htotal : (m.answer u (.wake l mux) after reply).ringing l
        + Control.rings l (.running (.signal l (.wake mux) :: below))
        = m.ringing l + (after reply).rings l := total_answer hc (fun _ _ _ => rfl) after reply
    rwa [Control.rings_wake, hzero] at htotal

/-- **Once a loop has been told to end, nobody else comes to wake it for that.** -/
theorem Traffic.ringing_le (h : Traffic is m) (told : m.store.ShutDown l)
    (h' : m.Unfolds js m') : m'.ringing l ≤ m.ringing l := by
  induction h' with
  | refl => exact le_rfl
  | @advance js m' m'' i h' a ih =>
    refine le_trans ?_ ih
    have ht := h.unfolds h'
    cases a with
    | @act t c c' g ns hc hmove =>
      have htotal : (m'.act t g c').ringing l + c.rings l = m'.ringing l + c'.rings l :=
        total_act (fun _ c => c.rings l) hc g c'
      have hrings : Control.Rings l m'.store (g m'.store) c c' :=
        Control.rings_of_act (ht.stacked t c hc) hmove
      cases hrings with
      | still _ hr | spares _ _ hr => omega
      | raises hdown =>
        exact absurd (hdown.symm.trans (Store.isTold_iff.mpr (h'.grows.shutDown told))) nofun
    | @answer t c q after hc hmove reply =>
      obtain ⟨-, hrings, -⟩ := Control.wakes_of_ask (l := l) reply hmove
      have htotal : (m'.answer t q after reply).ringing l + c.rings l
          = m'.ringing l + (after reply).rings l := total_answer hc (fun _ _ _ => rfl) after reply
      omega
    | call home o =>
      refine le_of_eq ?_
      rw [ringing, total_spawn, ringing]
      cases o <;> rfl
    | build b => exact le_rfl
  | @use js m' h' home fr hnew ih =>
    refine le_trans (le_of_eq ?_) ih
    have hrings : (Control.running [fr]).rings l = 0 :=
      Control.rings_of_isClear (Control.isClear_of_isNew hnew [])
    rw [ringing, total_spawn, hrings, ringing, Nat.add_zero]

/-- **Who wakes a loop while it is drained**, where its level asks for turns: another thread,
and one that has told it to end. -/
theorem Traffic.signals_of_wake (h : Traffic is m) (hl : m.store.Guarded l) (hdrains : m.Drains t l)
    (a : m.Advance (.stepped u (.answered (.wake l mux) reply)) m') :
    u ≠ t ∧ ∃ below, m.control? u = some (.running (.signal l (.wake mux) :: below)) := by
  obtain ⟨above, mux₀, p, below, hc, hturn⟩ := hdrains
  obtain ⟨hself, hothers⟩ := h.turned.alone hl hc hturn
  obtain ⟨below', hu⟩ := a.cause_of_wake
  by_cases hut : u = t
  · -- the loop would stand below a call that itself has the turn, or is made by a release
    subst hut
    exfalso
    rcases hu with ⟨j, hu⟩ | hu
    · cases above with
      | nil => cases hc.symm.trans hu
      | cons fr above =>
        obtain ⟨rfl, -⟩ :=
          List.cons.inj (Control.running.inj (Option.some.inj (hc.symm.trans hu)))
        exact hself _ (List.mem_append_left _ List.mem_cons_self) rfl
    · have hmem : Frame.serve l mux₀ p ∈ below' := by
        cases above with
        | nil => cases hc.symm.trans hu
        | cons fr above =>
          obtain ⟨-, rfl⟩ :=
            List.cons.inj (Control.running.inj (Option.some.inj (hc.symm.trans hu)))
          exact List.mem_append_right above List.mem_cons_self
      rcases (h.stacked u _ hu).caller_of_signal with rfl | ⟨f, q, rfl⟩
      · cases hmem
      · cases List.mem_singleton.mp hmem
  · refine ⟨hut, below', hu.resolve_left ?_⟩
    rintro ⟨j, hu⟩
    refine hothers u hut ?_
    rw [turns_eq hu]
    exact List.mem_cons_self

/-- **What wakes a loop while it is drained**, where its level asks for turns: the call that has
told it to end. Any other thread that wakes the loop while one takes what is queued or runs it,
stands where that call wakes the loop, under the lock of the slot, and the flag is up; and when
this wake is over, whatever happens then, no loop that is drained is woken again. -/
theorem Traffic.intrusion (h : Traffic is m) {lp : Loop} (found : m.store.loop? l = some lp)
    (hlevel : 0 < lp.level.rank) (hdrains : m.Drains t l)
    (a : m.Advance (.stepped u (.answered (.wake l mux) reply)) m') :
    u ≠ t ∧ (∃ below, m.control? u = some (.running (.signal l (.wake mux) :: below)))
      ∧ m.store.slot? l = some mux ∧ m.store.locks.holder? (.slot l) = some u
      ∧ m.store.ShutDown l
      ∧ ∀ {js m₁ t₁ u₁ mux₁ reply₁ m₂}, m'.Unfolds js m₁ → m₁.Drains t₁ l →
        ¬ m₁.Advance (.stepped u₁ (.answered (.wake l mux₁) reply₁)) m₂ := by
  have hserialized : m.store.Serialized l :=
    ⟨lp, found, by rw [Level.serialized, decide_eq_true hlevel]⟩
  obtain ⟨hut, below, hu⟩ := h.signals_of_wake hserialized.guarded hdrains a
  have hle := one_le_ringing hu
  have hsingle := (h.tolled l).single
  have told : m.store.ShutDown l := by
    refine Store.isTold_iff.mp ?_
    by_contra hne
    rw [Bool.eq_false_of_not_eq_true hne, Bool.toNat_false] at hsingle
    omega
  refine ⟨hut, ⟨below, hu⟩, (Control.aware_cons.mp (h.aware u _ hu)).1,
    (h.holder?_eq_some_iff rfl).mpr (grip?_eq hu), told, ?_⟩
  -- the wake that is over was the last one for the flag, and nobody raises the flag again
  have hthrough := a.ringing_of_wake hu
  have hflag := Bool.toNat_le (m.store.isTold l)
  intro js m₁ t₁ u₁ mux₁ reply₁ m₂ h₁ hdrains₁ a₁
  have h' := h.advance a
  obtain ⟨-, below₁, hu₁⟩ := (h'.unfolds h₁).signals_of_wake
    (h₁.grows.serialized (a.grows.serialized hserialized)).guarded hdrains₁ a₁
  have hle₁ := one_le_ringing hu₁
  have hnone := h'.ringing_le (a.grows.shutDown told) h₁
  omega

end Machine

namespace History

/-- The boss of a careful factory is taking an endpoint to its worker, and is in the midst of
the wake. Then the factory is released, and the call that tells the boss to end is about to wake
it. -/
def intruded : History :=
  let blueprint : Blueprint :=
    ⟨.client 0 1, ⟨1, Nat.one_pos, ⟨0, ⟨"fake", none⟩⟩, ⟨1, by decide⟩⟩⟩
  let made := ((empty.build blueprint).call none (.create 0)).turn 0 40
  let tried := (made.call none (.connect 0 "127.0.0.1:9")).turn 2 40
  let handing := tried.turn 3 16
  (handing.call none (.release 0)).turn 4 6

/-- The boss has the turn, and nothing keeps the other from the wake. -/
theorem intruded_drains :
    let m := intruded.machine
    let boss : LoopId := ⟨0, .boss⟩
    ∃ lp m', m.store.loop? boss = some lp ∧ 0 < lp.level.rank ∧ m.Drains 3 boss
      ∧ m.Advance (.stepped 4 (.answered (.wake boss ⟨0, 0⟩) (.ok ()))) m' := by
  intro m boss
  have hrank : (m.store.loop? boss).map (·.level.rank) = some 1 := by decide +kernel
  obtain ⟨lp, found, hlp⟩ := Option.map_eq_some_iff.mp hrank
  have hc : m.control? 3 = some (.running
      ([.submit ⟨0, .worker 0⟩ (.registration 0) (.wake ⟨0, 0⟩),
        .attempt 0 "127.0.0.1:9" .submitting] ++ [.serve boss ⟨0, 0⟩ (.run [] 1)])) := by
    decide +kernel
  have hu : m.control? 4 = some (.running
      [.signal boss (.wake ⟨0, 0⟩), .release 0 (.signalWorkers 0)]) := by decide +kernel
  obtain ⟨m', a⟩ := Machine.exists_wake hu found (.ok ())
  exact ⟨lp, m', found, by rw [hlp]; decide, ⟨_, _, _, _, hc, rfl⟩, a⟩

end History

namespace Machine

/-- **A loop of a positive level is woken by another thread while it runs its batch.** -/
theorem exists_intrusion : ∃ is m l lp t u mux m', Run is m ∧ m.store.loop? l = some lp
    ∧ 0 < lp.level.rank ∧ m.Drains t l ∧ u ≠ t
    ∧ m.Advance (.stepped u (.answered (.wake l mux) (.ok ()))) m' := by
  obtain ⟨lp, m', found, hlevel, hdrains, a⟩ := History.intruded_drains
  exact ⟨_, _, _, lp, 3, 4, _, m', History.intruded.orderly.run, found, hlevel, hdrains,
    by decide, a⟩

/-- The boss has been told to end, by the call that wakes it, and is not woken again while it
drains. -/
theorem intrusion_handing :
    let m := History.intruded.machine
    let boss : LoopId := ⟨0, .boss⟩
    ∃ lp m', m.store.loop? boss = some lp ∧ 0 < lp.level.rank ∧ m.Drains 3 boss
      ∧ m.Advance (.stepped 4 (.answered (.wake boss ⟨0, 0⟩) (.ok ()))) m'
      ∧ m.store.ShutDown boss
      ∧ ∀ {js m₁ t₁ u₁ mux₁ reply₁ m₂}, m'.Unfolds js m₁ → m₁.Drains t₁ boss →
        ¬ m₁.Advance (.stepped u₁ (.answered (.wake boss mux₁) reply₁)) m₂ := by
  obtain ⟨lp, m', found, hlevel, hdrains, a⟩ := History.intruded_drains
  obtain ⟨-, -, -, -, told, hlast⟩ :=
    History.intruded.orderly.run.traffic.intrusion found hlevel hdrains a
  exact ⟨lp, m', found, hlevel, hdrains, a, told, hlast⟩

end Machine

end EndpointControl
