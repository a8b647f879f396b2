import EndpointControl.Proofs.Holding

/-!
# Closing endpoints

An endpoint is closed by those who call `close`, and by nobody else
(`Machine.Run.closed_by_close`); whoever reads or writes the status of an endpoint
holds its lock for as long as it takes, which is never across a pause
(`Machine.Reachable.status_free`).
-/

namespace EndpointControl

/-- **No leg closes an endpoint but the one.** -/
theorem Leg.Turns.of_closed {leg : Leg} {before after : Option State}
    (h : leg.Turns before after) (hafter : after = some .closed) :
    before = some .closed ∨ leg = .close := by
  cases leg with
  | close => exact .inr rfl
  | begin => exact absurd (h.2.symm.trans hafter) nofun
  | register => exact absurd (h.2.symm.trans hafter) nofun
  | enroll fl => exact absurd (h.2.symm.trans hafter) nofun
  | revert =>
    rcases h with ⟨-, h⟩ | ⟨-, h⟩
    · exact absurd (h.symm.trans hafter) nofun
    · exact .inl (h ▸ hafter)
  | pass => exact .inl (h.2 ▸ hafter)
  | _ => exact .inl (h ▸ hafter)

namespace Machine

variable {m : Machine} {is : List Incident} {e : EndpointId}

/-- **Whoever finds an endpoint closed finds one whose client has closed it.** -/
theorem Run.closed_by_close (r : Run is m) (h : m.store.state? e = some .closed) :
    ∃ t, CarriesOut is t (.close e) ∧ m.control? t = some (.finished (.closed true)) := by
  revert h
  refine r.induction (motive := fun is m => m.store.state? e = some .closed →
    ∃ t, CarriesOut is t (.close e) ∧ m.control? t = some (.finished (.closed true)))
    ?empty ?advance
  case empty => exact fun h => absurd h (by simp [Machine.empty, Store.empty, Store.state?])
  case advance =>
    intro is m i m' r ih a hst
    obtain ⟨hs, hsound⟩ := r.reachable.sound
    have hkeep (hst : m.store.state? e = some .closed) :
        ∃ t, CarriesOut (is ++ [i]) t (.close e)
          ∧ m'.control? t = some (.finished (.closed true)) := by
      obtain ⟨t, ho, hend⟩ := ih hst
      exact ⟨t, CarriesOut.append ho, a.finished hend⟩
    -- closed before, by somebody who has ended since then, or closed by this step
    by_cases hold : m.store.state? e = some .closed
    · exact hkeep hold
    cases a with
    | @act t c c' g ns hc hmove =>
      obtain ⟨leg, p⟩ := Control.passes_of_act hs (hsound t c hc) hmove e
      -- only one leg closes an endpoint, and it stands in a client's call
      obtain rfl := (p.state.of_closed hst).resolve_left hold
      obtain ⟨below, rfl⟩ := p.place
      obtain rfl := (hsound t _ hc).2.2.eq_nil rfl
      obtain ⟨o, ho, hfrom⟩ := r.originates.2 t _ hc
      have hcarries : CarriesOut is t (.close e) := by
        rw [CarriesOut, ho, ← show some (Operation.close e) = o from hfrom]
      refine ⟨t, CarriesOut.append hcarries, ?_⟩
      rw [control?_act_self hc]
      cases Control.moves_of_running hmove with
      | close found hp =>
        simp [ClosePoint.move] at hp
        rw [hp.2.1]
        rw [Store.state?, found, Option.map_some, Option.some.injEq] at hold
        simp [hold]
    | answer => exact absurd (by rwa [store_answer] at hst) hold
    | call => exact absurd hst hold
    | build => exact absurd hst hold

end Machine

/-! ## The locks of statuses -/

/-- Nobody rests between the taking of a status lock and its return. -/
theorem Control.grip_ne_of_resting {c : Control} (h : c.isResting = true) (e : EndpointId) :
    c.grip ≠ some (.status e) := by
  cases c with
  | finished o => rintro ⟨⟩
  | running stack =>
    cases stack with
    | nil => rintro ⟨⟩
    | cons fr below =>
      intro hgrip
      cases fr with
      | registration | drop | start => cases h
      | attempt | create | release => cases hgrip
      | submit _ _ p | signal _ p | serve _ _ p | connect _ _ p | close _ p =>
        cases p <;> simp [Control.isResting, Frame.isResting, Frame.grip] at h hgrip

/-- **When nobody is in the middle of anything, every status is free.** -/
theorem Machine.Reachable.status_free {m : Machine} (hm : m.Reachable) (rest : m.AtRest)
    (e : EndpointId) : m.store.locks.holder? (.status e) = none := by
  obtain ⟨is, r⟩ := hm
  cases h : m.store.locks.holder? (.status e) with
  | none => rfl
  | some t =>
    obtain ⟨c, hc, hgrip⟩ := Option.bind_eq_some_iff.mp ((r.traffic.holder?_eq_some_iff rfl).mp h)
    exact absurd hgrip (Control.grip_ne_of_resting (rest.control hc) e)

end EndpointControl
