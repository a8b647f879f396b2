import EndpointControl.Proofs.Sealing
import EndpointControl.Provider.Counting

/-!
# No wake-up is lost

A loop waits on its multiplexer, and whoever has work for it or tells it to end wakes
it there. The multiplexers of a counting provider keep one wake-up, however many have
come, until a wait takes it away. That is enough. A loop that has taken what was
queued comes to its next wait, and all that is queued from then on is followed by a
wake-up, which nobody takes away before that wait is over; and the wait begins only
after the flag has been found down, so a flag that is up during the wait has been
raised by somebody who wakes the loop after that. Therefore, as long as no wake-up is
pending, whoever has queued something or has raised the flag has still to wake the
loop (`Machine.Alert`).

It matters that no two loops share a multiplexer, for a wait of the one would take
away what was meant for the other; a provider never opens the same one twice
(`Machine.Apart`).
-/

namespace EndpointControl

/-! ## A provider and its multiplexers -/

namespace CountingProvider

variable {k : Nat} {p : CountingProvider} {i : Incident} {mux : Multiplexer}

/-- **What the provider is after an incident**: it has been asked to open, or one of its
multiplexers has been woken or waited on, or it has nothing to do with it. -/
def after (k : Nat) (p : CountingProvider) : Incident → CountingProvider
  | .stepped _ (.answered (.openMultiplexer _ pr) _) => if pr.key = k then p.openNext.1 else p
  | .stepped _ (.answered (.wake _ mux) _) => if mux.provider = k then p.wake mux.number else p
  | .stepped _ (.answered (.wait _ mux) _) => if mux.provider = k then p.wait mux.number else p
  | _ => p

/-- **What the provider and its multiplexers answer.** Nobody else gives out a
multiplexer of this provider; for the rest others answer what they like. -/
def Answers (k : Nat) (p : CountingProvider) : Incident → Prop
  | .stepped _ (.answered (.openMultiplexer _ pr) reply) =>
    if pr.key = k then reply = p.openNext.2.map fun n => ⟨k, n⟩
    else ∀ mux, reply = .ok mux → mux.provider ≠ k
  | .stepped _ (.answered (.wake _ mux) reply) => mux.provider = k → reply = .ok ()
  | .stepped _ (.answered (.wait _ mux) reply) => mux.provider = k → reply = .ok 0
  | _ => True

/-- **The provider opens a multiplexer that it has not opened before.** -/
theorem Answers.of_opened {t : ThreadId} {l : LoopId} {pr : Provider}
    (h : p.Answers k (.stepped t (.answered (.openMultiplexer l pr) (.ok mux))))
    (hk : mux.provider = k) : pr.key = k ∧ mux.number = p.pending.size
      ∧ mux.number < p.openNext.1.pending.size := by
  simp only [Answers] at h
  split at h
  · rename_i hkey
    refine ⟨hkey, ?_⟩
    unfold openNext at h ⊢
    split at h
    · exact absurd h nofun
    · rename_i hfail
      obtain rfl := Except.ok.inj h
      simp [hfail]
  · exact absurd hk (h mux rfl)

theorem size_pending_after (k : Nat) (p : CountingProvider) (i : Incident) :
    p.pending.size ≤ (p.after k i).pending.size := by
  unfold after
  split
  · split
    · exact p.size_pending_openNext
    · exact le_rfl
  all_goals first | exact le_rfl | (split <;> simp [wake, wait])

/-- **Where nothing is pending**, nothing was, and nobody has just woken the
multiplexer; unless a wait has just come to its end. -/
theorem isPending_after (hk : mux.provider = k) (hlt : mux.number < p.pending.size)
    (h : (p.after k i).isPending mux.number = false) :
    (∃ t l r, i = .stepped t (.answered (.wait l mux) r))
      ∨ p.isPending mux.number = false ∧ ∀ t l r, i ≠ .stepped t (.answered (.wake l mux) r) := by
  have hsame {mux' : Multiplexer} (hk' : mux'.provider = k) (hn : mux'.number = mux.number) :
      mux' = mux := by
    cases mux'; cases mux; simp_all
  unfold after at h
  split at h
  · split at h
    · rw [isPending_openNext] at h
      exact .inr ⟨h, nofun⟩
    · exact .inr ⟨h, nofun⟩
  · rename_i l mux' reply
    split at h
    · rename_i hk'
      rw [isPending_wake] at h
      split at h
      · exact absurd h nofun
      · rename_i hne
        refine .inr ⟨h, fun t l r heq => hne ⟨?_, hlt⟩⟩
        cases heq
        rfl
    · rename_i hk'
      refine .inr ⟨h, fun t l r heq => hk' ?_⟩
      cases heq
      exact hk
  · rename_i t l mux' reply
    split at h
    · rename_i hk'
      rw [isPending_wait] at h
      split at h
      · rename_i hn
        exact .inl ⟨t, l, reply, by rw [hsame hk' hn]⟩
      · exact .inr ⟨h, nofun⟩
    · exact .inr ⟨h, nofun⟩
  · rename_i hwake _
    exact .inr ⟨h, fun t l r heq => hwake t l mux r heq⟩

end CountingProvider

/-- The call that tells a loop to end has raised the flag and not woken the loop yet. -/
def SignalPoint.isUnwoken : SignalPoint → Bool
  | .takeSlot | .readSlot | .wake _ => true
  | _ => false

/-- The thread submits to the loop or tells it to end. -/
def Control.isCalling (l : LoopId) : Control → Bool
  | .running (.submit l' _ _ :: _) | .running (.signal l' _ :: _) => l' = l
  | _ => false

namespace Machine

/-! ## Traffic with such a provider -/

/-- **Traffic, and what has become of one provider**, which was new in the beginning. -/
inductive Supplied (k : Nat) : List Incident → Machine → CountingProvider → Prop where
  /-- Nothing has happened. -/
  | empty (identity : Identity) (failing : Bool) : Supplied k [] .empty (.fresh identity failing)
  /-- One thing more happens. -/
  | advance {is : List Incident} {m m' : Machine} {p : CountingProvider} {i : Incident}
    (h : Supplied k is m p) (a : m.Advance i m') (answers : p.Answers k i) :
    Supplied k (is ++ [i]) m' (p.after k i)
  /-- Somebody calls a procedure. -/
  | use {is : List Incident} {m : Machine} {p : CountingProvider} (h : Supplied k is m p)
    (home : Option ExecutorId) {fr : Frame} (hnew : fr.isNew = true) :
    Supplied k is (m.spawn home (.running [fr])) p

variable {m m' : Machine} {i : Incident} {is : List Incident} {l : LoopId} {t : ThreadId}
  {mux : Multiplexer} {k : Nat} {p : CountingProvider} {sp : ServePoint} {j : Job} {n : Nat}
  {below : List Frame} {fr : Frame}

theorem Supplied.traffic (h : Supplied k is m p) : Traffic is m := by
  induction h with
  | empty => exact .refl
  | advance _ a _ ih => exact ih.advance a
  | use _ home hnew ih => exact ih.use home hnew

/-- **The multiplexers of the provider**: it has opened them, and no two loops have one
in common. -/
structure Apart (k : Nat) (is : List Incident) (p : CountingProvider) : Prop where
  known : ∀ {l mux}, mux ∈ opened is l → mux.provider = k → mux.number < p.pending.size
  apart : ∀ {l l' mux}, mux ∈ opened is l → mux ∈ opened is l' → mux.provider = k → l = l'

theorem Apart.advance (h : Apart k is p) (answers : p.Answers k i) :
    Apart k (is ++ [i]) (p.after k i) := by
  -- what is new has a number that none had before
  have hcases {l : LoopId} {mux : Multiplexer} (hmem : mux ∈ opened (is ++ [i]) l)
      (hk : mux.provider = k) : mux ∈ opened is l ∧ mux.number < p.pending.size
        ∨ mux ∈ i.opened l ∧ mux.number = p.pending.size
          ∧ mux.number < (p.after k i).pending.size := by
    rw [opened_concat] at hmem
    rcases List.mem_append.mp hmem with hold | hnew
    · exact .inl ⟨hold, h.known hold hk⟩
    · obtain ⟨t, pr, rfl⟩ := Incident.eq_of_mem_opened hnew
      obtain ⟨hkey, hnumber, hlt⟩ := answers.of_opened hk
      refine .inr ⟨hnew, hnumber, ?_⟩
      rwa [CountingProvider.after, if_pos hkey]
  constructor
  case known =>
    intro l mux hmem hk
    rcases hcases hmem hk with ⟨-, hlt⟩ | ⟨-, -, hlt⟩
    · exact Nat.lt_of_lt_of_le hlt (CountingProvider.size_pending_after ..)
    · exact hlt
  case apart =>
    intro l l' mux hmem hmem' hk
    rcases hcases hmem hk with ⟨hold, hlt⟩ | ⟨hnew, hnumber, -⟩ <;>
      rcases hcases hmem' hk with ⟨hold', hlt'⟩ | ⟨hnew', hnumber', -⟩
    · exact h.apart hold hold' hk
    · exact absurd hlt (hnumber' ▸ Nat.lt_irrefl _)
    · exact absurd hlt' (hnumber ▸ Nat.lt_irrefl _)
    · obtain ⟨t, pr, rfl⟩ := Incident.eq_of_mem_opened hnew
      obtain ⟨t', pr', heq⟩ := Incident.eq_of_mem_opened hnew'
      cases heq
      rfl

theorem Supplied.apart (h : Supplied k is m p) : Apart k is p := by
  induction h with
  | empty => exact ⟨nofun, nofun⟩
  | advance _ _ answers ih => exact ih.advance answers
  | use _ _ _ ih => exact ih

/-! ## Who has still to wake the loop -/

/-- **The job at this place of the queue was appended by a submission that has still to
wake the loop**: since then as many have been appended as stand behind it, and the
thread has not moved. -/
def Unwoken (m : Machine) (is : List Incident) (l : LoopId) (n : Nat) (j : Job) : Prop :=
  ∃ is₁ t is₂ mux below, is = is₁ ++ .stepped t (.acted [.pushed l j]) :: is₂
    ∧ n + 1 + (pushed is₂ l).length = (m.store.queue l).length
    ∧ (∀ hap, .stepped t hap ∉ is₂)
    ∧ m.control? t = some (.running (.submit l j (.wake mux) :: below))

/-- **The call that has raised the flag of the loop has still to wake it.** -/
def Untold (m : Machine) (is : List Incident) (l : LoopId) : Prop :=
  ∃ is₁ m₁ t below js p, is = is₁ ++ js ∧ Traffic is₁ m₁ ∧ m₁.Telling t l below js m
    ∧ m.control? t = some (.running (.signal l p :: below)) ∧ p.isUnwoken = true

/-- **A loop that will not sleep through anything.** -/
structure Alert (m : Machine) (is : List Incident) (l : LoopId) (pending : Bool) : Prop where
  /-- Once the loop has taken what was queued, and until it has waited, a wake-up is
  pending unless everything queued is from those who have still to wake the loop. -/
  queued : ∀ sp, m.serving? l = some sp → sp.isBusy = true → pending = false →
    ∀ n j, (m.store.queue l)[n]? = some j → m.Unwoken is l n j
  /-- While the loop waits and its flag is up, a wake-up is pending unless whoever has
  raised the flag has still to wake the loop. -/
  told : m.serving? l = some .wait → pending = false → m.store.ShutDown l → m.Untold is l

end Machine

/-- **A step of a call that has raised the flag** does not end it before it has woken
the loop, if there is a multiplexer to wake. -/
theorem SignalPoint.isUnwoken_of_move {s : Store} {t : ThreadId} {below : List Frame} {l : LoopId}
    {lp : Loop} {mux : Multiplexer} {p : SignalPoint} {g : Store → Store} {c : Control}
    {ns : List Note} (hslot : lp.slot = some mux) (h : p.move s t below l lp = .act g c ns)
    (hp : p.isUnwoken = true) :
    ∃ p' : SignalPoint, c = .running (.signal l p' :: below) ∧ p'.isUnwoken = true := by
  cases p <;> simp [SignalPoint.move, hslot] at h
  case takeSlot =>
    obtain ⟨-, -, rfl, -⟩ := h
    exact ⟨_, rfl, rfl⟩
  case readSlot =>
    obtain ⟨-, rfl, -⟩ := h
    exact ⟨_, rfl, rfl⟩
  all_goals cases hp

namespace Machine

variable {m m' : Machine} {i : Incident} {is : List Incident} {l : LoopId} {t : ThreadId}
  {mux : Multiplexer} {k : Nat} {p : CountingProvider} {sp : ServePoint} {j : Job} {n : Nat}
  {below : List Frame} {fr : Frame}

/-- **A submission that is about to wake the loop** does so with its next step. -/
theorem Advance.wakes {hap : Happening} (a : m.Advance (.stepped t hap) m')
    (hc : m.control? t = some (.running (.submit l j (.wake mux) :: below))) :
    ∃ r, hap = .answered (.wake l mux) r := by
  cases a with
  | act hc' hmove =>
    obtain rfl := Option.some.inj (hc.symm.trans hc')
    cases Control.moves_of_running hmove with
    | submit found hp => simp [SubmitPoint.move] at hp
  | answer hc' hmove reply =>
    obtain rfl := Option.some.inj (hc.symm.trans hc')
    obtain ⟨fr, rest, heq, hask⟩ := Control.asks hmove
    obtain ⟨rfl, -⟩ := List.cons.inj (Control.running.inj heq)
    cases hask
    exact ⟨reply, rfl⟩

theorem Unwoken.advance (hu : m.Unwoken is l n j) (h : Traffic is m) (a : m.Advance i m')
    (hslot : m.store.slot? l = some mux)
    (quiet : ∀ t l r, i ≠ .stepped t (.answered (.wake l mux) r))
    (hqueue : (m'.store.queue l).length
      = (m.store.queue l).length + (i.notes.flatMap (Note.pushes l)).length) :
    m'.Unwoken (is ++ [i]) l n j := by
  obtain ⟨is₁, t, is₂, mux', below, rfl, hlength, hstill, hc⟩ := hu
  -- with its next step the thread would wake the loop
  have hne (hap : Happening) : i ≠ .stepped t hap := by
    rintro rfl
    obtain ⟨r, rfl⟩ := a.wakes hc
    have hmux : m.store.slot? l = some mux' := (Control.aware_cons.mp (h.aware t _ hc)).1
    obtain rfl := Option.some.inj (hmux.symm.trans hslot)
    exact quiet t l r rfl
  refine ⟨is₁, t, is₂ ++ [i], mux', below, by simp, ?_, fun hap hmem => ?_, ?_⟩
  · rw [pushed_concat, List.length_append, hqueue, ← hlength]
    omega
  · rcases List.mem_append.mp hmem with hmem | hmem
    · exact hstill hap hmem
    · exact hne hap (List.mem_singleton.mp hmem).symm
  · rw [a.control?_of_ne (lt_size_of_control? hc) hne, hc]

/-- **Whoever has just appended a job** has still to wake the loop. -/
theorem Traffic.unwoken_of_pushed (h : Traffic is m) (a : m.Advance i m')
    (hns : i.notes = [.pushed l j]) (hqueue : m'.store.queue l = m.store.queue l ++ [j]) :
    m'.Unwoken (is ++ [i]) l (m.store.queue l).length j := by
  cases a with
  | @act t c c' g ns hc hmove =>
    obtain rfl : ns = [.pushed l j] := hns
    obtain ⟨mo, below, rfl⟩ :=
      Control.append_of_pushed (h.stacked t _ hc) hmove (List.mem_singleton.mpr rfl)
    obtain ⟨mux, rfl, -⟩ := (Control.aware_cons.mp (h.aware t _ hc)).1
    cases Control.moves_of_running hmove with
    | submit found hp =>
      simp [SubmitPoint.move] at hp
      obtain ⟨rfl, rfl⟩ := hp
      refine ⟨is, t, [], mux, below, rfl, ?_, fun _ => List.not_mem_nil, control?_act_self hc⟩
      rw [hqueue, List.length_append]
      rfl
  | _ => cases hns

theorem Untold.advance (hu : m.Untold is l) (a : m.Advance i m')
    (h : Traffic is m) (hslot : m.store.slot? l = some mux)
    (quiet : ∀ t l r, i ≠ .stepped t (.answered (.wake l mux) r)) : m'.Untold (is ++ [i]) l := by
  obtain ⟨is₁, m₁, t, below, js, p, rfl, h₁, htelling, hc, hp⟩ := hu
  have hnext : ∃ p' : SignalPoint, m'.control? t = some (.running (.signal l p' :: below))
      ∧ p'.isUnwoken = true := by
    by_cases hi : ∃ hap, i = .stepped t hap
    · obtain ⟨hap, rfl⟩ := hi
      cases a with
      | act hc' hmove =>
        obtain rfl := Option.some.inj (hc.symm.trans hc')
        cases Control.moves_of_running hmove with
        | signal found hmove' =>
          obtain ⟨p', rfl, hp'⟩ :=
            SignalPoint.isUnwoken_of_move ((Store.slot?_eq found).symm.trans hslot) hmove' hp
          exact ⟨p', control?_act_self hc, hp'⟩
      | answer hc' hmove reply =>
        obtain rfl := Option.some.inj (hc.symm.trans hc')
        obtain ⟨fr, rest, heq, hask⟩ := Control.asks hmove
        obtain ⟨rfl, -⟩ := List.cons.inj (Control.running.inj heq)
        cases hask with
        | @wakeSignal _ mux' =>
          have hmux : m.store.slot? l = some mux' := (Control.aware_cons.mp (h.aware t _ hc)).1
          obtain rfl := Option.some.inj (hmux.symm.trans hslot)
          exact absurd rfl (quiet t l reply)
    · have hne (hap : Happening) : i ≠ .stepped t hap := fun heq => hi ⟨hap, heq⟩
      exact ⟨p, by rw [a.control?_of_ne (lt_size_of_control? hc) hne, hc], hp⟩
  obtain ⟨p', hc', hp'⟩ := hnext
  obtain ⟨hap, m₂, js', rfl, a₁, hduring⟩ := htelling.raises
  have hraises := hduring.advance ⟨_, [], hc⟩ a
  exact ⟨is₁, m₁, t, below, _, p', List.append_assoc .., h₁,
    ⟨htelling.begins, htelling.first, hap, m₂, _, rfl, a₁, hraises⟩, hc', hp'⟩

/-- **Whoever has just raised the flag** has still to wake the loop. -/
theorem Traffic.untold_of_raised (h : Traffic is m) (a : m.Advance i m')
    (hdown : ¬ m.store.ShutDown l) (hup : m'.store.ShutDown l) : m'.Untold (is ++ [i]) l := by
  obtain ⟨t, hap, below, rfl, hc, hc'⟩ := a.exists_takeSlot hdown hup
  exact ⟨is, m, t, below, _, .takeSlot, rfl, h, ⟨hc, hdown, hap, m', [], rfl, a, .refl⟩, hc', rfl⟩

/-! ## One step of anybody -/

/-- **Where a loop comes from that is between taking a batch and the end of its wait.** -/
theorem Befalls.before (hb : m.Befalls is i m' l) (hp : m'.serving? l = some sp)
    (busy : sp.isBusy = true) : sp ≠ .wait ∧ m'.store.queue l = []
      ∨ ∃ sp₀, m.serving? l = some sp₀ ∧ sp₀.isBusy = true
        ∧ (sp = .wait → sp₀ = .wait ∨ ¬ m'.store.ShutDown l)
        ∧ (m'.store.queue l = m.store.queue l ∧ i.notes.flatMap (Note.pushes l) = []
          ∨ ∃ j, m'.store.queue l = m.store.queue l ++ [j] ∧ i.notes = [.pushed l j]) := by
  have haside (hns : ∀ n ∈ i.notes, n.concerns l = false) :
      i.notes.flatMap (Note.pushes l) = [] := by
    have hsame : pushed (is ++ [i]) l = pushed is l := (SameLogs.of_aside hns).pushed
    rwa [pushed_concat, List.append_right_eq_self] at hsame
  cases hb with
  | aside hqueue hserving hns =>
    exact .inr ⟨sp, hserving.symm.trans hp, busy, .inl, .inl ⟨hqueue, haside hns⟩⟩
  | @pushes j hqueue hserving hns =>
    exact .inr ⟨sp, hserving.symm.trans hp, busy, .inl, .inr ⟨j, hqueue, hns⟩⟩
  | @turns lp lp' sp₀ p' t mux ns _ hc found found' hp₀ hp' turn =>
    obtain rfl := hp'.symm.trans hp
    generalize hns : i.notes = ns at turn
    cases turn with
    | passes hcalm hnone =>
      refine .inr ⟨sp₀, hp₀, hcalm.busy busy, fun hwait => .inr ?_,
        .inl ⟨queue_congr found found' rfl, hns ▸ haside (hns ▸ hnone)⟩⟩
      rintro ⟨lp', hlp', hup⟩
      obtain rfl := Option.some.inj (found'.symm.trans hlp')
      exact absurd (hup.symm.trans (hcalm.wait hwait)) nofun
    | takes => exact .inl ⟨nofun, Store.queue_eq found'⟩
    | begins | reports =>
      exact .inr ⟨_, hp₀, rfl, nofun, .inl ⟨queue_congr found found' rfl, by simp⟩⟩
    | takesRest | drops | exits => exact absurd busy nofun
  | waited hqueue hp₀ hp' =>
    obtain rfl := Option.some.inj (hp'.symm.trans hp)
    exact absurd busy nofun
  | enters hqueue hp₀ hp' =>
    obtain rfl := Option.some.inj (hp'.symm.trans hp)
    exact absurd busy nofun

/-- A loop that is run has its multiplexer. -/
theorem Traffic.slot_of_serving? (h : Traffic is m) (hp : m.serving? l = some sp) :
    ∃ mux, m.store.slot? l = some mux := by
  obtain ⟨t, c, hc, hp⟩ := exists_of_serving? hp
  cases c with
  | finished o => cases hp
  | running stack =>
    obtain ⟨fr, hmem, hfr⟩ := List.exists_of_findSome?_eq_some hp
    cases fr with
    | serve l' mux p =>
      by_cases hl : l' = l
      · exact ⟨mux, hl ▸ h.aware t _ hc _ hmem⟩
      · simp [Frame.serving?, hl] at hfr
    | _ => cases hfr

/-- Whoever has waited goes on. -/
theorem Traffic.serving?_of_wait {is' : List Incident} {r : Except String Nat}
    (h' : Traffic is' m') (a : m.Advance (.stepped t (.answered (.wait l mux) r)) m') :
    m'.serving? l = some (.waited r) := by
  cases a with
  | answer hc hmove =>
    obtain ⟨fr, below, rfl, hask⟩ := Control.asks hmove
    cases hask
    exact h'.serving?_eq (control?_answer_self (q := .wait l mux) r hc) (Control.serving?_serve ..)

/-- **Nobody but the loop itself takes away a wake-up** that is pending for it. -/
theorem Supplied.quiet (h : Supplied k is m p) (a : m.Advance i m') (answers : p.Answers k i)
    (hslot : m.store.slot? l = some mux) (hk : mux.provider = k) (hp : m'.serving? l = some sp)
    (busy : sp.isBusy = true) (hidle : (p.after k i).isPending mux.number = false) :
    p.isPending mux.number = false
      ∧ ∀ t l r, i ≠ .stepped t (.answered (.wake l mux) r) := by
  have ht' := h.traffic.advance a
  have hmem : mux ∈ opened is l := by
    rw [h.traffic.opened_of_slot hslot]
    exact List.mem_singleton.mpr rfl
  refine (CountingProvider.isPending_after hk (h.apart.known hmem hk) hidle).resolve_left ?_
  rintro ⟨t, l', r, rfl⟩
  -- no other loop waits on the same multiplexer
  have hslot' : m'.store.slot? l' = some mux :=
    ht'.slot_of_names _ (List.mem_append_right _ (List.mem_singleton.mpr rfl)) mux
      (by simp [Incident.names, Request.names])
  have hopened {l : LoopId} (hslot : m'.store.slot? l = some mux) :
      mux ∈ opened (is ++ [.stepped t (.answered (.wait l' mux) r)]) l := by
    rw [ht'.opened_of_slot hslot]
    exact List.mem_singleton.mpr rfl
  obtain rfl := (h.apart.advance answers).apart (hopened hslot')
    (hopened (h.traffic.slot_kept a hslot)) hk
  obtain rfl := Option.some.inj ((ht'.serving?_of_wait a).symm.trans hp)
  cases busy

theorem Alert.advance (halert : m.store.slot? l = some mux → m.Alert is l (p.isPending mux.number))
    (h : Supplied k is m p) (a : m.Advance i m') (answers : p.Answers k i)
    (hslot' : m'.store.slot? l = some mux) (hk : mux.provider = k) :
    m'.Alert (is ++ [i]) l ((p.after k i).isPending mux.number) := by
  have ht := h.traffic
  have hslot {sp₀ : ServePoint} (hp₀ : m.serving? l = some sp₀) : m.store.slot? l = some mux := by
    obtain ⟨mux₀, hmux₀⟩ := ht.slot_of_serving? hp₀
    obtain rfl := Option.some.inj ((ht.slot_kept a hmux₀).symm.trans hslot')
    exact hmux₀
  constructor
  case queued =>
    intro sp hp busy hidle n j hj
    rcases (ht.befalls a).before hp busy with ⟨-, hnone⟩ | ⟨sp₀, hp₀, busy₀, -, hqueue⟩
    · rw [hnone] at hj
      exact absurd hj nofun
    · obtain ⟨hidle₀, quiet⟩ := h.quiet a answers (hslot hp₀) hk hp busy hidle
      have hold := (halert (hslot hp₀)).queued sp₀ hp₀ busy₀ hidle₀ n j
      rcases hqueue with ⟨hqueue, hns⟩ | ⟨j', hqueue, hns⟩
      · rw [hqueue] at hj
        exact (hold hj).advance ht a (hslot hp₀) quiet (by rw [hqueue, hns]; rfl)
      · rw [hqueue] at hj
        rcases Nat.lt_or_ge n (m.store.queue l).length with hn | hn
        · rw [List.getElem?_append_left hn] at hj
          exact (hold hj).advance ht a (hslot hp₀) quiet (by simp [hqueue, hns])
        · -- the job that has just been appended
          rw [List.getElem?_append_right hn, List.getElem?_singleton] at hj
          split at hj
          · obtain rfl := Option.some.inj hj
            obtain rfl : n = (m.store.queue l).length := by omega
            exact ht.unwoken_of_pushed a hns hqueue
          · exact absurd hj nofun
  case told =>
    intro hp hidle hup
    rcases (ht.befalls a).before hp rfl with ⟨hne, -⟩ | ⟨sp₀, hp₀, -, hwait, -⟩
    · exact absurd rfl hne
    · obtain rfl := (hwait rfl).resolve_right fun hdown => hdown hup
      obtain ⟨hidle₀, quiet⟩ := h.quiet a answers (hslot hp₀) hk hp rfl hidle
      by_cases hup₀ : m.store.ShutDown l
      · exact ((halert (hslot hp₀)).told hp₀ hidle₀ hup₀).advance a ht (hslot hp₀) quiet
      · exact ht.untold_of_raised a hup₀ hup

/-- A call that has just been begun changes nothing. -/
theorem Alert.use {pending : Bool} (h : m.Alert is l pending) (home : Option ExecutorId)
    (hnew : fr.isNew = true) : (m.spawn home (.running [fr])).Alert is l pending := by
  have hserving := serving?_spawn_of_isNew (m := m) (l := l) home hnew
  constructor
  case queued =>
    intro sp hp busy hidle n j hj
    obtain ⟨is₁, t, is₂, mux, below, his, hlength, hstill, hc⟩ :=
      h.queued sp (hserving.symm.trans hp) busy hidle n j hj
    exact ⟨is₁, t, is₂, mux, below, his, hlength, hstill, control?_spawn_of_eq_some hc ..⟩
  case told =>
    intro hp hidle hup
    obtain ⟨is₁, m₁, t, below, js, p, his, h₁, htelling, hc, hp'⟩ :=
      h.told (hserving.symm.trans hp) hidle hup
    obtain ⟨hap, m₂, js', hjs, a, hduring⟩ := htelling.raises
    exact ⟨is₁, m₁, t, below, js, p, his, h₁,
      ⟨htelling.begins, htelling.first, hap, m₂, js', hjs, a, hduring.use home hnew⟩,
      control?_spawn_of_eq_some hc .., hp'⟩

/-- **In all traffic every loop on a multiplexer of the provider is alert.** -/
theorem Supplied.alert (h : Supplied k is m p) : ∀ {l mux}, m.store.slot? l = some mux →
    mux.provider = k → m.Alert is l (p.isPending mux.number) := by
  induction h with
  | empty =>
    intro l mux hslot
    simp [Store.slot?, Store.loop?, Machine.empty, Store.empty] at hslot
  | advance h a answers ih =>
    exact fun hslot hk => Alert.advance (fun hslot => ih hslot hk) h a answers hslot hk
  | use _ home hnew ih => exact fun hslot hk => (ih hslot hk).use home hnew

/-- **No wake-up is lost**, in all traffic with a counting provider: however many submit
to a loop on one of its multiplexers and tell it to end, and whatever the loop is doing
meanwhile.

While nothing is pending for a loop that waits, or that has not waited since it took
what was queued, each job in its queue is of a submission that has still to wake it;
and while it waits with its flag up, so has the call that has raised the flag. So when
nobody submits to it nor tells it to end, a wake-up is pending for a loop that has
something queued or has been told. -/
theorem Supplied.noLostWakeUp (h : Supplied k is m p) (hslot : m.store.slot? l = some mux)
    (hk : mux.provider = k) :
    m.Alert is l (p.isPending mux.number)
      ∧ ((∀ t c, m.control? t = some c → c.isCalling l = false) →
        (∀ sp, m.serving? l = some sp → sp.isBusy = true → m.store.queue l ≠ [] →
          p.isPending mux.number = true)
        ∧ (m.serving? l = some .wait → m.store.ShutDown l → p.isPending mux.number = true)) := by
  have halert := h.alert hslot hk
  refine ⟨halert, fun hnobody => ⟨fun sp hp busy hqueue => ?_, fun hp hup => ?_⟩⟩
  · by_contra hidle
    have hidle := Bool.eq_false_of_not_eq_true hidle
    obtain ⟨j, js, hj⟩ := List.exists_cons_of_ne_nil hqueue
    obtain ⟨-, t, -, mux', below, -, -, -, hc⟩ :=
      halert.queued sp hp busy hidle 0 j (by rw [hj]; rfl)
    exact absurd ((hnobody t _ hc).symm.trans (decide_eq_true rfl)) nofun
  · by_contra hidle
    have hidle := Bool.eq_false_of_not_eq_true hidle
    obtain ⟨-, -, t, below, -, p', -, -, -, hc, -⟩ := halert.told hp hidle hup
    exact absurd ((hnobody t _ hc).symm.trans (decide_eq_true rfl)) nofun

end Machine

/-! ## Playing traffic with such a provider -/

/-- **What the provider answers** and its multiplexers; the rest is granted, except
multiplexers of anybody else. -/
def CountingProvider.reply (k : Nat) (p : CountingProvider) : (q : Request) → q.Reply
  | .openMultiplexer _ pr =>
    if pr.key = k then p.openNext.2.map fun n => ⟨k, n⟩ else .error "nobody else is here"
  | q => Machine.granted q

theorem CountingProvider.answers_reply (k : Nat) (p : CountingProvider) (t : ThreadId)
    (q : Request) : p.Answers k (.stepped t (.answered q (p.reply k q))) := by
  cases q with
  | openMultiplexer l pr =>
    by_cases hkey : pr.key = k <;> simp [Answers, reply, hkey]
  | wake | wait => exact fun _ => rfl
  | _ => trivial

/-- **Traffic with a counting provider**, and what it leads to. -/
structure Supply (k : Nat) where
  incidents : List Incident
  machine : Machine
  provider : CountingProvider
  supplied : Machine.Supplied k incidents machine provider

namespace Supply

variable {k : Nat}

/-- Nothing has happened. -/
def empty (identity : Identity) : Supply k := ⟨_, _, _, .empty identity false⟩

/-- Somebody builds a factory. -/
def build (su : Supply k) (b : Blueprint) : Supply k :=
  ⟨_, _, _, su.supplied.advance (.build b) trivial⟩

/-- Somebody calls an operation. -/
def call (su : Supply k) (o : Operation) : Supply k :=
  ⟨_, _, _, su.supplied.advance (.call none o) trivial⟩

/-- Somebody submits a job. -/
def submit (su : Supply k) (l : LoopId) (j : Job) : Supply k :=
  ⟨_, _, _, su.supplied.use none (show (Frame.submit l j .start).isNew = true from rfl)⟩

/-- Somebody tells a loop to end. -/
def signal (su : Supply k) (l : LoopId) : Supply k :=
  ⟨_, _, _, su.supplied.use none (show (Frame.signal l .raise).isNew = true from rfl)⟩

/-- **A thread makes so many steps.** -/
def turn (su : Supply k) (t : ThreadId) : Nat → Supply k
  | 0 => su
  | n + 1 =>
    match hmove : su.machine.move t with
    | .act _ _ _ => turn ⟨_, _, _, su.supplied.advance (Machine.Step.act hmove).advance trivial⟩ t n
    | .ask q _ =>
      turn ⟨_, _, _, su.supplied.advance
        (Machine.Step.answer hmove (su.provider.reply k q)).advance
        (su.provider.answers_reply k t q)⟩ t n
    | .blocked _ | .stuck => su

/-- A worker waits. Somebody has appended a job and somebody else has raised its flag,
and neither has woken it yet. -/
def pressing : Supply 0 :=
  let w : LoopId := ⟨0, .worker 0⟩
  let made := (((empty ⟨"quiet", none⟩).build .small).call (.create 0)).turn 0 40
  let queued := ((made.turn 1 8).submit w (.registration 0)).turn 2 9
  (queued.signal w).turn 3 1

/-- Both have woken it. -/
def pressed : Supply 0 := (pressing.turn 3 20).turn 2 20

end Supply

/-- Nothing is pending for the worker until they do, and then something is. -/
theorem noLostWakeUp_pressing :
    let w : LoopId := ⟨0, .worker 0⟩
    let su := Supply.pressing
    let su' := Supply.pressed
    su.machine.serving? w = some .wait ∧ su.provider.isPending 0 = false
      ∧ su.machine.store.queue w = [.registration 0] ∧ su.machine.store.ShutDown w
      ∧ su.machine.Unwoken su.incidents w 0 (.registration 0)
      ∧ su.machine.Untold su.incidents w
      ∧ su'.machine.serving? w = some .wait ∧ su'.machine.store.queue w = [.registration 0]
      ∧ (∀ t c, su'.machine.control? t = some c → c.isCalling w = false)
      ∧ su'.provider.isPending 0 = true := by
  intro w su su'
  have hserving : su.machine.serving? w = some .wait := by decide +kernel
  have hidle : su.provider.isPending 0 = false := by decide +kernel
  have hqueue : su.machine.store.queue w = [.registration 0] := by decide +kernel
  have hup : su.machine.store.ShutDown w :=
    Option.any_eq_true _ _ |>.mp (show (su.machine.store.loop? w).any (·.shutDown) = true by
      decide +kernel)
  have hserving' : su'.machine.serving? w = some .wait := by decide +kernel
  have hqueue' : su'.machine.store.queue w = [.registration 0] := by decide +kernel
  have hnobody : ∀ t c, su'.machine.control? t = some c → c.isCalling w = false := by
    have hthreads : ∀ t < 4, (su'.machine.control? t).any (Control.isCalling w) = false := by
      decide +kernel
    intro t c hc
    have hlt : t < 4 := Machine.lt_size_of_control? hc
    simpa [hc] using hthreads t hlt
  have hslot : su.machine.store.slot? w = some ⟨0, 0⟩ := by decide +kernel
  have hslot' : su'.machine.store.slot? w = some ⟨0, 0⟩ := by decide +kernel
  obtain ⟨halert, -⟩ := su.supplied.noLostWakeUp hslot rfl
  obtain ⟨-, hrested⟩ := su'.supplied.noLostWakeUp hslot' rfl
  exact ⟨hserving, hidle, hqueue, hup, halert.queued _ hserving rfl hidle 0 _ (by rw [hqueue]; rfl),
    halert.told hserving hidle hup, hserving', hqueue', hnobody,
    (hrested hnobody).1 _ hserving' rfl (by rw [hqueue']; exact List.cons_ne_nil _ _)⟩

end EndpointControl
