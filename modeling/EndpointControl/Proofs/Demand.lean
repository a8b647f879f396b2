import EndpointControl.Proofs.Acceptance
import EndpointControl.Proofs.Delivery

/-!
# Loops are started on demand

A factory has no loop started for its own sake. A worker is started for an endpoint
that is to be bound to it, and the endpoint is counted with the worker as soon as the
start has succeeded; so between operations those workers have been started that
endpoints have been assigned to (`Machine.Run.worker_started_iff`).

A boss is started for an attempt. Whoever has had it started goes on to append the
attempt to its queue, unless the boss has been told to end in the meantime. If nobody
comes in between, those bosses have been started between operations that an attempt has
been queued with (`Machine.Uninterrupted.boss_started_iff`).
-/

namespace EndpointControl

/-! ## Starting a worker -/

/-- **The thread has had the worker started for an endpoint**, and has not counted it
yet. -/
def Control.isHiring (l : LoopId) : Control → Bool
  | .running (.start l' .announce :: .create _ (.starting ..) :: _) => l' = l
  | .running (.start l' (.leave (.ok ())) :: .create _ (.starting ..) :: _) => l' = l
  | .running (.create f (.count w _) :: _) => (⟨f, .worker w⟩ : LoopId) = l
  | _ => false

section Procedures

variable {s : Store} {t : ThreadId} {f : FactoryId} {w : Nat} {l : LoopId} {below : List Frame}
  {g : Store → Store} {c c' : Control} {ns : List Note}

/-- A worker is started for an endpoint that is to be bound to it. -/
theorem Frame.Below.create_of_mark (hb : (Frame.start ⟨f, .worker w⟩ .mark).Below s below) :
    ∃ n rest, below = .create f (.starting w n) :: rest := by
  obtain ⟨caller, rest, rfl, hcall, hk, hrest⟩ := hb.exists_caller rfl
  cases hcall with
  | @startSubmit _ _ j hj =>
    cases j with
    | attempt e a =>
      -- attempts are submitted to bosses
      obtain ⟨⟨r, -, hr⟩, -⟩ := hk
      exact absurd hr nofun
    | registration e => simp at hj
  | startCreate => exact ⟨_, _, rfl⟩

/-- **Whoever marks a worker as started has an endpoint to count.** -/
theorem Control.isHiring_of_mark
    (hc : (Control.running (.start ⟨f, .worker w⟩ .mark :: below)).Sound s)
    (h : (Control.running (.start ⟨f, .worker w⟩ .mark :: below)).move s t = .act g c' ns) :
    c'.isHiring ⟨f, .worker w⟩ = true := by
  obtain ⟨n, rest, rfl⟩ := hc.2.2.create_of_mark
  cases moves_of_running h with
  | start found hp =>
    simp [StartPoint.move] at hp
    obtain ⟨-, rfl, -⟩ := hp
    simp [isHiring]

/-- **Whoever has an endpoint to count goes on to count it.** -/
theorem Control.isHiring_of_act (hc : c.Sound s) (h : c.move s t = .act g c' ns)
    (hhiring : c.isHiring ⟨f, .worker w⟩ = true) :
    c'.isHiring ⟨f, .worker w⟩ = true ∨ 0 < (g s).assigned f w := by
  unfold isHiring at hhiring
  split at hhiring
  · -- the start has been said
    obtain rfl := of_decide_eq_true hhiring
    cases moves_of_running h with
    | start found hp =>
      simp [StartPoint.move] at hp
      obtain ⟨-, rfl, -⟩ := hp
      simp [isHiring]
  · obtain rfl := of_decide_eq_true hhiring
    obtain ⟨-, -, hcall, -⟩ := hc
    cases moves_of_running h with
    | start found hp =>
      simp [StartPoint.move] at hp
      obtain ⟨-, rfl, -⟩ := hp
      cases hcall
      simp [back, Frame.resume, isHiring]
  · obtain ⟨rfl, hw⟩ := LoopId.mk.inj (of_decide_eq_true hhiring)
    obtain rfl := Seat.worker.inj hw
    cases moves_of_running h with
    | create found hp =>
      simp [CreatePoint.move] at hp
      obtain ⟨rfl, -, -⟩ := hp
      rw [Store.assigned_count _ (Store.Started.isSome_worker? hc.1), if_pos rfl]
      exact .inr (Nat.succ_pos _)
  · cases hhiring

/-- Nobody asks for anything in between. -/
theorem Control.isHiring_of_ask {q : Request} {after : q.Reply → Control}
    (h : c.move s t = .ask q after) : c.isHiring l = false := by
  obtain ⟨fr, below, rfl, ha⟩ := asks h
  cases ha <;> simp [isHiring]

theorem Control.isHiring_of_resting (h : c.isResting = true) : c.isHiring l = false := by
  unfold isHiring
  split
  case h_4 => rfl
  all_goals exact absurd h nofun

/-! ## Starting a boss -/

/-- The start is past its first look at whether the loop has been told to end, and has
not failed. -/
def StartPoint.isUnderWay : StartPoint → Bool
  | .readShutDown => false
  | .leave r => r.toBool
  | _ => true

/-- The submission has had its loop started, and has not appended its job yet. -/
def SubmitPoint.isUnderWay : SubmitPoint → Bool
  | .readShutDown | .takeSlot | .readSlot | .serialize _ | .takeQueue _ | .append _ => true
  | _ => false

/-- What has been called will return to a submission that has its loop started. -/
def Frame.isForSubmission : List Frame → Bool
  | .submit _ _ .starting :: _ => true
  | _ => false

/-- **The thread is on its way to append a job** to the queue of the loop, and goes on if
the loop has not been told to end. -/
def Control.isProceeding (l : LoopId) : Control → Bool
  | .running (.start l' p :: below) => l' = l && p.isUnderWay && Frame.isForSubmission below
  | .running (.submit l' _ p :: _) => l' = l && p.isUnderWay
  | _ => false

@[simp] theorem Control.isProceeding_start {l' : LoopId} {p : StartPoint} :
    (Control.running (.start l' p :: below)).isProceeding l
      = (decide (l' = l) && p.isUnderWay && Frame.isForSubmission below) := rfl

@[simp] theorem Control.isProceeding_submit {l' : LoopId} {j : Job} {p : SubmitPoint} :
    (Control.running (.submit l' j p :: below)).isProceeding l
      = (decide (l' = l) && p.isUnderWay) := rfl

/-- **A boss is started for an attempt** that is to be submitted to it. -/
theorem Control.isProceeding_of_mark
    (hc : (Control.running (.start ⟨f, .boss⟩ .mark :: below)).Sound s) :
    (Control.running (.start ⟨f, .boss⟩ .mark :: below)).isProceeding ⟨f, .boss⟩ = true := by
  obtain ⟨caller, rest, rfl, hcall, -⟩ := hc.2.2.exists_caller rfl
  cases hcall
  simp [isProceeding, StartPoint.isUnderWay, Frame.isForSubmission]

/-- **Who returns from a start lets a submission go on**, unless the start has failed. -/
theorem Control.isProceeding_back {l' : LoopId} {p : StartPoint}
    (hc : (Frame.start l' p).Stacked below) (r : Except Failure Unit) :
    (back below r).isProceeding l
      = (decide (l' = l) && r.toBool && Frame.isForSubmission below) := by
  cases below with
  | nil => simp [back, isProceeding, Frame.isForSubmission]
  | cons caller rest =>
    have hcaller := hc.1
    unfold Frame.Awaits at hcaller
    split at hcaller
    case h_1 =>
      cases hcaller
      cases r <;> simp [back, Frame.resume, isProceeding, SubmitPoint.isUnderWay,
        Frame.isForSubmission, Except.toBool]
    case h_3 =>
      cases hcaller
      cases r <;> simp [back, Frame.resume, isProceeding, Frame.isForSubmission]
    case h_8 => obtain ⟨j, hj⟩ := hcaller; cases j <;> cases hj
    case h_11 => exact hcaller.elim
    all_goals first | cases hcaller; done | obtain ⟨_, hcaller⟩ := hcaller; cases hcaller

/-- Nobody is on the way by being called. -/
theorem Frame.isProceeding_of_isNew {fr : Frame} (h : fr.isNew = true) :
    (Control.running (fr :: below)).isProceeding l = false := by
  cases fr with
  | start l' p =>
    cases p <;> first | (simp [StartPoint.isUnderWay]; done) | exact absurd h nofun
  | submit l' j p =>
    cases p <;> first | (simp [SubmitPoint.isUnderWay]; done) | exact absurd h nofun
  | _ => rfl

/-- Whoever returns from anything else lets no submission go on its way. -/
theorem Control.isProceeding_back_of_ne {fr : Frame} (hc : fr.Stacked below)
    (hfr : ∀ l p, fr ≠ .start l p) (r : Except Failure Unit) :
    (back below r).isProceeding l = false := by
  cases below with
  | nil => rfl
  | cons caller rest =>
    have hcaller := hc.1
    unfold Frame.Awaits at hcaller
    split at hcaller
    case h_1 => cases hcaller; exact absurd rfl (hfr _ _)
    case h_2 => simp [back, Frame.resume, isProceeding, SubmitPoint.isUnderWay]
    case h_11 => exact hcaller.elim
    all_goals cases r <;> simp [back, Frame.resume, isProceeding]

/-- **A start that is on its way stays so, or returns as one**, unless it finds that the
loop has been told to end. -/
theorem StartPoint.proceeding {l' : LoopId} {lp : Loop} {p : StartPoint}
    (hst : (Frame.start l' p).Stacked below) (h : p.move s t below l' lp = .act g c ns) :
    (c.isProceeding l = true → (Control.running (.start l' p :: below)).isProceeding l = true
      ∨ p = .readShutDown ∧ l' = l ∧ lp.shutDown = false)
    ∧ ((Control.running (.start l' p :: below)).isProceeding l = true → lp.shutDown = false →
      c.isProceeding l = true) := by
  cases p <;> simp [StartPoint.move] at h
  case readShutDown =>
    obtain ⟨-, rfl, -⟩ := h
    cases lp.shutDown <;>
      simp +contextual [Control.isProceeding_back hst, isUnderWay, Except.toBool]
  case readStarted =>
    obtain ⟨-, rfl, -⟩ := h
    cases lp.started <;>
      simp +contextual [Control.isProceeding_back hst, isUnderWay, Except.toBool]
  case takeSlot =>
    obtain ⟨-, -, rfl, -⟩ := h
    simp +contextual [isUnderWay]
  case rereadShutDown =>
    obtain ⟨-, rfl, -⟩ := h
    cases lp.shutDown <;> simp +contextual [isUnderWay, Except.toBool]
  case rereadStarted =>
    obtain ⟨-, rfl, -⟩ := h
    cases lp.started <;> simp +contextual [isUnderWay, Except.toBool]
  case inspectSlot =>
    obtain ⟨-, rfl, -⟩ := h
    cases lp.slot <;> simp +contextual [isUnderWay]
  case leave r =>
    obtain ⟨-, rfl, -⟩ := h
    simp +contextual [Control.isProceeding_back hst, isUnderWay]
  all_goals
    obtain ⟨-, rfl, -⟩ := h
    simp +contextual [isUnderWay, Except.toBool]

/-- **A submission that is on its way stays so until it has appended its job**, unless it
finds that the loop has been told to end. -/
theorem SubmitPoint.proceeding {l' : LoopId} {lp : Loop} {j : Job} {p : SubmitPoint}
    (hst : (Frame.submit l' j p).Stacked below) (h : p.move s t below l' lp j = .act g c ns) :
    (c.isProceeding l = true → (Control.running (.submit l' j p :: below)).isProceeding l = true)
    ∧ ((Control.running (.submit l' j p :: below)).isProceeding l = true → lp.shutDown = false →
      c.isProceeding l = true ∨ .pushed l j ∈ ns) := by
  have hback (r : Except Failure Unit) : (Control.back below r).isProceeding l = false :=
    Control.isProceeding_back_of_ne hst (by simp) r
  cases p <;> simp [SubmitPoint.move] at h
  case start =>
    obtain ⟨-, rfl, -⟩ := h
    simp [isUnderWay, StartPoint.isUnderWay]
  case readShutDown =>
    obtain ⟨-, rfl, -⟩ := h
    cases lp.shutDown <;> simp +contextual [isUnderWay]
  case takeSlot | takeQueue =>
    obtain ⟨-, -, rfl, -⟩ := h
    simp +contextual [isUnderWay]
  case serialize mo =>
    split at h <;> simp at h
    · obtain ⟨-, -, rfl, -⟩ := h
      simp +contextual [isUnderWay]
    · obtain ⟨-, rfl, -⟩ := h
      simp +contextual [isUnderWay]
  case append mo =>
    obtain ⟨-, rfl, rfl⟩ := h
    cases mo <;> simp +contextual [isUnderWay]
  case leave =>
    split at h <;> simp at h <;> obtain ⟨-, rfl, -⟩ := h <;> simp [hback, isUnderWay]
  case refused e =>
    obtain ⟨-, rfl, -⟩ := h
    simp [hback, isUnderWay]
  case refuse e =>
    obtain ⟨-, rfl, -⟩ := h
    cases j <;> simp [Control.isProceeding, Frame.ofDropped, isUnderWay]
  all_goals
    obtain ⟨-, rfl, -⟩ := h
    simp +contextual [isUnderWay]

/-- **Nobody comes to be on the way but by seeing that the loop goes on.** -/
theorem Control.proceeding_back (hc : c.Stacked) (h : c.move s t = .act g c' ns)
    (hp : c'.isProceeding l = true) : c.isProceeding l = true
      ∨ ∃ below, c = .running (.start l .readShutDown :: below) ∧ ¬ s.ShutDown l := by
  obtain ⟨fr, below, rfl, hm⟩ := moves_of_act h
  have hgoes := goes_of_running h
  have hrest (hstart : ∀ l p, fr ≠ .start l p) (hsubmit : ∀ l j p, fr ≠ .submit l j p) :
      c'.isProceeding l = false := by
    cases hgoes with
    | within hsame =>
      cases hsame
      case start => exact absurd rfl (hstart _ _)
      case submit => exact absurd rfl (hsubmit _ _ _)
      all_goals rfl
    | calls _ hnew => exact Frame.isProceeding_of_isNew hnew
    | returns => exact isProceeding_back_of_ne hc hstart _
    | ends => rfl
  cases hm with
  | @start l' lp p found hmove =>
    rcases (StartPoint.proceeding hc hmove).1 hp with hp | ⟨rfl, rfl, hdown⟩
    · exact .inl hp
    · refine .inr ⟨below, rfl, ?_⟩
      rintro ⟨lp', found', hup⟩
      obtain rfl := Option.some.inj (found.symm.trans found')
      exact absurd (hdown.symm.trans hup) nofun
  | submit found hmove => exact .inl ((SubmitPoint.proceeding hc hmove).1 hp)
  | _ => cases hp.symm.trans (hrest (by simp) (by simp))

/-- **Whoever is on the way goes on**, as long as the loop has not been told to end. -/
theorem Control.isProceeding_of_act (hc : c.Stacked) (h : c.move s t = .act g c' ns)
    (hp : c.isProceeding l = true) (hd : ¬ s.ShutDown l) :
    c'.isProceeding l = true ∨ ∃ j, .pushed l j ∈ ns := by
  obtain ⟨fr, below, rfl, hm⟩ := moves_of_act h
  have hdown {l' : LoopId} {lp : Loop} (hl : decide (l' = l) = true)
      (found : s.loop? l' = some lp) : lp.shutDown = false := by
    obtain rfl := of_decide_eq_true hl
    exact Bool.eq_false_of_not_eq_true fun hup => hd ⟨lp, found, hup⟩
  cases hm with
  | start found hmove =>
    have hl := (Bool.and_eq_true_iff.mp (Bool.and_eq_true_iff.mp hp).1).1
    exact .inl ((StartPoint.proceeding hc hmove).2 hp (hdown hl found))
  | submit found hmove =>
    have hl := (Bool.and_eq_true_iff.mp hp).1
    exact ((SubmitPoint.proceeding hc hmove).2 hp (hdown hl found)).imp_right fun h => ⟨_, h⟩
  | _ => exact absurd hp nofun

/-- Nobody comes to be on the way by being answered, and whoever asks while on the way
is about to open the loop or to have it taken. -/
theorem Control.isProceeding_of_ask {q : Request} {after : q.Reply → Control} (reply : q.Reply)
    (h : c.move s t = .ask q after) :
    ((after reply).isProceeding l = true → c.isProceeding l = true)
    ∧ (c.isProceeding l = true → ∃ p below, c = .running (.start l p :: below)
      ∧ (p = .openNew ∨ ∃ mux, p = .execute mux)) := by
  obtain ⟨fr, below, rfl, ha⟩ := asks h
  cases ha with
  | openNew =>
    cases reply <;> simp +contextual [StartPoint.isUnderWay, Except.toBool]
  | execute =>
    cases reply <;> simp +contextual [StartPoint.isUnderWay, Except.toBool]
  | wakeSubmit => cases reply <;> simp [SubmitPoint.isUnderWay]
  | wakeSignal => cases reply <;> simp [isProceeding]
  | _ => simp [isProceeding]

theorem Control.isProceeding_of_resting (h : c.isResting = true) : c.isProceeding l = false := by
  match c with
  | .finished _ => rfl
  | .running [] => rfl
  | .running (.submit l' j p :: below) =>
    cases p <;> first | (simp [SubmitPoint.isUnderWay]; done) | exact absurd h nofun
  | .running (.start .. :: _) => exact absurd h nofun
  | .running (.signal .. :: _) | .running (.serve .. :: _) | .running (.attempt .. :: _)
  | .running (.registration .. :: _) | .running (.drop .. :: _) | .running (.create .. :: _)
  | .running (.connect .. :: _) | .running (.close .. :: _) | .running (.release .. :: _) => rfl

end Procedures

/-! ## All histories -/

namespace Machine

variable {m m' : Machine} {is : List Incident} {i : Incident} {l : LoopId} {f : FactoryId} {w : Nat}

/-- **Some thread is of a kind, and after one thing more one still is**, unless it has
done what it was about to. -/
theorem Advance.exists_control {Q : Control → Prop} {P : Prop} (a : m.Advance i m')
    (h : ∃ t c, m.control? t = some c ∧ Q c)
    (act : ∀ {t c c' g ns}, m.control? t = some c → c.move m.store t = .act g c' ns → Q c →
      i = .stepped t (.acted ns) → m'.store = g m.store → Q c' ∨ P)
    (ask : ∀ {t c q} {after : q.Reply → Control} (reply : q.Reply), m.control? t = some c →
      c.move m.store t = .ask q after → Q c → Q (after reply) ∨ P) :
    (∃ t c, m'.control? t = some c ∧ Q c) ∨ P := by
  obtain ⟨t, c, hc, hQ⟩ := h
  by_cases hi : ∃ h, i = .stepped t h
  · obtain ⟨hap, rfl⟩ := hi
    cases a with
    | act hc' hmove =>
      obtain rfl := Option.some.inj (hc.symm.trans hc')
      exact (act hc hmove hQ rfl rfl).imp_left fun h => ⟨t, _, control?_act_self hc, h⟩
    | answer hc' hmove reply =>
      obtain rfl := Option.some.inj (hc.symm.trans hc')
      exact (ask reply hc hmove hQ).imp_left fun h => ⟨t, _, control?_answer_self reply hc, h⟩
  · refine .inl ⟨t, c, ?_, hQ⟩
    rw [a.control?_of_ne (lt_size_of_control? hc) fun h heq => hi ⟨h, heq⟩, hc]

/-- What has been started had been before, unless somebody has just marked it. -/
theorem Advance.started_of (a : m.Advance i m') (hs : m'.store.Started l) : m.store.Started l
    ∨ ∃ t below c' g ns, m.control? t = some (.running (.start l .mark :: below))
      ∧ (Control.running (.start l .mark :: below)).move m.store t = .act g c' ns
      ∧ i = .stepped t (.acted ns) ∧ m' = m.act t g c' := by
  cases a with
  | @act t c c' g ns hc hmove =>
    refine ((Control.flags_of_act hmove).started l hs).imp_right ?_
    rintro ⟨below, rfl⟩
    exact ⟨t, below, c', g, ns, hc, hmove, rfl, rfl⟩
  | answer => exact .inl (by rwa [store_answer] at hs)
  | call => exact .inl hs
  | build b => exact .inl ((m.store.sameStart_build b l).started.mp hs)

theorem Advance.assigned_le (a : m.Advance i m') (f : FactoryId) (w : Nat) :
    m.store.assigned f w ≤ m'.store.assigned f w := by
  rcases a.ticks.assigned f w with h | h <;> omega

/-- **For every worker that has been started an endpoint has been counted**, or is about
to be. -/
theorem Run.assigned_of_started (r : Run is m) (hs : m.store.Started ⟨f, .worker w⟩) :
    0 < m.store.assigned f w
      ∨ ∃ t c, m.control? t = some c ∧ c.isHiring ⟨f, .worker w⟩ = true := by
  revert hs
  refine r.induction (motive := fun _ m => m.store.Started ⟨f, .worker w⟩ →
    0 < m.store.assigned f w ∨ ∃ t c, m.control? t = some c ∧ c.isHiring ⟨f, .worker w⟩ = true)
    ?empty ?advance
  case empty => rintro ⟨l, hl, -⟩; simp [Machine.empty, Store.empty, Store.loop?] at hl
  case advance =>
    intro is m i m' r ih a hs
    obtain ⟨-, hsound⟩ := r.reachable.sound
    rcases a.started_of hs with hold | ⟨t, below, c', g, ns, hc, hmove, -, rfl⟩
    · rcases ih hold with hpos | hex
      · exact .inl (hpos.trans_le (a.assigned_le f w))
      · refine (a.exists_control hex (fun hc hmove hQ _ hm' => ?_) fun reply hc hmove hQ => ?_).symm
        · rw [hm']
          exact Control.isHiring_of_act (hsound _ _ hc) hmove hQ
        · cases hQ.symm.trans (Control.isHiring_of_ask hmove)
    · exact .inr ⟨t, c', control?_act_self hc, Control.isHiring_of_mark (hsound t _ hc) hmove⟩

/-- **At rest those workers have been started that endpoints have been assigned to.** -/
theorem Run.worker_started_iff (r : Run is m) (rest : m.AtRest) (f : FactoryId) (w : Nat) :
    m.store.Started ⟨f, .worker w⟩ ↔ 0 < m.store.assigned f w := by
  constructor
  · intro hs
    refine (r.assigned_of_started hs).resolve_right ?_
    rintro ⟨t, c, hc, hhiring⟩
    exact absurd (hhiring.symm.trans (Control.isHiring_of_resting (rest.control hc))) nofun
  · intro hpos
    obtain ⟨hs, hsound⟩ := r.reachable.sound
    rw [r.assigned_eq] at hpos
    rcases Nat.eq_zero_or_pos (m.store.boundTo f w).card with hnone | hbound
    · -- an endpoint that is about to come about is bound to a worker that has been started
      rw [hnone, Nat.zero_add] at hpos
      obtain ⟨t, c, hc, hbinding⟩ := exists_of_total_pos hpos
      have hresting := rest.control hc
      unfold binding at hbinding
      split at hbinding
      case h_3 => exact absurd hbinding (Nat.lt_irrefl 0)
      all_goals exact absurd hresting nofun
    · obtain ⟨e, he⟩ := Finset.card_pos.mp hbound
      rw [Store.boundTo, Store.mem_endpointsOf] at he
      obtain ⟨q, hq, hhome⟩ := he
      exact of_decide_eq_true hhome ▸ hs.bound hq

/-! ## Bosses -/

theorem mem_pushes {ns : List Note} {j : Job} :
    j ∈ ns.flatMap (Note.pushes l) ↔ .pushed l j ∈ ns := by
  rw [List.mem_flatMap]
  constructor
  · rintro ⟨n, hn, hj⟩
    unfold Note.pushes at hj
    split at hj
    · rename_i l' j'
      by_cases hl : l' = l
      · subst hl
        rw [if_pos rfl, List.mem_singleton] at hj
        exact hj ▸ hn
      · simp [hl] at hj
    · exact absurd hj List.not_mem_nil
  · intro hn
    exact ⟨_, hn, by simp⟩

theorem mem_pushed {j : Job} : j ∈ pushed is l ↔ .pushed l j ∈ is.flatMap Incident.notes :=
  mem_pushes

/-- **Jobs are appended where they belong**, and only to loops that have been started. -/
theorem Run.placed_of_pushed (r : Run is m) : ∀ {j}, j ∈ pushed is l →
    j.Placed m.store l ∧ m.store.Started l := by
  refine r.induction (motive := fun is m => ∀ {j}, j ∈ pushed is l →
    j.Placed m.store l ∧ m.store.Started l) (fun h => absurd h List.not_mem_nil) ?_
  intro is m i m' r ih a j hj
  rw [mem_pushed, List.flatMap_append, List.mem_append, List.flatMap_singleton] at hj
  rcases hj with hj | hj
  · obtain ⟨hplaced, hstarted⟩ := ih (mem_pushed.mpr hj)
    exact ⟨a.grows.placed hplaced, a.grows.started hstarted⟩
  · have hgrows := a.grows
    cases a with
    | act hc hmove =>
      obtain ⟨mo, below, rfl⟩ := Control.append_of_pushed (r.traffic.stacked _ _ hc) hmove hj
      obtain ⟨⟨hplaced, hstarted⟩, -⟩ := r.reachable.sound.2 _ _ hc
      exact ⟨hgrows.placed hplaced, hgrows.started hstarted⟩
    | _ => exact absurd hj List.not_mem_nil

/-- **An attempt has been queued with a boss** if one has been at some endpoint of its
factory. -/
theorem Run.pushed_boss_iff (r : Run is m) (f : FactoryId) :
    pushed is ⟨f, .boss⟩ ≠ [] ↔ ∃ e ∈ m.store.ofFactory f, 0 < accepted is e := by
  simp only [accepted, List.countP_pos_iff, Store.ofFactory, Store.mem_endpointsOf]
  constructor
  · intro hne
    obtain ⟨j, hj⟩ := List.exists_mem_of_ne_nil _ hne
    obtain ⟨hplaced, -⟩ := r.placed_of_pushed hj
    cases j with
    | attempt e a =>
      obtain ⟨q, hq, hboss⟩ := hplaced
      refine ⟨e, ⟨q, hq, ?_⟩, _, mem_pushed.mp hj, by simp [Note.accepts]⟩
      exact decide_eq_true (LoopId.mk.inj hboss).1
    | registration e =>
      obtain ⟨q, -, hhome⟩ := hplaced
      cases hhome
  · rintro ⟨e, ⟨q, hq, hf⟩, n, hn, haccepts⟩
    unfold Note.accepts at haccepts
    split at haccepts
    · rename_i l e' a
      obtain rfl := of_decide_eq_true haccepts
      have hj : Job.attempt e' a ∈ pushed is l := mem_pushed.mpr hn
      obtain ⟨⟨q', hq', rfl⟩, -⟩ := r.placed_of_pushed hj
      obtain rfl := Option.some.inj (hq.symm.trans hq')
      have hfactory : q.factory = f := of_decide_eq_true hf
      rw [← hfactory]
      exact List.ne_nil_of_mem hj
    · cases haccepts

/-- **Whoever has a boss started is on the way to append an attempt**, and so is somebody
after one thing more, or one has been appended. -/
theorem Run.pushed_or_proceeding (r : Run is m) (a : m.Advance i m')
    (hsafe : ∀ t c, m.control? t = some c → c.isProceeding ⟨f, .boss⟩ = true →
      ¬ m.store.ShutDown ⟨f, .boss⟩)
    (ih : m.store.Started ⟨f, .boss⟩ → pushed is ⟨f, .boss⟩ ≠ []
      ∨ ∃ t c, m.control? t = some c ∧ c.isProceeding ⟨f, .boss⟩ = true)
    (hs : m'.store.Started ⟨f, .boss⟩) : pushed (is ++ [i]) ⟨f, .boss⟩ ≠ []
      ∨ ∃ t c, m'.control? t = some c ∧ c.isProceeding ⟨f, .boss⟩ = true := by
  have hst := r.traffic.stacked
  have hpushed {j : Job} {ns : List Note} {t : ThreadId} (hi : i = .stepped t (.acted ns))
      (hj : .pushed ⟨f, .boss⟩ j ∈ ns) : pushed (is ++ [i]) ⟨f, .boss⟩ ≠ [] := by
    have hn : .pushed ⟨f, .boss⟩ j ∈ i.notes := by rwa [hi]
    exact List.ne_nil_of_mem (mem_pushed.mpr (List.mem_flatMap.mpr ⟨i, by simp, hn⟩))
  rcases a.started_of hs with hold | ⟨t, below, c', g, ns, hc, hmove, hi, rfl⟩
  · rcases ih hold with hne | hex
    · exact .inl (by rw [pushed_concat]; exact List.append_ne_nil_of_left_ne_nil hne _)
    · refine (a.exists_control hex (fun hc hmove hQ hi _ => ?_) fun reply hc hmove hQ => ?_).symm
      · refine (Control.isProceeding_of_act (hst _ _ hc) hmove hQ (hsafe _ _ hc hQ)).imp_right ?_
        rintro ⟨j, hj⟩
        exact hpushed hi hj
      · -- a loop that has been started is neither opened nor offered to an executor
        obtain ⟨p, below, rfl, hp⟩ := (Control.isProceeding_of_ask reply hmove).2 hQ
        have hfits := (r.traffic.launch ⟨f, .boss⟩).fits hc
        rcases hp with rfl | ⟨mux, rfl⟩ <;> exact absurd hold hfits.2
  · have hproceeding := Control.isProceeding_of_mark (r.reachable.sound.2 t _ hc)
    rcases Control.isProceeding_of_act (hst t _ hc) hmove hproceeding
      (hsafe t _ hc hproceeding) with h | ⟨j, hj⟩
    · exact .inr ⟨t, c', control?_act_self hc, h⟩
    · exact .inl (hpushed hi hj)

/-- **For every boss that has been started an attempt has been queued**, or is about to
be, or the boss has been told to end. -/
theorem Run.pushed_of_started (r : Run is m) (hs : m.store.Started ⟨f, .boss⟩) :
    m.store.ShutDown ⟨f, .boss⟩ ∨ pushed is ⟨f, .boss⟩ ≠ []
      ∨ ∃ t c, m.control? t = some c ∧ c.isProceeding ⟨f, .boss⟩ = true := by
  revert hs
  refine r.induction (motive := fun is m => m.store.Started ⟨f, .boss⟩ →
    m.store.ShutDown ⟨f, .boss⟩ ∨ pushed is ⟨f, .boss⟩ ≠ []
      ∨ ∃ t c, m.control? t = some c ∧ c.isProceeding ⟨f, .boss⟩ = true) ?empty ?advance
  case empty => rintro ⟨l, hl, -⟩; simp [Machine.empty, Store.empty, Store.loop?] at hl
  case advance =>
    intro is m i m' r ih a hs
    by_cases htold : m.store.ShutDown ⟨f, .boss⟩
    · exact .inl (a.grows.shutDown htold)
    · exact .inr (r.pushed_or_proceeding a (fun _ _ _ _ => htold)
        (fun h => (ih h).resolve_left htold) hs)

/-- **If nobody comes in between, whoever is on the way to append a job knows that the loop
has not been told to end**, because nobody else has moved since. -/
theorem Uninterrupted.not_shutDown (r : Uninterrupted is m) : ∀ t c, m.control? t = some c →
    c.isProceeding l = true → ¬ m.store.ShutDown l := by
  induction r with
  | empty => exact fun t c hc => by simp [control?, Machine.empty] at hc
  | @advance is m m' i r a alone ih =>
    intro t c hc hproceeding
    have hst := r.run.traffic.stacked
    cases a.places hc with
    | kept hd hne =>
      have hold := ih t c hd hproceeding
      cases a with
      | @act t' | @answer t' =>
        -- somebody else moves, so this thread rests
        have ht : t ≠ t' := by rintro rfl; exact hne _ rfl
        have hresting := (alone _ _ rfl).isResting ht hd
        cases hproceeding.symm.trans (Control.isProceeding_of_resting hresting)
      | call => exact hold
      | build b =>
        rintro ⟨lp, hlp, hup⟩
        rcases m.store.loop?_build b l with h | ⟨-, p, v, x, h⟩
        · exact hold ⟨lp, h ▸ hlp, hup⟩
        · obtain rfl := Option.some.inj (h.symm.trans hlp)
          cases hup
    | @acted c₀ g ns hc₀ hmove hm =>
      rw [hm]
      intro htold
      -- the flag has not just been raised, as a thread that raises it is not on the way
      have hback := Control.proceeding_back (hst t c₀ hc₀) hmove hproceeding
      rcases (Control.flags_of_act hmove).shutDown l htold with hold | ⟨below, rfl⟩
      · rcases hback with h | ⟨below, rfl, hdown⟩
        · exact ih t c₀ hc₀ h hold
        · exact hdown hold
      · rcases hback with h | ⟨below', h, -⟩
        · cases h
        · cases h
    | answered reply hc₀ hmove hafter hm =>
      rw [hm, store_answer]
      exact ih t _ hc₀ ((Control.isProceeding_of_ask reply hmove).1 (hafter ▸ hproceeding))
    | @called _ o _ hd => rw [hd] at hproceeding; cases o <;> cases hproceeding
    | served _ _ _ hd => rw [hd] at hproceeding; cases hproceeding

theorem Uninterrupted.pushed_of_started (r : Uninterrupted is m) : m.store.Started ⟨f, .boss⟩ →
    pushed is ⟨f, .boss⟩ ≠ []
      ∨ ∃ t c, m.control? t = some c ∧ c.isProceeding ⟨f, .boss⟩ = true := by
  induction r with
  | empty => rintro ⟨l, hl, -⟩; simp [Machine.empty, Store.empty, Store.loop?] at hl
  | advance r a _ ih =>
    exact r.run.pushed_or_proceeding a (fun _ _ => r.not_shutDown _ _) ih

theorem AtRest.not_isProceeding (rest : m.AtRest) (l : LoopId) :
    ¬ ∃ t c, m.control? t = some c ∧ c.isProceeding l = true := by
  rintro ⟨t, c, hc, h⟩
  exact absurd (h.symm.trans (Control.isProceeding_of_resting (rest.control hc))) nofun

/-- **At rest those bosses have been started that an attempt has been queued with**, or
they have been told to end. -/
theorem Run.boss_started (r : Run is m) (rest : m.AtRest) (f : FactoryId) :
    (m.store.Started ⟨f, .boss⟩ → m.store.ShutDown ⟨f, .boss⟩
      ∨ ∃ e ∈ m.store.ofFactory f, 0 < accepted is e)
    ∧ ((∃ e ∈ m.store.ofFactory f, 0 < accepted is e) → m.store.Started ⟨f, .boss⟩) := by
  rw [← r.pushed_boss_iff]
  refine ⟨fun hs => ?_, fun hne => ?_⟩
  · exact (r.pushed_of_started hs).imp_right fun h => h.resolve_right (rest.not_isProceeding _)
  · obtain ⟨j, hj⟩ := List.exists_mem_of_ne_nil _ hne
    exact (r.placed_of_pushed hj).2

/-- **If nobody comes in between, those bosses have been started at rest that an attempt has
been queued with.** -/
theorem Uninterrupted.boss_started_iff (r : Uninterrupted is m) (rest : m.AtRest) (f : FactoryId) :
    m.store.Started ⟨f, .boss⟩ ↔ ∃ e ∈ m.store.ofFactory f, 0 < accepted is e := by
  refine ⟨fun hs => ?_, (r.run.boss_started rest f).2⟩
  rw [← r.run.pushed_boss_iff]
  exact (r.pushed_of_started hs).resolve_right (rest.not_isProceeding _)

/-- **While nobody connects, what has been queued with a boss has been counted.** -/
theorem Run.attempts_pos_iff (r : Run is m) (h : m.NoConnect) (f : FactoryId) :
    0 < m.store.attempts f ↔ ∃ e ∈ m.store.ofFactory f, 0 < accepted is e := by
  rw [r.attempts_eq, Finset.sum_pos_iff]
  refine exists_congr fun e => and_congr_right fun _ => ?_
  have htotal := r.total_settled e
  rw [r.reachable.acknowledging_eq_zero h e] at htotal
  rw [← htotal, Nat.add_zero]

end Machine

end EndpointControl
