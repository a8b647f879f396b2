import EndpointControl.Proofs.Passage

/-!
# What each step does to the passage of endpoints

Every step of every procedure does to what is on its way what one `Leg` says
(`Control.passes_of_act`). The proof follows the procedures once more. Most steps
touch neither a queue nor an endpoint (`Store.Calm`), and for those only the hands
matter. The others are the few places where a job is queued or taken, where a
status is written, and where an endpoint comes about.
-/

namespace EndpointControl

/-! ## Coming back -/

namespace Frame

variable {s : Store} {below : List Frame}

/-- **What a return hands over.** The return of a failed start turns a submission
into a refusal; for a registration that cannot be unless its loop has been told
to end. -/
theorem Below.back_start {id : LoopId} {p : StartPoint} {r : Except Failure Unit} (hs : s.Sound)
    (hb : (Frame.start id p).Below s below)
    (hr : r = .ok () ∨ (p = .readShutDown ∨ p = .readStarted → s.ShutDown id)) :
    ∃ (leg : Leg) (e : EndpointId), leg.isSilent = true ∧ leg.Guard (s.BossTold e)
      ∧ leg.Carries e (below.flatMap cargo) (Control.back below r).cargo := by
  obtain ⟨caller, rest, rfl, hcall, hk, -⟩ := hb.exists_caller rfl
  cases hcall with
  | startCreate =>
    refine ⟨.idle, 0, rfl, trivial, Leg.carries_idle _ ?_⟩
    cases r <;> simp [Control.back, resume, cargo]
  | @startSubmit _ _ j hj =>
    cases r with
    | ok _ =>
      refine ⟨.idle, 0, rfl, trivial, Leg.carries_idle _ ?_⟩
      cases j <;> simp [Control.back, resume, cargo, SubmitPoint.stages]
    | error cause =>
      cases j with
      | attempt e a =>
        refine ⟨.turnAway, e, rfl, trivial, fun x => ?_⟩
        simp [Control.back, resume, cargo, SubmitPoint.stages, Job.endpoint, Leg.takes, Leg.puts,
          List.count_cons]
        omega
      | registration e =>
        -- only a loop found shut down refuses a registration
        have hd : s.ShutDown id := by
          rcases hr with hr | hr
          · cases hr
          · exact hr (by simpa using hj)
        refine ⟨.refuse, e, rfl, hk.1.bossTold (hs.told_of_shutDown hd), fun x => ?_⟩
        simp [Control.back, resume, cargo, SubmitPoint.stages, Job.endpoint, Leg.takes, Leg.puts,
          List.count_cons]
        omega

/-- The return of a procedure that has nothing to tell hands nothing over. -/
theorem Below.cargo_back {fr : Frame} {r : Except Failure Unit} (hb : fr.Below s below)
    (hroot : fr.isRoot = false) (hstart : ∀ id p, fr ≠ .start id p)
    (hsubmit : ∀ id j p, fr ≠ .submit id j p) :
    (Control.back below r).cargo = below.flatMap cargo := by
  obtain ⟨caller, rest, rfl, hcall, -, -⟩ := hb.exists_caller hroot
  cases hcall with
  | startSubmit | startCreate => exact absurd rfl (hstart _ _)
  | submitCreate | submitConnect | submitAttempt => exact absurd rfl (hsubmit _ _ _)
  | _ => rfl

end Frame

/-! ## The procedures -/

section Procedures

variable {s : Store} {t : ThreadId} {below : List Frame} {g : Store → Store} {c : Control}
  {ns : List Note}

theorem StartPoint.calm_of_move {id : LoopId} {l : Loop} {p : StartPoint}
    (h : p.move s t below id l = .act g c ns) : s.Calm (g s) := by
  cases p <;> simp [StartPoint.move] at h
  case takeSlot => exact h.2.1 ▸ s.calm_takeLock ..
  case fillSlot m => exact h.1 ▸ s.calm_modifyLoop id fun _ => rfl
  case mark => exact h.1 ▸ s.calm_modifyLoop id fun _ => rfl
  case leave r => exact h.1 ▸ s.calm_giveLock _
  all_goals exact h.1 ▸ .refl s

theorem StartPoint.passage {id : LoopId} {l : Loop} {p : StartPoint} (hs : s.Sound)
    (hb : (Frame.start id p).Below s below) (found : s.loop? id = some l)
    (h : p.move s t below id l = .act g c ns) :
    Passes s (g s) (.running (.start id p :: below)) c ns := by
  have hg := grows_of_move h
  have hm := calm_of_move h
  -- a return goes through the caller, the other points stay in the start
  have hback {r : Except Failure Unit}
      (hr : r = .ok () ∨ (p = .readShutDown ∨ p = .readStarted → s.ShutDown id)) :
      Passes s (g s) (.running (.start id p :: below)) (.back below r) [] := by
    obtain ⟨leg, e₀, hl, hguard, hc⟩ := hb.back_start hs hr
    exact .silent leg e₀ hl hs hg hm rfl (by simpa [Frame.cargo] using hc) hguard
  cases p <;> simp [StartPoint.move] at h
  case readShutDown =>
    obtain ⟨rfl, rfl, rfl⟩ := h
    by_cases hd : l.shutDown = true
    · rw [if_pos hd]
      exact hback (.inr fun _ => ⟨l, found, hd⟩)
    · rw [if_neg hd]
      exact .idle hs hg hm rfl (by simp [Frame.cargo])
  case readStarted =>
    obtain ⟨rfl, rfl, rfl⟩ := h
    by_cases hd : l.started = true
    · rw [if_pos hd]
      exact hback (.inl rfl)
    · rw [if_neg hd]
      exact .idle hs hg hm rfl (by simp [Frame.cargo])
  case takeSlot =>
    obtain ⟨-, rfl, rfl, rfl⟩ := h
    exact .idle hs hg hm rfl (by simp [Frame.cargo])
  case leave r =>
    obtain ⟨rfl, rfl, rfl⟩ := h
    exact hback (.inr (by simp))
  all_goals
    obtain ⟨rfl, rfl, rfl⟩ := h
    exact .idle hs hg hm rfl (by simp [Frame.cargo])

theorem SignalPoint.calm_of_move {id : LoopId} {l : Loop} {p : SignalPoint}
    (h : p.move s t below id l = .act g c ns) : s.Calm (g s) := by
  cases p <;> simp [SignalPoint.move] at h
  case raise => exact h.1 ▸ s.calm_modifyLoop id fun _ => rfl
  case takeSlot => exact h.2.1 ▸ s.calm_takeLock ..
  case giveSlot => exact h.1 ▸ s.calm_giveLock _
  all_goals exact h.1 ▸ .refl s

theorem SignalPoint.passage {id : LoopId} {l : Loop} {p : SignalPoint} (hs : s.Sound)
    (hb : (Frame.signal id p).Below s below) (h : p.move s t below id l = .act g c ns) :
    Passes s (g s) (.running (.signal id p :: below)) c ns := by
  have hg := grows_of_move h
  have hm := calm_of_move h
  have hback {r : Except Failure Unit} : (Control.back below r).cargo = below.flatMap Frame.cargo :=
    hb.cargo_back rfl nofun nofun
  cases p <;> simp [SignalPoint.move] at h
  case raise =>
    obtain ⟨rfl, rfl, rfl⟩ := h
    refine .idle hs hg hm rfl ?_
    split
    · exact hback
    · simp [Frame.cargo]
  case takeSlot =>
    obtain ⟨-, rfl, rfl, rfl⟩ := h
    exact .idle hs hg hm rfl (by simp [Frame.cargo])
  case announce =>
    obtain ⟨rfl, rfl, rfl⟩ := h
    exact .idle hs hg hm rfl hback
  all_goals
    obtain ⟨rfl, rfl, rfl⟩ := h
    exact .idle hs hg hm rfl (by simp [Frame.cargo])

theorem SubmitPoint.calm_of_move {id : LoopId} {l : Loop} {j : Job} {p : SubmitPoint}
    (hp : ∀ m, p ≠ .append m) (h : p.move s t below id l j = .act g c ns) : s.Calm (g s) := by
  cases p <;> simp [SubmitPoint.move] at h
  case append m => exact absurd rfl (hp m)
  case takeSlot => exact h.2.1 ▸ s.calm_takeLock ..
  case takeQueue m => exact h.2.1 ▸ s.calm_takeLock ..
  case readSlot => exact h.1 ▸ s.calm_giveLock _
  case serialize m =>
    split at h <;> simp at h
    · exact h.2.1 ▸ s.calm_takeLock ..
    · exact h.1 ▸ .refl s
  case leave =>
    split at h <;> simp at h
    · exact h.1 ▸ s.calm_giveLock _
    · exact h.1 ▸ .refl s
  all_goals exact h.1 ▸ .refl s

/-- A boss that has not been told to end has not been told. -/
theorem Job.Placed.not_bossTold {id : LoopId} {l : Loop} {e : EndpointId} {a : Address}
    (hp : (Job.attempt e a).Placed s id) (found : s.loop? id = some l)
    (hd : ¬ l.shutDown = true) : ¬ s.BossTold e := by
  rintro ⟨r, hr, htold⟩
  obtain ⟨r', hr', rfl⟩ := hp
  obtain rfl := Option.some.inj (hr.symm.trans hr')
  exact hd (htold.2 .boss Nat.zero_lt_one l found)

/-- **What the return of a submission hands over.** -/
theorem Frame.Below.back_submit {id : LoopId} {j : Job} {p : SubmitPoint}
    (hb : (Frame.submit id j p).Below s below) :
    (Control.back below (.ok ())).cargo.Perm
      (((SubmitPoint.leave).stages j).map (j.endpoint, ·) ++ below.flatMap Frame.cargo) ∧
    ∀ cause, (Control.back below (.error cause)).cargo.Perm
        (((SubmitPoint.refused cause).stages j).map (j.endpoint, ·) ++ below.flatMap Frame.cargo)
      ∨ Leg.forget.Carries j.endpoint
        (((SubmitPoint.refused cause).stages j).map (j.endpoint, ·) ++ below.flatMap Frame.cargo)
        (Control.back below (.error cause)).cargo := by
  obtain ⟨caller, rest, rfl, hcall, -, -⟩ := hb.exists_caller rfl
  cases hcall with
  | submitCreate =>
    refine ⟨?_, fun cause => .inr fun x => ?_⟩
    · simp [Control.back, Frame.resume, Frame.cargo, SubmitPoint.stages]
    · simp [Control.back, Frame.resume, Frame.cargo, SubmitPoint.stages, Job.endpoint, Leg.takes,
        Leg.puts, List.count_cons]
  | submitConnect =>
    refine ⟨?_, fun cause => .inl ?_⟩
    all_goals
      simp [Control.back, Frame.resume, Frame.cargo, SubmitPoint.stages, Job.endpoint]
  | submitAttempt =>
    refine ⟨?_, fun cause => .inl ?_⟩
    all_goals
      simp [Control.back, Frame.resume, Frame.cargo, SubmitPoint.stages, Job.endpoint]

/-- What the submission finds when it looks at its loop decides over an attempt. -/
theorem SubmitPoint.passage_readShutDown {id : LoopId} {l : Loop} {j : Job} (hs : s.Sound)
    (hp : j.Placed s id) (found : s.loop? id = some l) :
    Passes s s (.running (.submit id j .readShutDown :: below))
      (.running (.submit id j (if l.shutDown then .refuse .released else .takeSlot) :: below))
      [] := by
  have hg := Store.Grows.refl s
  have hm := Store.Calm.refl s
  by_cases hd : l.shutDown = true
  · rw [if_pos hd]
    have htold := hp.bossTold (hs.told_of_shutDown ⟨l, found, hd⟩)
    cases j with
    | attempt e a =>
      refine .silent .turnAway e rfl hs hg hm rfl (fun x => ?_) trivial
      simp [Frame.cargo, stages, Job.endpoint, Leg.takes, Leg.puts, List.count_cons]
      omega
    | registration e =>
      refine .silent .refuse e rfl hs hg hm rfl (fun x => ?_) htold
      simp [Frame.cargo, stages, Job.endpoint, Leg.takes, Leg.puts, List.count_cons]
      omega
  · rw [if_neg hd]
    cases j with
    | attempt e a =>
      refine .silent .commit e rfl hs hg hm rfl (fun x => ?_) (hp.not_bossTold found hd)
      simp [Frame.cargo, stages, Job.endpoint, Leg.takes, Leg.puts, List.count_cons]
      omega
    | registration e => exact .idle hs hg hm rfl (by simp [Frame.cargo, stages])

/-- **A job that is appended goes from the hands of its submission to the queue.** -/
theorem SubmitPoint.passage_append {id : LoopId} {l : Loop} {j : Job} {m : Option Multiplexer}
    {lk : Lock} {k : Loop → Loop} (hs : s.Sound) (hp : j.Placed s id)
    (found : s.loop? id = some l) (hq : (k l).queue = l.queue.push j)
    (hg : s.Grows ((s.modifyLoop id k).giveLock lk)) :
    Passes s ((s.modifyLoop id k).giveLock lk) (.running (.submit id j (.append m) :: below))
      (.running (.submit id j (match m with
        | some m => .wake m
        | none => .leave) :: below)) [.pushed id j] := by
  -- the queue holds what it held and the job that is appended
  have hnew : ∀ j' ∈ (k l).queue.toList, j'.Placed s id := by
    intro j' hj'
    rw [hq, Array.toList_push, List.mem_append, List.mem_singleton] at hj'
    rcases hj' with hj' | rfl
    · exact hs.placed found j' hj'
    · exact hp
  cases j with
  | attempt e a =>
    refine .requeue .accept e (.inr rfl) hs found hg hnew (fun x => ?_) (fun e' => ?_) fun _ => ?_
    · cases m <;> simp [hq, Frame.cargo, stages, Leg.takes, Leg.puts, Job.cargo, Job.endpoint,
        List.count_cons, List.count_append] <;> omega
    · simp [Note.accepts, Leg.takes, eq_comm]
    · simp
  | registration e =>
    refine .requeue .idle e (.inl rfl) hs found hg hnew (fun x => ?_) (fun e' => ?_) fun _ => ?_
    · cases m <;> simp [hq, Frame.cargo, stages, Leg.takes, Leg.puts, Job.cargo, Job.endpoint,
        List.count_cons, List.count_append] <;> omega
    · simp [Note.accepts, Leg.takes]
    · simp

theorem SubmitPoint.passage {id : LoopId} {l : Loop} {j : Job} {p : SubmitPoint} (hs : s.Sound)
    (hk : (Frame.submit id j p).Knows s) (hb : (Frame.submit id j p).Below s below)
    (found : s.loop? id = some l) (h : p.move s t below id l j = .act g c ns) :
    Passes s (g s) (.running (.submit id j p :: below)) c ns := by
  have hg := grows_of_move h
  by_cases hp : ∃ m, p = .append m
  · obtain ⟨m, rfl⟩ := hp
    simp [SubmitPoint.move] at h
    obtain ⟨rfl, rfl, rfl⟩ := h
    exact passage_append hs hk.1 found rfl hg
  have hm := calm_of_move (fun m hm => hp ⟨m, hm⟩) h
  -- the other points keep what they have in their hands, whichever job it is
  have hidle {p' : SubmitPoint} (hst : p'.stages j = p.stages j) (he : ns = []) (hc : c
      = .running (.submit id j p' :: below)) :
      Passes s (g s) (.running (.submit id j p :: below)) c ns :=
    .idle hs hg hm (he ▸ rfl) (by simp [hc, Frame.cargo, hst])
  cases p <;> simp [SubmitPoint.move] at h
  case append m => exact absurd ⟨m, rfl⟩ hp
  case start =>
    obtain ⟨rfl, rfl, rfl⟩ := h
    exact .idle hs hg hm rfl (by cases j <;> simp [Frame.cargo, stages])
  case readShutDown =>
    obtain ⟨rfl, rfl, rfl⟩ := h
    exact passage_readShutDown hs hk.1 found
  case takeSlot => exact hidle (by cases j <;> rfl) h.2.2.2 h.2.2.1
  case takeQueue m => exact hidle (by cases j <;> rfl) h.2.2.2 h.2.2.1
  case readSlot => exact hidle (by cases j <;> rfl) h.2.2 h.2.1
  case serialize m =>
    split at h <;> simp at h
    · exact hidle (by cases j <;> rfl) h.2.2.2 h.2.2.1
    · exact hidle (by cases j <;> rfl) h.2.2 h.2.1
  case wakeFailed cause =>
    obtain ⟨rfl, rfl, rfl⟩ := h
    exact .idle hs hg hm rfl (by cases j <;> simp [Frame.cargo, stages])
  case leave =>
    have hc : Leg.idle.Carries 0 (Control.running (.submit id j .leave :: below)).cargo
        (Control.back below (.ok ())).cargo := Leg.carries_idle 0 hb.back_submit.1
    split at h <;> simp at h <;> obtain ⟨rfl, rfl, rfl⟩ := h
    all_goals exact .silent .idle 0 rfl hs hg hm rfl hc trivial
  case refuse cause =>
    obtain ⟨rfl, rfl, rfl⟩ := h
    exact .idle hs hg hm rfl (by cases j <;> simp [Frame.cargo, Frame.ofDropped, stages])
  case refused cause =>
    obtain ⟨rfl, rfl, rfl⟩ := h
    rcases hb.back_submit.2 cause with hc | hc
    · exact .silent .idle 0 rfl hs hg hm rfl (Leg.carries_idle 0 hc) trivial
    · exact .silent .forget j.endpoint rfl hs hg hm rfl hc trivial

theorem ServePoint.calm_of_move {id : LoopId} {l : Loop} {m : Multiplexer} {p : ServePoint}
    (hp : p ≠ .takeBatch ∧ p ≠ .takeRest) (h : p.move s t below id l m = .act g c ns) :
    s.Calm (g s) := by
  cases p
  case takeBatch => exact absurd rfl hp.1
  case takeRest => exact absurd rfl hp.2
  case run batch n =>
    cases batch <;> simp [ServePoint.move] at h <;> exact h.1 ▸ .refl s
  case report n =>
    cases n <;> simp [ServePoint.move] at h <;> exact h.1 ▸ .refl s
  case discard rest n =>
    cases rest <;> simp [ServePoint.move] at h <;> exact h.1 ▸ .refl s
  all_goals simp [ServePoint.move] at h
  case serialize =>
    split at h <;> simp at h
    · exact h.2.1 ▸ s.calm_takeLock ..
    · exact h.1 ▸ .refl s
  case takeQueue => exact h.2.1 ▸ s.calm_takeLock ..
  case takeQueueLast => exact h.2.1 ▸ s.calm_takeLock ..
  case endTurn n =>
    split at h <;> simp at h
    · exact h.1 ▸ s.calm_giveLock _
    · exact h.1 ▸ .refl s
  case markExited n => exact h.1 ▸ s.calm_modifyLoop id fun _ => rfl
  all_goals exact h.1 ▸ .refl s

/-- **A loop that takes its queue has in its hands what was queued.** -/
theorem ServePoint.passage_take {id : LoopId} {l : Loop} {c c' : Control} {lk : Lock}
    {k : Loop → Loop} (hs : s.Sound) (found : s.loop? id = some l) (hq : (k l).queue = #[])
    (hc : c'.cargo = l.queue.toList.map Job.cargo ++ c.cargo)
    (hg : s.Grows ((s.modifyLoop id k).giveLock lk)) :
    Passes s ((s.modifyLoop id k).giveLock lk) c c' [] := by
  refine .requeue .idle 0 (.inl rfl) hs found hg (by simp [hq]) (fun x => ?_) (fun e => ?_)
    fun _ => rfl
  · simp [hq, hc, List.count_append, Leg.takes, Leg.puts]
    omega
  · simp [Leg.takes]

/-- What the loop says after waiting is about no job. -/
theorem quiet_ofWait (id : LoopId) (r : Except String Nat) :
    (Notice.ofWait id r).all Note.isQuiet = true := by
  unfold Notice.ofWait
  split <;> rfl

theorem ServePoint.passage {id : LoopId} {l : Loop} {m : Multiplexer} {p : ServePoint}
    (hs : s.Sound) (hk : (Frame.serve id m p).Knows s) (hb : (Frame.serve id m p).Below s below)
    (found : s.loop? id = some l) (h : p.move s t below id l m = .act g c ns) :
    Passes s (g s) (.running (.serve id m p :: below)) c ns := by
  have hg := grows_of_move h
  obtain rfl := hb.eq_nil rfl
  -- the two points that take the queue, then those that leave it alone
  by_cases hp : p = .takeBatch ∨ p = .takeRest
  · rcases hp with rfl | rfl
    all_goals
      simp [ServePoint.move] at h
      obtain ⟨rfl, rfl, rfl⟩ := h
      exact passage_take hs found rfl (by simp [Frame.cargo]) hg
  have hm := calm_of_move (not_or.mp hp) h
  cases p
  case takeBatch => exact absurd (.inl rfl) hp
  case takeRest => exact absurd (.inr rfl) hp
  case run batch n =>
    cases batch with
    | nil =>
      simp [ServePoint.move] at h
      obtain ⟨rfl, rfl, rfl⟩ := h
      exact .idle hs hg hm rfl (by simp [Frame.cargo])
    | cons j rest =>
      simp [ServePoint.move] at h
      obtain ⟨rfl, rfl, rfl⟩ := h
      -- the job goes from the batch to the frame that executes it
      refine .idle hs hg hm rfl ?_
      rw [Control.cargo_running_cons, Frame.cargo_ofJob]
      simp [Frame.cargo]
  case report n =>
    cases n <;> simp [ServePoint.move] at h <;> obtain ⟨rfl, rfl, rfl⟩ := h
    all_goals exact .idle hs hg hm rfl (by simp [Frame.cargo])
  case discard rest n =>
    cases rest with
    | nil =>
      simp [ServePoint.move] at h
      obtain ⟨rfl, rfl, rfl⟩ := h
      exact .idle hs hg hm rfl (by simp [Frame.cargo])
    | cons j rest =>
      simp [ServePoint.move] at h
      obtain ⟨rfl, rfl, rfl⟩ := h
      -- nobody runs what is dropped after the loop has been told to end
      refine .silent .abandon j.endpoint rfl hs hg hm rfl (fun x => ?_)
        ((hk.1 j List.mem_cons_self).bossTold (hs.told_of_shutDown hk.2))
      rw [Control.cargo_running_cons, Frame.cargo_ofDropped]
      simp [Frame.cargo, Job.cargo, Leg.takes, Leg.puts, List.count_cons]
      omega
  all_goals simp [ServePoint.move] at h
  case serialize =>
    split at h <;> simp at h
    · obtain ⟨-, rfl, rfl, rfl⟩ := h
      exact .idle hs hg hm rfl (by simp [Frame.cargo])
    · obtain ⟨rfl, rfl, rfl⟩ := h
      exact .idle hs hg hm rfl (by simp [Frame.cargo])
  case endTurn n =>
    split at h <;> simp at h <;> obtain ⟨rfl, rfl, rfl⟩ := h
    all_goals exact .idle hs hg hm rfl (by simp [Frame.cargo])
  case takeQueue | takeQueueLast =>
    obtain ⟨-, rfl, rfl, rfl⟩ := h
    exact .idle hs hg hm rfl (by simp [Frame.cargo])
  case readShutDown =>
    obtain ⟨rfl, rfl, rfl⟩ := h
    refine .idle hs hg hm rfl ?_
    split <;> simp [Frame.cargo]
  case waited r =>
    obtain ⟨rfl, rfl, rfl⟩ := h
    exact .idle hs hg hm (quiet_ofWait id r) (by simp [Frame.cargo])
  all_goals
    obtain ⟨rfl, rfl, rfl⟩ := h
    exact .idle hs hg hm rfl (by simp [Frame.cargo])

theorem AttemptPoint.passage {id : EndpointId} {r : Endpoint} {a : Address} {p : AttemptPoint}
    (hs : s.Sound) (hb : (Frame.attempt id a p).Below s below)
    (h : p.move below id r a = .act g c ns) :
    Passes s (g s) (.running (.attempt id a p :: below)) c ns := by
  have hg : s.Grows (g s) := grows_of_move h
  have hcalm : s.Calm (g s) := by
    cases p <;> simp [AttemptPoint.move] at h <;> exact h.1 ▸ .refl s
  cases p <;> simp [AttemptPoint.move] at h <;> obtain ⟨rfl, rfl, rfl⟩ := h
  case drop =>
    refine .silent .redrop id rfl hs hg hcalm rfl (fun x => ?_) trivial
    simp [Frame.cargo, Leg.takes, Leg.puts, List.count_cons]
    omega
  case leave => exact .idle hs hg hcalm rfl (hb.cargo_back rfl (by simp) (by simp))
  all_goals
    exact .idle hs hg hcalm rfl (by simp [Frame.cargo, SubmitPoint.stages, Job.endpoint])

/-- **A status is written under its lock**, and with it the way of a job ends or
begins. -/
theorem Passes.setStatus (leg : Leg) {e : EndpointId} {r : Endpoint} {st : Status} {lk : Lock}
    {c c' : Control} (hs : s.Sound) (found : s.endpoints[e]? = some r)
    (hst : leg.Turns (some r.status.state) (some st.state)) (hguard : leg.Guard (s.BossTold e))
    (hfd : ∀ a, leg.Founds a a)
    (ht : leg.takes.count .committed = 0 ∧ leg.takes.count .counting = 0) (hplace : leg.Place e c)
    (hc : leg.Carries e c.cargo c'.cargo) :
    Passes s ((s.setStatus e st).giveLock lk) c c' [] := by
  have hg : s.Grows ((s.setStatus e st).giveLock lk) := by
    rw [Store.grows_giveLock_iff]
    exact s.grows_setStatus e st
  -- the lock is no part of any state, and only the endpoint's own state is written
  have hstate (e' : EndpointId) : ((s.setStatus e st).giveLock lk).state? e'
      = if e = e' then (s.state? e').map fun _ => st.state else s.state? e' :=
    s.state?_setStatus e e' st
  refine .of_sameQueues leg e hs hg (s.sameBindings_setStatus e st) (fun _ => rfl) hc ?_
    (fun e' he' => ?_) hguard hfd (fun e' => ?_) (fun e' => ?_) hplace
  · rw [hstate, if_pos rfl, Store.state?, found]
    exact hst
  · rw [hstate, if_neg (Ne.symm he')]
  · rw [ht.1, ite_self, List.countP_nil]
  · rw [ht.2, ite_self, List.count_nil]

theorem RegistrationPoint.passage {id : EndpointId} {r : Endpoint} {p : RegistrationPoint}
    (hs : s.Sound) (hb : (Frame.registration id p).Below s below)
    (found : s.endpoints[id]? = some r) (h : p.move s t below id r = .act g c ns) :
    Passes s (g s) (.running (.registration id p :: below)) c ns := by
  have hg : s.Grows (g s) := grows_of_move h
  have hback {q : Except Failure Unit} : (Control.back below q).cargo = below.flatMap Frame.cargo :=
    hb.cargo_back rfl nofun nofun
  cases p <;> simp [RegistrationPoint.move] at h
  case takeStatus =>
    obtain ⟨-, rfl, rfl, rfl⟩ := h
    exact .idle hs hg (s.calm_takeLock _ _) rfl (by simp [Frame.cargo])
  case mark =>
    obtain ⟨rfl, rfl, rfl⟩ := h
    -- a closed endpoint is passed over, and the registration goes back to its caller
    by_cases hst : r.status.state = .closed
    · rw [if_pos hst]
      refine .setStatus .pass hs found ?_ trivial (fun _ => rfl) ⟨rfl, rfl⟩ trivial fun x => ?_
      · simp [Leg.Turns, Status.register, hst]
      · simp [hback, Frame.cargo, Leg.takes, Leg.puts, List.count_cons]
    · rw [if_neg hst]
      refine .setStatus .register hs found ?_ trivial (fun _ => rfl) ⟨rfl, rfl⟩ trivial fun x => ?_
      · refine ⟨by simpa using hst, ?_⟩
        unfold Status.register
        split
        · contradiction
        · rfl
      · simp [Frame.cargo, Leg.takes, Leg.puts, List.count_cons]
        omega
  case count =>
    obtain ⟨rfl, rfl, rfl⟩ := h
    refine .of_sameQueues .count id hs hg (fun _ => rfl)
      (s.calm_modifyFactory _ fun f st => by
        rw [Factory.loop?_modifyWorker]; exact fun w => rfl).queues (fun x => ?_) rfl
      (fun _ _ => rfl) trivial (fun _ => rfl) (fun e => ?_) (fun e => ?_) trivial
    · simp [Frame.cargo, Leg.takes, Leg.puts, List.count_cons]
    · simp [Note.accepts, Leg.takes]
    · by_cases he : e = id
      · simp [he, Leg.takes]
      · simp [he, Ne.symm he]
  case announce =>
    obtain ⟨rfl, rfl, rfl⟩ := h
    exact .idle hs hg (.refl s) rfl (hback.trans (by simp [Frame.cargo]))

theorem DropPoint.passage {id : EndpointId} {r : Endpoint} {p : DropPoint} (hs : s.Sound)
    (hb : (Frame.drop id p).Below s below) (found : s.endpoints[id]? = some r)
    (h : p.move s t below id r = .act g c ns) :
    Passes s (g s) (.running (.drop id p :: below)) c ns := by
  have hg : s.Grows (g s) := grows_of_move h
  cases p <;> simp [DropPoint.move] at h
  case takeStatus =>
    obtain ⟨-, rfl, rfl, rfl⟩ := h
    exact .idle hs hg (s.calm_takeLock _ _) rfl (by simp [Frame.cargo])
  case revert =>
    obtain ⟨rfl, rfl, rfl⟩ := h
    have hback {q : Except Failure Unit} :
        (Control.back below q).cargo = below.flatMap Frame.cargo :=
      hb.cargo_back rfl (by simp) (by simp)
    refine .setStatus .revert hs found ?_ trivial (fun _ => rfl) ⟨rfl, rfl⟩ trivial fun x => ?_
    · -- only a connecting endpoint is opened again
      by_cases hst : r.status.state = .connecting
      · exact .inl ⟨by rw [hst], by simp [Status.revert, hst]⟩
      · exact .inr ⟨by simpa using hst, by rw [Status.revert_of_ne hst]⟩
    · simp [hback, Frame.cargo, Leg.takes, Leg.puts, List.count_cons]

theorem ConnectPoint.passage {id : EndpointId} {r : Endpoint} {a : Address} {p : ConnectPoint}
    (hs : s.Sound) (hb : (Frame.connect id a p).Below s below)
    (found : s.endpoints[id]? = some r) (h : p.move s t below id r a = .act g c ns) :
    Passes s (g s) (.running (.connect id a p :: below)) c ns := by
  have hg : s.Grows (g s) := grows_of_move h
  obtain rfl := hb.eq_nil rfl
  cases p <;> simp [ConnectPoint.move] at h
  case takeStatus =>
    obtain ⟨-, rfl, rfl, rfl⟩ := h
    exact .idle hs hg (s.calm_takeLock _ _) rfl (by simp [Frame.cargo])
  case begin =>
    split at h <;> simp at h <;> obtain ⟨rfl, rfl, rfl⟩ := h
    · rename_i st hst
      refine .setStatus .begin hs found ?_ trivial (fun _ => rfl) ⟨rfl, rfl⟩ trivial fun x => ?_
      · unfold Status.beginConnect at hst
        split at hst
        · rename_i hopen
          obtain rfl := Except.ok.inj hst
          exact ⟨by rw [hopen], rfl⟩
        · cases hst
      · simp [Frame.cargo, Leg.takes, Leg.puts, List.count_cons]
    · exact .idle hs hg (s.calm_giveLock _) rfl (by simp [Frame.cargo])
  case count =>
    obtain ⟨rfl, rfl, rfl⟩ := h
    have hm : s.Calm (s.modifyFactory r.factory fun f =>
        f.modifyBoss fun b => { b with attempts := b.attempts + 1 }) :=
      s.calm_modifyFactory _ fun f st => by rw [Factory.loop?_modifyBoss]; exact fun b => rfl
    refine .of_sameQueues .acknowledge id hs hg hm.bindings hm.queues (fun x => ?_) rfl
      (fun _ _ => rfl) trivial (fun _ => rfl) (fun e => ?_) (fun e => ?_) ⟨a, [], rfl⟩
    · simp [Frame.cargo, Leg.takes, Leg.puts, List.count_cons]
    · simp [Leg.takes]
    · simp [Leg.takes]
  all_goals
    obtain ⟨rfl, rfl, rfl⟩ := h
    exact .idle hs hg (.refl s) rfl (by simp [Frame.cargo, SubmitPoint.stages, Job.endpoint])

theorem ClosePoint.passage {id : EndpointId} {r : Endpoint} {p : ClosePoint} (hs : s.Sound)
    (hb : (Frame.close id p).Below s below) (found : s.endpoints[id]? = some r)
    (h : p.move s t below id r = .act g c ns) :
    Passes s (g s) (.running (.close id p :: below)) c ns := by
  have hg : s.Grows (g s) := grows_of_move h
  obtain rfl := hb.eq_nil rfl
  cases p <;> simp [ClosePoint.move] at h
  case takeStatus =>
    obtain ⟨-, rfl, rfl, rfl⟩ := h
    exact .idle hs hg (s.calm_takeLock _ _) rfl (by simp [Frame.cargo])
  case close =>
    obtain ⟨rfl, rfl, rfl⟩ := h
    refine .setStatus .close hs found ⟨by simp, ?_⟩ trivial (fun _ => rfl) ⟨rfl, rfl⟩ ⟨[], rfl⟩
      fun x => ?_
    · rw [Status.close_fst_state]
    · simp [Frame.cargo, Leg.takes, Leg.puts]

theorem ReleasePoint.passage {id : FactoryId} {f : Factory} {p : ReleasePoint} (hs : s.Sound)
    (hb : (Frame.release id p).Below s below) (h : p.move below id f = .act g c ns) :
    Passes s (g s) (.running (.release id p :: below)) c ns := by
  have hg : s.Grows (g s) := grows_of_move h
  obtain rfl := hb.eq_nil rfl
  cases p <;> simp [ReleasePoint.move] at h
  case raise =>
    obtain ⟨rfl, rfl, rfl⟩ := h
    refine .idle hs hg (s.calm_modifyFactory _ fun _ _ => rfl) rfl ?_
    split <;> simp [Frame.cargo]
  case signalWorkers i =>
    split at h <;> simp at h <;> obtain ⟨rfl, rfl, rfl⟩ := h
    all_goals exact .idle hs hg (.refl s) rfl (by simp [Frame.cargo])
  case terminate u =>
    split at h <;> simp at h <;> obtain ⟨rfl, rfl, rfl⟩ := h
    all_goals exact .idle hs hg (.refl s) rfl (by simp [Frame.cargo])
  all_goals
    obtain ⟨rfl, rfl, rfl⟩ := h
    exact .idle hs hg (.refl s) rfl (by simp [Frame.cargo])

/-- Nothing is queued for an endpoint that has just come about. -/
theorem Store.Sound.queued_enroll (hs : s.Sound) (f : FactoryId) (w : Nat) (n : UInt64)
    (e : EndpointId) (σ : Stage) : (s.enroll f w n).queued e σ = s.queued e σ := by
  by_cases he : e = s.endpoints.size
  · subst he
    -- a queued job is about an endpoint there is, and this one is not there yet
    have hzero (id : LoopId) : ((s.queue id).map Job.cargo).count (s.endpoints.size, σ) = 0 := by
      cases hl : s.loop? id with
      | none => simp [Store.queue, hl]
      | some l =>
        rw [Store.queue_eq hl]
        exact Store.count_cargo_eq_zero (hs.placed hl) (by simp) σ
    have hqueue (id : LoopId) : (s.enroll f w n).queue id = s.queue id := rfl
    have hold : s.waiting s.endpoints.size = [] := by simp [Store.waiting]
    rw [Store.queued, Store.queued, hold, Store.waiting, Store.enroll, Array.getElem?_push_size]
    simp only [List.map_append, List.count_append, ← Store.enroll.eq_1, hqueue, hzero]
    rfl
  · have hold : (s.enroll f w n).endpoints[e]? = s.endpoints[e]? := by
      rw [Store.enroll, Array.getElem?_push, if_neg he]
    rw [Store.queued, Store.queued, Store.waiting, Store.waiting, hold]
    rfl

/-- **An endpoint comes about**, a datagram endpoint with its registration on its
way. -/
theorem CreatePoint.passage_enroll {id : FactoryId} {f : Factory} {w : Nat} {n : UInt64}
    (hs : s.Sound) (found : s.factories[id]? = some f) :
    Passes s (s.enroll id w n) (.running [.create id (.enroll w n)])
      (.running [.create id (match f.flavor with
        | .client => .announce s.endpoints.size
        | .datagram => .submit s.endpoints.size)]) [] := by
  have hother {e : EndpointId} (he : e ≠ s.endpoints.size) :
      (s.enroll id w n).endpoints[e]? = s.endpoints[e]? := by
    rw [Store.enroll, Array.getElem?_push, if_neg he]
  -- the other endpoints keep their places, the new one comes last
  have hself : (s.enroll id w n).endpoints[s.endpoints.size]? = some ⟨id, w, n, .initial⟩ := by
    rw [Store.enroll, Array.getElem?_push_size]
  refine .of (.enroll f.flavor) s.endpoints.size (fun e σ => ?_) ⟨?_, ?_⟩ (fun e he => ?_) trivial
    ⟨?_, ?_⟩ (fun e he => ?_) (fun e => ?_) (fun e => ?_) trivial
  · rw [hs.queued_enroll]
    cases f.flavor <;> simp [Frame.cargo, Leg.takes, Leg.puts, List.count_cons, Nat.add_comm]
  · simp [Store.state?]
  · rw [Store.state?, hself]
    rfl
  · rw [Store.state?, Store.state?, hother he]
  · simp [Store.flavor?]
  · have hfac : (s.enroll id w n).factories[id]? = some f := found
    rw [Store.flavor?, hself, Option.bind_some, hfac, Option.map_some]
  · rw [Store.flavor?, Store.flavor?, hother he]
    rfl
  · simp [Leg.takes]
  · simp [Leg.takes]

theorem CreatePoint.passage {id : FactoryId} {f : Factory} {p : CreatePoint} (hs : s.Sound)
    (hb : (Frame.create id p).Below s below) (found : s.factories[id]? = some f)
    (h : p.move s below id f = .act g c ns) :
    Passes s (g s) (.running (.create id p :: below)) c ns := by
  have hg : s.Grows (g s) := grows_of_move h
  obtain rfl := hb.eq_nil rfl
  cases p <;> simp [CreatePoint.move] at h
  case readReleased =>
    obtain ⟨rfl, rfl, rfl⟩ := h
    refine .idle hs hg (.refl s) rfl ?_
    split <;> simp [Frame.cargo]
  case pickWorker =>
    obtain ⟨rfl, rfl, rfl⟩ := h
    exact .idle hs hg (s.calm_modifyFactory _ fun _ _ => rfl) rfl (by simp [Frame.cargo])
  case drawNumber w =>
    obtain ⟨rfl, rfl, rfl⟩ := h
    exact .idle hs hg (s.calm_modifyFactory _ fun _ _ => rfl) rfl (by simp [Frame.cargo])
  case count w n =>
    obtain ⟨rfl, rfl, rfl⟩ := h
    refine .idle hs hg (s.calm_modifyFactory _ fun f st => ?_) rfl (by simp [Frame.cargo])
    rw [Factory.loop?_modifyWorker]
    exact fun w => rfl
  case enroll w n =>
    obtain ⟨rfl, rfl, rfl⟩ := h
    exact passage_enroll hs found
  case submit e =>
    split at h <;> simp at h
    obtain ⟨rfl, rfl, rfl⟩ := h
    exact .idle hs hg (.refl s) rfl (by simp [Frame.cargo, SubmitPoint.stages, Job.endpoint])
  case announce e =>
    split at h <;> simp at h
    obtain ⟨rfl, rfl, rfl⟩ := h
    exact .idle hs hg (.refl s) rfl (by simp [Frame.cargo])
  all_goals
    obtain ⟨rfl, rfl, rfl⟩ := h
    exact .idle hs hg (.refl s) rfl (by simp [Frame.cargo])

end Procedures

/-! ## Threads -/

/-- **Every step is a leg for every endpoint.** -/
theorem Control.passes_of_act {s : Store} {t : ThreadId} {c c' : Control} {g : Store → Store}
    {ns : List Note} (hs : s.Sound) (hc : c.Sound s) (h : c.move s t = .act g c' ns) :
    Passes s (g s) c c' ns := by
  obtain ⟨fr, below, rfl, hm⟩ := moves_of_act h
  obtain ⟨hk, -, hb⟩ := hc
  cases hm with
  | start found hp => exact StartPoint.passage hs hb found hp
  | submit found hp => exact SubmitPoint.passage hs hk hb found hp
  | signal found hp => exact SignalPoint.passage hs hb hp
  | serve found hp => exact ServePoint.passage hs hk hb found hp
  | attempt found hp => exact AttemptPoint.passage hs hb hp
  | registration found hp => exact RegistrationPoint.passage hs hb found hp
  | drop found hp => exact DropPoint.passage hs hb found hp
  | create found hp => exact CreatePoint.passage hs hb found hp
  | connect found hp => exact ConnectPoint.passage hs hb found hp
  | close found hp => exact ClosePoint.passage hs hb found hp
  | release found hp => exact ReleasePoint.passage hs hb hp

/-- **An answer passes nothing on.** -/
theorem Control.cargo_of_ask {s : Store} {t : ThreadId} {c : Control} {r : Request}
    {after : r.Reply → Control} (reply : r.Reply) (h : c.move s t = .ask r after) :
    (after reply).cargo = c.cargo := by
  obtain ⟨fr, below, rfl, ha⟩ := asks h
  cases ha with
  | openNew found => cases reply <;> simp [Frame.cargo]
  | wakeSubmit => cases reply <;> cases ‹Job› <;> simp [Frame.cargo, SubmitPoint.stages]
  | wakeSignal => cases reply <;> simp [Frame.cargo]
  | _ => simp [Frame.cargo]

/-- A thread begins with nothing in its hands. -/
@[simp] theorem Operation.cargo_control (o : Operation) : o.control.cargo = [] := by
  cases o <;> rfl

end EndpointControl
