import EndpointControl.Proofs.Calls

/-!
# Every reachable machine is in order

The proof follows the procedures. A step within a procedure keeps what stands
below it; a call puts something on top of a procedure that waits for it; a return
lets the caller go on, with what the callee has to offer (`Control.sound_back`).
-/

namespace EndpointControl

/-! ## Going on, and coming back -/

namespace Frame

variable {s : Store} {below : List Frame} {fr fr' : Frame}

/-- What stands below a procedure does not depend on the point it has reached. -/
theorem Below.congr (hb : fr.Below s below) (hroot : fr.isRoot = fr'.isRoot)
    (hc : ∀ {caller}, Calls fr caller → Calls fr' caller) : fr'.Below s below := by
  cases below with
  | nil => exact hroot.symm.trans hb
  | cons caller rest => exact ⟨hc hb.1, hb.2⟩

theorem Below.submit {l : LoopId} {j : Job} {p p' : SubmitPoint}
    (hb : (Frame.submit l j p).Below s below) : (Frame.submit l j p').Below s below :=
  hb.congr rfl fun h => by cases h <;> constructor

theorem Below.signal {l : LoopId} {p p' : SignalPoint} (hb : (Frame.signal l p).Below s below) :
    (Frame.signal l p').Below s below :=
  hb.congr rfl fun h => by cases h; constructor

theorem Below.attempt {e : EndpointId} {a : Address} {p p' : AttemptPoint}
    (hb : (Frame.attempt e a p).Below s below) : (Frame.attempt e a p').Below s below :=
  hb.congr rfl fun h => by cases h; constructor

theorem Below.registration {e : EndpointId} {p p' : RegistrationPoint}
    (hb : (Frame.registration e p).Below s below) : (Frame.registration e p').Below s below :=
  hb.congr rfl fun h => by cases h; constructor

theorem Below.drop {e : EndpointId} {p p' : DropPoint} (hb : (Frame.drop e p).Below s below) :
    (Frame.drop e p').Below s below :=
  hb.congr rfl fun h => by cases h <;> constructor

/-- A start that has gone beyond its second look is not for a registration. -/
theorem Below.start {l : LoopId} {p p' : StartPoint} (hb : (Frame.start l p).Below s below)
    (h₁ : p ≠ .readShutDown) (h₂ : p ≠ .readStarted) : (Frame.start l p').Below s below :=
  hb.congr rfl fun h => by
    cases h with
    | startSubmit h => exact .startSubmit (.inl (by simpa [h₁, h₂] using h))
    | startCreate => exact .startCreate

/-- Nothing stands below a procedure that nobody called. -/
theorem Below.eq_nil (hb : fr.Below s below) (hr : fr.isRoot = true) : below = [] := by
  cases below with
  | nil => rfl
  | cons caller rest => cases hb.1 <;> simp [isRoot] at hr

/-- A procedure that is not called by clients or executors has a caller. -/
theorem Below.exists_caller (hb : fr.Below s below) (hr : fr.isRoot = false) :
    ∃ caller rest, below = caller :: rest ∧ Calls fr caller ∧ caller.Knows s
      ∧ caller.Below s rest := by
  cases below with
  | nil => exact absurd (hr.symm.trans hb) nofun
  | cons caller rest => exact ⟨caller, rest, rfl, hb⟩

/-- **What a procedure has to offer when it returns.** -/
def Offers (s : Store) (r : Except Failure Unit) : Frame → Prop
  | .start l _ => r = .ok () → s.Started l
  | .signal l _ => s.Told l.factory (l.seat.rank + 1)
  | _ => True

end Frame

/-- **When a procedure returns its caller goes on in order.** -/
theorem Control.sound_back {s : Store} {fr : Frame} {below : List Frame}
    {r : Except Failure Unit} (hb : fr.Below s below) (hroot : fr.isRoot = false)
    (ho : fr.Offers s r) : (Control.back below r).Sound s := by
  obtain ⟨caller, rest, rfl, hcall, hk, hrest⟩ := hb.exists_caller hroot
  cases hcall with
  | startSubmit =>
    cases r with
    | ok _ => exact ⟨⟨hk.1, ho rfl⟩, trivial, hrest.submit⟩
    | error _ => exact ⟨⟨hk.1, trivial⟩, trivial, hrest.submit⟩
  | startCreate =>
    obtain rfl := hrest.eq_nil rfl
    cases r with
    | ok _ => exact ⟨ho rfl, trivial, rfl⟩
    | error _ => exact ⟨trivial, trivial, rfl⟩
  | submitCreate =>
    obtain rfl := hrest.eq_nil rfl
    cases r with
    | ok _ => exact ⟨hk, trivial, rfl⟩
    | error _ => exact ⟨trivial, trivial, rfl⟩
  | submitConnect =>
    obtain rfl := hrest.eq_nil rfl
    cases r <;> exact ⟨hk, trivial, rfl⟩
  | submitAttempt => cases r <;> exact ⟨hk, trivial, hrest.attempt⟩
  | signalRelease => exact ⟨trivial, ho, hrest⟩
  | _ => exact ⟨hk, trivial, hrest⟩

/-! ## The procedures -/

section Procedures

variable {s : Store} {t : ThreadId} {below : List Frame} {g : Store → Store} {c : Control}
  {ns : List Note}

/-- A loop that has not been started is not started for a registration. -/
theorem Frame.Below.start_of_not_started {id : LoopId} {p p' : StartPoint} (hs : s.Sound)
    (hb : (Frame.start id p).Below s below) (h : ¬ s.Started id) :
    (Frame.start id p').Below s below := by
  obtain ⟨caller, rest, rfl, hcall, hk, hrest⟩ := hb.exists_caller rfl
  refine ⟨?_, hk, hrest⟩
  cases hcall with
  | @startSubmit _ _ j hj =>
    cases j with
    | attempt e a => exact .startSubmit (.inl ⟨e, a, rfl⟩)
    | registration e =>
      obtain ⟨r, hr, rfl⟩ := hk.1
      exact absurd (hs.bound hr) h
  | startCreate => exact .startCreate

theorem StartPoint.sound_of_act {id : LoopId} {l : Loop} {p : StartPoint} (hs : s.Sound)
    (hk : (Frame.start id p).Knows s) (hb : (Frame.start id p).Below s below)
    (found : s.loop? id = some l) (h : p.move s t below id l = .act g c ns) :
    (g s).Sound ∧ c.Sound (g s) := by
  have hg := grows_of_move h
  have hb' := hg.below hb
  cases p <;> simp [StartPoint.move] at h
  case readShutDown =>
    obtain ⟨rfl, rfl, -⟩ := h
    refine ⟨hs, ?_⟩
    split
    · exact Control.sound_back hb rfl (by rintro ⟨⟩)
    · exact ⟨trivial, trivial, hb.congr rfl fun h => by cases h <;> constructor; simp⟩
  case readStarted =>
    obtain ⟨rfl, rfl, -⟩ := h
    refine ⟨hs, ?_⟩
    split
    · exact Control.sound_back hb rfl fun _ => ⟨l, found, ‹_›⟩
    · -- an unstarted loop is started for an attempt or a creation, not for a registration
      refine ⟨trivial, trivial, hb.start_of_not_started hs ?_⟩
      rintro ⟨l', hl', hu⟩
      rw [found, Option.some.injEq] at hl'
      subst hl'
      contradiction
  case rereadShutDown =>
    obtain ⟨rfl, rfl, -⟩ := h
    refine ⟨hs, ?_, trivial, hb.start (by simp) (by simp)⟩
    split
    · rintro ⟨⟩
    · trivial
  case rereadStarted =>
    obtain ⟨rfl, rfl, -⟩ := h
    refine ⟨hs, ?_, trivial, hb.start (by simp) (by simp)⟩
    split
    · exact fun _ => ⟨l, found, ‹_›⟩
    · trivial
  case inspectSlot =>
    obtain ⟨rfl, rfl, -⟩ := h
    exact ⟨hs, by cases l.slot <;> trivial, trivial, hb.start (by simp) (by simp)⟩
  case takeSlot =>
    obtain ⟨-, rfl, rfl, -⟩ := h
    exact ⟨by simpa using hs, trivial, trivial, hb'.start (by simp) (by simp)⟩
  case fillSlot m =>
    obtain ⟨rfl, rfl, -⟩ := h
    refine ⟨hs.modifyLoop found ?_ ?_ ?_ ?_, trivial, trivial, hb'.start (by simp) (by simp)⟩
    · exact fun l => ⟨rfl, rfl, rfl, fun h => h, fun h => h, fun h => h⟩
    · exact fun j hj => .inl hj
    · exact fun hne => show l.started = true from hs.used found hne
    · exact .inl
  case mark =>
    obtain ⟨rfl, rfl, -⟩ := h
    refine ⟨hs.modifyLoop found ?_ ?_ ?_ ?_, ?_, trivial, hb'.start (by simp) (by simp)⟩
    · exact fun l => ⟨rfl, rfl, rfl, fun _ => rfl, fun h => h, fun h => h⟩
    · exact fun j hj => .inl hj
    · exact fun _ => rfl
    · exact .inl
    · exact ⟨_, Store.loop?_modifyLoop_self found .., rfl⟩
  case announce =>
    obtain ⟨rfl, rfl, -⟩ := h
    exact ⟨hs, fun _ => hk, trivial, hb.start (by simp) (by simp)⟩
  case leave r =>
    obtain ⟨rfl, rfl, -⟩ := h
    exact ⟨by simpa using hs, Control.sound_back hb' rfl fun hr => hg.started (hk hr)⟩

theorem SubmitPoint.sound_of_act {id : LoopId} {l : Loop} {j : Job} {p : SubmitPoint}
    (hs : s.Sound) (hk : (Frame.submit id j p).Knows s)
    (hb : (Frame.submit id j p).Below s below) (found : s.loop? id = some l)
    (h : p.move s t below id l j = .act g c ns) : (g s).Sound ∧ c.Sound (g s) := by
  have hg := grows_of_move h
  have hj := hg.placed hk.1
  have hb' := hg.below hb
  cases p <;> simp [SubmitPoint.move] at h
  case start =>
    obtain ⟨rfl, rfl, -⟩ := h
    exact ⟨hs, trivial, trivial, .startSubmit (by simp), hk, hb.submit⟩
  case readShutDown =>
    obtain ⟨rfl, rfl, -⟩ := h
    by_cases hd : l.shutDown = true
    · rw [if_pos hd]
      exact ⟨hs, ⟨hj, trivial⟩, trivial, hb.submit⟩
    · rw [if_neg hd]
      exact ⟨hs, hk, trivial, hb.submit⟩
  case takeSlot =>
    obtain ⟨-, rfl, rfl, -⟩ := h
    exact ⟨by simpa using hs, ⟨hj, hg.started hk.2⟩, trivial, hb'.submit⟩
  case readSlot =>
    obtain ⟨rfl, rfl, -⟩ := h
    exact ⟨by simpa using hs, ⟨hj, hg.started hk.2⟩, trivial, hb'.submit⟩
  case serialize m =>
    split at h <;> simp at h
    · obtain ⟨-, rfl, rfl, -⟩ := h
      exact ⟨by simpa using hs, ⟨hj, hg.started hk.2⟩, trivial, hb'.submit⟩
    · obtain ⟨rfl, rfl, -⟩ := h
      exact ⟨hs, hk, trivial, hb.submit⟩
  case takeQueue m =>
    obtain ⟨-, rfl, rfl, -⟩ := h
    exact ⟨by simpa using hs, ⟨hj, hg.started hk.2⟩, trivial, hb'.submit⟩
  case append m =>
    obtain ⟨rfl, rfl, -⟩ := h
    refine ⟨?_, ⟨hj, ?_⟩, trivial, hb'.submit⟩
    · rw [Store.Sound.giveLock_iff]
      refine hs.modifyLoop found ?_ ?_ ?_ ?_
      · exact fun l => ⟨rfl, rfl, rfl, fun h => h, fun h => h, fun h => h⟩
      · -- the queue holds what it held and the job of this call
        intro j' hj'
        rw [Array.toList_push, List.mem_append, List.mem_singleton] at hj'
        rcases hj' with hold | rfl
        · exact .inl hold
        · exact .inr hk.1
      · -- only a started loop gets as far as this
        intro _
        obtain ⟨l', hl', hu⟩ := hk.2
        exact Option.some.inj (found.symm.trans hl') ▸ hu
      · exact .inl
    · cases m <;> exact hg.started hk.2
  case wakeFailed cause =>
    obtain ⟨rfl, rfl, -⟩ := h
    exact ⟨hs, hk, trivial, hb.submit⟩
  case leave =>
    split at h <;> simp at h <;> obtain ⟨rfl, rfl, -⟩ := h
    · exact ⟨by simpa using hs, Control.sound_back hb' rfl trivial⟩
    · exact ⟨hs, Control.sound_back hb rfl trivial⟩
  case refuse e =>
    obtain ⟨rfl, rfl, -⟩ := h
    exact ⟨hs, hk.1.has, trivial, .dropSubmit, hk, hb.submit⟩
  case refused e =>
    obtain ⟨rfl, rfl, -⟩ := h
    exact ⟨hs, Control.sound_back hb rfl trivial⟩

theorem SignalPoint.sound_of_act {id : LoopId} {l : Loop} {p : SignalPoint} (hs : s.Sound)
    (hk : (Frame.signal id p).Knows s) (hb : (Frame.signal id p).Below s below)
    (found : s.loop? id = some l) (h : p.move s t below id l = .act g c ns) :
    (g s).Sound ∧ c.Sound (g s) := by
  have hg := grows_of_move h
  have hb' := hg.below hb
  have ht := hg.told hk.1
  cases p <;> simp [SignalPoint.move] at h
  case raise =>
    obtain ⟨rfl, rfl, -⟩ := h
    have hd : (s.modifyLoop id fun l => { l with shutDown := true }).ShutDown id :=
      ⟨_, Store.loop?_modifyLoop_self found .., rfl⟩
    -- raised by this call or found raised: from here on the loop counts as told
    refine ⟨hs.modifyLoop found ?_ ?_ ?_ ?_, ?_⟩
    · exact fun l => ⟨rfl, rfl, rfl, fun h => h, fun _ => rfl, fun h => h⟩
    · exact fun j hj => .inl hj
    · exact fun hne => show l.started = true from hs.used found hne
    · exact fun _ => .inr hk.1
    · split
      · exact Control.sound_back hb' rfl (ht.succ hd)
      · exact ⟨⟨ht, hd⟩, trivial, hb'.signal⟩
  case takeSlot =>
    obtain ⟨-, rfl, rfl, -⟩ := h
    exact ⟨by simpa using hs, ⟨ht, hg.shutDown hk.2⟩, trivial, hb'.signal⟩
  case readSlot =>
    obtain ⟨rfl, rfl, -⟩ := h
    exact ⟨hs, ⟨ht, by cases l.slot <;> exact hk.2⟩, trivial, hb.signal⟩
  case wakeFailed cause =>
    obtain ⟨rfl, rfl, -⟩ := h
    exact ⟨hs, hk, trivial, hb.signal⟩
  case giveSlot =>
    obtain ⟨rfl, rfl, -⟩ := h
    exact ⟨by simpa using hs, ⟨ht, hg.shutDown hk.2⟩, trivial, hb'.signal⟩
  case announce =>
    obtain ⟨rfl, rfl, -⟩ := h
    exact ⟨hs, Control.sound_back hb rfl (hk.1.succ hk.2)⟩

theorem ServePoint.sound_of_act {id : LoopId} {l : Loop} {m : Multiplexer} {p : ServePoint}
    (hs : s.Sound) (hk : (Frame.serve id m p).Knows s)
    (hb : (Frame.serve id m p).Below s below) (found : s.loop? id = some l)
    (h : p.move s t below id l m = .act g c ns) : (g s).Sound ∧ c.Sound (g s) := by
  -- a loop is all its thread does, so nothing stands below it
  obtain rfl := hb.eq_nil rfl
  have hg := grows_of_move h
  cases p
  case run batch n =>
    cases batch with
    | nil =>
      simp [ServePoint.move] at h
      obtain ⟨rfl, rfl, -⟩ := h
      exact ⟨hs, trivial, trivial, rfl⟩
    | cons j rest =>
      simp [ServePoint.move] at h
      obtain ⟨rfl, rfl, -⟩ := h
      -- the job runs above the loop, which keeps the rest of what it took
      have hj := (hk j List.mem_cons_self).has
      have hrest : (Frame.serve id m (.run rest (n + 1))).Knows s :=
        fun j' hj' => hk j' (List.mem_cons_of_mem j hj')
      cases j with
      | attempt e a => exact ⟨hs, hj, trivial, .attemptServe, hrest, rfl⟩
      | registration e => exact ⟨hs, hj, trivial, .registrationServe, hrest, rfl⟩
  case report n =>
    cases n <;> simp [ServePoint.move] at h <;> obtain ⟨rfl, rfl, -⟩ := h
    all_goals exact ⟨hs, trivial, trivial, rfl⟩
  case discard rest n =>
    cases rest with
    | nil =>
      simp [ServePoint.move] at h
      obtain ⟨rfl, rfl, -⟩ := h
      exact ⟨hs, hk.2, trivial, rfl⟩
    | cons j rest =>
      simp [ServePoint.move] at h
      obtain ⟨rfl, rfl, -⟩ := h
      have hrest : (Frame.serve id m (.discard rest n)).Knows s :=
        ⟨fun j' hj' => hk.1 j' (List.mem_cons_of_mem j hj'), hk.2⟩
      exact ⟨hs, (hk.1 j List.mem_cons_self).has, trivial, .dropServe, hrest, rfl⟩
  all_goals simp [ServePoint.move] at h
  case serialize =>
    split at h <;> simp at h
    · obtain ⟨-, rfl, rfl, -⟩ := h
      exact ⟨by simpa using hs, trivial, trivial, rfl⟩
    · obtain ⟨rfl, rfl, -⟩ := h
      exact ⟨hs, trivial, trivial, rfl⟩
  case takeQueue =>
    obtain ⟨-, rfl, rfl, -⟩ := h
    exact ⟨by simpa using hs, trivial, trivial, rfl⟩
  case takeQueueLast =>
    obtain ⟨-, rfl, rfl, -⟩ := h
    exact ⟨by simpa using hs, hg.shutDown hk, trivial, rfl⟩
  case takeBatch =>
    obtain ⟨rfl, rfl, -⟩ := h
    -- what is taken was queued, and what is queued is placed
    refine ⟨?_, fun j hj => hg.placed (hs.placed found j hj), trivial, rfl⟩
    rw [Store.Sound.giveLock_iff]
    refine hs.modifyLoop found ?_ (by simp) (by simp) .inl
    exact fun l => ⟨rfl, rfl, rfl, fun h => h, fun h => h, fun h => h⟩
  case takeRest =>
    obtain ⟨rfl, rfl, -⟩ := h
    have hrest : ∀ j ∈ l.queue.toList, j.Placed _ id := fun j hj => hg.placed (hs.placed found j hj)
    refine ⟨?_, ⟨hrest, hg.shutDown hk⟩, trivial, rfl⟩
    rw [Store.Sound.giveLock_iff]
    refine hs.modifyLoop found ?_ (by simp) (by simp) .inl
    exact fun l => ⟨rfl, rfl, rfl, fun h => h, fun h => h, fun h => h⟩
  case endTurn n =>
    split at h <;> simp at h <;> obtain ⟨rfl, rfl, -⟩ := h
    · exact ⟨by simpa using hs, trivial, trivial, rfl⟩
    · exact ⟨hs, trivial, trivial, rfl⟩
  case readShutDown =>
    obtain ⟨rfl, rfl, -⟩ := h
    by_cases hd : l.shutDown = true
    · rw [if_pos hd]
      exact ⟨hs, ⟨l, found, hd⟩, trivial, rfl⟩
    · rw [if_neg hd]
      exact ⟨hs, trivial, trivial, rfl⟩
  case markExited n =>
    obtain ⟨rfl, rfl, -⟩ := h
    refine ⟨hs.modifyLoop found ?_ ?_ ?_ .inl, hg.shutDown hk, trivial, rfl⟩
    · exact fun l => ⟨rfl, rfl, rfl, fun h => h, fun h => h, fun _ => rfl⟩
    · exact fun j hj => .inl hj
    · exact fun hne => show l.started = true from hs.used found hne
  case announceExit n =>
    obtain ⟨rfl, rfl, -⟩ := h
    exact ⟨hs, trivial⟩
  all_goals
    obtain ⟨rfl, rfl, -⟩ := h
    exact ⟨hs, trivial, trivial, rfl⟩

theorem AttemptPoint.sound_of_act {id : EndpointId} {e : Endpoint} {a : Address}
    {p : AttemptPoint} (hs : s.Sound) (hk : (Frame.attempt id a p).Knows s)
    (hb : (Frame.attempt id a p).Below s below) (found : s.endpoints[id]? = some e)
    (h : p.move below id e a = .act g c ns) : (g s).Sound ∧ c.Sound (g s) := by
  cases p <;> simp [AttemptPoint.move] at h <;> obtain ⟨rfl, rfl, -⟩ := h
  case submit => exact ⟨hs, ⟨⟨e, found, rfl⟩, trivial⟩, trivial, .submitAttempt, hk, hb.attempt⟩
  case drop => exact ⟨hs, hk, trivial, .dropAttempt, hk, hb.attempt⟩
  case leave => exact ⟨hs, Control.sound_back hb rfl trivial⟩
  all_goals exact ⟨hs, hk, trivial, hb.attempt⟩

theorem RegistrationPoint.sound_of_act {id : EndpointId} {e : Endpoint}
    {p : RegistrationPoint} (hs : s.Sound) (hk : (Frame.registration id p).Knows s)
    (hb : (Frame.registration id p).Below s below)
    (h : p.move s t below id e = .act g c ns) : (g s).Sound ∧ c.Sound (g s) := by
  have hg := grows_of_move h
  have hb' := hg.below hb
  have hk' : s.Has id → (g s).Has id := hg.has
  cases p <;> simp [RegistrationPoint.move] at h
  case takeStatus =>
    obtain ⟨-, rfl, rfl, -⟩ := h
    exact ⟨by simpa using hs, hk' hk, trivial, hb'.registration⟩
  case mark =>
    obtain ⟨rfl, rfl, -⟩ := h
    refine ⟨by simpa using hs.setStatus .., ?_⟩
    split
    · exact Control.sound_back hb' rfl trivial
    · exact ⟨hk' hk, trivial, hb'.registration⟩
  case count =>
    obtain ⟨rfl, rfl, -⟩ := h
    refine ⟨hs.modifyFactory _ ?_ ?_, hk' hk, trivial, hb'.registration⟩
    · exact fun f => Factory.grows_modifyWorker fun w => rfl
    · exact fun f st => by rw [Factory.loop?_modifyWorker]; exact fun w => rfl
  case announce =>
    obtain ⟨rfl, rfl, -⟩ := h
    exact ⟨hs, Control.sound_back hb rfl trivial⟩

theorem DropPoint.sound_of_act {id : EndpointId} {e : Endpoint} {p : DropPoint}
    (hs : s.Sound) (hk : (Frame.drop id p).Knows s) (hb : (Frame.drop id p).Below s below)
    (h : p.move s t below id e = .act g c ns) : (g s).Sound ∧ c.Sound (g s) := by
  have hg := grows_of_move h
  have hb' := hg.below hb
  have hk' : s.Has id → (g s).Has id := hg.has
  cases p <;> simp [DropPoint.move] at h
  case takeStatus =>
    obtain ⟨-, rfl, rfl, -⟩ := h
    exact ⟨by simpa using hs, hk' hk, trivial, hb'.drop⟩
  case revert =>
    obtain ⟨rfl, rfl, -⟩ := h
    exact ⟨by simpa using hs.setStatus .., Control.sound_back hb' rfl trivial⟩

theorem CreatePoint.sound_of_act {id : FactoryId} {f : Factory} {p : CreatePoint}
    (hs : s.Sound) (hk : (Frame.create id p).Knows s) (hb : (Frame.create id p).Below s below)
    (h : p.move s below id f = .act g c ns) : (g s).Sound ∧ c.Sound (g s) := by
  obtain rfl := hb.eq_nil rfl
  have hg := grows_of_move h
  cases p <;> simp [CreatePoint.move] at h
  case readReleased =>
    obtain ⟨rfl, rfl, -⟩ := h
    refine ⟨hs, ?_⟩
    split
    · trivial
    · exact ⟨trivial, trivial, rfl⟩
  case pickWorker =>
    obtain ⟨rfl, rfl, -⟩ := h
    refine ⟨hs.modifyFactory _ ?_ fun _ _ => rfl, trivial, trivial, rfl⟩
    exact fun f => ⟨rfl, rfl, rfl, rfl, fun h => h, fun hl => ⟨_, hl, .refl _⟩⟩
  case drawNumber w =>
    obtain ⟨rfl, rfl, -⟩ := h
    refine ⟨hs.modifyFactory _ ?_ fun _ _ => rfl, trivial, trivial, rfl⟩
    exact fun f => ⟨rfl, rfl, rfl, rfl, fun h => h, fun hl => ⟨_, hl, .refl _⟩⟩
  case start w n =>
    obtain ⟨rfl, rfl, -⟩ := h
    exact ⟨hs, trivial, trivial, .startCreate, trivial, rfl⟩
  case count w n =>
    obtain ⟨rfl, rfl, -⟩ := h
    refine ⟨hs.modifyFactory _ ?_ ?_, hg.started hk, trivial, rfl⟩
    · exact fun f => Factory.grows_modifyWorker fun w => rfl
    · exact fun f st => by rw [Factory.loop?_modifyWorker]; exact fun w => rfl
  case announceBound w n =>
    obtain ⟨rfl, rfl, -⟩ := h
    exact ⟨hs, hk, trivial, rfl⟩
  case enroll w n =>
    obtain ⟨rfl, rfl, -⟩ := h
    -- the new endpoint is the last one, in whichever state its flavor gives it
    have hnew : (s.enroll id w n).Has s.endpoints.size := ⟨_, Array.getElem?_push_size⟩
    refine ⟨hs.enroll n hk, ?_, trivial, rfl⟩
    cases f.flavor <;> exact hnew
  case submit e =>
    split at h <;> simp at h
    obtain ⟨rfl, rfl, -⟩ := h
    rename_i r hr
    exact ⟨hs, ⟨⟨r, hr, rfl⟩, trivial⟩, trivial, .submitCreate, hk, rfl⟩
  case announce e =>
    split at h <;> simp at h
    obtain ⟨rfl, rfl, -⟩ := h
    exact ⟨hs, trivial⟩
  case failed e =>
    obtain ⟨rfl, rfl, -⟩ := h
    exact ⟨hs, trivial⟩

theorem ConnectPoint.sound_of_act {id : EndpointId} {e : Endpoint} {a : Address}
    {p : ConnectPoint} (hs : s.Sound) (hk : (Frame.connect id a p).Knows s)
    (hb : (Frame.connect id a p).Below s below) (found : s.endpoints[id]? = some e)
    (h : p.move s t below id e a = .act g c ns) : (g s).Sound ∧ c.Sound (g s) := by
  obtain rfl := hb.eq_nil rfl
  have hg := grows_of_move h
  have hk' : (g s).Has id := hg.has ⟨e, found⟩
  cases p <;> simp [ConnectPoint.move] at h
  case takeStatus =>
    obtain ⟨-, rfl, rfl, -⟩ := h
    exact ⟨by simpa using hs, hk', trivial, rfl⟩
  case begin =>
    split at h <;> simp at h <;> obtain ⟨rfl, rfl, -⟩ := h
    · exact ⟨by simpa using hs.setStatus .., hk', trivial, rfl⟩
    · exact ⟨by simpa using hs, trivial⟩
  case submit =>
    obtain ⟨rfl, rfl, -⟩ := h
    exact ⟨hs, ⟨⟨e, found, rfl⟩, trivial⟩, trivial, .submitConnect, hk, rfl⟩
  case count =>
    obtain ⟨rfl, rfl, -⟩ := h
    refine ⟨hs.modifyFactory _ ?_ ?_, trivial⟩
    · exact fun f => Factory.grows_modifyBoss fun b => rfl
    · exact fun f st => by rw [Factory.loop?_modifyBoss]; exact fun b => rfl
  case failed err =>
    obtain ⟨rfl, rfl, -⟩ := h
    exact ⟨hs, trivial⟩

theorem ClosePoint.sound_of_act {id : EndpointId} {e : Endpoint} {p : ClosePoint}
    (hs : s.Sound) (hb : (Frame.close id p).Below s below)
    (h : p.move s t below id e = .act g c ns) : (g s).Sound ∧ c.Sound (g s) := by
  obtain rfl := hb.eq_nil rfl
  cases p <;> simp [ClosePoint.move] at h
  case takeStatus =>
    obtain ⟨-, rfl, rfl, -⟩ := h
    exact ⟨by simpa using hs, trivial, trivial, rfl⟩
  case close =>
    obtain ⟨rfl, rfl, -⟩ := h
    exact ⟨by simpa using hs.setStatus .., trivial⟩

/-- Beyond its last worker a factory has no loop left to tell. -/
theorem Store.Told.allTold {f : FactoryId} {fac : Factory} {i : Nat} (h : s.Told f (i + 1))
    (found : s.factories[f]? = some fac) (hi : ¬ i < fac.workers.size) : s.AllTold f := by
  refine fun n => ⟨h.1, fun st _ l hl => h.2 st ?_ l hl⟩
  cases st with
  | boss => exact Nat.succ_pos i
  | worker k =>
    have hk : (fac.loop? (.worker k)).isSome := by
      rw [loop?, found, Option.bind_some] at hl
      rw [hl, Option.isSome_some]
    rw [Factory.isSome_loop?, decide_eq_true_iff] at hk
    simp only [Seat.rank]
    omega

theorem ReleasePoint.sound_of_act {id : FactoryId} {f : Factory} {p : ReleasePoint}
    (hs : s.Sound) (hk : (Frame.release id p).Knows s) (hr : (Frame.release id p).Resumed s)
    (hb : (Frame.release id p).Below s below) (found : s.factories[id]? = some f)
    (h : p.move below id f = .act g c ns) : (g s).Sound ∧ c.Sound (g s) := by
  obtain rfl := hb.eq_nil rfl
  have hsome : s.factories[id]?.isSome := Option.isSome_iff_exists.mpr ⟨f, found⟩
  cases p <;> simp [ReleasePoint.move] at h
  case raise =>
    obtain ⟨rfl, rfl, -⟩ := h
    refine ⟨hs.modifyFactory _ ?_ fun _ _ => rfl, ?_⟩
    · exact fun f => ⟨rfl, rfl, rfl, rfl, fun _ => rfl, fun hl => ⟨_, hl, .refl _⟩⟩
    · split
      · trivial
      · exact ⟨trivial, trivial, rfl⟩
  case announce =>
    obtain ⟨rfl, rfl, -⟩ := h
    cases hf : f.boss with
    | some b => simpa [Factory.flavor, hf] using ⟨hs, trivial, trivial, rfl⟩
    | none =>
      simp only [Factory.flavor, hf]
      -- without a boss the workers are all there is to tell
      refine ⟨hs, trivial, ⟨hsome, fun st hst l hl => ?_⟩, rfl⟩
      obtain rfl : st = .boss := Seat.rank_inj (Nat.lt_one_iff.mp hst)
      simp [Store.loop?, found, Factory.loop?, hf] at hl
  case signalBoss =>
    obtain ⟨rfl, rfl, -⟩ := h
    exact ⟨hs, ⟨⟨hsome, fun st hst => absurd hst (Nat.not_lt_zero _)⟩, trivial⟩, trivial,
      .signalRelease (l := ⟨id, .boss⟩), trivial, rfl⟩
  case signalWorkers i =>
    split at h <;> simp at h <;> obtain ⟨rfl, rfl, -⟩ := h
    · exact ⟨hs, ⟨hr, trivial⟩, trivial, .signalRelease (l := ⟨id, .worker i⟩), trivial, rfl⟩
    · exact ⟨hs, hr.allTold found ‹_›, trivial, rfl⟩
  case announceWorkers =>
    obtain ⟨rfl, rfl, -⟩ := h
    exact ⟨hs, hk, trivial, rfl⟩
  case terminate u =>
    split at h <;> simp at h <;> obtain ⟨rfl, rfl, -⟩ := h
    all_goals exact ⟨hs, hk, trivial, rfl⟩
  case announceEnd =>
    obtain ⟨rfl, rfl, -⟩ := h
    exact ⟨hs, trivial⟩

end Procedures

/-! ## Answers -/

/-- **An answer leaves a thread in order.** -/
theorem Control.sound_of_ask {s : Store} {t : ThreadId} {c : Control} {r : Request}
    {after : r.Reply → Control} (reply : r.Reply) (hc : c.Sound s)
    (h : c.move s t = .ask r after) : (after reply).Sound s := by
  obtain ⟨fr, below, rfl, ha⟩ := asks h
  obtain ⟨hk, -, hb⟩ := hc
  cases ha with
  | openNew found =>
    cases reply with
    | ok m => exact ⟨trivial, trivial, hb.start nofun nofun⟩
    | error cause => exact ⟨nofun, trivial, hb.start nofun nofun⟩
  | execute found =>
    refine ⟨?_, trivial, hb.start nofun nofun⟩
    cases reply
    · exact nofun
    · trivial
  | wakeSubmit => cases reply <;> exact ⟨hk, trivial, hb.submit⟩
  | wakeSignal => cases reply <;> exact ⟨hk, trivial, hb.signal⟩
  | wait =>
    obtain rfl := hb.eq_nil rfl
    exact ⟨trivial, trivial, rfl⟩
  | shutDown | isMember | await =>
    obtain rfl := hb.eq_nil rfl
    exact ⟨hk, trivial, rfl⟩

/-! ## Machines -/

/-- **A step of a thread leaves it in order, and the store as well.** -/
theorem Control.sound_of_act {s : Store} {t : ThreadId} {c c' : Control} {g : Store → Store}
    {ns : List Note} (hs : s.Sound) (hc : c.Sound s) (h : c.move s t = .act g c' ns) :
    (g s).Sound ∧ c'.Sound (g s) := by
  obtain ⟨fr, below, rfl, hm⟩ := moves_of_act h
  obtain ⟨hk, hr, hb⟩ := hc
  cases hm with
  | start found hp => exact StartPoint.sound_of_act hs hk hb found hp
  | submit found hp => exact SubmitPoint.sound_of_act hs hk hb found hp
  | signal found hp => exact SignalPoint.sound_of_act hs hk hb found hp
  | serve found hp => exact ServePoint.sound_of_act hs hk hb found hp
  | attempt found hp => exact AttemptPoint.sound_of_act hs hk hb found hp
  | registration found hp => exact RegistrationPoint.sound_of_act hs hk hb hp
  | drop found hp => exact DropPoint.sound_of_act hs hk hb hp
  | create found hp => exact CreatePoint.sound_of_act hs hk hb hp
  | connect found hp => exact ConnectPoint.sound_of_act hs hk hb found hp
  | close found hp => exact ClosePoint.sound_of_act hs hb hp
  | release found hp => exact ReleasePoint.sound_of_act hs hk hr hb found hp

/-- **Every reachable machine is in order**, its store and all its threads. -/
theorem Machine.Reachable.sound {m : Machine} (h : m.Reachable) :
    m.store.Sound ∧ ∀ t c, m.control? t = some c → c.Sound m.store :=
  h.invariant (P := Store.Sound) (Q := fun s c => c.Sound s) .empty (fun _ b hs => hs.build b)
    (fun hg => hg.control) Control.sound_of_act (fun reply _ => Control.sound_of_ask reply)
    (fun _ o => by cases o <;> exact ⟨trivial, trivial, rfl⟩)
    (fun _ _ _ => ⟨trivial, trivial, rfl⟩)

end EndpointControl
