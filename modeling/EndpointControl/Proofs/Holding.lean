import EndpointControl.Proofs.Traffic

/-!
# Who holds which lock

The locks of slots, of queues and of statuses are held briefly: a procedure that
has taken one calls nobody until it has given it back. So a thread holds at most
one of them, and which one can be read off the procedure on top of its stack
(`Control.grip`). Conversely the store has a thread down as the holder of a lock
exactly when that thread has it in its grip (`Machine.Traffic.holder?_eq_some_iff`),
so that no two threads stand between the taking and the giving back of one lock.

Turns of queueing and draining are kept across calls and are not looked at here.
-/

namespace EndpointControl

/-- The lock is held briefly, never across a call. -/
def Lock.isBrief : Lock → Bool
  | .registration _ => false
  | _ => true

/-- **The brief lock that a procedure holds at its point.** -/
def Frame.grip : Frame → Option Lock
  | .start l p =>
    match p with
    | .readShutDown | .readStarted | .takeSlot => none
    | _ => some (.slot l)
  | .submit l _ .readSlot => some (.slot l)
  | .submit l _ (.append _) => some (.queue l)
  | .signal l p =>
    match p with
    | .raise | .takeSlot | .announce => none
    | _ => some (.slot l)
  | .serve l _ .takeBatch | .serve l _ .takeRest => some (.queue l)
  | .connect e _ .begin | .registration e .mark | .drop e .revert | .close e .close =>
    some (.status e)
  | _ => none

/-- **The brief lock that a thread holds.** -/
def Control.grip : Control → Option Lock
  | .running (fr :: _) => fr.grip
  | _ => none

@[simp] theorem Control.grip_running (fr : Frame) (below : List Frame) :
    (Control.running (fr :: below)).grip = fr.grip := rfl

/-- **What one step does to the brief locks**, given what the thread held before it
and holds after it. -/
inductive Grips (s s' : Store) (t : ThreadId) : Option Lock → Option Lock → Prop where
  /-- Nothing. -/
  | kept {k : Option Lock}
    (h : ∀ k', k'.isBrief = true → s'.locks.holder? k' = s.locks.holder? k') : Grips s s' t k k
  /-- The thread takes one. -/
  | taken {k : Lock} (hb : k.isBrief = true) (free : s.locks.holder? k = none)
    (h : s'.locks = s.locks.take k t) : Grips s s' t none (some k)
  /-- The thread gives one back. -/
  | given {k : Lock} (hb : k.isBrief = true) (h : s'.locks = s.locks.give k) :
    Grips s s' t (some k) none

theorem Grips.of_locks {s s' : Store} {t : ThreadId} {k k' : Option Lock}
    (h : s'.locks = s.locks) (hk : k' = k) : Grips s s' t k k' :=
  hk ▸ .kept fun _ _ => by rw [h]

/-- Turns are not looked at. -/
theorem Grips.of_takeTurn {s : Store} {t : ThreadId} {k : Option Lock} {l : LoopId} :
    Grips s (s.takeLock (.registration l) t) t k k := by
  refine .kept fun k' hk' => ?_
  rw [Store.takeLock, LockTable.holder?_take, if_neg]
  rintro rfl
  exact absurd hk' nofun

theorem Grips.of_giveTurn {s : Store} {t : ThreadId} {k : Option Lock} {l : LoopId} :
    Grips s (s.giveLock (.registration l)) t k k := by
  refine .kept fun k' hk' => ?_
  rw [Store.giveLock, LockTable.holder?_give, if_neg]
  rintro rfl
  exact absurd hk' nofun

namespace Frame

variable {fr caller : Frame} {below : List Frame}

/-- A procedure that is just beginning holds no lock. -/
theorem grip_of_isNew (h : fr.isNew = true) : fr.grip = none := by
  cases fr with
  | start l p => cases p <;> first | rfl | exact absurd h nofun
  | submit l j p => cases p <;> first | rfl | exact absurd h nofun
  | signal l p => cases p <;> first | rfl | exact absurd h nofun
  | registration e p => cases p <;> first | rfl | exact absurd h nofun
  | drop e p => cases p <;> first | rfl | exact absurd h nofun
  | serve | connect | close => exact absurd h nofun
  | _ => rfl

/-- **Who has called somebody holds no lock**, also when the call returns. -/
theorem Awaits.grip_resume (h : caller.Awaits fr) (r : Except Failure Unit) :
    (caller.resume r).grip = none := by
  unfold Awaits at h
  split at h
  case h_11 => exact h.elim
  all_goals cases r <;> rfl

end Frame

theorem Control.grip_of_isNew {fr : Frame} (h : fr.isNew = true) :
    (Control.running [fr]).grip = none :=
  Frame.grip_of_isNew h

section Procedures

variable {s : Store} {t : ThreadId} {fr : Frame} {below : List Frame} {g : Store → Store}
  {c c' : Control} {ns : List Note}

theorem Frame.Stacked.grip_back (h : fr.Stacked below) (r : Except Failure Unit) :
    (Control.back below r).grip = none := by
  cases below with
  | nil => rfl
  | cons caller rest => exact h.1.grip_resume r

theorem StartPoint.grips {id : LoopId} {l : Loop} {p : StartPoint}
    (hc : (Frame.start id p).Stacked below) (h : p.move s t below id l = .act g c ns) :
    Grips s (g s) t (Frame.start id p).grip c.grip := by
  cases p <;> simp [StartPoint.move] at h
  case takeSlot =>
    obtain ⟨free, rfl, rfl, -⟩ := h
    exact .taken rfl free rfl
  case leave r =>
    obtain ⟨rfl, rfl, -⟩ := h
    rw [hc.grip_back]
    exact .given rfl rfl
  case readShutDown | readStarted =>
    obtain ⟨rfl, rfl, -⟩ := h
    refine .of_locks rfl ?_
    split
    · exact hc.grip_back _
    · rfl
  case rereadShutDown | rereadStarted | inspectSlot =>
    obtain ⟨rfl, rfl, -⟩ := h
    refine .of_locks rfl ?_
    rw [Control.grip_running]
    split <;> rfl
  all_goals
    obtain ⟨rfl, rfl, -⟩ := h
    exact .of_locks rfl rfl

theorem SubmitPoint.grips {id : LoopId} {l : Loop} {j : Job} {p : SubmitPoint}
    (hc : (Frame.submit id j p).Stacked below) (h : p.move s t below id l j = .act g c ns) :
    Grips s (g s) t (Frame.submit id j p).grip c.grip := by
  cases p <;> simp [SubmitPoint.move] at h
  case takeSlot | takeQueue =>
    obtain ⟨free, rfl, rfl, -⟩ := h
    exact .taken rfl free rfl
  case readSlot =>
    obtain ⟨rfl, rfl, -⟩ := h
    exact .given rfl rfl
  case append m =>
    obtain ⟨rfl, rfl, -⟩ := h
    cases m <;> exact .given rfl rfl
  case readShutDown =>
    obtain ⟨rfl, rfl, -⟩ := h
    refine .of_locks rfl ?_
    rw [Control.grip_running]
    split <;> rfl
  case serialize m =>
    split at h <;> simp at h
    · obtain ⟨-, rfl, rfl, -⟩ := h
      exact .of_takeTurn
    · obtain ⟨rfl, rfl, -⟩ := h
      exact .of_locks rfl rfl
  case leave =>
    split at h <;> simp at h <;> obtain ⟨rfl, rfl, -⟩ := h <;> rw [hc.grip_back]
    · exact .of_giveTurn
    · exact .of_locks rfl rfl
  case refused e =>
    obtain ⟨rfl, rfl, -⟩ := h
    exact .of_locks rfl (hc.grip_back _)
  all_goals
    obtain ⟨rfl, rfl, -⟩ := h
    exact .of_locks rfl rfl

theorem SignalPoint.grips {id : LoopId} {l : Loop} {p : SignalPoint}
    (hc : (Frame.signal id p).Stacked below) (h : p.move s t below id l = .act g c ns) :
    Grips s (g s) t (Frame.signal id p).grip c.grip := by
  cases p <;> simp [SignalPoint.move] at h
  case raise =>
    obtain ⟨rfl, rfl, -⟩ := h
    refine .of_locks rfl ?_
    split
    · exact hc.grip_back _
    · rfl
  case takeSlot =>
    obtain ⟨free, rfl, rfl, -⟩ := h
    exact .taken rfl free rfl
  case readSlot =>
    obtain ⟨rfl, rfl, -⟩ := h
    refine .of_locks rfl ?_
    rw [Control.grip_running]
    split <;> rfl
  case giveSlot =>
    obtain ⟨rfl, rfl, -⟩ := h
    exact .given rfl rfl
  case announce =>
    obtain ⟨rfl, rfl, -⟩ := h
    exact .of_locks rfl (hc.grip_back _)
  all_goals
    obtain ⟨rfl, rfl, -⟩ := h
    exact .of_locks rfl rfl

theorem ServePoint.grips {id : LoopId} {l : Loop} {m : Multiplexer} {p : ServePoint}
    (h : p.move s t below id l m = .act g c ns) :
    Grips s (g s) t (Frame.serve id m p).grip c.grip := by
  cases p
  case run batch n =>
    cases batch with
    | nil => simp [ServePoint.move] at h; obtain ⟨rfl, rfl, -⟩ := h; exact .of_locks rfl rfl
    | cons j rest =>
      simp [ServePoint.move] at h
      obtain ⟨rfl, rfl, -⟩ := h
      cases j <;> exact .of_locks rfl rfl
  case report n =>
    cases n <;> simp [ServePoint.move] at h <;> obtain ⟨rfl, rfl, -⟩ := h <;>
      exact .of_locks rfl rfl
  case discard rest n =>
    cases rest <;> simp [ServePoint.move] at h <;> obtain ⟨rfl, rfl, -⟩ := h <;>
      exact .of_locks rfl rfl
  all_goals simp [ServePoint.move] at h
  case serialize =>
    split at h <;> simp at h
    · obtain ⟨-, rfl, rfl, -⟩ := h
      exact .of_takeTurn
    · obtain ⟨rfl, rfl, -⟩ := h
      exact .of_locks rfl rfl
  case takeQueue | takeQueueLast =>
    obtain ⟨free, rfl, rfl, -⟩ := h
    exact .taken rfl free rfl
  case takeBatch | takeRest =>
    obtain ⟨rfl, rfl, -⟩ := h
    exact .given rfl rfl
  case endTurn n =>
    split at h <;> simp at h <;> obtain ⟨rfl, rfl, -⟩ := h
    · exact .of_giveTurn
    · exact .of_locks rfl rfl
  case readShutDown =>
    obtain ⟨rfl, rfl, -⟩ := h
    refine .of_locks rfl ?_
    rw [Control.grip_running]
    split <;> rfl
  all_goals
    obtain ⟨rfl, rfl, -⟩ := h
    exact .of_locks rfl rfl

theorem RegistrationPoint.grips {id : EndpointId} {r : Endpoint} {p : RegistrationPoint}
    (hc : (Frame.registration id p).Stacked below) (h : p.move s t below id r = .act g c ns) :
    Grips s (g s) t (Frame.registration id p).grip c.grip := by
  cases p <;> simp [RegistrationPoint.move] at h
  case takeStatus =>
    obtain ⟨free, rfl, rfl, -⟩ := h
    exact .taken rfl free rfl
  case mark =>
    obtain ⟨rfl, rfl, -⟩ := h
    split
    · rw [hc.grip_back]
      exact .given rfl rfl
    · exact .given rfl rfl
  case count =>
    obtain ⟨rfl, rfl, -⟩ := h
    exact .of_locks rfl rfl
  case announce =>
    obtain ⟨rfl, rfl, -⟩ := h
    exact .of_locks rfl (hc.grip_back _)

theorem ConnectPoint.grips {id : EndpointId} {r : Endpoint} {a : Address} {p : ConnectPoint}
    (h : p.move s t below id r a = .act g c ns) :
    Grips s (g s) t (Frame.connect id a p).grip c.grip := by
  cases p <;> simp [ConnectPoint.move] at h
  case takeStatus =>
    obtain ⟨free, rfl, rfl, -⟩ := h
    exact .taken rfl free rfl
  case begin => split at h <;> simp at h <;> obtain ⟨rfl, rfl, -⟩ := h <;> exact .given rfl rfl
  all_goals
    obtain ⟨rfl, rfl, -⟩ := h
    exact .of_locks rfl rfl

/-- **A step takes one brief lock, gives one back, or does neither.** -/
theorem Control.grips_of_act (hc : c.Stacked) (h : c.move s t = .act g c' ns) :
    Grips s (g s) t c.grip c'.grip := by
  obtain ⟨fr, below, rfl, hm⟩ := moves_of_act h
  cases hm with
  | start found hp => exact StartPoint.grips hc hp
  | submit found hp => exact SubmitPoint.grips hc hp
  | signal found hp => exact SignalPoint.grips hc hp
  | serve found hp => exact ServePoint.grips hp
  | @attempt _ _ _ p found hp =>
    cases p <;> simp [AttemptPoint.move] at hp <;> obtain ⟨rfl, rfl, -⟩ := hp
    case leave => exact .of_locks rfl (hc.grip_back _)
    all_goals exact .of_locks rfl rfl
  | registration found hp => exact RegistrationPoint.grips hc hp
  | @drop _ _ p found hp =>
    cases p <;> simp [DropPoint.move] at hp
    · obtain ⟨free, rfl, rfl, -⟩ := hp
      exact .taken rfl free rfl
    · obtain ⟨rfl, rfl, -⟩ := hp
      rw [hc.grip_back]
      exact .given rfl rfl
  | @create _ _ p found hp =>
    cases p <;> simp [CreatePoint.move] at hp
    case readReleased =>
      obtain ⟨rfl, rfl, -⟩ := hp
      exact .of_locks rfl (by split <;> rfl)
    case enroll =>
      obtain ⟨rfl, rfl, -⟩ := hp
      exact .of_locks rfl (by rw [grip_running]; split <;> rfl)
    case submit | announce =>
      split at hp <;> simp at hp
      obtain ⟨rfl, rfl, -⟩ := hp
      exact .of_locks rfl rfl
    all_goals
      obtain ⟨rfl, rfl, -⟩ := hp
      exact .of_locks rfl rfl
  | connect found hp => exact ConnectPoint.grips hp
  | @close _ _ p found hp =>
    cases p <;> simp [ClosePoint.move] at hp
    · obtain ⟨free, rfl, rfl, -⟩ := hp
      exact .taken rfl free rfl
    · obtain ⟨rfl, rfl, -⟩ := hp
      exact .given rfl rfl
  | @release _ _ p found hp =>
    cases p <;> simp [ReleasePoint.move] at hp
    case raise =>
      obtain ⟨rfl, rfl, -⟩ := hp
      exact .of_locks rfl (by split <;> rfl)
    case announce =>
      obtain ⟨rfl, rfl, -⟩ := hp
      exact .of_locks rfl (by rw [grip_running]; split <;> rfl)
    case signalWorkers | terminate =>
      split at hp <;> simp at hp <;> obtain ⟨rfl, rfl, -⟩ := hp <;> exact .of_locks rfl rfl
    all_goals
      obtain ⟨rfl, rfl, -⟩ := hp
      exact .of_locks rfl rfl

/-- **Whoever asks keeps what it holds.** -/
theorem Control.grip_of_ask {q : Request} {after : q.Reply → Control} (reply : q.Reply)
    (h : c.move s t = .ask q after) : (after reply).grip = c.grip := by
  obtain ⟨fr, below, rfl, ha⟩ := asks h
  cases ha with
  | openNew | wakeSubmit | wakeSignal | execute => cases reply <;> rfl
  | _ => rfl

end Procedures

namespace Machine

variable {m : Machine} {is : List Incident} {t t' u : ThreadId} {c c' : Control} {k : Lock}

/-- The brief lock that the thread holds. -/
def grip? (m : Machine) (t : ThreadId) : Option Lock := (m.control? t).bind Control.grip

theorem grip?_eq (h : m.control? t = some c) : m.grip? t = c.grip := by
  rw [grip?, h, Option.bind_some]

theorem grip?_setControl (h : m.control? u = some c) (c' : Control) :
    (m.setControl u c').grip? t = if u = t then c'.grip else m.grip? t := by
  rw [grip?, control?_setControl]
  split
  · rename_i hut
    rw [← hut, h, Option.map_some, Option.bind_some]
  · rfl

/-- A thread that holds nothing makes no difference. -/
theorem grip?_spawn (home : Option ExecutorId) (hc : c.grip = none) :
    (m.spawn home c).grip? t = m.grip? t := by
  rw [grip?, control?_spawn]
  split
  · rename_i ht
    have hnone : m.control? t = none := by simp [control?, ht]
    rw [grip?, hnone, Option.bind_some, hc, Option.bind_none]
  · rfl

theorem grip?_answer {q : Request} {after : q.Reply → Control} (reply : q.Reply)
    (hc : m.control? u = some c) (hmove : c.move m.store u = .ask q after) :
    (m.answer u q after reply).grip? t = m.grip? t := by
  have hset : (m.setControl u (after reply)).grip? t = m.grip? t := by
    rw [grip?_setControl hc, Control.grip_of_ask reply hmove]
    split
    · rename_i hut
      rw [← hut, grip?_eq hc]
    · rfl
  rcases answer_eq m u q after reply with he | ⟨x, l, mux, -, he⟩ <;> rw [he]
  · exact hset
  · rw [grip?_spawn _ rfl, hset]

/-- **The locks agree with the grips after a step**, if they did before it. -/
theorem holder?_act_iff {g : Store → Store} (hc : m.control? u = some c)
    {κ κ' : Option Lock} (hgrips : Grips m.store (g m.store) u κ κ') (hκ : c.grip = κ)
    (hκ' : c'.grip = κ') (hb : k.isBrief = true)
    (ih : ∀ t, m.store.locks.holder? k = some t ↔ m.grip? t = some k) :
    (g m.store).locks.holder? k = some t ↔ (m.act u g c').grip? t = some k := by
  have hact : (m.act u g c').grip? t = if u = t then c'.grip else m.grip? t :=
    grip?_setControl (m := { m with store := g m.store }) hc c'
  have hu : m.grip? u = κ := (grip?_eq hc).trans hκ
  rw [hact, hκ']
  cases hgrips with
  | kept h =>
    rw [h k hb, ih]
    split
    · rename_i hut
      rw [← hut, hu]
    · rfl
  | @taken k₀ _ free h =>
    rw [h, LockTable.holder?_take]
    by_cases hk : k₀ = k
    · -- nobody had it before
      subst hk
      have hnone : m.grip? t ≠ some k₀ := fun ht => by simp [(ih t).mpr ht] at free
      by_cases hut : u = t <;> simp [hut, hnone]
    · rw [if_neg hk, ih]
      by_cases hut : u = t
      · rw [← hut, hu, if_pos rfl]
        simp [hk]
      · rw [if_neg hut]
  | @given k₀ _ h =>
    rw [h, LockTable.holder?_give]
    by_cases hk : k₀ = k
    · -- and nobody else had it
      subst hk
      rw [if_pos rfl]
      split
      · simp
      · rename_i hut
        refine iff_of_false (by rintro ⟨⟩) fun ht => hut ?_
        exact Option.some.inj (((ih u).mpr hu).symm.trans ((ih t).mpr ht))
    · rw [if_neg hk, ih]
      by_cases hut : u = t
      · rw [← hut, hu, if_pos rfl]
        simp [hk]
      · rw [if_neg hut]

/-- **A brief lock is held by the thread that has it in its grip**, and by no
other. -/
theorem Traffic.holder?_eq_some_iff (h : Traffic is m) (hb : k.isBrief = true) :
    m.store.locks.holder? k = some t ↔ m.grip? t = some k := by
  refine h.induction
    (motive := fun _ m => ∀ t, m.store.locks.holder? k = some t ↔ m.grip? t = some k)
    (fun t => by simp [Machine.empty, Store.empty, grip?, control?]) (fun h ih a t => ?advance)
    (fun home _ ih hnew t => ?use) t
  case use =>
    rw [store_spawn, ih, grip?_spawn _ (Control.grip_of_isNew hnew)]
  case advance =>
    cases a with
    | act hc hmove =>
      exact holder?_act_iff hc (Control.grips_of_act (h.stacked _ _ hc) hmove) rfl rfl hb ih
    | answer hc hmove reply => rw [store_answer, ih, grip?_answer reply hc hmove]
    | call home o => rw [store_spawn, ih, grip?_spawn _ (by cases o <;> rfl)]
    | build b => exact ih t

/-- **No two threads stand between the taking and the giving back of one lock.** -/
theorem Traffic.eq_of_grip (h : Traffic is m) (hb : k.isBrief = true) (hc : m.control? t = some c)
    (hc' : m.control? t' = some c') (hk : c.grip = some k) (hk' : c'.grip = some k) : t = t' := by
  have ht := (h.holder?_eq_some_iff hb).mpr ((grip?_eq hc).trans hk)
  have ht' := (h.holder?_eq_some_iff hb).mpr ((grip?_eq hc').trans hk')
  exact Option.some.inj (ht.symm.trans ht')

end Machine

end EndpointControl
