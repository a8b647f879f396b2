import EndpointControl.Proofs.Ordering

/-!
# While only the loops run

Between two operations of clients nobody moves but the threads of loops. What is
done on such a thread is little (`Frame.isLoopWork`): a loop runs and drops its
jobs, and a boss takes endpoints to workers. So no loop is started or told to end,
no endpoint comes about, and nobody is accepted; jobs come to workers only
(`Machine.LoopsRun.pushed_boss`). All that happens to an endpoint is that its
attempt is taken back or that it is registered, and of these the first that
changes it is the last (`Machine.LoopsRun.becomes`).
-/

namespace EndpointControl

/-! ## On the thread of a loop -/

/-- **What is done on the thread of a loop.** A worker to which an endpoint is taken has
been started before, so nobody gets beyond the second look at it. -/
def Frame.isLoopWork : Frame → Bool
  | .serve .. | .attempt .. | .registration .. | .drop .. | .submit _ (.registration _) _
  | .start _ .readShutDown | .start _ .readStarted => true
  | _ => false

section Procedures

variable {s : Store} {t : ThreadId} {fr : Frame} {below : List Frame} {g : Store → Store}
  {c c' : Control} {ns : List Note} {e : EndpointId} {l : LoopId}

/-- **The thread of a loop carries out no operation.** -/
theorem Frame.Below.operation?_eq_none (hb : fr.Below s below)
    (h : (Control.running (fr :: below)).serves?.isSome) :
    (Control.running (fr :: below)).operation? = none := by
  induction below generalizing fr with
  | nil => cases fr <;> first | rfl | cases h
  | cons caller rest ih =>
    -- only the procedure at the bottom can be a loop, or what a client has called
    have hroot : fr.isRoot = false := by cases hb.1 <;> rfl
    rw [Control.serves?_cons, Frame.served?_of_not_root hroot, Option.none_or] at h
    have hcaller := ih hb.2.2 h
    rw [Control.operation?, List.findSome?_cons, Frame.operation?_of_not_root hroot]
    exact hcaller

theorem Control.Sound.operation?_eq_none (hc : c.Sound s) (h : c.serves?.isSome) :
    c.operation? = none := by
  match c, hc with
  | .finished _, _ => rfl
  | .running (_ :: _), hc => exact hc.2.2.operation?_eq_none h

/-- **Only the work of a loop is done on its thread.** -/
theorem Control.Sound.isLoopWork (hc : (Control.running (fr :: below)).Sound s)
    (h : (Control.running (fr :: below)).serves?.isSome) : fr.isLoopWork = true := by
  obtain ⟨-, -, hb⟩ := hc
  have hop := hb.operation?_eq_none h
  cases below with
  | nil =>
    cases fr with
    | serve => rfl
    | _ => cases h
  | cons caller rest =>
    obtain ⟨hcall, -, hrest⟩ := hb
    -- whatever else can stand on top stands on what a client has called
    cases hcall with
    | @startSubmit l p j hj =>
      obtain ⟨e, a, rfl⟩ | rfl | rfl := hj
      · obtain ⟨caller, rest, rfl, hcall, -⟩ := hrest.exists_caller rfl
        cases hcall
        cases hop
      · rfl
      · rfl
    | startCreate | submitCreate | submitConnect | signalRelease => cases hop
    | _ => rfl

/-- Nothing is offered to an executor on the thread of a loop. -/
theorem Control.Sound.ne_execute (hc : c.Sound s) (h : c.serves?.isSome) {q : Request}
    {after : q.Reply → Control} (hmove : c.move s t = .ask q after) (x : ExecutorId)
    (l : LoopId) (mux : Multiplexer) : q ≠ .execute x l mux := by
  rintro rfl
  obtain ⟨fr, below, rfl, ha⟩ := asks hmove
  cases ha
  cases hc.isLoopWork h

/-! ## What the loops leave alone -/

/-- **On the thread of a loop no loop is started.** -/
theorem Control.Sound.started_of_act (hc : c.Sound s) (h : c.serves?.isSome)
    (hmove : c.move s t = .act g c' ns) (hs : (g s).Started l) : s.Started l := by
  rcases (flags_of_act hmove).started l hs with hs | ⟨below, rfl⟩
  · exact hs
  · cases hc.isLoopWork h

/-- **Nor is one told to end.** -/
theorem Control.Sound.shutDown_of_act (hc : c.Sound s) (h : c.serves?.isSome)
    (hmove : c.move s t = .act g c' ns) (hs : (g s).ShutDown l) : s.ShutDown l := by
  rcases (flags_of_act hmove).shutDown l hs with hs | ⟨below, rfl⟩
  · exact hs
  · cases hc.isLoopWork h

/-- **What clients do is not counted there**, and no endpoint comes about. -/
theorem Control.Sound.counts_of_loop (hc : c.Sound s) (h : c.serves?.isSome)
    (hmove : c.move s t = .act g c' ns) :
    (∀ f, (g s).attempts f = s.attempts f) ∧ (∀ f w, (g s).assigned f w = s.assigned f w)
      ∧ s.SameBindings (g s) := by
  have hcounts := counts_of_act hmove
  refine ⟨hcounts.attempts_eq ?_, hcounts.assigned_eq ?_, hcounts.bindings ?_⟩
  all_goals
    intros
    rintro rfl
    cases hc.isLoopWork h

/-- **All that a loop queues are registrations.** -/
theorem Control.Sound.registration_of_pushed (hc : c.Sound s) (h : c.serves?.isSome)
    (hst : c.Stacked) (hmove : c.move s t = .act g c' ns) {j : Job} (hj : .pushed l j ∈ ns) :
    ∃ mo e below, c = .running (.submit l j (.append mo) :: below) ∧ j = .registration e := by
  obtain ⟨mo, below, rfl⟩ := append_of_pushed hst hmove hj
  cases j with
  | attempt => cases hc.isLoopWork h
  | registration e => exact ⟨mo, e, below, rfl, rfl⟩

/-- **An endpoint, and what a loop can make of it**: the same, one whose attempt has been
taken back, or one that has been registered. -/
inductive Store.Serviced (s s' : Store) (c : Control) (e : EndpointId) (r : Endpoint) : Prop where
  /-- Nothing happens to it. -/
  | kept (h : s'.endpoints[e]? = some r)
  /-- Its attempt is taken back. -/
  | reverted (h : s'.endpoints[e]? = some { r with status := r.status.revert })
  /-- It is registered. -/
  | registered {below : List Frame} (hc : c = .running (.registration e .mark :: below))
    (h : s'.endpoints[e]? = some { r with status := r.status.register.1 })

/-- An endpoint has the status that is set, and the others keep theirs. -/
theorem Store.endpoints_setStatus {r : Endpoint} (hr : s.endpoints[e]? = some r)
    (e' : EndpointId) (st : Status) : (s.setStatus e' st).endpoints[e]?
      = some (if e' = e then { r with status := st } else r) := by
  rw [Store.setStatus, Array.getElem?_modify, hr]
  split <;> rfl

/-- Submitting changes no endpoint. -/
theorem SubmitPoint.endpoints_of_move {lp : Loop} {j : Job} {p : SubmitPoint} {below : List Frame}
    (h : p.move s t below l lp j = .act g c' ns) : (g s).endpoints = s.endpoints := by
  cases p <;> simp [SubmitPoint.move] at h
  case append => rw [h.1]; rfl
  case serialize => split at h <;> simp at h <;> simp [h, Store.takeLock]
  case leave => split at h <;> simp at h <;> simp [h, Store.giveLock]
  all_goals simp [h, Store.takeLock, Store.giveLock]

/-- Running a loop changes no endpoint: its jobs do. -/
theorem ServePoint.endpoints_of_move {lp : Loop} {mux : Multiplexer} {p : ServePoint}
    {below : List Frame} (h : p.move s t below l lp mux = .act g c' ns) :
    (g s).endpoints = s.endpoints := by
  by_cases htake : p ≠ .takeBatch ∧ p ≠ .takeRest
  · exact (ServePoint.calm_of_move htake h).endpoints
  · obtain rfl | rfl : p = .takeBatch ∨ p = .takeRest := by
      by_contra hne
      exact htake (not_or.mp hne)
    all_goals
      simp [ServePoint.move] at h
      rw [h.1]
      rfl

theorem AttemptPoint.endpoints_of_move {r : Endpoint} {a : Address} {p : AttemptPoint}
    {below : List Frame} (h : p.move below e r a = .act g c' ns) :
    (g s).endpoints = s.endpoints := by
  cases p <;> simp [AttemptPoint.move] at h <;> simp [h]

/-- **What is done with an endpoint on the thread of a loop.** -/
theorem Control.Sound.serviced (hc : c.Sound s) (h : c.serves?.isSome)
    (hmove : c.move s t = .act g c' ns) {r : Endpoint} (hr : s.endpoints[e]? = some r) :
    s.Serviced (g s) c e r := by
  obtain ⟨fr, below, rfl, hmoves⟩ := moves_of_act hmove
  have hwork := hc.isLoopWork h
  have hkept (heq : (g s).endpoints = s.endpoints) :
      s.Serviced (g s) (.running (fr :: below)) e r := .kept (heq ▸ hr)
  cases hmoves with
  | create | connect | close | release | signal => cases hwork
  | start _ hp => exact hkept (StartPoint.calm_of_move hp).endpoints
  | submit _ hp => exact hkept (SubmitPoint.endpoints_of_move hp)
  | serve _ hp => exact hkept (ServePoint.endpoints_of_move hp)
  | attempt _ hp => exact hkept (AttemptPoint.endpoints_of_move hp)
  | @registration e' r' p found hp =>
    cases p <;> simp [RegistrationPoint.move] at hp
    case mark =>
      rw [hp.1]
      by_cases he : e' = e
      · subst he
        obtain rfl := Option.some.inj (hr.symm.trans found)
        exact .registered rfl (by simp [Store.giveLock, Store.endpoints_setStatus hr])
      · exact .kept (by simp [Store.giveLock, Store.endpoints_setStatus hr, he])
    all_goals exact hkept (by simp [hp, Store.takeLock, Store.modifyFactory])
  | @drop e' r' p found hp =>
    cases p <;> simp [DropPoint.move] at hp
    case revert =>
      rw [hp.1]
      by_cases he : e' = e
      · subst he
        obtain rfl := Option.some.inj (hr.symm.trans found)
        exact .reverted (by simp [Store.giveLock, Store.endpoints_setStatus hr])
      · exact .kept (by simp [Store.giveLock, Store.endpoints_setStatus hr, he])
    case takeStatus => exact hkept (by simp [hp, Store.takeLock])

end Procedures

/-! ## Schedules of the loops -/

/-- **What a status can become on the threads of loops**: it stays, or it is taken back, or
the endpoint is registered. -/
def Status.Becomes (st st' : Status) : Prop :=
  st' = st ∨ st' = st.revert ∨ st' = st.register.1

namespace Status.Becomes

variable {st st' : Status}

/-- What has been taken back or registered is not taken back again. -/
theorem revert (h : st.Becomes st') : st.Becomes st'.revert := by
  obtain ⟨state, remote⟩ := st
  rcases h with rfl | rfl | rfl
  · exact .inr (.inl rfl)
  · exact .inr (.inl (Status.revert_revert _))
  · refine .inr (.inr (Status.revert_of_ne ?_))
    cases state <;> exact nofun

/-- **What has been taken back is not registered**, if it cannot be. -/
theorem register (h : st.Becomes st') (hopen : st.state = .connecting → st'.state ≠ .opened) :
    st.Becomes st'.register.1 := by
  obtain ⟨state, remote⟩ := st
  rcases h with rfl | rfl | rfl
  · exact .inr (.inr rfl)
  · cases state with
    | connecting => exact absurd rfl (hopen rfl)
    | _ => exact .inr (.inr rfl)
  · cases state <;> exact .inr (.inr rfl)

/-- What is closed stays closed. -/
theorem eq_of_closed (h : st.Becomes st') (hst : st.state = .closed) : st' = st := by
  obtain ⟨state, remote⟩ := st
  cases hst
  rcases h with rfl | rfl | rfl <;> rfl

/-- **An endpoint that is registered or closed in the end** has been registered if it could
be. -/
theorem eq_register (h : st.Becomes st') (hst : st'.state = .registered ∨ st'.state = .closed) :
    st' = st.register.1 := by
  obtain ⟨state, remote⟩ := st
  rcases h with rfl | rfl | rfl
  · rcases hst with rfl | rfl <;> rfl
  · cases state <;> simp [Status.revert] at hst <;> rfl
  · rfl

/-- **An endpoint that is neither connecting in the end nor newly registered** has its
attempt taken back if there was one. -/
theorem eq_revert (h : st.Becomes st') (hconnecting : st'.state ≠ .connecting)
    (hregistered : st'.state = .registered → st.state = .registered) : st' = st.revert := by
  obtain ⟨state, remote⟩ := st
  rcases h with rfl | rfl | rfl
  · exact (Status.revert_of_ne hconnecting).symm
  · rfl
  · cases state with
    | closed | registered => rfl
    | opened | connecting => cases hregistered rfl

end Status.Becomes

namespace Machine

variable {m m' : Machine} {is js : List Incident} {t : ThreadId} {e : EndpointId} {l : LoopId}
  {f : FactoryId} {w : Nat}

/-- **Only the loops run**: whoever moves is the thread of one, in whatever order and
whatever they are answered. -/
inductive LoopsRun (m : Machine) : List Incident → Machine → Prop where
  /-- Nothing happens. -/
  | refl : LoopsRun m [] m
  /-- The thread of a loop moves. -/
  | advance {js : List Incident} {m' m'' : Machine} {t : ThreadId} {c : Control} {l : LoopId}
    {h : Happening} (r : LoopsRun m js m') (hc : m'.control? t = some c)
    (hl : c.serves? = some l) (a : m'.Advance (.stepped t h) m'') :
    LoopsRun m (js ++ [.stepped t h]) m''

namespace LoopsRun

theorem leads (h : m.LoopsRun js m') : m.Leads js m' := by
  induction h with
  | refl => exact .refl
  | advance _ _ _ a ih => exact ih.advance a

theorem run (h : m.LoopsRun js m') (r : Run is m) : Run (is ++ js) m' := r.leads h.leads

/-- **Induction over a schedule of the loops.** A loop that asks for something is answered,
and no thread comes about. -/
theorem induction {motive : List Incident → Machine → Prop} (r : Run is m) (refl : motive [] m)
    (act : ∀ {js m' t c g c' ns}, m.LoopsRun js m' → motive js m' → m'.control? t = some c →
      c.serves?.isSome → c.move m'.store t = .act g c' ns →
      motive (js ++ [.stepped t (.acted ns)]) (m'.act t g c'))
    (answer : ∀ {js m' t c q} {after : q.Reply → Control} (reply : q.Reply),
      m.LoopsRun js m' → motive js m' → m'.control? t = some c → c.serves?.isSome →
      c.move m'.store t = .ask q after →
      motive (js ++ [.stepped t (.answered q reply)]) (m'.setControl t (after reply)))
    (h : m.LoopsRun js m') : motive js m' := by
  induction h with
  | refl => exact refl
  | @advance js m' m'' t c l h hrun hc hl a ih =>
    have hserves : c.serves?.isSome := by rw [hl]; rfl
    cases a with
    | act hc' hmove =>
      obtain rfl := Option.some.inj (hc.symm.trans hc')
      exact act hrun ih hc hserves hmove
    | @answer _ _ q after hc' hmove reply =>
      obtain rfl := Option.some.inj (hc.symm.trans hc')
      obtain heq | ⟨x, l', mux, hq, -⟩ := m'.answer_eq t q after reply
      · exact heq ▸ answer reply hrun ih hc hserves hmove
      · exact absurd hq (((hrun.run r).reachable.sound.2 t c hc).ne_execute hserves hmove x l' mux)

/-- **Whoever does not run a loop stays where they are**, and a loop runs to its end. -/
theorem places (h : m.LoopsRun js m') (r : Run is m) : ∀ {t c}, m'.control? t = some c →
    c.serves?.isSome ∨ (∃ o, c = .finished o) ∨ m.control? t = some c := by
  refine h.induction (motive := fun _ m' => ∀ {t c}, m'.control? t = some c →
    c.serves?.isSome ∨ (∃ o, c = .finished o) ∨ m.control? t = some c) r ?refl ?act ?answer
  case refl => exact fun hc => .inr (.inr hc)
  case act =>
    intro js m' t c g c' ns hrun ih hc hserves hmove t' d hd
    rw [control?_act] at hd
    split at hd
    · obtain ⟨-, -, rfl⟩ := Option.map_eq_some_iff.mp hd
      have hsound := (hrun.run r).reachable.sound.2 t c hc
      rcases Control.serves?_of_act hsound hmove with heq | ⟨hnone, hlast⟩
      · exact .inl (heq ▸ hserves)
      · obtain ⟨l, hl⟩ := Option.isSome_iff_exists.mp hserves
        obtain ⟨mux, n, rfl⟩ := hlast l hl
        cases Control.moves_of_running hmove with
        | serve _ hp =>
          simp [ServePoint.move] at hp
          exact .inr (.inl ⟨_, hp.2.1⟩)
    · exact ih hd
  case answer =>
    intro js m' t c q after reply hrun ih hc hserves hmove t' d hd
    rw [control?_setControl] at hd
    split at hd
    · obtain ⟨-, -, rfl⟩ := Option.map_eq_some_iff.mp hd
      exact .inl (Control.serves?_of_ask reply hmove ▸ hserves)
    · exact ih hd

/-! ## What the loops leave alone -/

theorem started_iff (h : m.LoopsRun js m') (r : Run is m) :
    m'.store.Started l ↔ m.store.Started l := by
  refine ⟨?_, h.leads.grows.started⟩
  refine h.induction (motive := fun _ m' => m'.store.Started l → m.store.Started l) r id
    (fun hrun ih hc hserves hmove hs => ?_) fun _ _ ih _ _ _ => ih
  exact ih (((hrun.run r).reachable.sound.2 _ _ hc).started_of_act hserves hmove hs)

theorem shutDown_iff (h : m.LoopsRun js m') (r : Run is m) :
    m'.store.ShutDown l ↔ m.store.ShutDown l := by
  refine ⟨?_, h.leads.grows.shutDown⟩
  refine h.induction (motive := fun _ m' => m'.store.ShutDown l → m.store.ShutDown l) r id
    (fun hrun ih hc hserves hmove hs => ?_) fun _ _ ih _ _ _ => ih
  exact ih (((hrun.run r).reachable.sound.2 _ _ hc).shutDown_of_act hserves hmove hs)

/-- **What clients do is not counted while only the loops run**, and no endpoint comes
about. -/
theorem counts (h : m.LoopsRun js m') (r : Run is m) :
    (∀ f, m'.store.attempts f = m.store.attempts f)
      ∧ (∀ f w, m'.store.assigned f w = m.store.assigned f w)
      ∧ m.store.SameBindings m'.store := by
  refine h.induction (motive := fun _ m' => (∀ f, m'.store.attempts f = m.store.attempts f)
    ∧ (∀ f w, m'.store.assigned f w = m.store.assigned f w) ∧ m.store.SameBindings m'.store) r
    ⟨fun _ => rfl, fun _ _ => rfl, fun _ => rfl⟩ (fun hrun ih hc hserves hmove => ?_)
    fun _ _ ih _ _ _ => ih
  obtain ⟨hattempts, hassigned, hbindings⟩ := ih
  obtain ⟨hattempts', hassigned', hbindings'⟩ :=
    ((hrun.run r).reachable.sound.2 _ _ hc).counts_of_loop hserves hmove
  exact ⟨fun f => (hattempts' f).trans (hattempts f),
    fun f w => (hassigned' f w).trans (hassigned f w),
    fun e => (hbindings' e).trans (hbindings e)⟩

/-! ## What comes into the queues -/

/-- **Loops queue nothing but registrations of stream endpoints.** -/
theorem of_mem_pushed (h : m.LoopsRun js m') (r : Run is m) : ∀ {j}, j ∈ pushed js l →
    ∃ e, j = .registration e ∧ m'.store.flavor? e = some .client := by
  refine h.induction (motive := fun js m' => ∀ {j}, j ∈ pushed js l →
    ∃ e, j = .registration e ∧ m'.store.flavor? e = some .client) r
    (fun hj => absurd hj List.not_mem_nil) ?act fun _ _ ih _ _ _ j hj =>
      ih (by simpa [Incident.notes] using hj)
  case act =>
    intro js m' t c g c' ns hrun ih hc hserves hmove j hj
    have r' := hrun.run r
    obtain ⟨hs, hsound⟩ := r'.reachable.sound
    have hkeep {e : EndpointId} (hfl : m'.store.flavor? e = some .client) :
        (g m'.store).flavor? e = some .client := by
      obtain ⟨q, hq, -⟩ := Option.bind_eq_some_iff.mp hfl
      exact (hs.flavor?_eq_of_some (Control.grows_of_move hmove) hq).trans hfl
    rw [pushed_append, List.mem_append] at hj
    rcases hj with hj | hj
    · obtain ⟨e, rfl, hfl⟩ := ih hj
      exact ⟨e, rfl, hkeep hfl⟩
    · have hn : .pushed l j ∈ ns := by simpa [Incident.notes] using mem_pushed.mp hj
      obtain ⟨mo, e, below, rfl, rfl⟩ := (hsound t c hc).registration_of_pushed hserves
        (r'.traffic.stacked t c hc) hmove hn
      refine ⟨e, rfl, hkeep ?_⟩
      -- a datagram endpoint is queued by whoever makes its channel
      have hcharged := r'.charged hc (e := e) (x := .admitted) rfl
      obtain ⟨q, hq, hhome⟩ := (hsound t _ hc).1.1
      obtain ⟨fac, hfac⟩ := hs.factory hq
      have hflavor : m'.store.flavor? e = some fac.flavor := by
        rw [Store.flavor?, hq, Option.bind_some, hfac, Option.map_some]
      cases hfl : fac.flavor with
      | client => rw [hflavor, hfl]
      | datagram =>
        have hcreate := hcharged.datagram l (Store.bound?_eq_some_iff.mpr ⟨q, hq, hhome⟩)
          (hflavor.trans (congrArg some hfl))
        rw [(hsound t _ hc).operation?_eq_none hserves] at hcreate
        cases hcreate

/-- **Nothing comes to a boss while only the loops run.** -/
theorem pushed_boss (h : m.LoopsRun js m') (r : Run is m) : pushed js ⟨f, .boss⟩ = [] := by
  refine List.eq_nil_iff_forall_not_mem.mpr fun j hj => ?_
  obtain ⟨e, rfl, -⟩ := h.of_mem_pushed r hj
  have hmem : Job.registration e ∈ pushed (is ++ js) ⟨f, .boss⟩ := by
    rw [pushed_append]
    exact List.mem_append_right _ hj
  obtain ⟨q, -, hhome⟩ := ((h.run r).placed_of_pushed hmem).1
  cases hhome

end LoopsRun

/-! ## What becomes of the endpoints -/

/-- **An open stream endpoint is not being registered.** -/
theorem Reachable.ne_opened_of_marking (hm : m.Reachable) {below : List Frame}
    (hc : m.control? t = some (.running (.registration e .mark :: below)))
    (hfl : m.store.flavor? e = some .client) : m.store.state? e ≠ some .opened := by
  intro hstate
  obtain ⟨is, r⟩ := hm
  -- it is on its way, but nothing is on its way for an open one
  have hle := weightOf_le_total (fun _ c => c.cargo.count (e, .travelling)) hc
  have hpos : 1 ≤ (m.account is e).tokens .travelling := by
    simp [Frame.cargo] at hle
    simp only [account, tokens]
    omega
  have horder := r.inOrder e
  rw [Account.InOrder, show (m.account is e).flavor = some .client from hfl] at horder
  have hopened : (m.account is e).state = some .opened := hstate
  rcases horder with h | h | h | h
  · have := h.travelling
    omega
  · rcases h.state with hst | hst <;> cases hopened.symm.trans hst
  · rcases h.state with hst | hst <;> cases hopened.symm.trans hst
  · have := h.travelling
    omega

/-- **While only the loops run, the first that changes an endpoint is the last**: its
attempt is taken back, or it is registered. -/
theorem LoopsRun.becomes (h : m.LoopsRun js m') (r : Run is m) {q : Endpoint}
    (hq : m.store.endpoints[e]? = some q)
    (hfl : q.status.state = .connecting → m.store.flavor? e = some .client) :
    ∃ st, m'.store.endpoints[e]? = some { q with status := st } ∧ q.status.Becomes st := by
  refine h.induction (motive := fun _ m' => ∃ st,
    m'.store.endpoints[e]? = some { q with status := st } ∧ q.status.Becomes st) r
    ⟨q.status, hq, .inl rfl⟩ ?act fun _ _ ih _ _ _ => ih
  case act =>
    intro js m' t c g c' ns hrun ih hc hserves hmove
    obtain ⟨st, hq', hst⟩ := ih
    have hm' := (hrun.run r).reachable
    cases (hm'.sound.2 t c hc).serviced hserves hmove hq' with
    | kept h => exact ⟨st, h, hst⟩
    | reverted h => exact ⟨st.revert, h, hst.revert⟩
    | @registered below heq h =>
      refine ⟨st.register.1, h, hst.register fun hconnecting hopened => ?_⟩
      subst heq
      have hclient : m'.store.flavor? e = some .client :=
        (r.reachable.sound.1.flavor?_eq_of_some hrun.leads.grows hq).trans (hfl hconnecting)
      refine hm'.ne_opened_of_marking hc hclient ?_
      rw [Store.state?, hq', Option.map_some, hopened]

end Machine

end EndpointControl
