import EndpointControl.Proofs.Closing
import EndpointControl.Proofs.Looping

/-!
# The life of an endpoint

Four operations move the status of an endpoint, and clients, bosses, workers and
those who drop jobs call them in any order. `Control.alters_of_act` says what one
step makes of a status and where it is made. Two things are not in it and come from
the account of the endpoint, which knows what is on its way: that a stream endpoint
is not registered while it is open, and that a registered one bears the address of
the attempt that got through.

For the second, follow the address. An attempt writes it when it begins, and while no
attempt has been accepted the one that has begun is the only one in anybody's hands
(`Machine.Addressed.fresh`). Once it has been accepted the endpoint is connecting or
registered, so no other attempt can begin, and the address stays what it was until
the attempt is given up (`Machine.Addressed.live`); after that no other is accepted.

`Machine.Run.lifecycle` puts the pieces together.
-/

namespace EndpointControl

/-! ## What a step makes of a status -/

/-- The status of an endpoint. -/
def Store.status? (s : Store) (e : EndpointId) : Option Status := s.endpoints[e]?.map (·.status)

theorem Store.state?_eq (s : Store) (e : EndpointId) :
    s.state? e = (s.status? e).map (·.state) := by
  rw [state?, status?, Option.map_map]
  rfl

/-- **What one step makes of the status of an endpoint**, with the place where it is
made. -/
inductive Status.Alters (e : EndpointId) (c c' : Control) :
    Option Status → Option Status → Prop where
  /-- Nothing. -/
  | keep {o : Option Status} : Alters e c c' o o
  /-- The endpoint comes about. -/
  | enroll : Alters e c c' none (some .initial)
  /-- A client begins an attempt. -/
  | begin {a : Address} {r : Option Address} {below : List Frame}
    (hc : c = .running (.connect e a .begin :: below)) :
    Alters e c c' (some ⟨.opened, r⟩) (some ⟨.connecting, some a⟩)
  /-- An attempt is taken back. -/
  | revert {st : Status} : Alters e c c' (some st) (some st.revert)
  /-- A worker registers the endpoint. -/
  | register {st : Status} {below : List Frame}
    (hc : c = .running (.registration e .mark :: below)) :
    Alters e c c' (some st) (some st.register.1)
  /-- A client closes the endpoint and returns. -/
  | close {st : Status} {below : List Frame} (hc : c = .running (.close e .close :: below))
    (hc' : c' = .finished (.closed st.close.2)) : Alters e c c' (some st) (some st.close.1)

section Procedures

variable {s : Store} {t : ThreadId} {c c' : Control} {g : Store → Store} {ns : List Note}

/-- Setting a status makes the one endpoint's what is set. -/
theorem Store.status?_setStatus {r : Endpoint} {e' : EndpointId}
    (found : s.endpoints[e']? = some r) (st : Status) (k : Lock) (e : EndpointId) :
    ((s.setStatus e' st).giveLock k).status? e = if e' = e then some st else s.status? e := by
  show ((s.setStatus e' st).endpoints[e]?).map (·.status) = _
  by_cases he : e' = e
  · subst he
    rw [Store.endpoints_setStatus found, if_pos rfl, if_pos rfl]
    rfl
  · rw [setStatus, Array.getElem?_modify, if_neg he, if_neg he]
    rfl

theorem Store.status?_enroll (s : Store) (f : FactoryId) (w : Nat) (n : UInt64) (e : EndpointId) :
    (s.enroll f w n).status? e = if e = s.endpoints.size then some .initial else s.status? e := by
  rw [status?, enroll, Array.getElem?_push]
  split <;> rfl

/-- **A step that sets the status of one endpoint** is to be looked at for that one
only. -/
theorem Status.Alters.setStatus {r : Endpoint} {e' : EndpointId}
    (found : s.endpoints[e']? = some r) {st : Status} {k : Lock}
    (h : Alters e' c c' (some r.status) (some st)) (e : EndpointId) :
    Alters e c c' (s.status? e) (((s.setStatus e' st).giveLock k).status? e) := by
  rw [Store.status?_setStatus found]
  split
  · rename_i he
    subst he
    rwa [Store.status?, found]
  · exact .keep

/-- **What a step makes of the status of every endpoint.** -/
theorem Control.alters_of_act (h : c.move s t = .act g c' ns) (e : EndpointId) :
    Status.Alters e c c' (s.status? e) ((g s).status? e) := by
  obtain ⟨fr, below, rfl, hmoves⟩ := moves_of_act h
  have hkept (heq : (g s).endpoints = s.endpoints) :
      Status.Alters e (.running (fr :: below)) c' (s.status? e) ((g s).status? e) := by
    rw [Store.status?, Store.status?, heq]
    exact .keep
  cases hmoves with
  | start _ hp => exact hkept (StartPoint.calm_of_move hp).endpoints
  | submit _ hp => exact hkept (SubmitPoint.endpoints_of_move hp)
  | signal _ hp => exact hkept (SignalPoint.calm_of_move hp).endpoints
  | serve _ hp => exact hkept (ServePoint.endpoints_of_move hp)
  | attempt _ hp => exact hkept (AttemptPoint.endpoints_of_move hp)
  | @registration e' r p found hp =>
    cases p <;> simp [RegistrationPoint.move] at hp
    case mark =>
      rw [hp.1]
      exact Status.Alters.setStatus found (.register rfl) e
    all_goals exact hkept (by simp [hp, Store.takeLock, Store.modifyFactory])
  | @drop e' r p found hp =>
    cases p <;> simp [DropPoint.move] at hp
    case revert =>
      rw [hp.1]
      exact Status.Alters.setStatus found .revert e
    case takeStatus => exact hkept (by simp [hp, Store.takeLock])
  | @create f _ p _ hp =>
    cases p <;> simp [CreatePoint.move] at hp
    case enroll w n =>
      rw [hp.1]
      rw [Store.status?_enroll]
      split
      · rename_i he
        rw [he, Store.status?, Array.getElem?_eq_none (Nat.le_refl _)]
        exact .enroll
      · exact .keep
    case submit => split at hp <;> simp at hp; exact hkept (by simp [hp])
    case announce => split at hp <;> simp at hp; exact hkept (by simp [hp])
    all_goals exact hkept (by simp [hp, Store.modifyFactory])
  | @connect e' r a p found hp =>
    cases p <;> simp [ConnectPoint.move] at hp
    case begin =>
      cases hst : r.status with
      | mk st remote =>
        rw [hst] at hp
        cases st with
        | opened =>
          simp at hp
          rw [hp.1]
          exact Status.Alters.setStatus found (hst ▸ .begin rfl) e
        | connecting | registered | closed =>
          simp [Status.beginConnect] at hp
          exact hkept (by simp [hp, Store.giveLock])
    all_goals exact hkept (by simp [hp, Store.takeLock, Store.modifyFactory])
  | @close e' r p found hp =>
    cases p <;> simp [ClosePoint.move] at hp
    case close =>
      rw [hp.1]
      exact Status.Alters.setStatus found (.close rfl (by simp [hp])) e
    case takeStatus => exact hkept (by simp [hp, Store.takeLock])
  | @release _ _ p _ hp =>
    cases p <;> simp [ReleasePoint.move] at hp
    case signalWorkers => split at hp <;> simp at hp <;> exact hkept (by simp [hp])
    case terminate => split at hp <;> simp at hp <;> exact hkept (by simp [hp])
    all_goals exact hkept (by simp [hp, Store.modifyFactory])

end Procedures

/-! ## States and addresses -/

/-- **How the state of an endpoint may change**, given the flavor of its factory. -/
inductive State.Changes (fl : Option Flavor) : State → State → Prop where
  /-- An attempt begins. -/
  | begin : Changes fl .opened .connecting
  /-- An attempt is taken back. -/
  | revert : Changes fl .connecting .opened
  /-- An attempt gets through. -/
  | getThrough : Changes fl .connecting .registered
  /-- A datagram endpoint is registered. -/
  | register (h : fl = some .datagram) : Changes fl .opened .registered
  /-- The endpoint is closed. -/
  | close {st : State} (h : st ≠ .closed) : Changes fl st .closed

namespace Status

/-- **An open endpoint has no address, and a connecting one has one.** -/
def Coherent (st : Status) : Prop :=
  match st.state with
  | .opened => st.remote = none
  | .connecting => st.remote.isSome
  | .registered | .closed => True

variable {e : EndpointId} {c c' : Control} {st st' : Status}

theorem coherent_initial : initial.Coherent := rfl

theorem Alters.coherent (h : Alters e c c' (some st) (some st')) (hst : st.Coherent) :
    st'.Coherent := by
  obtain ⟨state, remote⟩ := st
  cases h with
  | keep => exact hst
  | begin => rfl
  | revert => cases state <;> first | rfl | exact hst
  | register => cases state <;> trivial
  | close => cases state <;> trivial

/-- **The address belongs to the attempt**: it stays what it is until the endpoint is
open again. -/
theorem Alters.remote_eq (h : Alters e c c' (some st) (some st')) (hst : st.state ≠ .opened)
    (hst' : st'.state ≠ .opened) : st'.remote = st.remote := by
  obtain ⟨state, remote⟩ := st
  cases h with
  | keep => rfl
  | begin => exact absurd rfl hst
  | revert => cases state <;> first | rfl | exact absurd rfl hst'
  | register => cases state <;> rfl
  | close => cases state <;> rfl

/-- **The state changes as it may**, if only datagram endpoints are registered while they
are open. -/
theorem Alters.changes (fl : Option Flavor) (h : Alters e c c' (some st) (some st'))
    (hfl : ∀ below, c = .running (.registration e .mark :: below) → st.state = .opened →
      fl = some .datagram) : st'.state = st.state ∨ st.state.Changes fl st'.state := by
  obtain ⟨state, remote⟩ := st
  cases h with
  | keep => exact .inl rfl
  | begin => exact .inr .begin
  | revert => cases state <;> first | exact .inl rfl | exact .inr .revert
  | register hc =>
    cases state with
    | opened => exact .inr (.register (hfl _ hc rfl))
    | connecting => exact .inr .getThrough
    | registered | closed => exact .inl rfl
  | close => cases state <;> first | exact .inl rfl | exact .inr (.close nofun)

end Status

namespace Machine

variable {m m' : Machine} {i : Incident} {is : List Incident} {e : EndpointId}

/-- **What one incident makes of the status of an endpoint**: nothing, unless a thread
acts. -/
theorem Advance.alters (a : m.Advance i m') (e : EndpointId) :
    m'.store.status? e = m.store.status? e
      ∨ ∃ t c g c' ns, m.control? t = some c ∧ c.move m.store t = .act g c' ns
        ∧ m' = m.act t g c' ∧ i = .stepped t (.acted ns)
        ∧ Status.Alters e c c' (m.store.status? e) (m'.store.status? e) := by
  cases a with
  | act hc hmove =>
    exact .inr ⟨_, _, _, _, _, hc, hmove, rfl, rfl, Control.alters_of_act hmove e⟩
  | answer => exact .inl (by rw [store_answer])
  | call | build => exact .inl rfl

/-- An endpoint that is there stays there. -/
theorem Advance.exists_status (a : m.Advance i m') {st : Status}
    (h : m.store.status? e = some st) : ∃ st', m'.store.status? e = some st' := by
  obtain ⟨r, hr, -⟩ := Option.map_eq_some_iff.mp h
  obtain ⟨st', hr'⟩ := a.grows.endpoint hr
  exact ⟨st', by rw [Store.status?, hr']; rfl⟩

/-- **Whatever holds of a new status and is kept by every change holds in every
history.** The changes are those of the history itself. -/
theorem Run.status_invariant {P : Status → Prop} (r : Run is m) (initial : P .initial)
    (alters : ∀ {js m t c c' st st'}, Run js m → js <+: is → m.control? t = some c →
      Status.Alters e c c' (some st) (some st') → P st → P st') {st : Status}
    (h : m.store.status? e = some st) : P st := by
  refine r.induction (motive := fun js m => js <+: is → ∀ st, m.store.status? e = some st → P st)
    (fun _ st h => by simp [Machine.empty, Store.empty, Store.status?] at h) ?advance
    (List.prefix_refl is) st h
  intro js m i m' r ih a hjs st' h
  have hjs' : js <+: is := (List.prefix_append js [i]).trans hjs
  rcases a.alters e with heq | ⟨t, c, g, c', ns, hc, -, -, -, halters⟩
  · exact ih hjs' st' (heq ▸ h)
  · rw [h] at halters
    generalize hold : m.store.status? e = old at halters
    cases old with
    | none => cases halters; exact initial
    | some st => exact alters r hjs' hc halters (ih hjs' st hold)

/-- **Open endpoints have no address, and connecting ones have one.** -/
theorem Run.coherent (r : Run is m) {st : Status} (h : m.store.status? e = some st) :
    st.Coherent :=
  r.status_invariant Status.coherent_initial (fun _ _ _ halters => halters.coherent) h

/-- What a thread carries out has been called. -/
theorem CarriesOut.called {t : ThreadId} {o : Operation} (h : CarriesOut is t o) :
    ∃ home, .called home o ∈ is := by
  obtain ⟨i, hi, ho⟩ := List.mem_flatMap.mp (List.mem_of_getElem? h)
  obtain ⟨n, hn⟩ := List.mem_iff_getElem?.mp ho
  obtain ⟨-, home, rfl⟩ := Incident.called_of_spawns hn
  exact ⟨home, hi⟩

/-- **Whoever stands in an operation carries it out.** -/
theorem Run.carriesOut (r : Run is m) {t : ThreadId} {stack : List Frame} {o : Operation}
    (hc : m.control? t = some (.running stack))
    (ho : (Control.running stack).operation? = some o) : CarriesOut is t o := by
  obtain ⟨o', ho', hfrom⟩ := r.originates.2 t _ hc
  rw [CarriesOut, ho', ← show Control.operation? _ = o' from hfrom, ho]

/-- **An endpoint that nobody connects has no address** and is never connecting. -/
theorem Run.unconnected (r : Run is m) (never : ∀ home a, .called home (.connect e a) ∉ is)
    {st : Status} (h : m.store.status? e = some st) :
    st.state ≠ .connecting ∧ st.remote = none := by
  refine r.status_invariant (P := fun st => st.state ≠ .connecting ∧ st.remote = none)
    ⟨nofun, rfl⟩ (fun {js m t c c' st st'} r hjs hc halters hst => ?_) h
  obtain ⟨state, remote⟩ := st
  cases halters with
  | keep => exact hst
  | begin hbegin =>
    -- whoever begins an attempt has been called to
    subst hbegin
    obtain ⟨home, hcalled⟩ := CarriesOut.called (r.carriesOut hc rfl)
    exact absurd (hjs.subset hcalled) (never _ _)
  | revert => cases state <;> first | exact absurd rfl hst.1 | exact hst
  | register => cases state <;> exact ⟨nofun, hst.2⟩
  | close => cases state <;> exact ⟨nofun, hst.2⟩

/-- An endpoint has the flavor of a factory. -/
theorem Reachable.flavor?_of_status (hm : m.Reachable) {st : Status}
    (h : m.store.status? e = some st) :
    m.store.flavor? e = some .client ∨ m.store.flavor? e = some .datagram := by
  obtain ⟨r, hr, -⟩ := Option.map_eq_some_iff.mp h
  obtain ⟨fac, hfac⟩ := hm.sound.1.factory hr
  rw [Store.flavor?, hr, Option.bind_some, hfac, Option.map_some]
  cases fac.flavor
  · exact .inl rfl
  · exact .inr rfl

/-- **Every change of a state is one of those that there are**, and a new endpoint is open. -/
theorem Run.changes (r : Run is m) (a : m.Advance i m') {st' : State}
    (h : m'.store.state? e = some st') :
    m.store.state? e = some st' ∨ (m.store.state? e = none ∧ st' = .opened)
      ∨ ∃ st, m.store.state? e = some st ∧ st.Changes (m.store.flavor? e) st' := by
  rcases a.alters e with heq | ⟨t, c, g, c', ns, hc, -, -, -, halters⟩
  · rw [Store.state?_eq, heq, ← Store.state?_eq] at h
    exact .inl h
  · rw [Store.state?_eq] at h ⊢
    obtain ⟨status', hstatus', rfl⟩ := Option.map_eq_some_iff.mp h
    rw [hstatus'] at halters
    generalize hold : m.store.status? e = old at halters
    cases old with
    | none => cases halters; exact .inr (.inl ⟨rfl, rfl⟩)
    | some status =>
      have hchanges := halters.changes (m.store.flavor? e) fun below hmark hopened => by
        -- a stream endpoint is on its way when it is registered, hence not open
        subst hmark
        refine (r.reachable.flavor?_of_status hold).resolve_left fun hclient => ?_
        refine r.reachable.ne_opened_of_marking hc hclient ?_
        rw [Store.state?_eq, hold, Option.map_some, hopened]
      rcases hchanges with hsame | hchanges
      · exact .inl (congrArg some hsame.symm)
      · exact .inr (.inr ⟨_, rfl, hchanges⟩)

theorem Run.closed_kept (r : Run is m) (a : m.Advance i m')
    (h : m.store.state? e = some .closed) : m'.store.state? e = some .closed := by
  rw [Store.state?_eq] at h
  obtain ⟨st, hst, hclosed⟩ := Option.map_eq_some_iff.mp h
  obtain ⟨st', hst'⟩ := a.exists_status hst
  have hstate : m'.store.state? e = some st'.state := by rw [Store.state?_eq, hst']; rfl
  rcases r.changes a hstate with hsame | ⟨hnone, -⟩ | ⟨st₀, hst₀, hchanges⟩
  · rw [hstate, ← hsame, Store.state?_eq, h]
  · cases (Store.state?_eq .. ▸ hnone).symm.trans h
  · obtain rfl := Option.some.inj ((Store.state?_eq .. ▸ hst₀).symm.trans h)
    generalize st'.state = state at hchanges
    cases hchanges
    contradiction

theorem Run.closed_leads (r : Run is m) {is' : List Incident} (h : m.Leads is' m')
    (hst : m.store.state? e = some .closed) : m'.store.state? e = some .closed := by
  induction h with
  | refl => exact hst
  | advance h a ih => exact (r.leads h).closed_kept a ih

/-- **A registered endpoint stays registered until it is closed.** -/
theorem Run.registered_leads (r : Run is m) {is' : List Incident} (h : m.Leads is' m')
    (hst : m.store.state? e = some .registered) :
    m'.store.state? e = some .registered ∨ m'.store.state? e = some .closed := by
  induction h with
  | refl => exact .inl hst
  | @advance is' m' m'' i h a ih =>
    rcases ih with ih | ih
    · obtain ⟨st, hst, -⟩ := Option.map_eq_some_iff.mp (Store.state?_eq .. ▸ ih)
      obtain ⟨st', hst'⟩ := a.exists_status hst
      have hstate : m''.store.state? e = some st'.state := by rw [Store.state?_eq, hst']; rfl
      rcases (r.leads h).changes a hstate with hsame | ⟨hnone, -⟩ | ⟨st₀, hst₀, hchanges⟩
      · exact .inl (hstate.trans (hsame.symm.trans ih))
      · cases ih.symm.trans hnone
      · obtain rfl := Option.some.inj (hst₀.symm.trans ih)
        rw [hstate]
        generalize st'.state = state at hchanges
        cases hchanges
        exact .inr rfl
    · exact .inr ((r.leads h).closed_kept a ih)

/-! ## Who closes an endpoint -/

/-- **The thread has closed the endpoint**: in one of its steps the endpoint became
closed. -/
def Closes (is : List Incident) (e : EndpointId) (t : ThreadId) : Prop :=
  ∃ is₁ h is₂ m₁ m₂, is = is₁ ++ .stepped t h :: is₂ ∧ Run is₁ m₁
    ∧ m₁.Advance (.stepped t h) m₂ ∧ m₁.store.state? e ≠ some .closed
    ∧ m₂.store.state? e = some .closed

theorem Closes.append {t : ThreadId} (h : Closes is e t) (i : Incident) :
    Closes (is ++ [i]) e t := by
  obtain ⟨is₁, h, is₂, m₁, m₂, rfl, rest⟩ := h
  exact ⟨is₁, h, is₂ ++ [i], m₁, m₂, by simp, rest⟩

/-- What has been closed is closed. -/
theorem Run.closed_of_closes (r : Run is m) {t : ThreadId} (h : Closes is e t) :
    m.store.state? e = some .closed := by
  obtain ⟨is₁, h, is₂, m₁, m₂, rfl, r₁, a₁, -, hclosed⟩ := h
  obtain ⟨n₁, n₂, s₁, b₁, hleads⟩ := r.split
  obtain rfl := r₁.unique s₁
  obtain rfl := a₁.unique b₁
  exact (a₁.run r₁).closed_leads hleads hclosed

/-- **An endpoint is closed once.** -/
theorem Closes.unique {t t' : ThreadId} (h : Closes is e t) (h' : Closes is e t') : t = t' := by
  -- whoever comes later would find the endpoint closed
  have hlater {is is' is₁ is₂ : List Incident} {i i' : Incident} {m : Machine}
      (heq : is ++ i :: is' = is₁ ++ i' :: is₂) (hlt : is.length < is₁.length)
      (hrun : Run is₁ m) : ∃ js, is₁ = is ++ i :: js := by
    rcases List.append_eq_append_iff.mp heq with ⟨js, rfl, h⟩ | ⟨js, rfl, -⟩
    · cases js with
      | nil => simp at hlt
      | cons j js =>
        obtain ⟨rfl, -⟩ := List.cons.inj h
        exact ⟨js, rfl⟩
    · simp at hlt
  obtain ⟨is₁, h, is₂, m₁, m₂, rfl, r₁, a₁, hopen, hclosed⟩ := h
  obtain ⟨is₁', h', is₂', m₁', m₂', heq, r₁', a₁', hopen', hclosed'⟩ := h'
  rcases Nat.lt_trichotomy is₁.length is₁'.length with hlt | hlength | hgt
  · obtain ⟨js, rfl⟩ := hlater heq hlt r₁'
    exact absurd (r₁'.closed_of_closes ⟨is₁, h, js, m₁, m₂, rfl, r₁, a₁, hopen, hclosed⟩) hopen'
  · obtain ⟨-, hi⟩ := List.append_inj heq hlength
    exact (Incident.stepped.inj (List.cons.inj hi).1).1
  · obtain ⟨js, rfl⟩ := hlater heq.symm hgt r₁
    exact absurd
      (r₁.closed_of_closes ⟨is₁', h', js, m₁', m₂', rfl, r₁', a₁', hopen', hclosed'⟩) hopen

/-- **Whoever closes an endpoint is a client, and is told so** in the same step. -/
theorem Advance.closed_just_now {t : ThreadId} {h : Happening}
    (a : m.Advance (.stepped t h) m') (r : Run is m) (hopen : m.store.state? e ≠ some .closed)
    (hclosed : m'.store.state? e = some .closed) :
    CarriesOut (is ++ [.stepped t h]) t (.close e)
      ∧ m'.control? t = some (.finished (.closed true)) := by
  rw [Store.state?_eq] at hopen hclosed
  rcases a.alters e with heq | ⟨t', c, g, c', ns, hc, -, hm', hi, halters⟩
  · exact absurd (heq ▸ hclosed) hopen
  · obtain ⟨rfl, -⟩ := Incident.stepped.inj hi
    obtain ⟨st', hst', hstate⟩ := Option.map_eq_some_iff.mp hclosed
    rw [hst'] at halters
    generalize hold : m.store.status? e = old at halters hopen
    cases halters with
    | keep => exact absurd (congrArg some hstate) hopen
    | enroll | begin => cases hstate
    | @revert st | @register st =>
      obtain ⟨state, remote⟩ := st
      cases state <;> first | exact absurd rfl hopen | cases hstate
    | @close st below hc₀ hc' =>
      subst hc₀ hc'
      refine ⟨CarriesOut.append (r.carriesOut hc rfl), ?_⟩
      have hsnd : st.close.2 = true := by
        rw [Status.close_snd]
        simpa using hopen
      rw [hm', control?_act_self hc, hsnd]

/-- **Whoever is told that it has closed has just done so**, or has been told
before. -/
theorem Advance.told_of_closed (a : m.Advance i m') (r : Run is m) {t : ThreadId}
    (ho : CarriesOut (is ++ [i]) t (.close e))
    (hend : m'.control? t = some (.finished (.closed true))) :
    (CarriesOut is t (.close e) ∧ m.control? t = some (.finished (.closed true)))
      ∨ ∃ h, i = .stepped t h ∧ m.store.state? e ≠ some .closed
        ∧ m'.store.state? e = some .closed := by
  have hold (hlt : t < m.threads.size) : CarriesOut is t (.close e) :=
    CarriesOut.of_append ho (r.originates.1 ▸ hlt)
  cases a.places hend with
  | kept hc => exact .inl ⟨hold (lt_size_of_control? hc), hc⟩
  | @acted c g ns hc hmove hm' hi =>
    refine .inr ⟨_, hi, ?_⟩
    -- the procedure at the bottom is the closing, and it is at its end
    have hfrom := r.from_of_carriesOut (hold (lt_size_of_control? hc)) hc
    obtain ⟨fr, below, rfl, hgoes⟩ := Control.goes_of_act hmove
    obtain ⟨-, -, hb⟩ := r.reachable.sound.2 t _ hc
    generalize hd : Control.finished (.closed true) = d at hgoes
    cases hgoes with
    | within | calls => cases hd
    | returns hroot =>
      obtain ⟨caller, rest, rfl, -⟩ := hb.exists_caller hroot
      cases hd
    | ends hroot =>
      obtain rfl := hb.eq_nil hroot
      have hop : (Control.running [fr]).operation? = some (.close e) := hfrom
      cases Control.moves_of_running hmove with
      | @close e' q p found hp =>
        obtain rfl : e' = e := by simpa [Control.operation?, Frame.operation?] using hop
        cases p <;> simp [ClosePoint.move] at hp
        obtain ⟨rfl, hne, rfl⟩ := hp
        rw [hm', store_act, Store.state?_eq, Store.state?_eq, Store.status?_setStatus found,
          if_pos rfl, Store.status?, found]
        simpa using hne
      | _ => simp [Control.operation?, Frame.operation?] at hop
  | answered reply hc hmove hafter =>
    obtain ⟨_, _, _, _, -, hreply⟩ := Control.goes_of_ask reply hmove
    cases hafter.trans hreply
  | @called _ o _ hd => cases o <;> cases hd
  | served _ _ _ hd => cases hd

/-- **The one that closed an endpoint is the one that is told so.** -/
theorem Run.closes_iff (r : Run is m) {t : ThreadId} : Closes is e t
    ↔ CarriesOut is t (.close e) ∧ m.control? t = some (.finished (.closed true)) := by
  refine r.induction (motive := fun is m => ∀ t, Closes is e t
    ↔ CarriesOut is t (.close e) ∧ m.control? t = some (.finished (.closed true)))
    ?empty ?advance t
  case empty =>
    refine fun t => ⟨fun ⟨is₁, h, is₂, m₁, m₂, heq, _⟩ => ?_, fun ⟨_, h⟩ => ?_⟩
    · simp at heq
    · simp [control?, Machine.empty] at h
  case advance =>
    intro is m i m' r ih a t
    constructor
    · rintro ⟨is₁, h, is₂, m₁, m₂, heq, r₁, a₁, hopen, hclosed⟩
      rcases List.eq_nil_or_concat is₂ with rfl | ⟨is₂, j, rfl⟩
      · -- it has closed just now
        obtain ⟨rfl, hi⟩ := List.append_inj' heq rfl
        obtain rfl := List.singleton_inj.mp hi
        obtain rfl := r.unique r₁
        obtain rfl := a.unique a₁
        exact a.closed_just_now r hopen hclosed
      · -- it had closed before
        rw [List.concat_eq_append, ← List.cons_append, ← List.append_assoc] at heq
        obtain ⟨rfl, -⟩ := List.append_inj' heq rfl
        obtain ⟨ho, hend⟩ := (ih t).mp ⟨is₁, h, is₂, m₁, m₂, rfl, r₁, a₁, hopen, hclosed⟩
        exact ⟨CarriesOut.append ho, a.finished hend⟩
    · rintro ⟨ho, hend⟩
      rcases a.told_of_closed r ho hend with ⟨hold, hend⟩ | ⟨h, rfl, hopen, hclosed⟩
      · exact ((ih t).mpr ⟨hold, hend⟩).append i
      · exact ⟨is, h, [], m, m', rfl, r, a, hopen, hclosed⟩

/-! ## Whose address it is -/

/-- **A call to `connect` that gets through**: it has returned without failure, or its
attempt is queued and it has still to return. -/
def Succeeds (m : Machine) (is : List Incident) (e : EndpointId) (t : ThreadId) (a : Address) :
    Prop :=
  CarriesOut is t (.connect e a)
    ∧ (m.control? t = some (.finished (.connected (.ok ())))
      ∨ ∃ c, m.control? t = some c ∧ (e, Stage.acknowledging) ∈ c.cargo)

/-- It is counted while it has still to return, and afterwards. -/
theorem succeeds_iff {t : ThreadId} {a : Address} :
    m.Succeeds is e t a ↔ CarriesOut is t (.connect e a) ∧ ∃ c, m.control? t = some c
      ∧ 0 < settled is e t c + c.cargo.count (e, .acknowledging) := by
  refine and_congr_right fun ho => ⟨?_, ?_⟩
  · rintro (hc | ⟨c, hc, hmem⟩)
    · have hsettled : settled is e t (.finished (.connected (.ok ()))) = 1 := by
        rw [settled_of_carriesOut ho, if_pos rfl]
      exact ⟨_, hc, Nat.add_pos_left (hsettled ▸ Nat.one_pos) _⟩
    · exact ⟨c, hc, Nat.add_pos_right _ (List.count_pos_iff.mpr hmem)⟩
  · rintro ⟨c, hc, hpos⟩
    by_cases hsettled : settled is e t c = 0
    · exact .inr ⟨c, hc, List.count_pos_iff.mp (by omega)⟩
    · exact .inl (by rw [hc, (settled_ne_zero hsettled).1])

/-- A thread that there is stays somewhere. -/
theorem Advance.exists_place (a : m.Advance i m') {t : ThreadId} {c : Control}
    (hc : m.control? t = some c) : ∃ d, m'.control? t = some d := by
  have hlt : t < m'.threads.size := by
    rw [a.size_eq]
    exact Nat.lt_of_lt_of_le (lt_size_of_control? hc) (Nat.le_add_right ..)
  exact ⟨_, by rw [control?, Array.getElem?_eq_getElem hlt]; rfl⟩

theorem Succeeds.advance {t : ThreadId} {a : Address} (h : m.Succeeds is e t a) (r : Run is m)
    (adv : m.Advance i m') : m'.Succeeds (is ++ [i]) e t a := by
  obtain ⟨ho, c, hc, hpos⟩ := succeeds_iff.mp h
  have hlt : t < (origins is).length := lt_length_of_carriesOut ho
  obtain ⟨d, hd⟩ := adv.exists_place hc
  refine succeeds_iff.mpr ⟨CarriesOut.append ho, d, hd, ?_⟩
  rw [settled_append hlt]
  cases adv.places hd with
  | kept hc' =>
    obtain rfl := Option.some.inj (hc.symm.trans hc')
    exact hpos
  | acted hc' hmove =>
    obtain rfl := Option.some.inj (hc.symm.trans hc')
    -- what is owed is paid when the thread returns, and not before
    obtain ⟨o, horigin, hfrom⟩ := r.originates.2 t c hc
    have hstep := Control.settled_of_act (r.reachable.sound.2 t c hc) horigin hfrom
      r.reachable.sound.1 hmove e
    obtain ⟨fr, below, rfl, -⟩ := Control.moves_of_act hmove
    rw [settled_running] at hpos
    omega
  | answered reply hc' hmove hafter =>
    obtain rfl := Option.some.inj (hc.symm.trans hc')
    obtain ⟨fr, fr', below, rfl, -, hreply⟩ := Control.goes_of_ask reply hmove
    rw [settled_running] at hpos
    rw [hafter, Control.cargo_of_ask reply hmove]
    omega
  | called ht | served ht => exact absurd ht (Nat.ne_of_lt (lt_size_of_control? hc))

/-- **One call gets through at most.** -/
theorem Run.succeeds_unique (r : Run is m) {t t' : ThreadId} {a a' : Address}
    (h : m.Succeeds is e t a) (h' : m.Succeeds is e t' a') : t = t' ∧ a = a' := by
  obtain ⟨ho, c, hc, hpos⟩ := succeeds_iff.mp h
  obtain ⟨ho', c', hc', hpos'⟩ := succeeds_iff.mp h'
  have heq : t = t' := by
    by_contra hne
    have htwo := weightOf_add_le_total
      (fun t c => settled is e t c + c.cargo.count (e, .acknowledging)) hne hc hc'
    have hadd := total_add m (settled is e) fun _ c => c.cargo.count (e, .acknowledging)
    have htotal := r.total_settled e
    have hle := (r.counted_le e).2.1
    simp only [tokens, Store.queued_acknowledging] at htotal
    omega
  subst heq
  exact ⟨rfl, (Operation.connect.inj (Option.some.inj (Option.some.inj (ho.symm.trans ho')))).2⟩

end Machine

/-- **An attempt has been accepted and not been given up.** -/
def Account.IsLive (a : Account) : Prop :=
  a.accepted = 1 ∧ (a.tokens .travelling = 1 ∨ a.tokens .counting + a.counted = 1)

/-- The endpoint of an attempt that has been accepted and not been given up is not open. -/
theorem Account.Streaming.ne_opened {a : Account} (h : a.Streaming) (hl : a.IsLive) :
    a.state ≠ some .opened := by
  intro hst
  obtain ⟨hone, hlive⟩ := hl
  rcases h with h | h | h | h
  · exact absurd h.accepted (by omega)
  · simpa [hst] using h.state
  · simpa [hst] using h.state
  · have htravelling := h.travelling
    have hcounting := h.counting
    have hcounted := h.counted
    omega

/-- What a thread holds of an endpoint that no boss has accepted. -/
def Control.inHand (c : Control) (e : EndpointId) : Nat :=
  c.cargo.count (e, .entering) + c.cargo.count (e, .committed)

/-- A step that does not end the thread leaves it with what it carries out. -/
theorem Control.Goes.operation? {s : Store} {fr : Frame} {below stack : List Frame}
    (h : (Control.running stack).Goes fr below) (hb : fr.Below s below) :
    (Control.running stack).operation? = (Control.running (fr :: below)).operation? :=
  Control.From.of_goes hb rfl h

namespace Machine

variable {m m' : Machine} {i : Incident} {is : List Incident} {e : EndpointId}

/-- **The address of a stream endpoint is that of its attempt.** -/
structure Addressed (m : Machine) (is : List Incident) (e : EndpointId) : Prop where
  /-- While no attempt has been accepted, it is the address of the one in hand. -/
  fresh : ∀ st, m.store.status? e = some st → st.state = .connecting → accepted is e = 0 →
    ∀ t c a, m.control? t = some c → c.operation? = some (.connect e a) → 0 < c.inHand e →
      st.remote = some a
  /-- While the accepted attempt has not been given up, it is the address of that. -/
  live : ∀ st, m.store.status? e = some st → st.state = .connecting ∨ st.state = .registered →
    (m.account is e).IsLive → ∃ t a, m.Succeeds is e t a ∧ st.remote = some a

/-- An endpoint that nobody has accepted is in the first phase. -/
theorem Run.fresh (r : Run is m) (hfl : m.store.flavor? e = some .client)
    (h : accepted is e = 0) : (m.account is e).Fresh := by
  have horder := r.inOrder e
  rw [Account.InOrder, show (m.account is e).flavor = some .client from hfl] at horder
  have h : (m.account is e).accepted = 0 := h
  rcases horder with hp | hp | hp | hp
  · exact hp
  all_goals exact absurd hp.accepted (by omega)

/-- Whoever has an attempt in hand at an endpoint that is open is not there. -/
theorem Run.inHand_of_opened (r : Run is m) (hfl : m.store.flavor? e = some .client)
    (h : accepted is e = 0) (hst : m.store.state? e = some .opened) {t : ThreadId} {c : Control}
    (hc : m.control? t = some c) : c.inHand e = 0 := by
  have hstate : (m.account is e).state = some .opened := hst
  have hzero : (m.account is e).inHand = 0 := by
    rcases (r.fresh hfl h).state with ⟨-, hz⟩ | ⟨hst', -⟩ | ⟨hst', -⟩
    · exact hz
    · cases hstate.symm.trans hst'
    · cases hstate.symm.trans hst'
  have hent := weightOf_le_total (fun _ c => c.cargo.count (e, .entering)) hc
  have hcom := weightOf_le_total (fun _ c => c.cargo.count (e, .committed)) hc
  simp only [Account.inHand, account, tokens] at hzero
  rw [Control.inHand]
  omega

/-- **What a thread has in hand it has had before**, but for the attempt that it begins. -/
theorem Run.inHand_before (r : Run is m) (a : m.Advance i m') {st : Status}
    (hst : m.store.status? e = some st) (hne : st.state ≠ .opened) {t : ThreadId} {d : Control}
    (hd : m'.control? t = some d) (hpos : 0 < d.inHand e) :
    ∃ c, m.control? t = some c ∧ c.operation? = d.operation? ∧ 0 < c.inHand e := by
  cases a.places hd with
  | kept hc => exact ⟨d, hc, rfl, hpos⟩
  | @acted c g ns hc hmove =>
    obtain ⟨hs, hsound⟩ := r.reachable.sound
    obtain ⟨leg, p⟩ := Control.passes_of_act hs (hsound t c hc) hmove e
    refine ⟨c, hc, ?_, ?_⟩
    · obtain ⟨fr, below, rfl, hgoes⟩ := Control.goes_of_act hmove
      cases d with
      | running => exact (hgoes.operation? (hsound t _ hc).2.2).symm
      | finished => simp [Control.inHand] at hpos
    · have hent := p.carried .entering
      have hcom := p.carried .committed
      rw [Store.queued_eq_zero _ _ .entering nofun,
        Store.queued_eq_zero _ _ .entering nofun] at hent
      rw [Store.queued_eq_zero _ _ .committed nofun,
        Store.queued_eq_zero _ _ .committed nofun] at hcom
      -- only a beginning puts an attempt into anybody's hands
      have hleg : leg ≠ .begin := by
        rintro rfl
        have hopened := p.state.1
        rw [Store.state?_eq, hst] at hopened
        exact hne (Option.some.inj hopened)
      have hputs : leg.puts.count .entering + leg.puts.count .committed
          ≤ leg.takes.count .entering + leg.takes.count .committed := by
        cases leg with
        | begin => exact absurd rfl hleg
        | enroll fl => cases fl <;> simp [Leg.puts]
        | _ => simp [Leg.puts, Leg.takes]
      rw [Control.inHand] at hpos ⊢
      omega
  | answered reply hc hmove hafter =>
    obtain ⟨fr, fr', below, rfl, hsame, hreply⟩ := Control.goes_of_ask reply hmove
    refine ⟨_, hc, ?_, ?_⟩
    · rw [hafter, hreply, Control.operation?, Control.operation?, List.findSome?_cons,
        List.findSome?_cons, hsame.operation?]
    · rw [hafter, Control.inHand, Control.cargo_of_ask reply hmove] at hpos
      exact hpos
  | @called _ o _ hd => rw [hd, Control.inHand, Operation.cargo_control] at hpos; cases hpos
  | served _ _ _ hd => rw [hd] at hpos; simp [Control.inHand, Frame.cargo] at hpos

theorem Addressed.advance_fresh (h : m.Addressed is e) (r : Run is m) (a : m.Advance i m')
    (hfl : m.store.flavor? e = some .client) {st st' : Status}
    (hst : m.store.status? e = some st) (hst' : m'.store.status? e = some st')
    (hconnecting : st'.state = .connecting) (hzero : accepted (is ++ [i]) e = 0) {t : ThreadId}
    {d : Control} {remote : Address} (hd : m'.control? t = some d)
    (hop : d.operation? = some (.connect e remote)) (hpos : 0 < d.inHand e) :
    st'.remote = some remote := by
  have hnone : accepted is e = 0 := by
    rw [accepted_append] at hzero
    omega
  by_cases hopen : st.state = .opened
  · -- the attempt begins in this step, and nobody else has one in hand
    have hold {t : ThreadId} {c : Control} (hc : m.control? t = some c) : c.inHand e = 0 :=
      r.inHand_of_opened hfl hnone (by rw [Store.state?_eq, hst, Option.map_some, hopen]) hc
    rcases a.alters e with heq | ⟨t', c, g, c', ns, hc, hmove, hm', -, halters⟩
    · rw [hst', hst, Option.some.injEq] at heq
      rw [heq, hopen] at hconnecting
      cases hconnecting
    · rw [hst, hst'] at halters
      have htt : t = t' := by
        by_contra hne
        rw [hm', control?_act, if_neg (Ne.symm hne)] at hd
        exact hpos.ne' (hold hd)
      subst htt
      obtain ⟨fr, below, rfl, hgoes⟩ := Control.goes_of_act hmove
      rw [hm', control?_act_self hc, Option.some.injEq] at hd
      subst hd
      cases c' with
      | finished => simp [Control.inHand] at hpos
      | running =>
        cases halters with
        | keep => rw [hopen] at hconnecting; cases hconnecting
        | begin hbegin =>
          rw [hgoes.operation? (r.reachable.sound.2 t _ hc).2.2, hbegin] at hop
          exact congrArg some (Operation.connect.inj (Option.some.inj hop)).2
        | revert =>
          rw [Status.revert_of_ne (by simp [hopen]), hopen] at hconnecting
          cases hconnecting
        | register => rw [Status.register, hopen] at hconnecting; cases hconnecting
        | close => rw [Status.close_fst_state] at hconnecting; cases hconnecting
  · -- it has begun before
    obtain ⟨c, hc, hsame, hin⟩ := r.inHand_before a hst hopen hd hpos
    rcases a.alters e with heq | ⟨-, c₀, -, c₀', -, -, -, -, -, halters⟩
    · obtain rfl := Option.some.inj (hst'.symm.trans (heq.trans hst))
      exact h.fresh _ hst hconnecting hnone t c _ hc (hsame.trans hop) hin
    · rw [hst, hst'] at halters
      rw [halters.remote_eq hopen (by simp [hconnecting])]
      refine h.fresh _ hst ?_ hnone t c _ hc (hsame.trans hop) hin
      -- what is connecting now and was not open before was connecting before
      rcases halters.changes (some .datagram) fun _ _ _ => rfl with hkept | hchanges
      · exact hkept.symm.trans hconnecting
      · rw [hconnecting] at hchanges
        generalize st.state = state at hchanges hopen
        cases hchanges
        exact absurd rfl hopen

/-- An accepted attempt that has not been given up has just been accepted, or was
accepted before. -/
theorem Run.live_before (r : Run is m) (a : m.Advance i m')
    (hfl : m.store.flavor? e = some .client) (hlive : (m'.account (is ++ [i]) e).IsLive) :
    accepted is e = 0 ∨ (m.account is e).IsLive := by
  obtain ⟨leg, b⟩ := a.booked r.reachable is e
  have hclient : (m.account is e).flavor = some .client := hfl
  have horder := r.inOrder e
  rw [Account.InOrder, hclient] at horder
  rcases horder with hp | hp | hp | hp
  · exact .inl hp.accepted
  · exact .inr ⟨hp.accepted, .inl hp.travelling⟩
  · exact .inr ⟨hp.accepted, .inr hp.counted⟩
  · -- what is over stays over
    have hover := hp.booked b (by simp [hclient])
    have htravelling := hover.travelling
    have hcounting := hover.counting
    have hcounted := hover.counted
    obtain ⟨-, h | h⟩ := hlive <;> omega

/-- **The client whose attempt is queued gets through**, and the address is the one given
to it. -/
theorem Addressed.accept (h : m.Addressed is e) (r : Run is m)
    (hfl : m.store.flavor? e = some .client) (hzero : accepted is e = 0) {t : ThreadId}
    {c c' : Control} {g : Store → Store} {ns : List Note} (hc : m.control? t = some c)
    (hmove : c.move m.store t = .act g c' ns) (hone : ns.countP (Note.accepts e) = 1)
    {st st' : Status} (hst : m.store.status? e = some st)
    (hst' : (g m.store).status? e = some st')
    (hstate : st'.state = .connecting ∨ st'.state = .registered) :
    ∃ a, (m.act t g c').Succeeds (is ++ [.stepped t (.acted ns)]) e t a ∧ st'.remote = some a := by
  obtain ⟨hs, hsound⟩ := r.reachable.sound
  obtain ⟨leg, p⟩ := Control.passes_of_act hs (hsound t c hc) hmove e
  have hleg : leg = .accept := by
    have htakes : leg.takes.count .committed = 1 := p.accepted.symm.trans hone
    cases leg <;> simp [Leg.takes] at htakes
    rfl
  subst hleg
  -- what the client had in hand it is now owed
  have hcommitted := p.carried .committed
  have hacknowledging := p.carried .acknowledging
  rw [Store.queued_eq_zero _ _ .committed (by simp), Store.queued_eq_zero _ _ .committed (by simp)]
    at hcommitted
  rw [Store.queued_eq_zero _ _ .acknowledging (by simp),
    Store.queued_eq_zero _ _ .acknowledging (by simp)] at hacknowledging
  rw [show Leg.accept.takes.count .committed = 1 from rfl,
    show Leg.accept.puts.count .committed = 0 from rfl] at hcommitted
  rw [show Leg.accept.takes.count .acknowledging = 0 from rfl,
    show Leg.accept.puts.count .acknowledging = 1 from rfl] at hacknowledging
  have howed : 0 < c'.cargo.count (e, .acknowledging) := by omega
  have hin : 0 < c.inHand e := by
    rw [Control.inHand]
    omega
  obtain ⟨remote, hop⟩ : ∃ remote, c.operation? = some (.connect e remote) := by
    have hmem : (e, Stage.committed) ∈ c.cargo := List.count_pos_iff.mp (by omega)
    obtain ⟨fr, below, rfl, -⟩ := Control.moves_of_act hmove
    exact (hsound t _ hc).2.2.connects rfl hmem
  -- the endpoint is connecting before and after
  have hsame : st'.state = st.state := by
    have hturns : (g m.store).state? e = m.store.state? e := p.state
    rw [Store.state?_eq, Store.state?_eq, hst, hst'] at hturns
    exact Option.some.inj hturns
  have hconnecting : st.state = .connecting := by
    refine (hsame ▸ hstate).resolve_right fun hregistered => ?_
    have hfresh := (r.fresh hfl hzero).state
    rw [show (m.account is e).state = some .registered by
      rw [account, Store.state?_eq, hst, Option.map_some, hregistered]] at hfresh
    simp at hfresh
  have halters := Control.alters_of_act hmove e
  rw [hst, hst'] at halters
  have hremote : st'.remote = st.remote :=
    halters.remote_eq (by simp [hconnecting]) (by simp [hsame, hconnecting])
  refine ⟨remote, ⟨?_, .inr ⟨c', control?_act_self hc, List.count_pos_iff.mp howed⟩⟩, ?_⟩
  · obtain ⟨fr, below, rfl, -⟩ := Control.moves_of_act hmove
    exact CarriesOut.append (r.carriesOut hc hop)
  · exact hremote.trans (h.fresh st hst hconnecting hzero t c remote hc hop hin)

/-- **While the accepted attempt has not been given up, the address stays.** -/
theorem Addressed.keep (h : m.Addressed is e) (r : Run is m) (a : m.Advance i m')
    (hfl : m.store.flavor? e = some .client) (hlive : (m.account is e).IsLive) {st st' : Status}
    (hst : m.store.status? e = some st) (hst' : m'.store.status? e = some st')
    (hstate : st'.state = .connecting ∨ st'.state = .registered) :
    ∃ t a, m'.Succeeds (is ++ [i]) e t a ∧ st'.remote = some a := by
  have hopened : st.state ≠ .opened := fun hopened => by
    have horder := r.inOrder e
    rw [Account.InOrder, show (m.account is e).flavor = some .client from hfl] at horder
    refine Account.Streaming.ne_opened horder hlive ?_
    rw [account, Store.state?_eq, hst, Option.map_some, hopened]
  have hclosed : st.state ≠ .closed := fun hclosed => by
    have hkept := r.closed_kept (e := e) a (by rw [Store.state?_eq, hst, ← hclosed]; rfl)
    rw [Store.state?_eq, hst', Option.map_some, Option.some.injEq] at hkept
    simp [hkept] at hstate
  have hbusy : st.state = .connecting ∨ st.state = .registered := by
    generalize st.state = state at hopened hclosed
    cases state <;> simp at hopened hclosed ⊢
  obtain ⟨t, remote, hsucceeds, hremote⟩ := h.live st hst hbusy hlive
  refine ⟨t, remote, hsucceeds.advance r a, ?_⟩
  rcases a.alters e with heq | ⟨_, _, _, _, _, -, -, -, -, halters⟩
  · obtain rfl := Option.some.inj (hst'.symm.trans (heq.trans hst))
    exact hremote
  · rw [hst, hst'] at halters
    have hopened' : st'.state ≠ .opened := by rcases hstate with h | h <;> rw [h] <;> rintro ⟨⟩
    exact (halters.remote_eq hopened hopened').trans hremote

theorem Addressed.advance_live (h : m.Addressed is e) (r : Run is m) (a : m.Advance i m')
    (hfl : m.store.flavor? e = some .client) {st st' : Status}
    (hst : m.store.status? e = some st) (hst' : m'.store.status? e = some st')
    (hstate : st'.state = .connecting ∨ st'.state = .registered)
    (hlive : (m'.account (is ++ [i]) e).IsLive) :
    ∃ t a, m'.Succeeds (is ++ [i]) e t a ∧ st'.remote = some a := by
  rcases r.live_before a hfl hlive with hzero | hold
  · have hone : accepted (is ++ [i]) e = 1 := hlive.1
    rw [accepted_append, hzero, Nat.zero_add, accepted_singleton] at hone
    cases a with
    | act hc hmove => exact ⟨_, h.accept r hfl hzero hc hmove hone hst hst' hstate⟩
    | _ => simp [Incident.notes] at hone
  · exact h.keep r a hfl hold hst hst' hstate

/-- **In every history a stream endpoint bears the address of its attempt.** -/
theorem Run.addressed (r : Run is m) (hfl : m.store.flavor? e = some .client) :
    m.Addressed is e := by
  revert hfl
  refine r.induction (motive := fun is m => m.store.flavor? e = some .client → m.Addressed is e)
    (fun hfl => by simp [Machine.empty, Store.empty, Store.flavor?] at hfl) ?advance
  intro is m i m' r ih a hfl
  cases hst : m.store.status? e with
  | none =>
    -- it has just come about and is open
    have hopened {st' : Status} (hst' : m'.store.status? e = some st') : st'.state = .opened := by
      rcases a.alters e with heq | ⟨_, _, _, _, _, -, -, -, -, halters⟩
      · cases hst'.symm.trans (heq.trans hst)
      · rw [hst, hst'] at halters
        cases halters
        rfl
    refine ⟨fun st' hst' hstate => ?_, fun st' hst' hstate => ?_⟩
    · cases (hopened hst').symm.trans hstate
    · simp [hopened hst'] at hstate
  | some st =>
    have hfl : m.store.flavor? e = some .client := by
      obtain ⟨q, hq, -⟩ := Option.map_eq_some_iff.mp hst
      rw [← hfl, r.reachable.sound.1.flavor?_eq_of_some a.grows hq]
    exact ⟨fun st' hst' hconnecting hzero t d remote hd hop hpos =>
        (ih hfl).advance_fresh r a hfl hst hst' hconnecting hzero hd hop hpos,
      fun st' hst' hstate hlive => (ih hfl).advance_live r a hfl hst hst' hstate hlive⟩

/-- A registered stream endpoint has an accepted attempt that has not been given up. -/
theorem Run.isLive_of_registered (r : Run is m) (hfl : m.store.flavor? e = some .client)
    (h : m.store.state? e = some .registered) : (m.account is e).IsLive := by
  have hstate : (m.account is e).state = some .registered := h
  have horder := r.inOrder e
  rw [Account.InOrder, show (m.account is e).flavor = some .client from hfl] at horder
  rcases horder with hp | hp | hp | hp
  · simpa [hstate] using hp.state
  · simpa [hstate] using hp.state
  · exact ⟨hp.accepted, .inr hp.counted⟩
  · simpa [hstate] using hp.state

/-! ## The life -/

/-- **The life of the endpoints** along a history and in whatever comes next. -/
structure Lifecycle (m : Machine) (is : List Incident) : Prop where
  /-- An endpoint is open when it comes about, and its state changes as it may and in no
  other way. -/
  changes : ∀ i m', m.Advance i m' → ∀ e st', m'.store.state? e = some st' →
    m.store.state? e = some st' ∨ (m.store.state? e = none ∧ st' = .opened)
      ∨ ∃ st, m.store.state? e = some st ∧ st.Changes (m.store.flavor? e) st'
  /-- A closed endpoint stays closed. -/
  final : ∀ is' m', m.Leads is' m' → ∀ e, m.store.state? e = some .closed →
    m'.store.state? e = some .closed
  /-- A registered endpoint stays registered until it is closed. -/
  settled : ∀ is' m', m.Leads is' m' → ∀ e, m.store.state? e = some .registered →
    m'.store.state? e = some .registered ∨ m'.store.state? e = some .closed
  /-- An endpoint is closed when one call has closed it, which no other has, -/
  closed : ∀ e, m.store.state? e = some .closed ↔ ∃! t, Closes is e t
  /-- and of all calls to `close` this one is told so. -/
  told : ∀ e t first, CarriesOut is t (.close e) →
    m.control? t = some (.finished (.closed first)) → (first = true ↔ Closes is e t)
  /-- An open endpoint has no address. -/
  opened : ∀ e st, m.store.status? e = some st → st.state = .opened → st.remote = none
  /-- A connecting endpoint has one. -/
  connecting : ∀ e st, m.store.status? e = some st → st.state = .connecting → st.remote.isSome
  /-- A datagram endpoint, on which nobody can call `connect`, never has one. -/
  datagram : ∀ e st, m.store.status? e = some st → m.store.flavor? e = some .datagram →
    (∀ home a, .called home (.connect e a) ∉ is) → st.remote = none
  /-- A registered stream endpoint has the address given to the one call to `connect` that
  has returned without failure or is about to. -/
  registered : ∀ e st, m.store.status? e = some st → m.store.flavor? e = some .client →
    st.state = .registered → ∃ t a, m.Succeeds is e t a ∧ st.remote = some a
      ∧ ∀ t' a', m.Succeeds is e t' a' → t' = t ∧ a' = a

/-- **In every history endpoints lead this life.** -/
theorem Run.lifecycle (r : Run is m) : m.Lifecycle is where
  changes i m' a e st' := r.changes a
  final is' m' h e := r.closed_leads h
  settled is' m' h e := r.registered_leads h
  closed e := by
    constructor
    · intro h
      obtain ⟨t, ho, hend⟩ := r.closed_by_close h
      have hcloses : Closes is e t := r.closes_iff.mpr ⟨ho, hend⟩
      exact ⟨t, hcloses, fun t' h' => h'.unique hcloses⟩
    · rintro ⟨t, h, -⟩
      exact r.closed_of_closes h
  told e t first ho hend := by
    constructor
    · rintro rfl
      exact r.closes_iff.mpr ⟨ho, hend⟩
    · intro h
      have htrue := (r.closes_iff.mp h).2
      rw [hend] at htrue
      simpa using htrue
  opened e st hst hopened := by
    have hcoherent := r.coherent hst
    rwa [Status.Coherent, hopened] at hcoherent
  connecting e st hst hconnecting := by
    have hcoherent := r.coherent hst
    rwa [Status.Coherent, hconnecting] at hcoherent
  datagram e st hst _ never := (r.unconnected never hst).2
  registered e st hst hfl hregistered := by
    have hlive := r.isLive_of_registered hfl (by rw [Store.state?_eq, hst, ← hregistered]; rfl)
    obtain ⟨t, a, hsucceeds, hremote⟩ := (r.addressed hfl).live st hst (.inr hregistered) hlive
    exact ⟨t, a, hsucceeds, hremote, fun t' a' h' => r.succeeds_unique h' hsucceeds⟩

/-- A registered endpoint that two clients have closed. -/
def closedTwice : Machine :=
  ((registeredOnce.spawn none (Operation.close 0).control).spawn none
    (Operation.close 0).control).play 5 2 |>.play 4 2

/-- It keeps the address it was connected to, and the second client was the first to close
it. -/
theorem lifecycle_closedTwice :
    ∃ is, Run is closedTwice ∧ closedTwice.Lifecycle is
      ∧ registeredOnce.store.status? 0 = some ⟨.registered, some "127.0.0.1:9"⟩
      ∧ closedTwice.store.status? 0 = some ⟨.closed, some "127.0.0.1:9"⟩
      ∧ closedTwice.control? 4 = some (.finished (.closed false))
      ∧ closedTwice.control? 5 = some (.finished (.closed true)) := by
  have registered : registeredOnce.Reachable := (reachable_connected.play 3 23).play 1 13
  obtain ⟨is, r⟩ := (((registered.call none (.close 0)).call none (.close 0)).play 5 2).play 4 2
  exact ⟨is, r, r.lifecycle, by decide +kernel, by decide +kernel, by decide +kernel,
    by decide +kernel⟩

end Machine

end EndpointControl
