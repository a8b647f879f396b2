import EndpointControl.Proofs.Histories

/-!
# The way of a job

A job that carries an endpoint is somewhere: with the client that is about to
submit it, in a queue, in the batch a loop has taken, in the hands of the loop
that runs it or of the thread that drops it. `Frame.cargo` says what a procedure
has in its hands at its point, `Store.waiting` what is queued for an endpoint, and
`Leg` lists everything that one step can do to what is on its way: a leg takes
some of it, puts some of it elsewhere, and turns the state of the endpoint.

That every step is one leg for each endpoint is `Control.passes_of_act`. It is
all that the accounts of endpoints need to know about the procedures.
-/

namespace EndpointControl

/-- **How far a job has come.** -/
inductive Stage where
  /-- The attempt has begun, and the boss may still turn out to have been told. -/
  | entering
  /-- The boss was not told yet when the submission looked. -/
  | committed
  /-- Queued, taken by a loop, or on its way from the boss to the worker. -/
  | travelling
  /-- Somebody is dropping it. -/
  | dropping
  /-- The worker has refused it, and the boss is to drop the attempt as well. -/
  | refused
  /-- The endpoint is registered and about to be counted. -/
  | counting
  /-- The attempt is queued, and its client has not been told yet. -/
  | acknowledging
  deriving DecidableEq, Repr

/-- What is on its way, and how far it has come. -/
abbrev Cargo := List (EndpointId × Stage)

/-- A job that is waiting for its loop. -/
def Job.cargo (j : Job) : EndpointId × Stage := (j.endpoint, .travelling)

/-- What a submission has in its hands. A registration that is refused is dropped
twice: by the submission, and by the boss that hears of it. -/
def SubmitPoint.stages : Job → SubmitPoint → List Stage
  | .attempt .., .start | .attempt .., .starting | .attempt .., .readShutDown => [.entering]
  | .attempt .., .refuse _ => [.dropping]
  | .attempt .., .refused _ => []
  | .attempt .., .wake _ | .attempt .., .wakeFailed _ | .attempt .., .leave => [.acknowledging]
  | .attempt .., _ => [.committed]
  | .registration _, .refuse _ => [.dropping, .refused]
  | .registration _, .refused _ => [.refused]
  | .registration _, .wake _ | .registration _, .wakeFailed _ | .registration _, .leave => []
  | .registration _, _ => [.travelling]

/-- **What a procedure has in its hands.** -/
def Frame.cargo : Frame → Cargo
  | .submit _ j p => (p.stages j).map (j.endpoint, ·)
  | .serve _ _ (.run batch _) => batch.map Job.cargo
  | .serve _ _ (.discard rest _) => rest.map Job.cargo
  | .attempt e _ .announce | .attempt e _ .submit => [(e, .travelling)]
  | .attempt e _ (.announceRefusal _) | .attempt e _ .drop => [(e, .refused)]
  | .registration e .takeStatus | .registration e .mark => [(e, .travelling)]
  | .registration e .count => [(e, .counting)]
  | .drop e _ => [(e, .dropping)]
  | .create _ (.submit e) => [(e, .travelling)]
  | .connect e _ .submit => [(e, .entering)]
  | .connect e _ .count => [(e, .acknowledging)]
  | _ => []

/-- **What a thread has in its hands.** -/
def Control.cargo : Control → Cargo
  | .running stack => stack.flatMap Frame.cargo
  | .finished _ => []

@[simp] theorem Control.cargo_running_cons (fr : Frame) (below : List Frame) :
    (Control.running (fr :: below)).cargo = fr.cargo ++ below.flatMap Frame.cargo := by
  rw [cargo, List.flatMap_cons]

@[simp] theorem Control.cargo_finished (o : Outcome) : (Control.finished o).cargo = [] := rfl

/-- What is dropped is in the hands of the one who drops it. -/
@[simp] theorem Frame.cargo_ofDropped (j : Job) :
    (Frame.ofDropped j).cargo = [(j.endpoint, .dropping)] := rfl

@[simp] theorem Frame.cargo_ofJob (j : Job) : (Frame.ofJob j).cargo = [j.cargo] := by
  cases j <;> rfl

namespace Store

/-! ## What is queued -/

/-- The jobs queued on a loop. -/
def queue (s : Store) (l : LoopId) : List Job := ((s.loop? l).map (·.queue.toList)).getD []

/-- **The jobs queued where those of the endpoint belong.** -/
def waiting (s : Store) (e : EndpointId) : List Job :=
  match s.endpoints[e]? with
  | some r => s.queue r.boss ++ s.queue r.home
  | none => []

/-- How much of that is the endpoint's, which is on its way. -/
def queued (s : Store) (e : EndpointId) (σ : Stage) : Nat :=
  ((s.waiting e).map Job.cargo).count (e, σ)

/-- The state of an endpoint. -/
def state? (s : Store) (e : EndpointId) : Option State :=
  s.endpoints[e]?.map (·.status.state)

/-- The flavor of the factory of an endpoint. -/
def flavor? (s : Store) (e : EndpointId) : Option Flavor :=
  s.endpoints[e]?.bind fun r => s.factories[r.factory]?.map (·.flavor)

/-- **The boss of an endpoint has been told to end**, if there is one. -/
def BossTold (s : Store) (e : EndpointId) : Prop :=
  ∃ r, s.endpoints[e]? = some r ∧ s.Told r.factory 1

theorem queue_eq {s : Store} {id : LoopId} {l : Loop} (h : s.loop? id = some l) :
    s.queue id = l.queue.toList := by
  rw [queue, h, Option.map_some, Option.getD_some]

/-- **The same jobs are queued on the same loops.** -/
def SameQueues (s s' : Store) : Prop := ∀ l, s'.queue l = s.queue l

/-- The same endpoints are bound to the same workers. -/
def SameBindings (s s' : Store) : Prop :=
  ∀ e : EndpointId, (s'.endpoints[e]?).map Endpoint.home = (s.endpoints[e]?).map Endpoint.home

/-- **No job is queued and no endpoint changes.** -/
structure Calm (s s' : Store) : Prop where
  queues : s.SameQueues s'
  endpoints : s'.endpoints = s.endpoints

section Same

variable {s s' : Store}

/-- A step that leaves the queue of each loop alone queues nothing. -/
theorem sameQueues_modifyLoop (s : Store) (id : LoopId) {k : Loop → Loop}
    (h : ∀ l, (k l).queue = l.queue) : s.SameQueues (s.modifyLoop id k) := by
  intro l
  rw [queue, queue, loop?_modifyLoop]
  split
  · cases s.loop? l <;> simp [h]
  · rfl

theorem loop?_modifyFactory (s : Store) (f : FactoryId) {k : Factory → Factory}
    (h : ∀ (fac : Factory) st, (k fac).loop? st = fac.loop? st) (id : LoopId) :
    (s.modifyFactory f k).loop? id = s.loop? id := by
  simp only [loop?, modifyFactory, Array.getElem?_modify]
  split
  · cases s.factories[id.factory]? <;> simp [h]
  · rfl

theorem Calm.refl (s : Store) : s.Calm s := ⟨fun _ => rfl, rfl⟩

theorem calm_takeLock (s : Store) (k : Lock) (t : ThreadId) : s.Calm (s.takeLock k t) :=
  ⟨fun _ => rfl, rfl⟩

theorem calm_giveLock (s : Store) (k : Lock) : s.Calm (s.giveLock k) := ⟨fun _ => rfl, rfl⟩

theorem calm_modifyLoop (s : Store) (id : LoopId) {k : Loop → Loop}
    (h : ∀ l, (k l).queue = l.queue) : s.Calm (s.modifyLoop id k) :=
  ⟨s.sameQueues_modifyLoop id h, rfl⟩

theorem calm_modifyFactory (s : Store) (f : FactoryId) {k : Factory → Factory}
    (h : ∀ (fac : Factory) st, (k fac).loop? st = fac.loop? st) : s.Calm (s.modifyFactory f k) :=
  ⟨fun l => by rw [queue, queue, s.loop?_modifyFactory f h], rfl⟩

theorem Calm.bindings (h : s.Calm s') : s.SameBindings s' := fun _ => by rw [h.endpoints]

theorem Calm.state? (h : s.Calm s') (e : EndpointId) : s'.state? e = s.state? e := by
  rw [Store.state?, Store.state?, h.endpoints]

theorem sameBindings_setStatus (s : Store) (e : EndpointId) (st : Status) :
    s.SameBindings (s.setStatus e st) := by
  intro e'
  simp only [setStatus, Array.getElem?_modify]
  split
  · cases s.endpoints[e']? <;> rfl
  · rfl

/-- With the same bindings and the same queues, the same is waiting. -/
theorem waiting_congr (hb : s.SameBindings s') (hq : s.SameQueues s') (e : EndpointId) :
    s'.waiting e = s.waiting e := by
  have hb := hb e
  unfold waiting
  cases h : s.endpoints[e]? with
  | none =>
    rw [h, Option.map_none, Option.map_eq_none_iff] at hb
    rw [hb]
  | some r =>
    rw [h, Option.map_some] at hb
    obtain ⟨r', hr', hhome⟩ := Option.map_eq_some_iff.mp hb
    -- the boss belongs to the factory of the worker
    have hboss : r'.boss = r.boss := by
      simp only [Endpoint.home, LoopId.mk.injEq] at hhome
      rw [Endpoint.boss, hhome.1, Endpoint.boss]
    simp only [hr', hhome, hboss, hq _]

theorem state?_setStatus (s : Store) (e e' : EndpointId) (st : Status) :
    (s.setStatus e st).state? e' = if e = e' then (s.state? e').map fun _ => st.state
      else s.state? e' := by
  simp only [state?, setStatus, Array.getElem?_modify]
  split
  · cases s.endpoints[e']? <;> rfl
  · rfl

end Same

end Store

theorem Job.Placed.eq_boss_or_home {s : Store} {id : LoopId} {j : Job} (hp : j.Placed s id)
    {r : Endpoint} (hr : s.endpoints[j.endpoint]? = some r) : id = r.boss ∨ id = r.home := by
  cases j with
  | attempt e a =>
    obtain ⟨r', hr', hb⟩ := hp
    obtain rfl := Option.some.inj (hr'.symm.trans hr)
    exact .inl hb.symm
  | registration e =>
    obtain ⟨r', hr', hb⟩ := hp
    obtain rfl := Option.some.inj (hr'.symm.trans hr)
    exact .inr hb.symm

namespace Store

variable {s : Store} {id : LoopId}

/-- Jobs that are placed on a loop are not those of an endpoint that has its jobs
elsewhere. -/
theorem count_cargo_eq_zero {js : List Job} (hp : ∀ j ∈ js, j.Placed s id) {e : EndpointId}
    (he : ∀ r, s.endpoints[e]? = some r → id ≠ r.boss ∧ id ≠ r.home) (σ : Stage) :
    (js.map Job.cargo).count (e, σ) = 0 := by
  refine List.count_eq_zero.mpr fun hmem => ?_
  obtain ⟨j, hj, heq⟩ := List.mem_map.mp hmem
  obtain rfl : j.endpoint = e := (Prod.mk.inj heq).1
  obtain ⟨r, hr⟩ := (hp j hj).has
  rcases (hp j hj).eq_boss_or_home hr with h | h
  · exact (he r hr).1 h
  · exact (he r hr).2 h

/-- **What goes out of a queue and what comes into it is what changes**, since
nothing is queued where it does not belong. -/
theorem queued_modifyLoop {l : Loop} (found : s.loop? id = some l) (k : Loop → Loop)
    (hold : ∀ j ∈ l.queue.toList, j.Placed s id) (hnew : ∀ j ∈ (k l).queue.toList, j.Placed s id)
    (e : EndpointId) (σ : Stage) :
    (s.modifyLoop id k).queued e σ + (l.queue.toList.map Job.cargo).count (e, σ)
      = s.queued e σ + ((k l).queue.toList.map Job.cargo).count (e, σ) := by
  have hself : (s.modifyLoop id k).queue id = (k l).queue.toList :=
    queue_eq (loop?_modifyLoop_self found k)
  have hother {id' : LoopId} (h : id ≠ id') : (s.modifyLoop id k).queue id' = s.queue id' := by
    rw [queue, loop?_modifyLoop, if_neg h, queue]
  cases hr : s.endpoints[e]? with
  | none =>
    rw [count_cargo_eq_zero hold (by simp [hr]), count_cargo_eq_zero hnew (by simp [hr])]
    simp [queued, waiting, hr]
  | some r =>
    -- an endpoint waits in two queues, and those are not the same
    have hwait (s' : Store) (hs' : s'.endpoints = s.endpoints) :
        s'.queued e σ = ((s'.queue r.boss).map Job.cargo).count (e, σ)
          + ((s'.queue r.home).map Job.cargo).count (e, σ) := by
      rw [queued, waiting, hs', hr, List.map_append, List.count_append]
    have hne : r.boss ≠ r.home := nofun
    rw [hwait _ (endpoints_modifyLoop ..), hwait s rfl]
    by_cases hb : id = r.boss
    · subst hb
      rw [hself, hother hne, queue_eq found]
      omega
    · by_cases hh : id = r.home
      · subst hh
        rw [hself, hother hb, queue_eq found]
        omega
      · rw [hother hb, hother hh, count_cargo_eq_zero hold (by simp [hr, hb, hh]),
          count_cargo_eq_zero hnew (by simp [hr, hb, hh])]

end Store

/-! ## Legs -/

/-- **What one step can do to what is on its way**, and to the endpoint. -/
inductive Leg where
  /-- Nothing. -/
  | idle
  /-- A client begins an attempt. -/
  | begin
  /-- The submission finds the boss ready. -/
  | commit
  /-- The attempt is queued. -/
  | accept
  /-- The client is told. -/
  | acknowledge
  /-- The submission of the attempt fails. -/
  | turnAway
  /-- A loop that ends drops the job. -/
  | abandon
  /-- The submission of the registration fails. -/
  | refuse
  /-- The boss drops the attempt whose registration was refused. -/
  | redrop
  /-- The client hears of the refused registration, and nothing is left to drop. -/
  | forget
  /-- The attempt is taken back. -/
  | revert
  /-- The worker registers the endpoint. -/
  | register
  /-- The worker passes over the endpoint, which is closed. -/
  | pass
  /-- The worker counts the endpoint. -/
  | count
  /-- The endpoint is closed. -/
  | close
  /-- The endpoint comes about. -/
  | enroll (flavor : Flavor)
  deriving DecidableEq, Repr

namespace Leg

/-- What is no longer where it was. -/
def takes : Leg → List Stage
  | .commit | .turnAway => [.entering]
  | .accept => [.committed]
  | .acknowledge => [.acknowledging]
  | .abandon | .refuse | .register | .pass => [.travelling]
  | .redrop | .forget => [.refused]
  | .revert => [.dropping]
  | .count => [.counting]
  | .idle | .begin | .close | .enroll _ => []

/-- Where it is now. -/
def puts : Leg → List Stage
  | .begin => [.entering]
  | .commit => [.committed]
  | .accept => [.travelling, .acknowledging]
  | .turnAway | .abandon | .redrop => [.dropping]
  | .refuse => [.dropping, .refused]
  | .register => [.counting]
  | .enroll .datagram => [.travelling]
  | .idle | .acknowledge | .forget | .revert | .pass | .count | .close | .enroll .client => []

/-- **What becomes of the state of the endpoint.** -/
def Turns (before after : Option State) : Leg → Prop
  | .begin => before = some .opened ∧ after = some .connecting
  | .revert =>
    (before = some .connecting ∧ after = some .opened) ∨
      (before ≠ some .connecting ∧ after = before)
  | .register => before ≠ some .closed ∧ after = some .registered
  | .pass => before = some .closed ∧ after = before
  | .close => before ≠ none ∧ after = some .closed
  | .enroll _ => before = none ∧ after = some .opened
  | _ => after = before

/-- **What the boss has been told when this happens.** -/
def Guard (told : Prop) : Leg → Prop
  | .commit => ¬ told
  | .abandon | .refuse => told
  | _ => True

/-- **Where this happens**, if it happens at one point only. -/
def Place (e : EndpointId) (c : Control) : Leg → Prop
  | .acknowledge => ∃ a below, c = .running (.connect e a .count :: below)
  | .close => ∃ below, c = .running (.close e .close :: below)
  | _ => True

/-- The flavor of the endpoint, which it has from the beginning. -/
def Founds (before after : Option Flavor) : Leg → Prop
  | .enroll fl => before = none ∧ after = some fl
  | _ => after = before

end Leg

/-- **A step as one endpoint sees it.** -/
structure Passage (s s' : Store) (c c' : Control) (ns : List Note) (e : EndpointId) (leg : Leg) :
    Prop where
  carried : ∀ σ, c'.cargo.count (e, σ) + s'.queued e σ + leg.takes.count σ
    = c.cargo.count (e, σ) + s.queued e σ + leg.puts.count σ
  state : leg.Turns (s.state? e) (s'.state? e)
  guard : leg.Guard (s.BossTold e)
  founds : leg.Founds (s.flavor? e) (s'.flavor? e)
  accepted : ns.countP (Note.accepts e) = leg.takes.count .committed
  counted : ns.count (.counted e) = leg.takes.count .counting
  place : leg.Place e c

namespace Leg

/-- **The leg accounts for what changes hands.** -/
def Carries (leg : Leg) (e : EndpointId) (before after : Cargo) : Prop :=
  ∀ x, after.count x + (leg.takes.map (e, ·)).count x
    = before.count x + (leg.puts.map (e, ·)).count x

/-- The leg is about hands only, and nothing is written down about it. -/
def isSilent : Leg → Bool
  | .idle | .commit | .turnAway | .abandon | .refuse | .redrop | .forget => true
  | _ => false

theorem carries_idle (e : EndpointId) {before after : Cargo} (h : after.Perm before) :
    Leg.idle.Carries e before after :=
  fun x => by rw [h.count_eq]; rfl

theorem count_map_mk (l : List Stage) (e e' : EndpointId) (σ : Stage) :
    (l.map (e, ·)).count (e', σ) = if e' = e then l.count σ else 0 := by
  induction l with
  | nil => simp
  | cons τ l ih =>
    rw [List.map_cons, List.count_cons, ih, List.count_cons]
    by_cases h : e' = e
    · subst h
      simp
    · simp [h, Ne.symm h]

variable {leg : Leg}

theorem turns_of_isSilent (h : leg.isSilent = true) (a : Option State) : leg.Turns a a := by
  cases leg <;> first | rfl | simp [isSilent] at h

theorem founds_of_isSilent (h : leg.isSilent = true) (a : Option Flavor) : leg.Founds a a := by
  cases leg <;> first | rfl | simp [isSilent] at h

theorem place_of_isSilent (h : leg.isSilent = true) {e : EndpointId} {c : Control} :
    leg.Place e c := by
  cases leg <;> trivial

theorem count_takes_of_isSilent (h : leg.isSilent = true) :
    leg.takes.count .committed = 0 ∧ leg.takes.count .counting = 0 := by
  cases leg <;> first | exact ⟨rfl, rfl⟩ | simp [isSilent] at h

end Leg

/-- The note is about no job that is accepted and no endpoint that is counted. -/
def Note.isQuiet : Note → Bool
  | .pushed .. | .counted _ => false
  | _ => true

theorem countP_accepts_of_quiet {ns : List Note} (h : ns.all Note.isQuiet) (e : EndpointId) :
    ns.countP (Note.accepts e) = 0 := by
  refine List.countP_eq_zero.mpr fun n hn => ?_
  have hq := List.all_eq_true.mp h n hn
  cases n <;> simp [Note.isQuiet] at hq <;> simp [Note.accepts]

theorem count_counted_of_quiet {ns : List Note} (h : ns.all Note.isQuiet) (e : EndpointId) :
    ns.count (.counted e) = 0 :=
  List.count_eq_zero.mpr fun hn => absurd (List.all_eq_true.mp h _ hn) nofun

theorem Factory.Grows.flavor {f f' : Factory} (h : f.Grows f') : f'.flavor = f.flavor := by
  have hb := h.boss
  unfold Factory.flavor
  cases hf : f.boss <;> cases hf' : f'.boss <;> simp [hf, hf'] at hb ⊢

namespace Store

variable {s s' : Store}

/-- The factory of an endpoint exists, since its worker has been started. -/
theorem Sound.factory (hs : s.Sound) {e : EndpointId} {r : Endpoint}
    (hr : s.endpoints[e]? = some r) : ∃ fac, s.factories[r.factory]? = some fac := by
  obtain ⟨l, hl, -⟩ := hs.bound hr
  obtain ⟨fac, hfac, -⟩ := Option.bind_eq_some_iff.mp hl
  exact ⟨fac, hfac⟩

/-- **The flavor of an endpoint never changes.** -/
theorem Sound.flavor?_eq_of_some (hs : s.Sound) (hg : s.Grows s') {e : EndpointId} {r : Endpoint}
    (hr : s.endpoints[e]? = some r) : s'.flavor? e = s.flavor? e := by
  obtain ⟨fac, hfac⟩ := hs.factory hr
  obtain ⟨fac', hfac', hgf⟩ := hg.factory hfac
  obtain ⟨st, hr'⟩ := hg.endpoint hr
  rw [flavor?, flavor?, hr, hr', Option.bind_some, Option.bind_some]
  simp only [hfac, hfac', Option.map_some, hgf.flavor]

theorem Sound.flavor?_eq (hs : s.Sound) (hg : s.Grows s') (hb : s.SameBindings s')
    (e : EndpointId) : s'.flavor? e = s.flavor? e := by
  cases hr : s.endpoints[e]? with
  | some r => exact hs.flavor?_eq_of_some hg hr
  -- an endpoint that is not there does not come about either
  | none =>
    have hb := hb e
    rw [hr, Option.map_none, Option.map_eq_none_iff] at hb
    rw [flavor?, flavor?, hr, hb]
    rfl

theorem Told.mono {f : FactoryId} {m n : Nat} (h : s.Told f n) (hle : m ≤ n) : s.Told f m :=
  ⟨h.1, fun st hst => h.2 st (Nat.lt_of_lt_of_le hst hle)⟩

/-- **A loop that has been told to end has a boss that was told before it**, or
is the boss. -/
theorem Sound.told_of_shutDown (hs : s.Sound) {id : LoopId} (hd : s.ShutDown id) :
    s.Told id.factory 1 :=
  ((hs.order hd).succ hd).mono (Nat.succ_le_succ (Nat.zero_le _))

end Store

theorem Job.Placed.bossTold {s : Store} {id : LoopId} {j : Job} (hp : j.Placed s id)
    (h : s.Told id.factory 1) : s.BossTold j.endpoint := by
  cases j <;> (obtain ⟨r, hr, rfl⟩ := hp; exact ⟨r, hr, h⟩)

/-- **A step is a leg for every endpoint.** -/
def Passes (s s' : Store) (c c' : Control) (ns : List Note) : Prop :=
  ∀ e, ∃ leg, Passage s s' c c' ns e leg

namespace Passes

variable {s s' : Store} {c c' : Control} {ns : List Note}

/-- **A step that is a leg for one endpoint is nothing to the others.** -/
theorem of (leg : Leg) (e₀ : EndpointId)
    (hc : ∀ e σ, c'.cargo.count (e, σ) + s'.queued e σ + (leg.takes.map (e₀, ·)).count (e, σ)
      = c.cargo.count (e, σ) + s.queued e σ + (leg.puts.map (e₀, ·)).count (e, σ))
    (hst : leg.Turns (s.state? e₀) (s'.state? e₀))
    (hothers : ∀ e, e ≠ e₀ → s'.state? e = s.state? e) (hguard : leg.Guard (s.BossTold e₀))
    (hfl : leg.Founds (s.flavor? e₀) (s'.flavor? e₀))
    (hflavors : ∀ e, e ≠ e₀ → s'.flavor? e = s.flavor? e)
    (ha : ∀ e, ns.countP (Note.accepts e) = if e = e₀ then leg.takes.count .committed else 0)
    (hk : ∀ e, ns.count (.counted e) = if e = e₀ then leg.takes.count .counting else 0)
    (hplace : leg.Place e₀ c) :
    Passes s s' c c' ns := by
  intro e
  by_cases he : e = e₀
  · subst he
    have hc := hc e
    simp only [Leg.count_map_mk, if_true] at hc
    exact ⟨leg, hc, hst, hguard, hfl, (ha e).trans (if_pos rfl), (hk e).trans (if_pos rfl), hplace⟩
  · -- all other endpoints see nothing happen
    have hc := hc e
    simp only [Leg.count_map_mk, if_neg he] at hc
    exact ⟨.idle, hc, hothers e he, trivial, hflavors e he, (ha e).trans (if_neg he),
      (hk e).trans (if_neg he), trivial⟩

/-- A step that queues nothing. -/
theorem of_sameQueues (leg : Leg) (e₀ : EndpointId) (hs : s.Sound) (hg : s.Grows s')
    (hb : s.SameBindings s') (hq : s.SameQueues s') (hc : leg.Carries e₀ c.cargo c'.cargo)
    (hst : leg.Turns (s.state? e₀) (s'.state? e₀))
    (hothers : ∀ e, e ≠ e₀ → s'.state? e = s.state? e) (hguard : leg.Guard (s.BossTold e₀))
    (hfd : ∀ a, leg.Founds a a)
    (ha : ∀ e, ns.countP (Note.accepts e) = if e = e₀ then leg.takes.count .committed else 0)
    (hk : ∀ e, ns.count (.counted e) = if e = e₀ then leg.takes.count .counting else 0)
    (hplace : leg.Place e₀ c) :
    Passes s s' c c' ns := by
  refine of leg e₀ (fun e σ => ?_) hst hothers hguard (hs.flavor?_eq hg hb e₀ ▸ hfd _)
    (fun e _ => hs.flavor?_eq hg hb e) ha hk hplace
  rw [Store.queued, Store.queued, Store.waiting_congr hb hq]
  have h := hc (e, σ)
  omega

/-- A step that only passes things on from hand to hand. -/
theorem silent (leg : Leg) (e₀ : EndpointId) (hl : leg.isSilent = true) (hs : s.Sound)
    (hg : s.Grows s') (hm : s.Calm s') (hn : ns.all Note.isQuiet)
    (hc : leg.Carries e₀ c.cargo c'.cargo)
    (hguard : leg.Guard (s.BossTold e₀)) : Passes s s' c c' ns := by
  obtain ⟨hcommitted, hcounting⟩ := Leg.count_takes_of_isSilent hl
  refine of_sameQueues leg e₀ hs hg hm.bindings hm.queues hc ?_ (fun e _ => hm.state? e) hguard
    (Leg.founds_of_isSilent hl) (fun e => ?_) (fun e => ?_) (Leg.place_of_isSilent hl)
  · rw [hm.state?]
    exact Leg.turns_of_isSilent hl _
  · rw [countP_accepts_of_quiet hn, hcommitted, ite_self]
  · rw [count_counted_of_quiet hn, hcounting, ite_self]

/-- A step that changes one queue. -/
theorem requeue (leg : Leg) (e₀ : EndpointId) (hl : leg = .idle ∨ leg = .accept) {id : LoopId}
    {l : Loop} {k : Loop → Loop} {lk : Lock} (hs : s.Sound) (found : s.loop? id = some l)
    (hg : s.Grows ((s.modifyLoop id k).giveLock lk))
    (hnew : ∀ j ∈ (k l).queue.toList, j.Placed s id)
    (hc : ∀ x, c'.cargo.count x + ((k l).queue.toList.map Job.cargo).count x
        + (leg.takes.map (e₀, ·)).count x
      = c.cargo.count x + (l.queue.toList.map Job.cargo).count x
        + (leg.puts.map (e₀, ·)).count x)
    (ha : ∀ e, ns.countP (Note.accepts e) = if e = e₀ then leg.takes.count .committed else 0)
    (hk : ∀ e, ns.count (.counted e) = 0) :
    Passes s ((s.modifyLoop id k).giveLock lk) c c' ns := by
  have hfl (e : EndpointId) := hs.flavor?_eq hg (fun _ => rfl) e
  refine of leg e₀ (fun e σ => ?_) ?_ (fun _ _ => rfl) ?_ ?_ (fun e _ => hfl e) ha (fun e => ?_) ?_
  · have h := hc (e, σ)
    have hq := Store.queued_modifyLoop found k (hs.placed found) hnew e σ
    show _ + (s.modifyLoop id k).queued e σ + _ = _
    omega
  · rcases hl with rfl | rfl <;> rfl
  · rcases hl with rfl | rfl <;> trivial
  · rw [hfl]
    rcases hl with rfl | rfl <;> rfl
  · rw [hk]
    rcases hl with rfl | rfl <;> simp [Leg.takes]
  · rcases hl with rfl | rfl <;> trivial

/-- A step that passes nothing on. -/
theorem idle (hs : s.Sound) (hg : s.Grows s') (hm : s.Calm s') (hn : ns.all Note.isQuiet)
    (hc : c'.cargo = c.cargo) : Passes s s' c c' ns :=
  silent .idle 0 rfl hs hg hm hn (Leg.carries_idle 0 (hc ▸ .refl _)) trivial

end Passes

end EndpointControl
