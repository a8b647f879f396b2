import EndpointControl.Proofs.Dismissal

/-!
# After the release

Once the first release of a factory has returned, nothing of the factory runs any
more, nothing is queued and nobody is connecting, and this is for good: a call
that would make a channel or start an attempt is refused on the spot, and another
release does nothing (`Machine.Orderly.letGo`). The release must not be made on a
thread of one of the factory's executors, and everybody takes turns.
-/

namespace EndpointControl

/-! ## Acting alone -/

/-- **A thread that moves alone acts** and asks nobody for anything, from one store
and place to another. -/
inductive Control.Acts (t : ThreadId) : Store → Control → Store → Control → Prop where
  /-- It has not moved yet. -/
  | refl (s : Store) (c : Control) : Acts t s c s c
  /-- It acts and goes on. -/
  | act {s s' : Store} {c c' c'' : Control} {g : Store → Store} {ns : List Note}
    (h : c.move s t = .act g c' ns) (rest : Acts t (g s) c' s' c'') : Acts t s c s' c''

section Procedures

variable {s s' s'' : Store} {t : ThreadId} {c c' c'' : Control}

theorem Control.Acts.trans (h : c.Acts t s s' c') (h' : c'.Acts t s' s'' c'') :
    c.Acts t s s'' c'' := by
  induction h with
  | refl => exact h'
  | act hmove _ ih => exact .act hmove (ih h')

/-! ## What a factory does that has been released -/

/-- Changing a factory into itself changes nothing. -/
theorem Store.modifyFactory_eq_self {f : FactoryId} {fac : Factory} {k : Factory → Factory}
    (found : s.factories[f]? = some fac) (h : k fac = fac) : s.modifyFactory f k = s := by
  have hf : s.factories.modify f k = s.factories := by
    refine Array.ext_getElem? fun f' => ?_
    rw [Array.getElem?_modify]
    split
    · rename_i heq
      rw [← heq, found, Option.map_some, h]
    · rfl
  rw [modifyFactory, hf]

/-- **Another release does nothing.** -/
theorem Control.acts_release {f : FactoryId} {fac : Factory} (found : s.factories[f]? = some fac)
    (up : fac.released = true) :
    (Operation.release f).control.Acts t s s (.finished .released) := by
  have hmark : s.modifyFactory f (fun f => { f with released := true }) = s :=
    Store.modifyFactory_eq_self found (by rw [← up])
  have hmove : (Operation.release f).control.move s t
      = .change (fun s => s.modifyFactory f fun f => { f with released := true })
        (.finished .released) := by
    simp [Operation.control, Control.move, Frame.move, found, ReleasePoint.move, up]
  refine .act hmove ?_
  rw [hmark]
  exact .refl _ _

/-- **A channel is refused.** -/
theorem Control.acts_create {f : FactoryId} {fac : Factory} (found : s.factories[f]? = some fac)
    (up : fac.released = true) :
    (Operation.create f).control.Acts t s s (.finished (.created (.error .released))) := by
  have hmove : (Operation.create f).control.move s t
      = .go (.finished (.created (.error .released))) := by
    simp [Operation.control, Control.move, Frame.move, found, CreatePoint.move, up]
  exact .act hmove (.refl _ _)

/-- **A submission that is refused drops its job**, which takes the endpoint back. -/
theorem Control.acts_refuse {l : LoopId} {lp : Loop} {j : Job} {r : Endpoint} (below : List Frame)
    (err : Failure) (hl : s.loop? l = some lp) (found : s.endpoints[j.endpoint]? = some r)
    (free : s.locks.holder? (.status j.endpoint) = none) :
    (Control.running (.submit l j (.refuse err) :: below)).Acts t s
      (((s.takeLock (.status j.endpoint) t).setStatus j.endpoint r.status.revert).giveLock
        (.status j.endpoint)) (.back below (.error err)) := by
  have hrefuse : (Control.running (.submit l j (.refuse err) :: below)).move s t
      = .go (.running (.ofDropped j :: .submit l j (.refused err) :: below)) := by
    simp [Control.move, Frame.move, hl, SubmitPoint.move]
  have htake : (Control.running (.ofDropped j :: .submit l j (.refused err) :: below)).move s t
      = .change (·.takeLock (.status j.endpoint) t)
        (.running (.drop j.endpoint .revert :: .submit l j (.refused err) :: below)) := by
    simp [Control.move, Frame.ofDropped, Frame.move, found, DropPoint.move, Move.takeLock, free]
  have hrevert : (Control.running (.drop j.endpoint .revert :: .submit l j (.refused err) ::
      below)).move (s.takeLock (.status j.endpoint) t) t
      = .change (fun s => (s.setStatus j.endpoint r.status.revert).giveLock (.status j.endpoint))
        (.running (.submit l j (.refused err) :: below)) := by
    simp [Control.move, Frame.move, Store.takeLock, found, DropPoint.move, Control.back,
      Frame.resume]
  have hreturn (s' : Store) (hl' : s'.loop? l = some lp) :
      (Control.running (.submit l j (.refused err) :: below)).move s' t
        = .go (.back below (.error err)) := by
    simp [Control.move, Frame.move, hl', SubmitPoint.move]
  exact .act hrefuse (.act htake (.act hrevert (.act (hreturn _ hl) (.refl _ _))))

/-- **A job for a loop that has been told to end is dropped** before it is queued. -/
theorem Control.acts_submit {l : LoopId} {j : Job} {r : Endpoint} (below : List Frame)
    (told : s.ShutDown l) (found : s.endpoints[j.endpoint]? = some r)
    (free : s.locks.holder? (.status j.endpoint) = none) :
    ∃ s', (Control.running (.submit l j .start :: below)).Acts t s s'
        (.back below (.error .released))
      ∧ s'.factories = s.factories
      ∧ s'.endpoints = (s.setStatus j.endpoint r.status.revert).endpoints := by
  obtain ⟨lp, hl, hd⟩ := told
  have hstart : (Control.running (.submit l j .start :: below)).move s t
      = .go (.running (.start l .readShutDown :: .submit l j .starting :: below)) := by
    simp [Control.move, Frame.move, hl, SubmitPoint.move]
  have hread : (Control.running (.start l .readShutDown :: .submit l j .starting :: below)).move s t
      = .go (.running (.submit l j (.refuse .released) :: below)) := by
    simp [Control.move, Frame.move, hl, StartPoint.move, hd, Control.back, Frame.resume]
  exact ⟨_, .act hstart (.act hread (Control.acts_refuse below .released hl found free)), rfl, rfl⟩

section Connecting

variable {e : EndpointId} {r : Endpoint} {a : Address}

theorem Operation.move_connect (found : s.endpoints[e]? = some r)
    (free : s.locks.holder? (.status e) = none) :
    (Operation.connect e a).control.move s t
      = .change (·.takeLock (.status e) t) (.running [.connect e a .begin]) := by
  simp [Operation.control, Control.move, Frame.move, found, ConnectPoint.move, Move.takeLock, free]

/-- **An attempt at an open endpoint begins**: the endpoint is connecting before the boss has
heard of it. -/
theorem Control.acts_begin (found : s.endpoints[e]? = some r)
    (free : s.locks.holder? (.status e) = none) (hst : r.status.state = .opened) :
    (Operation.connect e a).control.Acts t s
      (((s.takeLock (.status e) t).setStatus e ⟨.connecting, some a⟩).giveLock (.status e))
      (.running [.submit r.boss (.attempt e a) .start, .connect e a .submitting]) := by
  have hbegin : (Control.running [.connect e a .begin]).move (s.takeLock (.status e) t) t
      = .change (fun s => (s.setStatus e ⟨.connecting, some a⟩).giveLock (.status e))
        (.running [.connect e a .submit]) := by
    simp [Control.move, Frame.move, Store.takeLock, found, ConnectPoint.move, Status.beginConnect,
      hst]
  let s₁ := ((s.takeLock (.status e) t).setStatus e ⟨.connecting, some a⟩).giveLock (.status e)
  have hfound : s₁.endpoints[e]? = some { r with status := ⟨.connecting, some a⟩ } := by
    show (s.endpoints.modify e _)[e]? = _
    rw [Array.getElem?_modify, if_pos rfl, found, Option.map_some]
  have hsubmit : (Control.running [.connect e a .submit]).move s₁ t
      = .go (.running [.submit r.boss (.attempt e a) .start, .connect e a .submitting]) := by
    simp only [Control.move, Frame.move, hfound]
    rfl
  exact .act (Operation.move_connect found free) (.act hbegin (.act hsubmit (.refl _ _)))

/-- An attempt at an open endpoint begins, its job is dropped, and so the endpoint
is open again. -/
theorem Control.acts_connect_of_opened (told : s.ShutDown r.boss)
    (found : s.endpoints[e]? = some r) (free : s.locks.holder? (.status e) = none)
    (hst : r.status.state = .opened) :
    ∃ s', (Operation.connect e a).control.Acts t s s' (.finished (.connected (.error .released)))
      ∧ s'.factories = s.factories ∧ ∀ e', s'.state? e' = s.state? e' := by
  -- the endpoint is connecting from here until its job has been dropped
  let s₁ := ((s.takeLock (.status e) t).setStatus e ⟨.connecting, some a⟩).giveLock (.status e)
  have hfound : s₁.endpoints[e]? = some { r with status := ⟨.connecting, some a⟩ } := by
    show (s.endpoints.modify e _)[e]? = _
    rw [Array.getElem?_modify, if_pos rfl, found, Option.map_some]
  have hfree : s₁.locks.holder? (.status e) = none := by
    show ((s.locks.take (.status e) t).give (.status e)).holder? (.status e) = none
    rw [LockTable.holder?_give, if_pos rfl]
  obtain ⟨s₂, hacts, hfactories, hendpoints⟩ := Control.acts_submit (t := t) (s := s₁)
    (j := .attempt e a) [.connect e a .submitting] told hfound hfree
  have hfailed : (Control.running [.connect e a (.failed .released)]).move s₂ t
      = .go (.finished (.connected (.error .released))) := by
    have hfound₂ : s₂.endpoints[e]? = some { r with status := .initial } := by
      rw [hendpoints]
      show (s₁.endpoints.modify e _)[e]? = _
      rw [Array.getElem?_modify, if_pos rfl, hfound, Option.map_some]
      rfl
    simp [Control.move, Frame.move, hfound₂, ConnectPoint.move]
  refine ⟨s₂, ?_, hfactories, fun e' => ?_⟩
  · exact (Control.acts_begin found free hst).trans (hacts.trans (.act hfailed (.refl _ _)))
  · have hback : s₂.state? e' = (s₁.setStatus e .initial).state? e' := by
      rw [Store.state?, hendpoints]
      rfl
    -- its state was written twice, and the second time it became open again
    have hs₁ : s₁.state? e' = if e = e' then (s.state? e').map fun _ => .connecting
        else s.state? e' := (s.takeLock (.status e) t).state?_setStatus e e' _
    rw [hback, Store.state?_setStatus, hs₁]
    split
    · rename_i he
      rw [← he, Store.state?, found, Option.map_some, Option.map_some, Option.map_some, hst]
      rfl
    · rfl

/-- An attempt at any other endpoint does not begin. -/
theorem Control.acts_connect_of_ne (found : s.endpoints[e]? = some r)
    (free : s.locks.holder? (.status e) = none) (hst : r.status.state ≠ .opened) :
    (Operation.connect e a).control.Acts t s ((s.takeLock (.status e) t).giveLock (.status e))
      (.finished (.connected (.error (.wrongState r.number r.status.state)))) := by
  have hrefused : r.status.beginConnect a = .error r.status.state :=
    (Status.beginConnect_eq_error_iff ..).mpr ⟨rfl, hst⟩
  have hbegin : (Control.running [.connect e a .begin]).move (s.takeLock (.status e) t) t
      = .change (·.giveLock (.status e))
        (.finished (.connected (.error (.wrongState r.number r.status.state)))) := by
    simp [Control.move, Frame.move, Store.takeLock, found, ConnectPoint.move, hrefused]
  exact .act (Operation.move_connect found free) (.act hbegin (.refl _ _))

/-- **Why an attempt is refused** once the factory has been released. -/
def Endpoint.refusal (r : Endpoint) : Failure :=
  match r.status.state with
  | .opened => .released
  | st => .wrongState r.number st

/-- **An attempt is refused** and leaves every endpoint in its state. -/
theorem Control.acts_connect (told : s.ShutDown r.boss) (found : s.endpoints[e]? = some r)
    (free : s.locks.holder? (.status e) = none) :
    ∃ s', (Operation.connect e a).control.Acts t s s' (.finished (.connected (.error r.refusal)))
      ∧ s'.factories = s.factories ∧ ∀ e', s'.state? e' = s.state? e' := by
  unfold Endpoint.refusal
  split
  · exact acts_connect_of_opened told found free ‹_›
  · exact ⟨_, acts_connect_of_ne found free ‹_›, rfl, fun _ => rfl⟩

end Connecting

end Procedures

/-! ## What is left of a factory -/

/-- A thread that does not run the loop holds nothing of its batch. -/
theorem Frame.Below.batch_eq_nil {s : Store} {fr : Frame} {below : List Frame} {l : LoopId}
    (hb : fr.Below s below) (h : (Control.running (fr :: below)).serves? ≠ some l) :
    (Control.running (fr :: below)).batch l = [] := by
  induction below generalizing fr with
  | nil =>
    cases fr with
    | serve l' m p =>
      have hne : l' ≠ l := fun heq => h (congrArg some heq)
      cases p <;> simp [Control.batch, Frame.batch, hne]
    | _ => rfl
  | cons caller rest ih =>
    -- only the bottom of a stack can be a loop
    have hroot : fr.isRoot = false := by
      cases hr : fr.isRoot with
      | false => rfl
      | true => cases hb.eq_nil hr
    rw [Control.serves?_cons, Frame.served?_of_not_root hroot, Option.none_or] at h
    have hfr : fr.batch l = [] := by
      cases fr <;> first | rfl | cases hroot
    rw [Control.batch, List.flatMap_cons, hfr]
    exact ih hb.2.2 h

/-- Somebody who releases the factory shuts the executor down. -/
def Incident.quitsFor (is : List Incident) (f : FactoryId) (x : ExecutorId) : Incident → Bool
  | .stepped t (.answered (.shutDown x') _) => CarriesOut is t (.release f) ∧ x' = x
  | _ => false

/-- **How often the executor is shut down** in all releases of the factory. -/
def shutDowns (is : List Incident) (f : FactoryId) (x : ExecutorId) : Nat :=
  is.countP (Incident.quitsFor is f x)

/-- If all releases but one are silent, that one does all there is. -/
theorem shutDowns_eq {is : List Incident} {f : FactoryId} {t : ThreadId}
    (ho : CarriesOut is t (.release f)) (silent : ∀ t', t' ≠ t → CarriesOut is t' (.release f) →
      ∀ q reply, .stepped t' (.answered q reply) ∉ is) (x : ExecutorId) :
    shutDowns is f x = shutDownsBy is t x := by
  refine List.countP_congr fun i hi => ?_
  unfold Incident.quitsFor
  split
  · rename_i t' x' u
    simp only [Incident.quitsBy, decide_eq_true_eq, and_congr_left_iff]
    rintro -
    constructor
    · intro ho'
      by_contra hne
      exact silent t' hne ho' _ _ hi
    · rintro rfl
      exact ho
  · rename_i hno
    simp only [Bool.false_eq_true, false_iff]
    unfold Incident.quitsBy
    split
    · exact absurd rfl (hno _ _ _)
    · rintro ⟨⟩

namespace Machine

variable {m : Machine} {is : List Incident} {f : FactoryId} {t : ThreadId} {fac : Factory}
  {id : LoopId} {l : Loop}

/-- **Nobody runs a loop of an executor that is gone.** -/
theorem Run.not_serves (r : Run is m)
    (gone : ∀ l, m.store.loop? id = some l → m.Vacant l.executor) : ¬ m.Serves id := by
  rintro ⟨t, c, hc, hid⟩
  obtain ⟨l, hl, hhome⟩ := r.home_of_serves hc hid
  exact absurd ((gone l hl t c hc hhome).symm.trans hid) nofun

/-- A loop that nobody runs has nothing unrun but what is queued. -/
theorem Reachable.unrunOn_of_not_serves (hm : m.Reachable) (h : ¬ m.Serves id) (e : EndpointId) :
    m.unrunOn id e = carrying e (m.store.queue id) := by
  obtain ⟨-, hsound⟩ := hm.sound
  have hzero : m.total (fun _ c => carrying e (c.batch id)) = 0 := by
    refine total_eq_zero_iff.mpr fun t c hc => ?_
    have hserves : c.serves? ≠ some id := fun hid => h ⟨t, c, hc, hid⟩
    match c, hsound t c hc with
    | .finished _, _ => rfl
    | .running (fr :: below), hsound => rw [hsound.2.2.batch_eq_nil hserves]; rfl
  rw [unrunOn, hzero, Nat.add_zero]

/-- **A loop of an executor that is gone has ended**, if it was started, and nothing
is queued on it. -/
theorem Orderly.ended_of_vacant (r : Orderly is m) (found : m.store.loop? id = some l)
    (gone : m.Vacant l.executor) : (l.started = true → l.exited = true) ∧ l.queue = #[] := by
  have hexited : l.started = true → l.exited = true := r.run.exited_of_vacant found gone
  refine ⟨hexited, ?_⟩
  by_contra hne
  -- what is queued on has been started, so it has ended, and left nothing
  have hended := r.uninterrupted.queue_of_exited
    ⟨l, found, hexited (r.run.reachable.sound.1.used found hne)⟩
  rw [Store.queue_eq found, Array.toList_eq_nil_iff] at hended
  exact hne hended

theorem Orderly.unrunOn_eq_zero (r : Orderly is m)
    (gone : ∀ l, m.store.loop? id = some l → m.Vacant l.executor) (e : EndpointId) :
    m.unrunOn id e = 0 := by
  rw [r.run.reachable.unrunOn_of_not_serves (r.run.not_serves gone)]
  cases h : m.store.loop? id with
  | some l => rw [Store.queue_eq h, (r.ended_of_vacant h (gone l h)).2]; rfl
  | none => rw [Store.queue, h]; rfl

/-- **At rest, an endpoint that no unrun job carries is not connecting.** -/
theorem Reachable.not_connecting (hm : m.Reachable) (rest : m.AtRest) {e : EndpointId}
    {r : Endpoint} (hr : m.store.endpoints[e]? = some r) (hf : m.store.factories[r.factory]?.isSome)
    (hun : m.unrun e = 0) : r.status.state ≠ .connecting := by
  intro hst
  obtain ⟨fac, hfac⟩ := Option.isSome_iff_exists.mp hf
  have hflavor : m.store.flavor? e = some fac.flavor := by
    rw [Store.flavor?, hr, Option.bind_some, hfac, Option.map_some]
  cases hfl : fac.flavor with
  | client =>
    -- one unrun job carries a connecting stream endpoint
    have hcases := hm.unrun_of_stream rest hr (hflavor.trans (congrArg some hfl))
    simp [hst, hun] at hcases
  | datagram =>
    obtain ⟨-, hzero⟩ := hm.tokens_of_atRest rest hr
    obtain ⟨is, run⟩ := id hm
    have horder := run.inOrder e
    rw [Account.InOrder, show (m.account is e).flavor = some .datagram from
      hflavor.trans (congrArg some hfl)] at horder
    have hpos : 1 ≤ m.tokens e .entering + m.tokens e .dropping :=
      horder.connecting (by rw [account, Store.state?, hr, Option.map_some, hst])
    rw [hzero _ (by decide) (by decide), hzero _ (by decide) (by decide)] at hpos
    cases hpos

/-- **What the first release of a factory leaves behind**, for good. -/
structure LetGo (m : Machine) (is : List Incident) (f : FactoryId) (t : ThreadId) (fac : Factory) :
    Prop where
  /-- No boss and no worker is running. -/
  running : ∀ st l, fac.loop? st = some l → l.running = false
  /-- Every loop that was started has ended, and nothing is queued. -/
  exited : ∀ st l, fac.loop? st = some l → (l.started = true → l.exited = true) ∧ l.queue = #[]
  /-- No endpoint is connecting. -/
  connecting : m.AtRest → ∀ (e : EndpointId) (r : Endpoint), m.store.endpoints[e]? = some r →
    r.factory = f → r.status.state ≠ .connecting
  /-- Every endpoint that is closed was closed by its client. -/
  closed : ∀ e, m.store.state? e = some .closed →
    ∃ t, CarriesOut is t (.close e) ∧ m.control? t = some (.finished (.closed true))
  /-- Every channel is refused. -/
  create : ∀ t, (Operation.create f).control.Acts t m.store m.store
    (.finished (.created (.error .released)))
  /-- Every attempt is refused, and leaves every endpoint in its state. -/
  connect : m.AtRest → fac.flavor = .client → ∀ (t : ThreadId) (e : EndpointId) (r : Endpoint) a,
    m.store.endpoints[e]? = some r → r.factory = f →
    ∃ s, (Operation.connect e a).control.Acts t m.store s
        (.finished (.connected (.error r.refusal)))
      ∧ s.factories = m.store.factories ∧ ∀ e', s.state? e' = m.store.state? e'
  /-- Every further release does nothing. -/
  release : ∀ t, (Operation.release f).control.Acts t m.store m.store (.finished .released)
  /-- No other release has ever asked anybody for anything. -/
  silent : ∀ t', t' ≠ t → CarriesOut is t' (.release f) →
    ∀ q reply, .stepped t' (.answered q reply) ∉ is
  /-- Each executor of the factory has been shut down once on its behalf, and no other. -/
  once : ∀ x, shutDowns is f x = if x ∈ fac.executors then 1 else 0

/-- **When the first release has returned**, it has left all this behind, now and
ever after: unless an executor of the factory runs the release, or somebody
interferes with others in the midst of something, or an executor breaks its word. -/
theorem Orderly.letGo (r : Orderly is m) (first : First is f t)
    (found : m.store.factories[f]? = some fac) (outside : ∀ x ∈ fac.executors, m.home? t ≠ some x)
    (returned : m.control? t = some (.finished .released)) : m.LetGo is f t fac := by
  obtain ⟨htold, hgone, honce⟩ := r.dismissed first found outside returned
  obtain ⟨⟨fac', found', up⟩, hyields⟩ := (r.run.first f).2 t first
  obtain rfl := Option.some.inj (found.symm.trans found')
  have hm := r.run.reachable
  have hloop (st : Seat) : m.store.loop? ⟨f, st⟩ = fac.loop? st := by
    rw [Store.loop?, found, Option.bind_some]
  -- all loops of the factory are on executors that are gone
  have hvacant (st : Seat) (l : Loop) (h : m.store.loop? ⟨f, st⟩ = some l) : m.Vacant l.executor :=
    (hgone _ (r.run.staffed f fac found st l (hloop st ▸ h))).2
  have hended {st : Seat} {l : Loop} (h : fac.loop? st = some l) :=
    r.ended_of_vacant ((hloop st).trans h) (hvacant st l ((hloop st).trans h))
  have hsilent (t' : ThreadId) (hne : t' ≠ t) (ho : CarriesOut is t' (.release f)) :=
    (hyields t' hne ho).silent
  refine ⟨fun st l h => ?_, fun st l h => hended h, fun rest e q hq hf => ?_,
    fun e => r.run.closed_by_close, fun t => Control.acts_create found up,
    fun rest client t e q a hq hf => ?_, fun t => Control.acts_release found up, hsilent,
    fun x => (shutDowns_eq first.1 hsilent x).trans (honce x)⟩
  · cases hstarted : l.started with
    | false => rw [Loop.running, hstarted, Bool.false_and]
    | true => rw [Loop.running, (hended h).1 hstarted, Bool.not_true, Bool.and_false]
  · subst hf
    refine hm.not_connecting rest hq (by rw [found]; rfl) ?_
    rw [unrun, hq]
    exact Nat.add_eq_zero_iff.mpr
      ⟨r.unrunOn_eq_zero (hvacant .boss) e, r.unrunOn_eq_zero (hvacant (.worker q.worker)) e⟩
  · subst hf
    -- a client factory has a boss, and that has been told to end
    obtain ⟨b, hb⟩ : ∃ b, fac.boss = some b := by
      cases hb : fac.boss with
      | some b => exact ⟨b, rfl⟩
      | none => rw [Factory.flavor, hb] at client; cases client
    have hboss : m.store.loop? q.boss = some b.loop :=
      (hloop .boss).trans (by rw [Factory.loop?, hb, Option.map_some])
    have hshut : m.store.ShutDown q.boss :=
      ⟨b.loop, hboss, (htold 1).2 .boss Nat.one_pos b.loop hboss⟩
    exact Control.acts_connect hshut hq (hm.status_free rest e)

/-! ## Playing an orderly history -/

/-- **What everybody hears who asks an executor that keeps its word**; what else is
asked for works. -/
def honest (m : Machine) (is : List Incident) (t : ThreadId) : (q : Request) → q.Reply
  | .openMultiplexer _ p => .ok ⟨p.key, 0⟩
  | .execute x _ _ => decide (¬ Quit is x)
  | .wake .. => .ok ()
  | .wait .. => .ok 0
  | .shutDown _ => ()
  | .isMember x => decide (m.home? t = some x)
  | .await x => decide (Quit is x ∧ m.Deserted x)

theorem keeps_honest (m : Machine) (is : List Incident) (t : ThreadId) (q : Request) :
    m.Keeps is t (.answered q (honest m is t q)) := by
  cases q with
  | execute x l mux =>
    show m.Keeps is t (.answered (.execute x l mux) (decide (¬ Quit is x)))
    cases h : decide (¬ Quit is x) with
    | true => exact (decide_eq_true_iff.mp h :)
    | false => trivial
  | await x =>
    show m.Keeps is t (.answered (.await x) (decide (Quit is x ∧ m.Deserted x)))
    cases h : decide (Quit is x ∧ m.Deserted x) with
    | true => exact (decide_eq_true_iff.mp h :)
    | false => trivial
  | isMember x => rfl
  | _ => trivial

end Machine

/-- **An orderly history**, with the machine that it leads to. -/
structure History where
  incidents : List Incident
  machine : Machine
  orderly : machine.Orderly incidents

namespace History

/-- Nothing has happened. -/
def empty : History := ⟨[], .empty, .empty⟩

/-- Somebody calls an operation. -/
def call (h : History) (home : Option ExecutorId) (o : Operation) : History :=
  ⟨_, _, h.orderly.advance (.call home o) trivial⟩

/-- Somebody builds a factory. -/
def build (h : History) (b : Blueprint) : History := ⟨_, _, h.orderly.advance (.build b) trivial⟩

/-- **A thread makes so many steps** while all others rest, and hears the truth. -/
def turn (h : History) (t : ThreadId) : Nat → History
  | 0 => h
  | n + 1 =>
    if alone : h.machine.Alone t then
      match hmove : h.machine.move t with
      | .act _ _ _ =>
        turn ⟨_, _, h.orderly.advance (Machine.Step.act hmove).advance ⟨alone, trivial⟩⟩ t n
      | .ask q _ =>
        turn ⟨_, _, h.orderly.advance (Machine.Step.answer hmove _).advance
          ⟨alone, h.machine.keeps_honest h.incidents t q⟩⟩ t n
      | .blocked _ | .stuck => h
    else h

/-- A factory is released while an attempt waits for its boss; then its loops run to
their ends, and the release returns. -/
def released : History :=
  let made := ((empty.build .small).call none (.create 0)).turn 0 40
  let tried := (made.call none (.connect 0 "127.0.0.1:9")).turn 2 40
  let waiting := (tried.call none (.release 0)).turn 4 30
  ((waiting.turn 3 60).turn 1 60).turn 4 10

end History

/-- The attempt had been accepted, and the endpoint is open again. -/
theorem letGo_released :
    let m := History.released.machine
    let is := History.released.incidents
    ∃ fac, m.store.factories[0]? = some fac ∧ First is 0 4
      ∧ (∀ x ∈ fac.executors, m.home? 4 ≠ some x) ∧ m.control? 4 = some (.finished .released)
      ∧ m.LetGo is 0 4 fac ∧ m.control? 2 = some (.finished (.connected (.ok ())))
      ∧ m.store.state? 0 = some .opened := by
  intro m is
  have hsome : m.store.factories[0]?.isSome := by decide +kernel
  obtain ⟨fac, found⟩ := Option.isSome_iff_exists.mp hsome
  have first : First is 0 4 := by decide +kernel
  have outside : ∀ x ∈ fac.executors, m.home? 4 ≠ some x := by
    rw [show m.home? 4 = none by decide +kernel]
    exact fun _ _ => nofun
  have returned : m.control? 4 = some (.finished .released) := by decide +kernel
  exact ⟨fac, found, first, outside, returned,
    History.released.orderly.letGo first found outside returned, by decide +kernel,
    by decide +kernel⟩

end EndpointControl
