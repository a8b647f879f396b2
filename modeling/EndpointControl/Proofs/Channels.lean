import EndpointControl.Proofs.Making

/-!
# What a call for a channel does

A call for a channel picks a worker and draws a number before anything can fail. Then it starts
the worker, which it may have to open, and counts the endpoint with it and lets it come about; a
datagram endpoint is queued with its worker as well. All that such a call does to the memory that
the threads share is the list of its effects (`Effect`).

Where a call stands, what it has done and what it has been told go together
(`Control.Channel`). So once it has returned, what it has been told tells whether it has failed
and what it has done: one that fails has picked a worker, drawn a number and opened the slot of
that worker at most.

Others may do what they like meanwhile, as long as nobody tells the worker to end.
-/

namespace EndpointControl

/-! ## Effects -/

/-- **What a call for a channel does** to the memory that the threads share. -/
inductive Effect where
  /-- It picks a worker. -/
  | picks (worker : Nat)
  /-- It draws a number. -/
  | draws (number : UInt64)
  /-- It puts a multiplexer into the slot of a loop. -/
  | opens (loop : LoopId) (mux : Multiplexer)
  /-- It marks a loop as started. -/
  | starts (loop : LoopId)
  /-- It counts an endpoint with a worker. -/
  | counts (worker : Nat)
  /-- It lets an endpoint come about. -/
  | enrolls (endpoint : EndpointId) (worker : Nat) (number : UInt64)
  /-- It appends a job to the queue of a loop. -/
  | queues (loop : LoopId) (job : Job)
  deriving DecidableEq, Repr

/-- **What the effect makes of the store**, if it is done for a channel of this factory. -/
def Effect.apply (f : FactoryId) (s : Store) : Effect → Store
  | .picks _ => s.modifyFactory f fun fac => { fac with cursor := fac.cursor + 1 }
  | .draws _ => s.modifyFactory f fun fac => { fac with nextNumber := fac.nextNumber + 1 }
  | .opens l mux => s.modifyLoop l fun lp => { lp with slot := some mux }
  | .starts l => s.modifyLoop l fun lp => { lp with started := true }
  | .counts w => s.modifyFactory f fun fac =>
    fac.modifyWorker w fun x => { x with assigned := x.assigned + 1 }
  | .enrolls _ w n => s.enroll f w n
  | .queues l j => s.modifyLoop l fun lp => { lp with queue := lp.queue.push j }

/-- It picks a worker. -/
def Effect.isPick : Effect → Bool
  | .picks _ => true
  | _ => false

/-- It draws a number. -/
def Effect.isDraw : Effect → Bool
  | .draws _ => true
  | _ => false

/-- It lets an endpoint come about. -/
def Effect.isEnrolment : Effect → Bool
  | .enrolls .. => true
  | _ => false

/-- **All that is remembered**, which is everything but who holds which lock. -/
def Store.memory (s : Store) : Array Factory × Array Endpoint := (s.factories, s.endpoints)

/-- The worker of the factory whose turn it is. -/
def Store.nextWorker (s : Store) (f : FactoryId) : Nat :=
  ((s.factories[f]?).map Factory.nextWorker).getD 0

/-- What a start does at this point. -/
def StartPoint.effects (l : LoopId) : StartPoint → List Effect
  | .fillSlot mux => [.opens l mux]
  | .mark => [.starts l]
  | _ => []

/-- What a submission does at this point. -/
def SubmitPoint.effects (l : LoopId) (j : Job) : SubmitPoint → List Effect
  | .append _ => [.queues l j]
  | _ => []

/-- What the call itself does at this point. -/
def CreatePoint.effects (s : Store) (f : FactoryId) : CreatePoint → List Effect
  | .pickWorker => [.picks (s.nextWorker f)]
  | .drawNumber _ => [.draws (s.issued f).2]
  | .count w _ => [.counts w]
  | .enroll w n => [.enrolls s.endpoints.size w n]
  | _ => []

/-- **What the thread does next**, if it makes a channel. -/
def Control.effects (s : Store) : Control → List Effect
  | .running (.create f p :: _) => p.effects s f
  | .running (.start l p :: _) => p.effects l
  | .running (.submit l j p :: _) => p.effects l j
  | _ => []

/-- What an answer to a start leads to. -/
def Answer.effects : Answer → List Effect
  | ⟨.openMultiplexer l _, .ok mux⟩ => [.opens l mux]
  | ⟨.execute _ l _, true⟩ => [.starts l]
  | _ => []

/-- **What a call has done** that has been given this worker and this number, by the time that
the start of the worker has been told this. -/
def spent (w : Nat) (n : UInt64) (as : List Answer) : List Effect :=
  [.picks w, .draws n] ++ as.flatMap Answer.effects

/-! ## Where such a call can be -/

/-- The endpoint is bound to this worker of the factory, and has this number. -/
def Store.Bound (s : Store) (e : EndpointId) (f : FactoryId) (w : Nat) (n : UInt64) : Prop :=
  ∃ st, s.endpoints[e]? = some ⟨f, w, n, st⟩

/-- The submission has not appended its job yet. -/
def SubmitPoint.isAhead : SubmitPoint → Bool
  | .start | .readShutDown | .takeSlot | .readSlot => true
  | .serialize m | .takeQueue m | .append m => m.isSome
  | _ => false

/-- **What a call has done and been told that has made its channel**: this endpoint. -/
inductive Furnished (s : Store) (f : FactoryId) (w : Nat) (n : UInt64) (e : EndpointId) :
    Flavor → List Effect → List Answer → Prop where
  /-- The endpoint has been counted and has come about. -/
  | client {as : List Answer} (ends : StartEnds s ⟨f, .worker w⟩ (.ok ()) as) :
    Furnished s f w n e .client (spent w n as ++ [.counts w, .enrolls e w n]) as
  /-- It has been queued with its worker as well, which has been woken. -/
  | datagram {as : List Answer} {mux : Multiplexer} {r : Except String Unit}
    (ends : StartEnds s ⟨f, .worker w⟩ (.ok ()) as) :
    Furnished s f w n e .datagram
      (spent w n as ++ [.counts w, .enrolls e w n, .queues ⟨f, .worker w⟩ (.registration e)])
      (as ++ [⟨.wake ⟨f, .worker w⟩ mux, r⟩])

/-- **Where a call can be that is given this worker and this number**, what it has done until
then, and what it has been told. -/
inductive Control.Channel (s : Store) (f : FactoryId) (fl : Flavor) (w : Nat) (n : UInt64) :
    Control → List Effect → List Answer → Prop where
  /-- It is about to pick its worker. -/
  | pick : Channel s f fl w n (.running [.create f .pickWorker]) [] []
  /-- It is about to draw its number. -/
  | draw : Channel s f fl w n (.running [.create f (.drawNumber w)]) [.picks w] []
  /-- It is about to start its worker. -/
  | start : Channel s f fl w n (.running [.create f (.start w n)]) [.picks w, .draws n] []
  /-- It is starting its worker. -/
  | starting {p : StartPoint} {ds : List Effect} {as : List Answer}
    (told : p.Told s ⟨f, .worker w⟩ as) (hup : p ≠ .leave (.error .released))
    (hds : ds ++ p.effects ⟨f, .worker w⟩ = spent w n as) :
    Channel s f fl w n (.running [.start ⟨f, .worker w⟩ p, .create f (.starting w n)]) ds as
  /-- The start has failed. -/
  | failed {err : Failure} {as : List Answer}
    (ends : StartEnds s ⟨f, .worker w⟩ (.error err) as) (hup : err ≠ .released) :
    Channel s f fl w n (.running [.create f (.failed err)]) (spent w n as) as
  /-- And the call has failed. -/
  | error {err : Failure} {as : List Answer}
    (ends : StartEnds s ⟨f, .worker w⟩ (.error err) as) (hup : err ≠ .released) :
    Channel s f fl w n (.finished (.created (.error err))) (spent w n as) as
  /-- It is about to count the endpoint. -/
  | count {as : List Answer} (ends : StartEnds s ⟨f, .worker w⟩ (.ok ()) as) :
    Channel s f fl w n (.running [.create f (.count w n)]) (spent w n as) as
  /-- The endpoint is about to come about. -/
  | bind {p : CreatePoint} {as : List Answer} (hp : p = .announceBound w n ∨ p = .enroll w n)
    (ends : StartEnds s ⟨f, .worker w⟩ (.ok ()) as) :
    Channel s f fl w n (.running [.create f p]) (spent w n as ++ [.counts w]) as
  /-- A datagram endpoint is about to be submitted. -/
  | submit {e : EndpointId} {as : List Answer} (hfl : fl = .datagram) (bound : s.Bound e f w n)
    (ends : StartEnds s ⟨f, .worker w⟩ (.ok ()) as) :
    Channel s f fl w n (.running [.create f (.submit e)])
      (spent w n as ++ [.counts w, .enrolls e w n]) as
  /-- It is being submitted. -/
  | submitting {e : EndpointId} {p : SubmitPoint} {as : List Answer} (hp : p.isAhead = true)
    (hfl : fl = .datagram) (bound : s.Bound e f w n)
    (ends : StartEnds s ⟨f, .worker w⟩ (.ok ()) as) :
    Channel s f fl w n
      (.running [.submit ⟨f, .worker w⟩ (.registration e) p, .create f (.submitting e)])
      (spent w n as ++ [.counts w, .enrolls e w n]) as
  /-- The submission looks whether the worker has been started, which it has. -/
  | look {e : EndpointId} {p : StartPoint} {as : List Answer}
    (hp : p = .readShutDown ∨ p = .readStarted)
    (hfl : fl = .datagram) (bound : s.Bound e f w n)
    (ends : StartEnds s ⟨f, .worker w⟩ (.ok ()) as) :
    Channel s f fl w n
      (.running [.start ⟨f, .worker w⟩ p, .submit ⟨f, .worker w⟩ (.registration e) .starting,
        .create f (.submitting e)])
      (spent w n as ++ [.counts w, .enrolls e w n]) as
  /-- The endpoint has been queued, and the worker is about to be woken. -/
  | wake {e : EndpointId} {mux : Multiplexer} {as : List Answer}
    (hfl : fl = .datagram) (bound : s.Bound e f w n)
    (ends : StartEnds s ⟨f, .worker w⟩ (.ok ()) as) :
    Channel s f fl w n
      (.running [.submit ⟨f, .worker w⟩ (.registration e) (.wake mux), .create f (.submitting e)])
      (spent w n as ++ [.counts w, .enrolls e w n, .queues ⟨f, .worker w⟩ (.registration e)]) as
  /-- It has been woken. -/
  | woken {e : EndpointId} {p : SubmitPoint} {ds : List Effect} {as : List Answer}
    (hp : p = .leave ∨ ∃ cause, p = .wakeFailed cause) (bound : s.Bound e f w n)
    (h : Furnished s f w n e fl ds as) :
    Channel s f fl w n
      (.running [.submit ⟨f, .worker w⟩ (.registration e) p, .create f (.submitting e)]) ds as
  /-- The channel is made. -/
  | announce {e : EndpointId} {ds : List Effect} {as : List Answer} (bound : s.Bound e f w n)
    (h : Furnished s f w n e fl ds as) :
    Channel s f fl w n (.running [.create f (.announce e)]) ds as
  /-- And the call has returned it. -/
  | made {e : EndpointId} {ds : List Effect} {as : List Answer} (bound : s.Bound e f w n)
    (h : Furnished s f w n e fl ds as) :
    Channel s f fl w n (.finished (.created (.ok e))) ds as

section Procedures

variable {s s' : Store} {t : ThreadId} {f : FactoryId} {fl : Flavor} {w : Nat} {n : UInt64}
  {g : Store → Store} {c c' : Control} {ds : List Effect} {as : List Answer} {ns : List Note}
  {e : EndpointId}

/-- Whoever has started a loop knows that it has been started. -/
theorem StartEnds.started_of_ok {l : LoopId} (h : StartEnds s l (.ok ()) as) : s.Started l := by
  cases h with
  | already h => exact h
  | started h => exact h

theorem Store.Bound.mono (h : s.Bound e f w n) (hs : s.Grows s') : s'.Bound e f w n := by
  obtain ⟨st, h⟩ := h
  obtain ⟨st', h'⟩ := hs.endpoint h
  exact ⟨st', h'⟩

theorem Furnished.mono (h : Furnished s f w n e fl ds as) (hs : s.Grows s') :
    Furnished s' f w n e fl ds as := by
  cases h with
  | client ends => exact .client (ends.mono hs)
  | datagram ends => exact .datagram (ends.mono hs)

/-- **What others do is none of its business.** -/
theorem Control.Channel.mono (h : c.Channel s f fl w n ds as) (hs : s.Grows s') :
    c.Channel s' f fl w n ds as := by
  cases h with
  | pick => exact .pick
  | draw => exact .draw
  | start => exact .start
  | starting told hup hds => exact .starting (told.mono hs) hup hds
  | failed ends hup => exact .failed (ends.mono hs) hup
  | error ends hup => exact .error (ends.mono hs) hup
  | count ends => exact .count (ends.mono hs)
  | bind hp ends => exact .bind hp (ends.mono hs)
  | submit hfl bound ends => exact .submit hfl (bound.mono hs) (ends.mono hs)
  | submitting hp hfl bound ends => exact .submitting hp hfl (bound.mono hs) (ends.mono hs)
  | look hp hfl bound ends => exact .look hp hfl (bound.mono hs) (ends.mono hs)
  | wake hfl bound ends => exact .wake hfl (bound.mono hs) (ends.mono hs)
  | woken hp bound h => exact .woken hp (bound.mono hs) (h.mono hs)
  | announce bound h => exact .announce (bound.mono hs) (h.mono hs)
  | made bound h => exact .made (bound.mono hs) (h.mono hs)

/-- A call that has been given something is under way, or has returned. -/
theorem Control.Channel.underWay (h : c.Channel s f fl w n ds as) :
    (∃ r, c = .finished (.created r))
      ∨ c.operation? = some (.create f) ∧ c ≠ (Operation.create f).control := by
  cases h with
  | error => exact .inl ⟨_, rfl⟩
  | made => exact .inl ⟨_, rfl⟩
  | bind hp => rcases hp with rfl | rfl <;> exact .inr ⟨rfl, by simp [Operation.control]⟩
  | _ => exact .inr ⟨rfl, by simp [Operation.control]⟩

/-! ## One step of such a call -/

/-- **A step of the call itself.** -/
theorem CreatePoint.channel_of_act {p : CreatePoint} {fac : Factory}
    (h : (Control.running [.create f p]).Channel s f fl w n ds as)
    (found : s.factories[f]? = some fac) (hfl : fac.flavor = fl)
    (hpick : p = .pickWorker → fac.nextWorker = w)
    (hdraw : p = .drawNumber w → fac.nextNumber = n)
    (hmove : p.move s [] f fac = .act g c' ns) :
    c'.Channel (g s) f fl w n (ds ++ p.effects s f) as
      ∧ (g s).memory = ((p.effects s f).foldl (Effect.apply f) s).memory := by
  cases h with
  | pick =>
    simp [move] at hmove
    obtain ⟨rfl, rfl, -⟩ := hmove
    have hnext : s.nextWorker f = w := by
      rw [Store.nextWorker, found, Option.map_some, Option.getD_some, hpick rfl]
    rw [hpick rfl, effects, hnext]
    exact ⟨.draw, rfl⟩
  | draw =>
    simp [move] at hmove
    obtain ⟨rfl, rfl, -⟩ := hmove
    rw [hdraw rfl, effects, Store.issued_eq found, hdraw rfl]
    exact ⟨.start, rfl⟩
  | start =>
    simp [move] at hmove
    obtain ⟨rfl, rfl, -⟩ := hmove
    exact ⟨.starting (p := .readShutDown) rfl (by simp) rfl, rfl⟩
  | failed ends hup =>
    simp [move] at hmove
    obtain ⟨rfl, rfl, -⟩ := hmove
    exact ⟨(List.append_nil (spent w n as)).symm ▸ .error ends hup, rfl⟩
  | count ends =>
    simp [move] at hmove
    obtain ⟨rfl, rfl, -⟩ := hmove
    exact ⟨.bind (.inl rfl) (ends.mono (Store.grows_modifyFactory _ _ fun fac =>
      Factory.grows_modifyWorker fun _ => rfl)), rfl⟩
  | @bind _ as hp ends =>
    rcases hp with rfl | rfl
    · simp [move] at hmove
      obtain ⟨rfl, rfl, -⟩ := hmove
      exact ⟨(List.append_nil (spent w n as ++ [.counts w])).symm ▸ .bind (.inr rfl) ends, rfl⟩
    · simp [move] at hmove
      obtain ⟨rfl, rfl, -⟩ := hmove
      have bound : (s.enroll f w n).Bound s.endpoints.size f w n :=
        ⟨.initial, Array.getElem?_push_size⟩
      have ends' := ends.mono (s.grows_enroll f w n)
      rw [effects, List.append_assoc, List.singleton_append]
      refine ⟨?_, rfl⟩
      cases fl with
      | client =>
        rw [hfl]
        exact .announce bound (.client ends')
      | datagram =>
        rw [hfl]
        exact .submit rfl bound ends'
  | submit hfl' bound ends =>
    obtain ⟨st, he⟩ := bound
    simp [move, he] at hmove
    obtain ⟨rfl, rfl, -⟩ := hmove
    exact ⟨(List.append_nil _).symm ▸ .submitting rfl hfl' ⟨st, he⟩ ends, rfl⟩
  | announce bound h =>
    have hbound := bound
    obtain ⟨st, he⟩ := bound
    simp [move, he] at hmove
    obtain ⟨rfl, rfl, -⟩ := hmove
    exact ⟨(List.append_nil ds).symm ▸ .made hbound h, rfl⟩

/-- **A step of the start of the worker**, which nobody tells to end. -/
theorem StartPoint.channel_of_act {p : StartPoint} {lp : Loop}
    (h : (Control.running [.start ⟨f, .worker w⟩ p, .create f (.starting w n)]).Channel
      s f fl w n ds as)
    (found : s.loop? ⟨f, .worker w⟩ = some lp) (hd : lp.shutDown = false)
    (hmove : p.move s t [.create f (.starting w n)] ⟨f, .worker w⟩ lp = .act g c' ns) :
    c'.Channel (g s) f fl w n (ds ++ p.effects ⟨f, .worker w⟩) as
      ∧ (g s).memory = ((p.effects ⟨f, .worker w⟩).foldl (Effect.apply f) s).memory := by
  cases h with | starting told hup hds =>
  rw [hds]
  cases p with
  | openNew | execute => simp [move] at hmove
  | takeSlot =>
    simp [move] at hmove
    obtain ⟨-, rfl, rfl, -⟩ := hmove
    exact ⟨.starting told (by simp) (List.append_nil _), rfl⟩
  | readShutDown | rereadShutDown =>
    simp [move, hd] at hmove
    obtain ⟨rfl, rfl, -⟩ := hmove
    exact ⟨.starting told (by simp) (List.append_nil _), rfl⟩
  | readStarted =>
    obtain rfl := told
    simp [move] at hmove
    obtain ⟨rfl, rfl, -⟩ := hmove
    split
    · exact ⟨.count (.already ⟨lp, found, ‹_›⟩), rfl⟩
    · exact ⟨.starting (p := .takeSlot) rfl (by simp) (List.append_nil _), rfl⟩
  | rereadStarted =>
    obtain rfl := told
    simp [move] at hmove
    obtain ⟨rfl, rfl, -⟩ := hmove
    split
    · exact ⟨.starting (p := .leave (.ok ())) (.already ⟨lp, found, ‹_›⟩) (by simp)
        (List.append_nil _), rfl⟩
    · exact ⟨.starting (p := .inspectSlot) rfl (by simp) (List.append_nil _), rfl⟩
  | inspectSlot =>
    obtain rfl := told
    simp [move] at hmove
    obtain ⟨rfl, rfl, -⟩ := hmove
    cases lp.slot with
    | none => exact ⟨.starting (p := .openNew) rfl (by simp) (List.append_nil _), rfl⟩
    | some mux => exact ⟨.starting (p := .execute mux) .found (by simp) (List.append_nil _), rfl⟩
  | fillSlot mux =>
    obtain ⟨p, rfl⟩ := told
    simp [move] at hmove
    obtain ⟨rfl, rfl, -⟩ := hmove
    exact ⟨.starting (p := .execute mux) .opened (by simp) (List.append_nil _), rfl⟩
  | mark =>
    simp [move] at hmove
    obtain ⟨rfl, rfl, -⟩ := hmove
    exact ⟨.starting (p := .announce) ⟨⟨_, Store.loop?_modifyLoop_self found _, rfl⟩, told⟩
      (by simp) (List.append_nil _), rfl⟩
  | announce =>
    obtain ⟨hs, x, mux, as', hopens, rfl⟩ := told
    simp [move] at hmove
    obtain ⟨rfl, rfl, -⟩ := hmove
    exact ⟨.starting (p := .leave (.ok ())) (.started hs hopens) (by simp) (List.append_nil _),
      rfl⟩
  | leave r =>
    simp [move] at hmove
    obtain ⟨rfl, rfl, -⟩ := hmove
    have ends := StartEnds.mono told
      (Store.grows_giveLock_iff (k := .slot ⟨f, .worker w⟩).mpr (.refl s))
    cases r with
    | ok => exact ⟨.count ends, rfl⟩
    | error err => exact ⟨.failed ends fun herr => hup (by rw [herr]), rfl⟩

/-- **A step of the submission of the endpoint** to its worker, which has been started and which
nobody tells to end. -/
theorem SubmitPoint.channel_of_act {p : SubmitPoint} {lp : Loop}
    (h : (Control.running [.submit ⟨f, .worker w⟩ (.registration e) p,
      .create f (.submitting e)]).Channel s f fl w n ds as)
    (found : s.loop? ⟨f, .worker w⟩ = some lp) (hd : lp.shutDown = false)
    (hslot : lp.started = true → lp.slot.isSome = true)
    (hmove : p.move s t [.create f (.submitting e)] ⟨f, .worker w⟩ lp (.registration e)
      = .act g c' ns) :
    c'.Channel (g s) f fl w n (ds ++ p.effects ⟨f, .worker w⟩ (.registration e)) as
      ∧ (g s).memory
        = ((p.effects ⟨f, .worker w⟩ (.registration e)).foldl (Effect.apply f) s).memory := by
  have hgive {s : Store} {k : Lock} : s.Grows (s.giveLock k) :=
    Store.grows_giveLock_iff.mpr (.refl s)
  cases h with
  | @submitting _ _ as hp hfl bound ends =>
    -- what is said of the call holds of it at the next point as well
    have hnext {s' : Store} {p' : SubmitPoint} (hs : s.Grows s') (hp' : p'.isAhead = true) :
        (Control.running [.submit ⟨f, .worker w⟩ (.registration e) p',
          .create f (.submitting e)]).Channel s' f fl w n
          (spent w n as ++ [.counts w, .enrolls e w n] ++ []) as :=
      (List.append_nil _).symm ▸ .submitting hp' hfl (bound.mono hs) (ends.mono hs)
    cases p with
    | starting | wake | wakeFailed | leave | refuse | refused => cases hp
    | start =>
      simp [move] at hmove
      obtain ⟨rfl, rfl, -⟩ := hmove
      exact ⟨(List.append_nil _).symm ▸ .look (.inl rfl) hfl bound ends, rfl⟩
    | readShutDown =>
      simp [move, hd] at hmove
      obtain ⟨rfl, rfl, -⟩ := hmove
      exact ⟨hnext (.refl s) rfl, rfl⟩
    | takeSlot =>
      simp [move] at hmove
      obtain ⟨-, rfl, rfl, -⟩ := hmove
      exact ⟨hnext (s.grows_takeLock _ _) rfl, rfl⟩
    | readSlot =>
      have hstarted : s.Started ⟨f, .worker w⟩ := ends.started_of_ok
      obtain ⟨mux, hmux⟩ := Option.isSome_iff_exists.mp
        (hslot ((Store.started_iff found).mp hstarted))
      simp [move, hmux] at hmove
      obtain ⟨rfl, rfl, -⟩ := hmove
      exact ⟨hnext hgive rfl, rfl⟩
    | serialize mo =>
      simp only [move] at hmove
      split at hmove <;> simp at hmove
      · obtain ⟨-, rfl, rfl, -⟩ := hmove
        exact ⟨hnext (s.grows_takeLock _ _) hp, rfl⟩
      · obtain ⟨rfl, rfl, -⟩ := hmove
        exact ⟨hnext (.refl s) hp, rfl⟩
    | takeQueue mo =>
      simp [move] at hmove
      obtain ⟨-, rfl, rfl, -⟩ := hmove
      exact ⟨hnext (s.grows_takeLock _ _) hp, rfl⟩
    | append mo =>
      obtain ⟨mux, rfl⟩ := Option.isSome_iff_exists.mp hp
      simp [move] at hmove
      obtain ⟨rfl, rfl, -⟩ := hmove
      have hs : s.Grows ((s.modifyLoop ⟨f, .worker w⟩ fun l =>
          { l with queue := l.queue.push (.registration e) }).giveLock (.queue ⟨f, .worker w⟩)) :=
        Store.grows_giveLock_iff.mpr (s.grows_modifyLoop _ fun l =>
          ⟨rfl, rfl, rfl, id, id, id⟩)
      rw [effects, List.append_assoc]
      exact ⟨.wake hfl (bound.mono hs) (ends.mono hs), rfl⟩
  | wake => simp [move] at hmove
  | woken hp bound h =>
    rcases hp with rfl | ⟨cause, rfl⟩
    · simp only [move] at hmove
      split at hmove <;> simp at hmove <;> obtain ⟨rfl, rfl, -⟩ := hmove
      · exact ⟨(List.append_nil ds).symm ▸ .announce (bound.mono hgive) (h.mono hgive), rfl⟩
      · exact ⟨(List.append_nil ds).symm ▸ .announce bound h, rfl⟩
    · simp [move] at hmove
      obtain ⟨rfl, rfl, -⟩ := hmove
      exact ⟨(List.append_nil ds).symm ▸ .woken (.inl rfl) bound h, rfl⟩

/-- **A look at the worker** finds that it has been started. -/
theorem StartPoint.channel_of_look {p : StartPoint} {lp : Loop}
    (h : (Control.running [.start ⟨f, .worker w⟩ p,
      .submit ⟨f, .worker w⟩ (.registration e) .starting, .create f (.submitting e)]).Channel
      s f fl w n ds as)
    (found : s.loop? ⟨f, .worker w⟩ = some lp) (hd : lp.shutDown = false)
    (hmove : p.move s t [.submit ⟨f, .worker w⟩ (.registration e) .starting,
      .create f (.submitting e)] ⟨f, .worker w⟩ lp = .act g c' ns) :
    c'.Channel (g s) f fl w n (ds ++ p.effects ⟨f, .worker w⟩) as
      ∧ (g s).memory = ((p.effects ⟨f, .worker w⟩).foldl (Effect.apply f) s).memory := by
  cases h with | look hp hfl bound ends =>
  rcases hp with rfl | rfl
  · simp [move, hd] at hmove
    obtain ⟨rfl, rfl, -⟩ := hmove
    exact ⟨(List.append_nil _).symm ▸ .look (.inr rfl) hfl bound ends, rfl⟩
  · have hstarted := (Store.started_iff found).mp ends.started_of_ok
    simp [move, hstarted] at hmove
    obtain ⟨rfl, rfl, -⟩ := hmove
    exact ⟨(List.append_nil _).symm ▸ .submitting rfl hfl bound ends, rfl⟩

/-- **A step of a call for a channel** does what stands at its point and nothing else, and leads
on. The worker has not been told to end, and the call is given what it is to be given. -/
theorem Control.Channel.act (h : c.Channel s f fl w n ds as)
    (hfl : ∀ fac, s.factories[f]? = some fac → fac.flavor = fl)
    (hpick : ∀ fac, s.factories[f]? = some fac → c = .running [.create f .pickWorker] →
      fac.nextWorker = w)
    (hdraw : ∀ fac, s.factories[f]? = some fac → c = .running [.create f (.drawNumber w)] →
      fac.nextNumber = n)
    (hup : ¬ s.ShutDown ⟨f, .worker w⟩)
    (hslot : s.Started ⟨f, .worker w⟩ → (s.slot? ⟨f, .worker w⟩).isSome = true)
    (hmove : c.move s t = .act g c' ns) :
    c'.Channel (g s) f fl w n (ds ++ c.effects s) as
      ∧ (g s).memory = ((c.effects s).foldl (Effect.apply f) s).memory := by
  have hd {lp : Loop} (found : s.loop? ⟨f, .worker w⟩ = some lp) : lp.shutDown = false :=
    Bool.eq_false_of_not_eq_true fun hd => hup ⟨lp, found, hd⟩
  have hmux {lp : Loop} (found : s.loop? ⟨f, .worker w⟩ = some lp) (hs : lp.started = true) :
      lp.slot.isSome = true := Store.slot?_eq found ▸ hslot ⟨lp, found, hs⟩
  -- whatever the point of the call itself is
  have hcreate {p : CreatePoint} (hc : c = .running [.create f p]) :
      c'.Channel (g s) f fl w n (ds ++ c.effects s) as
        ∧ (g s).memory = ((c.effects s).foldl (Effect.apply f) s).memory := by
    subst hc
    cases moves_of_running hmove with | create found hmove =>
    exact CreatePoint.channel_of_act h found (hfl _ found) (fun hp => hpick _ found (by rw [hp]))
      (fun hp => hdraw _ found (by rw [hp])) hmove
  cases id h with
  | error | made => cases hmove
  | starting =>
    cases moves_of_running hmove with | start found hmove =>
    exact StartPoint.channel_of_act h found (hd found) hmove
  | submitting | wake | woken =>
    cases moves_of_running hmove with | submit found hmove =>
    exact SubmitPoint.channel_of_act h found (hd found) (hmux found) hmove
  | look =>
    cases moves_of_running hmove with | start found hmove =>
    exact StartPoint.channel_of_look h found (hd found) hmove
  | _ => exact hcreate rfl

/-- **An answer to such a call** leads on. -/
theorem Control.Channel.ask {q : Request} {after : q.Reply → Control} (reply : q.Reply)
    (h : c.Channel s f fl w n ds as) (hmove : c.move s t = .ask q after) :
    (after reply).Channel s f fl w n ds (as ++ [⟨q, reply⟩]) := by
  obtain ⟨fr, below, rfl, ha⟩ := asks hmove
  cases h with
  | starting told hup hds =>
    cases ha with
    | @openNew _ lp found =>
      obtain rfl := told
      obtain rfl : ds = spent w n [] := (List.append_nil ds).symm.trans hds
      cases reply with
      | ok mux => exact .starting (p := .fillSlot mux) ⟨_, rfl⟩ (by simp) rfl
      | error cause =>
        exact .starting (p := .leave (.error (.unopened _ cause))) .unopened (by simp) rfl
    | @execute _ lp mux found =>
      obtain rfl : ds = spent w n as := (List.append_nil ds).symm.trans hds
      cases reply with
      | true =>
        refine .starting (p := .mark) ⟨_, mux, as, told, rfl⟩ (by simp) ?_
        simp [spent, Answer.effects, StartPoint.effects]
      | false =>
        refine .starting (p := .leave (.error (.refused .worker))) (.refused told) (by simp) ?_
        simp [spent, Answer.effects, StartPoint.effects]
  | wake hfl bound ends =>
    cases ha with | wakeSubmit =>
    subst hfl
    cases reply with
    | ok => exact .woken (.inl rfl) bound (.datagram ends)
    | error cause => exact .woken (.inr ⟨cause, rfl⟩) bound (.datagram ends)
  | submitting hp => cases ha; cases hp
  | woken hp => rcases hp with rfl | ⟨cause, rfl⟩ <;> cases ha
  | look hp => rcases hp with rfl | rfl <;> cases ha
  | _ => cases ha

/-! ## What comes of it -/

/-- A start does nothing but open its loop and mark it as started. -/
theorem Answer.mem_effects {x : Answer} {d : Effect} (h : d ∈ x.effects) :
    (∃ l mux, d = .opens l mux) ∨ ∃ l, d = .starts l := by
  unfold Answer.effects at h
  split at h
  · exact .inl ⟨_, _, List.mem_singleton.mp h⟩
  · exact .inr ⟨_, List.mem_singleton.mp h⟩
  · cases h

theorem countP_spent (w : Nat) (n : UInt64) (as : List Answer) :
    (spent w n as).countP Effect.isEnrolment = 0 := by
  refine List.countP_eq_zero.mpr fun d hd => ?_
  rcases List.mem_append.mp hd with hd | hd
  · rcases List.mem_pair.mp hd with rfl | rfl <;> simp [Effect.isEnrolment]
  · obtain ⟨x, -, hx⟩ := List.mem_flatMap.mp hd
    rcases Answer.mem_effects hx with ⟨l, mux, rfl⟩ | ⟨l, rfl⟩ <;> simp [Effect.isEnrolment]

theorem Furnished.countP_isEnrolment (h : Furnished s f w n e fl ds as) :
    ds.countP Effect.isEnrolment = 1 := by
  cases h <;> rw [List.countP_append, countP_spent] <;> rfl

/-- **An endpoint comes about once**, if at all. -/
theorem Control.Channel.countP_isEnrolment_le (h : c.Channel s f fl w n ds as) :
    ds.countP Effect.isEnrolment ≤ 1 := by
  cases h with
  | pick | draw | start => exact Nat.zero_le _
  | @starting p ds as told hup hds =>
    have hnone := countP_spent w n as
    rw [← hds, List.countP_append] at hnone
    omega
  | failed | error | count => exact countP_spent .. ▸ Nat.zero_le _
  | woken _ _ h | announce _ h | made _ h => exact h.countP_isEnrolment.le
  | bind =>
    rw [List.countP_append, countP_spent]
    exact Nat.zero_le _
  | _ =>
    rw [List.countP_append, countP_spent]
    exact Nat.le_refl _

/-- **A start that has failed** has opened its loop at most. -/
theorem StartEnds.effects_of_error {l : LoopId} {err : Failure}
    (h : StartEnds s l (.error err) as) :
    as.flatMap Answer.effects = [] ∨ ∃ mux, as.flatMap Answer.effects = [.opens l mux] := by
  cases h with
  | told | unopened => exact .inl rfl
  | refused hm =>
    cases hm with
    | found => exact .inl rfl
    | opened => exact .inr ⟨_, rfl⟩

/-- One that has succeeded has opened its loop and marked it as started at most. -/
theorem StartEnds.effects_of_ok {l : LoopId} (h : StartEnds s l (.ok ()) as) :
    ∀ d ∈ as.flatMap Answer.effects, (∃ mux, d = .opens l mux) ∨ d = .starts l := by
  cases h with
  | already => simp
  | started hs hm => cases hm <;> simp [Answer.effects]

/-- What a call has to do for its endpoint when that has come about. -/
def Flavor.registrations (l : LoopId) (e : EndpointId) : Flavor → List Effect
  | .client => []
  | .datagram => [.queues l (.registration e)]

/-- **What comes of a call** that has been given this worker and this number: its result, what it
has done, and what it has been told. -/
structure ChannelEnds (s : Store) (f : FactoryId) (fl : Flavor) (w : Nat) (n : UInt64)
    (r : Except Failure EndpointId) (ds : List Effect) (as : List Answer) : Prop where
  /-- It fails as the start of its worker has been told to fail, and for nothing else. -/
  fails : FailsAs ⟨f, .worker w⟩ (r.map fun _ => ()) as
  /-- No release is in its way. -/
  up : r ≠ .error .released
  /-- If it fails it has picked its worker and drawn its number, and has given the worker
  a multiplexer at most. -/
  spends : ∀ err, r = .error err → ds = [.picks w, .draws n]
    ∨ ∃ mux, ds = [.picks w, .draws n, .opens ⟨f, .worker w⟩ mux]
  /-- If it succeeds it has started its worker at most, has counted its endpoint and let it come
  about, and has queued a datagram endpoint with its worker. -/
  makes : ∀ e, r = .ok e → s.Bound e f w n ∧ ∃ ds₀,
    (∀ d ∈ ds₀, (∃ mux, d = .opens ⟨f, .worker w⟩ mux) ∨ d = .starts ⟨f, .worker w⟩)
      ∧ ds = [.picks w, .draws n] ++ ds₀ ++ [.counts w, .enrolls e w n]
        ++ fl.registrations ⟨f, .worker w⟩ e

/-- **What comes of a call** is what its effects and what it has been told say. -/
theorem Control.Channel.ends {r : Except Failure EndpointId}
    (h : (Control.finished (.created r)).Channel s f fl w n ds as) :
    ChannelEnds s f fl w n r ds as := by
  cases h with
  | error ends hup =>
    refine ⟨ends.failsAs, fun heq => hup (Except.error.inj heq), fun err _ => ?_,
      fun e he => by cases he⟩
    rcases ends.effects_of_error with hnone | ⟨mux, hsome⟩
    · exact .inl (by rw [spent, hnone, List.append_nil])
    · exact .inr ⟨mux, by rw [spent, hsome]; rfl⟩
  | @made e _ _ bound h =>
    cases h with
    | @client as ends =>
      refine ⟨ends.failsAs, by simp, fun err herr => (by cases herr), fun e' he => ?_⟩
      obtain rfl := Except.ok.inj he
      exact ⟨bound, as.flatMap Answer.effects, ends.effects_of_ok, (List.append_nil _).symm⟩
    | @datagram as mux r ends =>
      have hfails := (SubmitEnds.accepted (j := .registration e) (m := mux) (w := r) ends).failsAs
      refine ⟨hfails, by simp, fun err herr => (by cases herr), fun e' he => ?_⟩
      obtain rfl := Except.ok.inj he
      refine ⟨bound, as.flatMap Answer.effects, ends.effects_of_ok, ?_⟩
      rw [List.append_assoc _ [_, _]]
      rfl

/-- Whoever is about to pick a worker has done nothing. -/
theorem Control.Channel.effects_of_pick
    (h : (Control.running [.create f .pickWorker]).Channel s f fl w n ds as) : ds = [] := by
  cases h with
  | pick => rfl
  | bind hp => rcases hp with hp | hp <;> cases hp

/-- Whoever is about to draw a number has picked a worker. -/
theorem Control.Channel.effects_of_draw {w' : Nat}
    (h : (Control.running [.create f (.drawNumber w')]).Channel s f fl w n ds as) :
    ds = [.picks w] := by
  cases h with
  | draw => rfl
  | bind hp => rcases hp with hp | hp <;> cases hp

/-- Whatever it has done, it has picked its worker first and drawn its number next. -/
theorem Control.Channel.take_effects (h : c.Channel s f fl w n ds as) :
    ds.take 2 <+: [.picks w, .draws n] := by
  cases h with
  | pick => exact List.nil_prefix
  | draw => exact ⟨[.draws n], rfl⟩
  | @starting p ds as told hup hds =>
    -- what it is about to do comes later
    have hprefix : ds <+: spent w n as := ⟨_, hds⟩
    exact hprefix.take 2
  | woken hp bound h => cases h <;> exact List.prefix_rfl
  | announce bound h => cases h <;> exact List.prefix_rfl
  | made bound h => cases h <;> exact List.prefix_rfl
  | _ => exact List.prefix_rfl

/-- **An endpoint comes about once**, for the worker and the number that the call has been
given. -/
theorem Control.Channel.of_enrolls {e : EndpointId} {w' : Nat} {n' : UInt64}
    (h : c.Channel s f fl w n ds as) (hd : c.effects s = [.enrolls e w' n']) :
    w' = w ∧ n' = n ∧ ds.countP Effect.isEnrolment = 0 := by
  cases h with
  | @bind p as hp ends =>
    rcases hp with rfl | rfl
    · cases hd
    · obtain ⟨-, hw, hn⟩ := Effect.enrolls.inj (List.singleton_inj.mp hd)
      refine ⟨hw.symm, hn.symm, ?_⟩
      rw [List.countP_append, countP_spent]
      rfl
  | @starting p => cases p <;> cases hd
  | @submitting _ p => cases p <;> cases hd
  | look hp => rcases hp with rfl | rfl <;> cases hd
  | woken hp => rcases hp with rfl | ⟨cause, rfl⟩ <;> cases hd
  | _ => cases hd

/-- **Whatever comes of a call**, it has picked one worker and drawn one number. -/
theorem ChannelEnds.counts {r : Except Failure EndpointId}
    (h : ChannelEnds s f fl w n r ds as) :
    ds.countP Effect.isPick = 1 ∧ ds.countP Effect.isDraw = 1 := by
  cases r with
  | error err => rcases h.spends err rfl with rfl | ⟨mux, rfl⟩ <;> exact ⟨rfl, rfl⟩
  | ok e =>
    obtain ⟨-, ds₀, hds₀, rfl⟩ := h.makes e rfl
    have hnone {q : Effect → Bool} (ho : ∀ l mux, q (.opens l mux) = false)
        (hs : ∀ l, q (.starts l) = false) : ds₀.countP q = 0 := by
      refine List.countP_eq_zero.mpr fun d hd => ?_
      rcases hds₀ d hd with ⟨mux, rfl⟩ | rfl
      · simp [ho]
      · simp [hs]
    simp only [List.countP_append, hnone (q := Effect.isPick) (fun _ _ => rfl) fun _ => rfl,
      hnone (q := Effect.isDraw) (fun _ _ => rfl) fun _ => rfl]
    cases fl <;> exact ⟨rfl, rfl⟩

/-- At each point at most one thing is done. -/
theorem Control.effects_eq_or (s : Store) (c : Control) :
    c.effects s = [] ∨ ∃ d, c.effects s = [d] := by
  unfold effects
  split
  · rename_i p below
    cases p with
    | pickWorker | drawNumber | count | enroll => exact .inr ⟨_, rfl⟩
    | _ => exact .inl rfl
  · rename_i p below
    cases p with
    | fillSlot | mark => exact .inr ⟨_, rfl⟩
    | _ => exact .inl rfl
  · rename_i p below
    cases p with
    | append => exact .inr ⟨_, rfl⟩
    | _ => exact .inl rfl
  · exact .inl rfl

/-- Whoever asks does nothing. -/
theorem Control.effects_of_ask {q : Request} {after : q.Reply → Control}
    (h : c.move s t = .ask q after) : c.effects s = [] := by
  obtain ⟨fr, below, rfl, ha⟩ := asks h
  cases ha <;> rfl

/-- Whoever makes a channel makes it of a factory that there is. -/
theorem Control.Channel.exists_factory (h : c.Channel s f fl w n ds as)
    (hmove : c.move s t = .act g c' ns) : ∃ fac, s.factories[f]? = some fac := by
  have hloop {lp : Loop} (found : s.loop? ⟨f, .worker w⟩ = some lp) :
      ∃ fac, s.factories[f]? = some fac :=
    (Option.bind_eq_some_iff.mp found).imp fun _ h => h.1
  cases h with
  | error | made => cases hmove
  | starting | look =>
    cases moves_of_running hmove with | start found => exact hloop found
  | submitting | wake | woken =>
    cases moves_of_running hmove with | submit found => exact hloop found
  | _ => cases moves_of_running hmove with | create found => exact ⟨_, found⟩

end Procedures

end EndpointControl
