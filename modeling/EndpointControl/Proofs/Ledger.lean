import EndpointControl.Proofs.Accounts
import EndpointControl.Proofs.Counters

/-!
# The ledger of connection attempts

Between two operations, or while everybody who works is held up in a wake, a wait
or a release that waits for its executors, nothing is in anybody's hands but the
batches that loops have taken (`Control.Sound.holds_of_resting`). What is on its
way for an endpoint is then exactly what has not been run: the jobs that are
queued with its boss and its worker, and those in the batches of the two
(`Machine.Reachable.tokens_of_atRest`). So the account of a stream endpoint can be
read off its state, which is `Machine.Reachable.ledger`.
-/

namespace EndpointControl

/-! ## At rest -/

/-- **A procedure rests** before it has begun, while its loop waits, in a wake, and
while it waits for executors. -/
def Frame.isResting : Frame → Bool
  | .create _ .readReleased | .connect _ _ .takeStatus | .close _ .takeStatus
  | .release _ .raise | .serve _ _ .announce => true
  | .serve _ _ .wait | .submit _ _ (.wake _) | .signal _ (.wake _) => true
  | .release _ (.terminate u) =>
    match u.turn with
    | .await .. => true
    | _ => false
  | _ => false

/-- **A thread rests** at its end, and when the procedure it is in rests. -/
def Control.isResting : Control → Bool
  | .finished _ => true
  | .running (fr :: _) => fr.isResting
  | .running [] => false

/-- **Nobody is in the middle of anything.** -/
def Machine.AtRest (m : Machine) : Prop := ∀ th ∈ m.threads, th.control.isResting = true

instance (m : Machine) : Decidable m.AtRest :=
  inferInstanceAs (Decidable (∀ th ∈ m.threads, _))

theorem Machine.AtRest.control {m : Machine} (h : m.AtRest) {t : ThreadId} {c : Control}
    (hc : m.control? t = some c) : c.isResting = true := by
  obtain ⟨th, hth, rfl⟩ := Option.map_eq_some_iff.mp hc
  exact h th (Array.mem_of_getElem? hth)

/-! ## What has not been run -/

/-- How many of the jobs carry the endpoint. -/
def carrying (e : EndpointId) (js : List Job) : Nat := js.countP (·.endpoint = e)

/-- What is left of the batch that the loop has taken. -/
def Frame.batch (l : LoopId) : Frame → List Job
  | .serve l' _ (.run batch _) => if l' = l then batch else []
  | _ => []

/-- What a thread holds of the batch of a loop. -/
def Control.batch (l : LoopId) : Control → List Job
  | .running stack => stack.flatMap (Frame.batch l)
  | .finished _ => []

/-- **The unrun jobs of a loop that carry the endpoint**: those in its queue, and
those of the batch it has taken that it has not begun. -/
def Machine.unrunOn (m : Machine) (l : LoopId) (e : EndpointId) : Nat :=
  carrying e (m.store.queue l) + m.total fun _ c => carrying e (c.batch l)

/-- **The unrun jobs that carry the endpoint**, with its boss and with the worker
it is bound to. -/
def Machine.unrun (m : Machine) (e : EndpointId) : Nat :=
  match m.store.endpoints[e]? with
  | some r => m.unrunOn r.boss e + m.unrunOn r.home e
  | none => 0

/-! ## What a thread at rest has in its hands -/

theorem count_cargo (js : List Job) (e : EndpointId) (σ : Stage) :
    (js.map Job.cargo).count (e, σ) = if σ = .travelling then carrying e js else 0 := by
  rw [carrying, List.count_eq_countP, List.countP_map]
  split
  · rename_i h
    subst h
    refine List.countP_congr fun j _ => ?_
    simp [Job.cargo]
  · rename_i h
    refine List.countP_eq_zero.mpr fun j _ => ?_
    simp [Job.cargo, Ne.symm h]

/-- A thread holds a batch and owes acknowledgements. -/
def Control.Holds (s : Store) (c : Control) (l : LoopId) (batch : List Job)
    (owed : List EndpointId) : Prop :=
  c.cargo = owed.map (·, .acknowledging) ++ batch.map Job.cargo
    ∧ (∀ j ∈ batch, j.Placed s l) ∧ ∀ l', c.batch l' = if l = l' then batch else []

theorem Control.holds_nothing {s : Store} {c : Control} (hc : c.cargo = [])
    (hb : ∀ l, c.batch l = []) : c.Holds s ⟨0, .boss⟩ [] [] :=
  ⟨hc, nofun, fun l => by rw [hb, ite_self]⟩

/-- A submission that wakes owes at most an acknowledgement. -/
theorem SubmitPoint.stages_wake (j : Job) (m : Multiplexer) :
    ∃ owed : List EndpointId,
      ((SubmitPoint.wake m).stages j).map (j.endpoint, ·) = owed.map (·, .acknowledging) := by
  cases j with
  | attempt e a => exact ⟨[e], rfl⟩
  | registration e => exact ⟨[], rfl⟩

theorem Frame.Below.holds_wake {s : Store} {l : LoopId} {j : Job} {m : Multiplexer}
    {below : List Frame} (hb : (Frame.submit l j (.wake m)).Below s below) :
    ∃ l' batch owed, (Control.running (.submit l j (.wake m) :: below)).Holds s l' batch owed := by
  obtain ⟨owed, howed⟩ := SubmitPoint.stages_wake j m
  obtain ⟨caller, rest, rfl, hcall, hk, hrest⟩ := hb.exists_caller rfl
  cases hcall with
  | submitCreate =>
    obtain rfl := hrest.eq_nil rfl
    refine ⟨⟨0, .boss⟩, [], owed, ?_, nofun, fun l' => ?_⟩
    · simp [cargo, howed]
    · simp [Control.batch, batch]
  | submitConnect =>
    obtain rfl := hrest.eq_nil rfl
    refine ⟨⟨0, .boss⟩, [], owed, ?_, nofun, fun l' => ?_⟩
    · simp [cargo, howed]
    · simp [Control.batch, batch]
  -- the boss hands on a job of its batch, and the rest is still below
  | submitAttempt =>
    obtain ⟨caller, rest, rfl, hcall, hk, hrest⟩ := hrest.exists_caller rfl
    cases hcall with
    | @attemptServe _ _ _ l' _ jobs _ =>
      obtain rfl := hrest.eq_nil rfl
      refine ⟨l', jobs, owed, ?_, hk, fun l'' => ?_⟩
      · simp [cargo, howed]
      · simp [Control.batch, batch]

/-- **A thread at rest holds a batch and nothing else**, apart from acknowledgements
that it owes. -/
theorem Control.Sound.holds_of_resting {s : Store} {c : Control} (hc : c.Sound s)
    (h : c.isResting = true) : ∃ l batch owed, c.Holds s l batch owed := by
  match c, hc with
  | .finished o, _ => exact ⟨_, _, _, holds_nothing rfl fun l => rfl⟩
  | .running (fr :: below), ⟨hk, _, hb⟩ =>
    cases fr with
    | submit l j p =>
      cases p <;> simp [isResting, Frame.isResting] at h
      exact hb.holds_wake
    | signal l p =>
      cases p <;> simp [isResting, Frame.isResting] at h
      -- only a release tells a loop to end
      obtain ⟨caller, rest, rfl, hcall, -, hrest⟩ := hb.exists_caller rfl
      cases hcall
      obtain rfl := hrest.eq_nil rfl
      exact ⟨_, _, _, holds_nothing (by simp [Frame.cargo]) (by simp [batch, Frame.batch])⟩
    | create f p =>
      cases p <;> simp [isResting, Frame.isResting] at h
      obtain rfl := hb.eq_nil rfl
      exact ⟨_, _, _, holds_nothing (by simp [Frame.cargo]) (by simp [batch, Frame.batch])⟩
    | connect e a p =>
      cases p <;> simp [isResting, Frame.isResting] at h
      obtain rfl := hb.eq_nil rfl
      exact ⟨_, _, _, holds_nothing (by simp [Frame.cargo]) (by simp [batch, Frame.batch])⟩
    | close e p =>
      obtain rfl := hb.eq_nil rfl
      exact ⟨_, _, _, holds_nothing (by simp [Frame.cargo]) (by simp [batch, Frame.batch])⟩
    | release f p =>
      obtain rfl := hb.eq_nil rfl
      exact ⟨_, _, _, holds_nothing (by simp [Frame.cargo]) (by simp [batch, Frame.batch])⟩
    | serve l m p =>
      obtain rfl := hb.eq_nil rfl
      cases p <;> simp [isResting, Frame.isResting] at h
      all_goals
        exact ⟨_, _, _, holds_nothing (by simp [Frame.cargo]) (by simp [batch, Frame.batch])⟩
    | start l p => simp [isResting, Frame.isResting] at h
    | attempt e a p => simp [isResting, Frame.isResting] at h
    | registration e p => simp [isResting, Frame.isResting] at h
    | drop e p => simp [isResting, Frame.isResting] at h

theorem Control.Holds.count_cargo {s : Store} {c : Control} {l : LoopId} {batch : List Job}
    {owed : List EndpointId} (h : c.Holds s l batch owed) (e : EndpointId) {σ : Stage}
    (hσ : σ ≠ .acknowledging) :
    c.cargo.count (e, σ) = if σ = .travelling then carrying e batch else 0 := by
  have howed : (owed.map (·, Stage.acknowledging)).count (e, σ) = 0 := by
    refine List.count_eq_zero.mpr fun hmem => ?_
    obtain ⟨e', -, heq⟩ := List.mem_map.mp hmem
    exact hσ (Prod.mk.inj heq).2.symm
  rw [h.1, List.count_append, howed, Nat.zero_add, EndpointControl.count_cargo]

/-- What it holds of the batches with which the jobs of an endpoint belong. -/
theorem Control.Holds.carrying_batch {s : Store} {c : Control} {l : LoopId} {batch : List Job}
    {owed : List EndpointId} (h : c.Holds s l batch owed) {e : EndpointId} {r : Endpoint}
    (hr : s.endpoints[e]? = some r) :
    carrying e (c.batch r.boss) + carrying e (c.batch r.home) = carrying e batch := by
  have hne : r.boss ≠ r.home := nofun
  rw [h.2.2, h.2.2]
  by_cases hb : l = r.boss
  · subst hb
    rw [if_pos rfl, if_neg hne]
    rfl
  · by_cases hh : l = r.home
    · rw [if_neg hb, if_pos hh]
      exact Nat.zero_add _
    · rw [if_neg hb, if_neg hh]
      have hzero : (batch.map Job.cargo).count (e, .travelling) = 0 :=
        Store.count_cargo_eq_zero h.2.1 (by simp [hr, hb, hh]) _
      rw [EndpointControl.count_cargo, if_pos rfl] at hzero
      rw [hzero]
      rfl

namespace Machine

variable {m : Machine}

/-- **At rest, what is on its way for an endpoint is what has not been run**, and
nothing else is in anybody's hands. -/
theorem Reachable.tokens_of_atRest (hm : m.Reachable) (rest : m.AtRest) {e : EndpointId}
    {r : Endpoint} (hr : m.store.endpoints[e]? = some r) :
    m.tokens e .travelling = m.unrun e
      ∧ ∀ σ, σ ≠ .travelling → σ ≠ .acknowledging → m.tokens e σ = 0 := by
  have hholds {t : ThreadId} {c : Control} (hc : m.control? t = some c) :=
    (hm.sound.2 t c hc).holds_of_resting (rest.control hc)
  have hqueued (σ : Stage) : m.store.queued e σ = if σ = .travelling then
      carrying e (m.store.queue r.boss) + carrying e (m.store.queue r.home) else 0 := by
    rw [Store.queued, Store.waiting, hr, count_cargo, carrying, List.countP_append]
    rfl
  constructor
  · -- what the threads hold of it, batch by batch
    have htotal : m.total (fun _ c => c.cargo.count (e, .travelling))
        = m.total (fun _ c => carrying e (c.batch r.boss) + carrying e (c.batch r.home)) := by
      refine total_congr rfl fun t c hc => ?_
      obtain ⟨l, batch, owed, h⟩ := hholds hc
      rw [h.count_cargo e (by decide), if_pos rfl, h.carrying_batch hr]
    rw [tokens, htotal, total_add, hqueued, if_pos rfl, unrun, hr]
    simp only [unrunOn]
    omega
  · intro σ htr hack
    rw [tokens, hqueued, if_neg htr, total_eq_zero_iff.mpr]
    intro t c hc
    obtain ⟨l, batch, owed, h⟩ := hholds hc
    rw [h.count_cargo e hack, if_neg htr]

end Machine

/-- **What the account of a stream says when nothing is in anybody's hands.** -/
theorem Account.Streaming.settled {a : Account} (h : a.Streaming)
    (hz : ∀ σ, σ ≠ .travelling → σ ≠ .acknowledging → a.tokens σ = 0) :
    (a.state = some .connecting ∧ a.tokens .travelling = 1)
      ∨ ((a.state = some .opened ∨ a.state = some .registered) ∧ a.tokens .travelling = 0)
      ∨ (a.state = some .closed ∧ a.tokens .travelling ≤ 1) := by
  have hentering := hz .entering (by decide) (by decide)
  have hdropping := hz .dropping (by decide) (by decide)
  have hhand : a.inHand = 0 := by
    rw [inHand, hentering, hdropping, hz .committed (by decide) (by decide)]
  -- the phases in turn; hands are empty, so what is left travels
  rcases h with h | h | h | h
  · have htr := h.travelling
    rcases h.state with ⟨hst, -⟩ | ⟨-, hone⟩ | ⟨hst, -⟩
    · exact .inr (.inl ⟨.inl hst, htr⟩)
    · omega
    · exact .inr (.inr ⟨hst, by omega⟩)
  · have htr := h.travelling
    rcases h.state with hst | hst
    · exact .inl ⟨hst, htr⟩
    · exact .inr (.inr ⟨hst, by omega⟩)
  · have htr := h.travelling
    rcases h.state with hst | hst
    · exact .inr (.inl ⟨.inr hst, htr⟩)
    · exact .inr (.inr ⟨hst, by omega⟩)
  · have htr := h.travelling
    rcases h.state with hst | hst | ⟨-, hsome⟩
    · exact .inr (.inl ⟨.inl hst, htr⟩)
    · exact .inr (.inr ⟨hst, by omega⟩)
    · omega

/-! ## Closed for good -/

/-- **A closed endpoint stays closed**, and is not counted if nobody was about to. -/
theorem Account.Booked.closed {a a' : Account} {leg : Leg} (b : a.Booked leg a')
    (hst : a.state = some .closed) (hct : a.tokens .counting = 0) :
    a'.state = some .closed ∧ a'.tokens .counting = 0 := by
  have hstate := b.state
  have hcounting := b.tokens .counting
  rw [hst] at hstate
  cases leg with
  | begin => cases hstate.1
  | register => exact absurd rfl hstate.1
  | enroll fl => cases hstate.1
  | count => exact b.absurd_of_takes hct Nat.one_pos rfl
  | close => exact ⟨hstate.2, by simpa [Leg.takes, Leg.puts, hct] using hcounting⟩
  | pass => exact ⟨hstate.2, by simpa [Leg.takes, Leg.puts, hct] using hcounting⟩
  | revert =>
    refine ⟨?_, by simpa [Leg.takes, Leg.puts, hct] using hcounting⟩
    rcases hstate with ⟨h, -⟩ | ⟨-, h⟩
    · cases h
    · exact h
  | _ => exact ⟨hstate, by simpa [Leg.takes, Leg.puts, hct] using hcounting⟩

/-- The procedure runs, submits or drops a job that carries the endpoint. -/
def Frame.handles (e : EndpointId) : Frame → Bool
  | .submit _ j _ => j.endpoint = e
  | .attempt e' _ _ | .registration e' _ | .drop e' _ => e' = e
  | _ => false

namespace Machine

variable {m m' : Machine} {is is' : List Incident} {e : EndpointId}

/-- **The thread is about a job that carries the endpoint.** -/
def Handles (m : Machine) (t : ThreadId) (e : EndpointId) : Prop :=
  ∃ stack, m.control? t = some (.running stack) ∧ ∃ fr ∈ stack, fr.handles e = true

theorem Leads.closed (h : m.Leads is m') (hm : m.Reachable)
    (hst : m.store.state? e = some .closed) (hct : m.tokens e .counting = 0) :
    m'.store.state? e = some .closed ∧ m'.tokens e .counting = 0 := by
  -- by induction on what happens, one booking at a time
  induction h with
  | refl => exact ⟨hst, hct⟩
  | advance h a ih =>
    obtain ⟨leg, b⟩ := a.booked (h.reachable hm) [] e
    exact b.closed ih.1 ih.2

/-- **Whoever is about a job of the endpoint registers nobody**, as long as nobody
is about to count it. -/
theorem Reachable.registered_of_handles (hm : m.Reachable) (hct : m.tokens e .counting = 0)
    {t : ThreadId} {h : Happening} (ht : m.Handles t e) (hs : Step m t h m') (f : FactoryId)
    (w : Nat) : m'.store.registered f w = m.store.registered f w := by
  obtain ⟨stack, hc, fr, hfr, hhandles⟩ := ht
  cases hs.advance with
  | answer => rw [store_answer]
  | @act t c c' g ns hc' hmove =>
    obtain rfl := Option.some.inj (hc.symm.trans hc')
    refine (Control.counts_of_act hmove).registered_eq (fun e' below heq => ?_) f w
    -- the stack of a registration is the registration and its loop
    obtain rfl := Control.running.inj heq
    obtain ⟨-, -, hb⟩ := hm.sound.2 t _ hc
    obtain ⟨caller, rest, rfl, hcall, -, hrest⟩ := hb.exists_caller rfl
    cases hcall
    obtain rfl := hrest.eq_nil rfl
    simp only [List.mem_cons, List.not_mem_nil, or_false] at hfr
    obtain rfl : e' = e := by
      rcases hfr with rfl | rfl
      · simpa [Frame.handles] using hhandles
      · simp [Frame.handles] at hhandles
    have hle := weightOf_le_total (fun _ c => c.cargo.count (e', .counting)) hc
    rw [tokens] at hct
    simp [Frame.cargo] at hle
    omega

/-! ## The ledger -/

/-- **The ledger of a stream endpoint.** -/
structure Ledger (m : Machine) (e : EndpointId) (r : Endpoint) : Prop where
  /-- It is connecting while it is not closed and exactly one unrun job carries it. That it is not
  closed has to be said, as one that was closed while its job was queued is still carried. -/
  connecting : r.status.state = .connecting ↔ r.status.state ≠ .closed ∧ m.unrun e = 1
  /-- No unrun job carries it while it is open or registered. -/
  still : r.status.state = .opened ∨ r.status.state = .registered → m.unrun e = 0
  /-- At most one unrun job carries it when it is closed. -/
  closed : r.status.state = .closed → m.unrun e ≤ 1
  /-- And that job leaves it closed and registers nothing, whether it is run or dropped. -/
  inert : r.status.state = .closed → ∀ is m', m.Leads is m' →
    m'.store.state? e = some .closed ∧ ∀ t h m'', m'.Handles t e → Step m' t h m'' →
      ∀ f w, m''.store.registered f w = m'.store.registered f w

/-- **At rest, the state of a stream endpoint tells how many unrun jobs carry it**, but for
a closed one. -/
theorem Reachable.unrun_of_stream (hm : m.Reachable) (rest : m.AtRest) {r : Endpoint}
    (found : m.store.endpoints[e]? = some r) (stream : m.store.flavor? e = some .client) :
    (r.status.state = .connecting ∧ m.unrun e = 1)
      ∨ ((r.status.state = .opened ∨ r.status.state = .registered) ∧ m.unrun e = 0)
      ∨ (r.status.state = .closed ∧ m.unrun e ≤ 1) := by
  obtain ⟨htravelling, hzero⟩ := hm.tokens_of_atRest rest found
  have hstate : m.store.state? e = some r.status.state := by rw [Store.state?, found]; rfl
  obtain ⟨is, run⟩ := id hm
  have horder := run.inOrder e
  rw [Account.InOrder, show (m.account is e).flavor = some .client from stream] at horder
  have hsettled := horder.settled hzero
  simpa only [account, hstate, htravelling, Option.some.injEq] using hsettled

/-- **At rest, the ledger of every stream endpoint is balanced.** -/
theorem Reachable.ledger (hm : m.Reachable) (rest : m.AtRest) {r : Endpoint}
    (found : m.store.endpoints[e]? = some r) (stream : m.store.flavor? e = some .client) :
    m.Ledger e r := by
  obtain ⟨-, hzero⟩ := hm.tokens_of_atRest rest found
  have hstate : m.store.state? e = some r.status.state := by rw [Store.state?, found]; rfl
  have hcases := hm.unrun_of_stream rest found stream
  refine ⟨?_, ?_, ?_, fun hclosed is m' h => ?_⟩
  · grind
  · grind
  · grind
  · have hclosed : m.store.state? e = some .closed := hstate.trans (by rw [hclosed])
    obtain ⟨hst, hct⟩ := h.closed hm hclosed (hzero _ (by decide) (by decide))
    exact ⟨hst, fun t h' m'' ht hs => (h.reachable hm).registered_of_handles hct ht hs⟩

/-- An endpoint whose attempt has just been accepted. -/
def connected : Machine :=
  let made := ((empty.build .small).spawn none (Operation.create 0).control).play 0 30
  (made.spawn none (Operation.connect 0 "127.0.0.1:9").control).play 2 40

theorem reachable_connected : connected.Reachable := by
  have made := ((reachable_empty.build .small).call none (.create 0)).play 0 30
  exact (made.call none (.connect 0 "127.0.0.1:9")).play 2 40

/-- Its one unrun job waits for the boss. -/
theorem ledger_connected :
    ∃ r, connected.store.endpoints[0]? = some r ∧ r.status.state = .connecting
      ∧ connected.unrun 0 = 1 ∧ connected.Ledger 0 r :=
  ⟨⟨0, 0, 0, .connecting, some "127.0.0.1:9"⟩, by decide +kernel, rfl, by decide +kernel,
    reachable_connected.ledger (by decide +kernel) (by decide +kernel) (by decide +kernel)⟩

end Machine

end EndpointControl
