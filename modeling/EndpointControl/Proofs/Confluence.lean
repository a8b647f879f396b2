import EndpointControl.Proofs.Draining
import EndpointControl.Proofs.Sealing

/-!
# One outcome of all schedules

Between two operations of clients the loops run, in whatever order and however their
threads are interleaved, until each has ended or waits for more
(`Machine.Settling`). What comes of it can be told before they begin: an endpoint
that is queued with its worker will be registered, and so will one whose attempt is
queued with the boss, unless the worker has been told to end by now; every other
attempt is taken back (`Store.fate`, `Machine.Settling.endpoints`). So any two
schedules come to the same (`Machine.Settling.confluence`). All that is asked of what
happened before is that no loop has ended and left a job in its queue, and none has if
nobody came in between (`Machine.Uninterrupted.settling`).

The proof does not compare schedules. What has been queued is begun by whoever
settles; what has been begun is done; and nobody is registered who has not been
queued. Each of these is known of every history.
-/

open Finset

namespace EndpointControl

namespace Store

/-- **The endpoint will get to its worker**, or is there already: its registration is queued
with the worker, or its attempt with the boss and the worker has not been told to end. -/
def GetsThrough (s : Store) (e : EndpointId) (q : Endpoint) : Prop :=
  (∃ j ∈ s.queue q.home, j.endpoint = e)
    ∨ (∃ j ∈ s.queue q.boss, j.endpoint = e) ∧ ¬ s.ShutDown q.home

instance (s : Store) (e : EndpointId) (q : Endpoint) : Decidable (s.GetsThrough e q) :=
  inferInstanceAs (Decidable (_ ∨ _))

/-- The factory of an endpoint has its flavor. -/
theorem flavor_of_bound? {s : Store} {e : EndpointId} {l : LoopId} {fl : Flavor}
    (hl : s.bound? e = some l) (hfl : s.flavor? e = some fl) :
    ∀ fac, s.factories[l.factory]? = some fac → fac.flavor = fl := by
  intro fac hfac
  rw [flavor?_of_bound? hl, hfac, Option.map_some] at hfl
  exact Option.some.inj hfl

/-- **What becomes of an endpoint when the loops run.** -/
def fate (s : Store) (e : EndpointId) (q : Endpoint) : Status :=
  if s.GetsThrough e q then q.status.register.1 else q.status.revert

/-- Only what is closed already is closed in the end. -/
theorem state_of_fate_closed {s : Store} {e : EndpointId} {q : Endpoint}
    (h : (s.fate e q).state = .closed) : q.status.state = .closed := by
  obtain ⟨f, w, n, state, remote⟩ := q
  unfold fate at h
  split at h <;> cases state <;> first | rfl | cases h

end Store

/-- The thread runs a loop that waits. -/
def Control.isWaiting : Control → Bool
  | .running [.serve _ _ .wait] => true
  | _ => false

theorem Control.eq_of_isWaiting {c : Control} {l : LoopId} (h : c.isWaiting = true)
    (hl : c.serves? = some l) : ∃ mux, c = .running [.serve l mux .wait] := by
  unfold isWaiting at h
  split at h
  · rename_i l' mux
    obtain rfl : l' = l := Option.some.inj hl
    exact ⟨mux, rfl⟩
  · cases h

namespace Machine

/-- **Every loop has settled**: it has ended, or it waits, while nothing is queued and nobody
has told it to end. -/
def Settled (m : Machine) : Prop :=
  ∀ th ∈ m.threads, ∀ l ∈ th.control.serves?, m.store.Exited l
    ∨ th.control.isWaiting = true ∧ m.store.queue l = [] ∧ ¬ m.store.ShutDown l

instance (m : Machine) : Decidable m.Settled :=
  inferInstanceAs (Decidable (∀ th ∈ m.threads, ∀ l ∈ th.control.serves?, _))

/-- **The loops run until every one has settled**, from a machine in which nobody is in the
midst of anything. -/
structure Settling (is : List Incident) (m : Machine) (js : List Incident) (m' : Machine) :
    Prop where
  /-- Whatever has happened so far, -/
  run : Run is m
  /-- a loop that has ended has left nothing in its queue, -/
  drained : ∀ l, m.store.Exited l → m.store.queue l = []
  /-- and nobody is in the midst of anything. -/
  idle : m.Idle
  /-- From now on only the loops run, -/
  loops : m.LoopsRun js m'
  /-- and in the end they have settled. -/
  settled : m'.Settled

variable {m m' m₁ m₂ : Machine} {is js js₁ js₂ : List Incident} {t : ThreadId} {e : EndpointId}
  {l : LoopId} {f : FactoryId} {w : Nat} {j : Job} {q : Endpoint} {c : Control}

/-- **If nobody has come in between so far**, the loops that have ended have left nothing in
their queues. -/
theorem Uninterrupted.settling (r : Uninterrupted is m) (idle : m.Idle) (loops : m.LoopsRun js m')
    (settled : m'.Settled) : Settling is m js m' :=
  ⟨r.run, fun _ => r.queue_of_exited, idle, loops, settled⟩

/-! ## What is known between operations -/

/-- **With what it has begun, a worker has done**, while nobody is in the midst of
anything. -/
theorem Idle.past_of_begun (idle : m.Idle) (r : Run is m) (hj : j ∈ begun is ⟨f, .worker w⟩) :
    m.store.Past j.endpoint := by
  cases r.inTurn f w with
  | busy he => exact absurd he (idle.not_registering r.reachable _)
  | idle _ _ hdealt => exact (hdealt _ (List.mem_map_of_mem hj)).1

/-- **What the boss has begun has arrived**, while the worker goes on and nobody is in the
midst of anything. -/
theorem Idle.arrived (idle : m.Idle) (r : Run is m)
    (hfl : ∀ fac, m.store.factories[f]? = some fac → fac.flavor = .client)
    (hup : ¬ m.store.ShutDown ⟨f, .worker w⟩) :
    (pushed is ⟨f, .worker w⟩).map Job.endpoint
      = ((begun is ⟨f, .boss⟩).map Job.endpoint).filter
        (m.store.bound? · = some ⟨f, .worker w⟩) := by
  cases r.handsOver f w hfl with
  | underway he => exact absurd he (idle.not_errand r.reachable _)
  | idle _ _ hall => exact hall hup

/-- What a loop has begun is the first part of what has been appended to its queue. -/
theorem Traffic.begun_isPrefix (h : Traffic is m) (l : LoopId) : begun is l <+: pushed is l := by
  rw [(h.delivers l).order]
  simp

/-- **No endpoint is queued with its worker twice.** -/
theorem Run.nodup_worker (r : Run is m) (f : FactoryId) (w : Nat) :
    ((pushed is ⟨f, .worker w⟩).map Job.endpoint).Nodup := by
  by_cases hfl : ∀ fac, m.store.factories[f]? = some fac → fac.flavor = .datagram
  · exact (r.arrivesOnce f w hfl).nodup
  · have hclient : ∀ fac, m.store.factories[f]? = some fac → fac.flavor = .client := by
      intro fac hfac
      cases h : fac.flavor with
      | client => rfl
      | datagram =>
        refine absurd (fun fac' hfac' => ?_) hfl
        rw [← h, Option.some.inj (hfac'.symm.trans hfac)]
    -- what the boss has begun has been queued with it, once
    have hbegun : (((begun is ⟨f, .boss⟩).map Job.endpoint).filter
        (m.store.bound? · = some ⟨f, .worker w⟩)).Nodup :=
      ((r.nodup_boss f).sublist ((r.traffic.begun_isPrefix _).sublist.map _)).filter _
    exact hbegun.sublist (r.handsOver f w hclient).isPrefix.sublist

/-- **What a loop has begun it does not drop**, if it comes once. -/
theorem Traffic.not_dropped (h : Traffic is m) (hnodup : ((pushed is l).map Job.endpoint).Nodup)
    (hbegun : e ∈ (begun is l).map Job.endpoint) : e ∉ (dropped is l).map Job.endpoint := by
  intro hdropped
  rw [(h.delivers l).order] at hnodup
  simp only [List.map_append, List.append_assoc] at hnodup
  exact (List.nodup_append.mp hnodup).2.2 e hbegun e (by simp [hdropped]) rfl

/-- What has been dropped stays so. -/
theorem dropped_append (is is' : List Incident) (l : LoopId) :
    dropped (is ++ is') l = dropped is l ++ dropped is' l := by
  simp [dropped]

/-! ## Who has been counted -/

/-- What the notes say has been counted, the history counts. -/
theorem mem_counts_iff :
    e ∈ (is.flatMap Incident.notes).flatMap Note.counts ↔ 0 < counted is e := by
  rw [counted, List.count_pos_iff, List.mem_flatMap]
  constructor
  · rintro ⟨n, hn, he⟩
    cases n with
    | counted e' =>
      obtain rfl := List.mem_singleton.mp he
      exact hn
    | _ => cases he
  · exact fun he => ⟨_, he, List.mem_singleton_self _⟩

/-- **Between operations an endpoint that is not closed has been counted exactly if it is
registered.** -/
theorem Idle.counted_eq (idle : m.Idle) (r : Run is m) (hq : m.store.endpoints[e]? = some q)
    (hopen : q.status.state ≠ .closed) :
    counted is e = if q.status.state = .registered then 1 else 0 := by
  have hstate : m.store.state? e = some q.status.state := by rw [Store.state?, hq, Option.map_some]
  split
  · rename_i hst
    refine (r.inOrder e).counted_of_registered (hstate.trans (congrArg some hst)) ?_
    change m.tokens e .counting = 0
    rw [idle.tokens_eq r.reachable, Store.queued, count_cargo, if_neg (by decide)]
  · rename_i hst
    by_contra hne
    -- what has been counted has been begun, and so it is registered or closed
    have hmem : e ∈ m.registered is q.home := List.mem_filter.mpr
      ⟨mem_counts_iff.mpr (Nat.pos_of_ne_zero hne),
        decide_eq_true (Store.bound?_eq_some_iff.mpr ⟨q, hq, rfl⟩)⟩
    obtain ⟨j, hj, rfl⟩ := List.mem_map.mp ((r.inTurn q.factory q.worker).sublist.subset hmem)
    have hpast := idle.past_of_begun r hj
    rw [Store.Past, hstate, Option.some.injEq, Option.some.injEq] at hpast
    exact hpast.elim hst hopen

/-- **A closed endpoint is not counted any more**, if nobody was about to. -/
theorem Leads.counted_of_closed (h : m.Leads js m') (hm : m.Reachable)
    (hst : m.store.state? e = some .closed) (hct : m.tokens e .counting = 0) :
    counted js e = 0 := by
  induction h with
  | refl => rfl
  | @advance js m' m'' i h a ih =>
    obtain ⟨leg, hbooked⟩ := a.booked (h.reachable hm) [] e
    have hzero : (m'.account [] e).tokens .counting = 0 := (h.closed hm hst hct).2
    have htakes : leg.takes.count .counting = 0 := by
      by_contra hne
      refine hbooked.absurd_of_takes hzero (Nat.pos_of_ne_zero hne) ?_
      cases leg <;> first | rfl | exact absurd rfl hne
    have hcounted : counted ([] ++ [i]) e = counted [] e + leg.takes.count .counting :=
      hbooked.counted
    rw [counted_append, ih]
    simpa [htakes] using hcounted

/-! ## Settling -/

namespace Settling

section Facts

variable (h : Settling is m js m')

include h

theorem run' : Run (is ++ js) m' := h.loops.run h.run

/-- **Once all have settled, nobody is in the midst of anything**: whoever runs no loop has
not moved. -/
theorem idle' : m'.Idle := by
  intro th hth
  obtain ⟨t, ht, rfl⟩ := Array.mem_iff_getElem.mp hth
  have hc : m'.control? t = some m'.threads[t].control := by
    rw [control?, Array.getElem?_eq_getElem ht, Option.map_some]
  rcases h.loops.places h.run hc with hserves | ⟨o, ho⟩ | hc₀
  · obtain ⟨l, hl⟩ := Option.isSome_iff_exists.mp hserves
    rcases h.settled _ hth l hl with hexited | ⟨hwaiting, -⟩
    · have hserving := ((h.run'.reachable.sound.2 t _ hc).serving?_isSome_iff).mpr hl
      obtain ⟨mux, n, heq⟩ := (h.run'.ended hexited).2.2 t _ hc hserving
      rw [heq]
      rfl
    · obtain ⟨mux, heq⟩ := Control.eq_of_isWaiting hwaiting hl
      rw [heq]
      rfl
  · rw [ho]
    rfl
  · exact h.idle.control hc₀

/-- **A loop that has been started has settled.** -/
theorem cases_of_started (hs : m.store.Started l) : m'.store.Exited l
    ∨ m'.serving? l = some .wait ∧ m'.store.queue l = [] ∧ ¬ m.store.ShutDown l := by
  rcases h.run'.attended.1 l ((h.loops.started_iff h.run).mpr hs) with hexited | ⟨t, c, hc, hl⟩
  · exact .inl hexited
  · obtain ⟨th, hth, rfl⟩ := Option.map_eq_some_iff.mp hc
    refine (h.settled th (Array.mem_of_getElem? hth) l hl).imp_right fun ⟨hwaiting, hq, hup⟩ => ?_
    obtain ⟨mux, heq⟩ := Control.eq_of_isWaiting hwaiting hl
    refine ⟨h.run'.traffic.serving?_eq hc ?_, hq, fun told => hup ?_⟩
    · rw [heq, Control.serving?_serve]
    · exact (h.loops.shutDown_iff h.run).mpr told

/-- **A loop has ended exactly if it was told to.** -/
theorem exited_iff (hs : m.store.Started l) : m'.store.Exited l ↔ m.store.ShutDown l := by
  refine ⟨fun hexited => (h.loops.shutDown_iff h.run).mp (h.run'.ended hexited).1, fun told => ?_⟩
  exact (h.cases_of_started hs).resolve_right fun hwaits => hwaits.2.2 told

/-- **A loop that goes on has begun all that has ever been queued.** -/
theorem begun_eq (hs : m.store.Started l) (hup : ¬ m.store.ShutDown l) :
    begun (is ++ js) l = pushed (is ++ js) l := by
  rcases h.cases_of_started hs with hexited | ⟨hserving, hq, -⟩
  · exact absurd ((h.exited_iff hs).mp hexited) hup
  · have hnil : dropped (is ++ js) l = [] := by
      refine (h.run'.traffic.delivers l).undropped (fun p hp => ?_) fun hnone => ?_
      · obtain rfl := Option.some.inj (hserving.symm.trans hp)
        rfl
      · cases hserving.symm.trans hnone
    rw [h.idle'.pushed_eq h.run', hnil, hq, List.append_nil, List.append_nil]

/-- **What was queued when the loops began to run has been begun.** -/
theorem pushed_isPrefix (hq : m.store.queue l ≠ []) : pushed is l <+: begun (is ++ js) l := by
  obtain ⟨lp, found⟩ : ∃ lp, m.store.loop? l = some lp := by
    cases hl : m.store.loop? l with
    | none => exact absurd (by rw [Store.queue, hl]; rfl) hq
    | some lp => exact ⟨lp, rfl⟩
  have hs : m.store.Started l := by
    refine ⟨lp, found, h.run.reachable.sound.1.used found fun hnil => hq ?_⟩
    rw [Store.queue_eq found, hnil]
  -- the loop has not ended, as it leaves nothing in its queue then
  have hexited : ¬ m.store.Exited l := fun hexited => hq (h.drained l hexited)
  obtain ⟨t, c, hc, hl⟩ := (h.run.attended.1 l hs).resolve_left hexited
  obtain ⟨p, hp⟩ := Option.isSome_iff_exists.mp
    ((h.run.reachable.sound.2 t c hc).serving?_isSome_iff.mpr hl)
  have hserving := h.run.traffic.serving?_eq hc hp
  have hfresh : p.isFresh = true := by
    obtain rfl | rfl | ⟨n, -, hex⟩ := h.idle.serving?_cases h.run.reachable hserving
    · rfl
    · rfl
    · exact absurd hex hexited
  have hundrained : m.Undrained is l :=
    ⟨fun p' hp' => Option.some.inj (hserving.symm.trans hp') ▸ hfresh,
      fun hnone => by cases hserving.symm.trans hnone⟩
  rcases h.run.traffic.drains h.loops.leads hundrained with hundrained' | htaken
  · by_cases told : m.store.ShutDown l
    · -- a loop that has ended is beyond taking anything
      exact absurd hundrained' (h.run'.traffic.not_undrained ((h.exited_iff hs).mpr told))
    · rw [h.begun_eq hs told, pushed_append]
      exact List.prefix_append _ _
  · rwa [(h.idle'.batch_eq_nil h.run'.reachable).1, List.append_nil] at htaken

theorem begun_of_queued (hj : j ∈ m.store.queue l) : j ∈ begun (is ++ js) l := by
  refine (h.pushed_isPrefix (List.ne_nil_of_mem hj)).subset ?_
  rw [h.idle.pushed_eq h.run]
  exact List.mem_append_right _ hj

/-- **Nothing has come to a loop that had been told to end.** -/
theorem pushed_eq_nil (told : m.store.ShutDown l) : pushed js l = [] := by
  obtain ⟨f, _ | w⟩ := l
  · exact h.loops.pushed_boss h.run
  · exact (h.run.pushed_of_told h.loops.leads told
      fun _ _ => h.idle.not_errand h.run.reachable _).1

/-- **Nothing is queued any more.** -/
theorem queue_eq_nil (l : LoopId) : m'.store.queue l = [] := by
  by_cases hs : m.store.Started l
  · rcases h.cases_of_started hs with hexited | ⟨-, hq, -⟩
    · have told := (h.exited_iff hs).mp hexited
      have hafter := h.idle'.pushed_eq h.run' (l := l)
      rw [pushed_append, h.pushed_eq_nil told, List.append_nil] at hafter
      have hlength := congrArg List.length hafter
      simp only [List.length_append] at hlength
      apply List.eq_nil_of_length_eq_zero
      -- all that was appended before has been begun or dropped
      by_cases hq : m.store.queue l = []
      · have hbefore := congrArg List.length (h.idle.pushed_eq h.run (l := l))
        rw [hq, List.append_nil, List.length_append] at hbefore
        have hbegun : (begun is l).length ≤ (begun (is ++ js) l).length := by simp [begun]
        rw [dropped_append, List.length_append] at hlength
        omega
      · have hle := (h.pushed_isPrefix hq).length_le
        omega
    · exact hq
  · -- nothing is queued with a loop that has not been started
    rw [← h.loops.started_iff h.run] at hs
    cases hl : m'.store.loop? l with
    | none => rw [Store.queue, hl]; rfl
    | some lp =>
      rw [Store.queue_eq hl]
      by_contra hne
      exact hs ⟨lp, hl, h.run'.reachable.sound.1.used hl fun hnil => hne (by rw [hnil])⟩

/-- **Nobody is connecting any more.** -/
theorem not_connecting (e : EndpointId) : m'.store.state? e ≠ some .connecting := by
  intro hstate
  obtain ⟨-, j, hj, -⟩ := h.idle'.waiting_of_connecting h.run' hstate
  unfold Store.waiting at hj
  split at hj
  · rw [h.queue_eq_nil, h.queue_eq_nil] at hj
    cases hj
  · cases hj

/-! ## Who gets through -/

/-- **Who gets through is registered in the end**, or has been closed. -/
theorem past_of_getsThrough (hq : m.store.endpoints[e]? = some q)
    (hgets : m.store.GetsThrough e q) : m'.store.Past e := by
  have hbound : m.store.bound? e = some q.home := Store.bound?_eq_some_iff.mpr ⟨q, hq, rfl⟩
  have hbound' := h.loops.leads.grows.bound? hbound
  rcases hgets with ⟨j, hj, rfl⟩ | ⟨⟨j, hj, rfl⟩, hup⟩
  · exact h.idle'.past_of_begun h.run' (h.begun_of_queued hj)
  · -- the boss has begun the attempt, so the registration has arrived
    have hbegun := h.begun_of_queued hj
    obtain ⟨lp, hlp, -⟩ := (h.run'.placed_of_pushed (h.run'.traffic.mem_pushed_of_begun hbegun)).2
    have hclient := Store.flavor?_of_boss hbound' (Option.isSome_iff_exists.mpr ⟨lp, hlp⟩)
    have harrived := h.idle'.arrived (f := q.factory) h.run'
      (Store.flavor_of_bound? hbound' hclient)
      fun told => hup ((h.loops.shutDown_iff h.run).mp told)
    have hmem : j.endpoint ∈ (pushed (is ++ js) q.home).map Job.endpoint := by
      rw [Endpoint.home, harrived]
      exact List.mem_filter.mpr ⟨List.mem_map_of_mem hbegun, decide_eq_true hbound'⟩
    rw [← h.begun_eq (h.run.reachable.sound.1.bound hq) hup] at hmem
    obtain ⟨j', hj', heq⟩ := List.mem_map.mp hmem
    exact heq ▸ h.idle'.past_of_begun h.run' hj'

/-- **What has come to a worker while the loops ran was queued with the boss before**, and the
worker had not been told to end. -/
theorem queued_of_arrived (hj : j ∈ pushed js ⟨f, .worker w⟩) :
    ¬ m.store.ShutDown ⟨f, .worker w⟩
      ∧ ∃ j' ∈ m.store.queue ⟨f, .boss⟩, j'.endpoint = j.endpoint := by
  have hup : ¬ m.store.ShutDown ⟨f, .worker w⟩ := fun told => by
    rw [h.pushed_eq_nil told] at hj
    cases hj
  refine ⟨hup, ?_⟩
  have hmem : j ∈ pushed (is ++ js) ⟨f, .worker w⟩ :=
    pushed_append is js _ ▸ List.mem_append_right _ hj
  -- its endpoint was there before, and is a stream endpoint
  have hbound' := h.run'.bound?_of_pushed hmem
  have hbound : m.store.bound? j.endpoint = some ⟨f, .worker w⟩ :=
    ((h.loops.counts h.run).2.2 j.endpoint).symm.trans hbound'
  obtain ⟨r, hr⟩ := Store.has_of_bound? hbound
  have hclient' : m'.store.flavor? j.endpoint = some .client := by
    obtain ⟨e, rfl, hclient⟩ := h.loops.of_mem_pushed h.run hj
    exact hclient
  have hclient : m.store.flavor? j.endpoint = some .client :=
    (h.run.reachable.sound.1.flavor?_eq_of_some h.loops.leads.grows hr).symm.trans hclient'
  -- so it is with it that the boss has begun, and not before the loops ran
  have hout := (h.run'.handsOver f w (Store.flavor_of_bound? hbound' hclient')).isPrefix.subset
    (List.mem_map_of_mem hmem)
  obtain ⟨j', hbegun', heq⟩ := List.mem_map.mp (List.mem_filter.mp hout).1
  have hpushed := h.run'.traffic.mem_pushed_of_begun hbegun'
  rw [pushed_append, h.loops.pushed_boss h.run, List.append_nil, h.idle.pushed_eq h.run,
    List.mem_append, List.mem_append] at hpushed
  rcases hpushed with (hbegun | hdropped) | hqueued
  · have harrived := h.idle.arrived h.run (Store.flavor_of_bound? hbound hclient) hup
    have hbefore : j.endpoint ∈ (pushed is ⟨f, .worker w⟩).map Job.endpoint := by
      rw [harrived]
      exact List.mem_filter.mpr ⟨heq ▸ List.mem_map_of_mem hbegun, decide_eq_true hbound⟩
    have hnodup := h.run'.nodup_worker f w
    rw [pushed_append, List.map_append] at hnodup
    exact absurd rfl
      ((List.nodup_append.mp hnodup).2.2 _ hbefore _ (List.mem_map_of_mem hj))
  · refine absurd ?_ (h.run'.traffic.not_dropped (h.run'.nodup_boss f)
      (List.mem_map_of_mem hbegun'))
    rw [dropped_append, List.map_append]
    exact List.mem_append_left _ (List.mem_map_of_mem hdropped)
  · exact ⟨j', hqueued, heq⟩

/-- What becomes of an endpoint is one of the things that can. -/
theorem becomes (hq : m.store.endpoints[e]? = some q) :
    ∃ st, m'.store.endpoints[e]? = some { q with status := st } ∧ q.status.Becomes st := by
  refine h.loops.becomes h.run hq fun hst => (h.idle.waiting_of_connecting h.run ?_).1
  rw [Store.state?, hq, Option.map_some, hst]

/-- **Nobody else is registered.** -/
theorem registered_before (hq : m.store.endpoints[e]? = some q)
    (hgets : ¬ m.store.GetsThrough e q) (hstate' : m'.store.state? e = some .registered) :
    q.status.state = .registered := by
  have hbound : m.store.bound? e = some q.home := Store.bound?_eq_some_iff.mpr ⟨q, hq, rfl⟩
  have hbegun' := h.run'.mem_begun_of_registered hstate' (h.loops.leads.grows.bound? hbound)
  obtain ⟨j, hj, rfl⟩ := List.mem_map.mp hbegun'
  have hpushed := h.run'.traffic.mem_pushed_of_begun hj
  rw [pushed_append, List.mem_append, h.idle.pushed_eq h.run, List.mem_append, List.mem_append]
    at hpushed
  rcases hpushed with ((hbegun | hdropped) | hqueued) | harrived
  · -- the worker had done with it, and what was closed stays closed
    obtain ⟨st, hq', hbecomes⟩ := h.becomes hq
    rw [Store.state?, hq', Option.map_some, Option.some.injEq] at hstate'
    have hpast := h.idle.past_of_begun h.run hbegun
    rw [Store.Past, Store.state?, hq, Option.map_some, Option.some.injEq, Option.some.injEq]
      at hpast
    rcases hpast with hst | hst
    · exact hst
    · rw [hbecomes.eq_of_closed hst] at hstate'
      exact hstate'
  · refine absurd ?_ (h.run'.traffic.not_dropped (h.run'.nodup_worker _ _) hbegun')
    rw [dropped_append, List.map_append]
    exact List.mem_append_left _ (List.mem_map_of_mem hdropped)
  · exact absurd (.inl ⟨j, hqueued, rfl⟩) hgets
  · obtain ⟨hup, j', hj', heq⟩ := h.queued_of_arrived harrived
    exact absurd (.inr ⟨⟨j', hj', heq⟩, hup⟩) hgets

/-- **What becomes of an endpoint is settled before the loops run.** -/
theorem endpoints (hq : m.store.endpoints[e]? = some q) :
    m'.store.endpoints[e]? = some { q with status := m.store.fate e q } := by
  obtain ⟨st, hq', hbecomes⟩ := h.becomes hq
  have hstate' : m'.store.state? e = some st.state := by rw [Store.state?, hq', Option.map_some]
  rw [hq', Store.fate]
  split
  · rename_i hgets
    have hpast := h.past_of_getsThrough hq hgets
    rw [Store.Past, hstate', Option.some.injEq, Option.some.injEq] at hpast
    rw [hbecomes.eq_register hpast]
  · rename_i hgets
    have hne : st.state ≠ .connecting := fun hst =>
      h.not_connecting e (hstate'.trans (congrArg some hst))
    rw [hbecomes.eq_revert hne fun hst =>
      h.registered_before hq hgets (hstate'.trans (congrArg some hst))]

/-! ## What is counted -/

/-- **How often an endpoint has been counted in the end is settled before the loops run.** -/
theorem counted_eq (hq : m.store.endpoints[e]? = some q) : counted (is ++ js) e
    = if q.status.state = .closed then counted is e
      else if (m.store.fate e q).state = .registered then 1 else 0 := by
  split
  · rename_i hst
    have hzero : m.tokens e .counting = 0 := by
      rw [h.idle.tokens_eq h.run.reachable, Store.queued, count_cargo, if_neg (by decide)]
    have hstate : m.store.state? e = some .closed := by
      rw [Store.state?, hq, Option.map_some, hst]
    rw [counted_append, h.loops.leads.counted_of_closed h.run.reachable hstate hzero, Nat.add_zero]
  · rename_i hst
    refine h.idle'.counted_eq h.run' (h.endpoints hq) fun hclosed => hst ?_
    exact Store.state_of_fate_closed hclosed

/-- **Which loops run in the end**: those that have been started, but for those that have
been told to end. -/
theorem running_iff : m'.store.Running l ↔ m.store.Started l ∧ ¬ m.store.ShutDown l := by
  constructor
  · rintro ⟨lp, hlp, hrunning⟩
    rw [Loop.running, Bool.and_eq_true, Bool.not_eq_true'] at hrunning
    have hs := (h.loops.started_iff h.run).mp ⟨lp, hlp, hrunning.1⟩
    refine ⟨hs, fun told => ?_⟩
    obtain ⟨lp', hlp', hexited⟩ := (h.exited_iff hs).mpr told
    obtain rfl := Option.some.inj (hlp.symm.trans hlp')
    cases hexited.symm.trans hrunning.2
  · rintro ⟨hs, hup⟩
    obtain ⟨lp, hlp, hstarted⟩ := (h.loops.started_iff h.run).mpr hs
    refine ⟨lp, hlp, ?_⟩
    rw [Loop.running, hstarted, Bool.true_and, Bool.not_eq_true']
    by_contra hexited
    exact hup ((h.exited_iff hs).mp ⟨lp, hlp, Bool.eq_true_of_not_eq_false hexited⟩)

end Facts

end Settling

/-! ## Confluence -/

/-- **Two machines in which nobody can tell the difference**: the endpoints have the same
states and addresses, the counters show the same, and the same loops run. -/
structure SameOutcome (m₁ m₂ : Machine) : Prop where
  endpoints : m₁.store.endpoints = m₂.store.endpoints
  registered : ∀ f w, m₁.store.registered f w = m₂.store.registered f w
  assigned : ∀ f w, m₁.store.assigned f w = m₂.store.assigned f w
  attempts : ∀ f, m₁.store.attempts f = m₂.store.attempts f
  running : ∀ l, m₁.store.Running l ↔ m₂.store.Running l

/-- **What the loops carry through** until they have settled. -/
structure CarriedThrough (m : Machine) (js : List Incident) (m' : Machine) : Prop where
  /-- Nobody is connecting any more. -/
  connecting : ∀ e, m'.store.state? e ≠ some .connecting
  /-- In a factory that has not been released, every endpoint that was connecting is
  registered with the address of its attempt, and has been counted once. -/
  registered : ∀ (f : FactoryId) (fac : Factory), m.store.factories[f]? = some fac →
    fac.released = false → ∀ (e : EndpointId) (q : Endpoint), m.store.endpoints[e]? = some q →
    q.factory = f → q.status.state = .connecting →
    m'.store.endpoints[e]? = some { q with status := ⟨.registered, q.status.remote⟩ }
      ∧ counted js e = 1
  /-- Every worker has counted its own endpoints. -/
  counted : ∀ f w, m'.store.registered f w
    = m.store.registered f w + ∑ e ∈ m.store.boundTo f w, EndpointControl.counted js e

namespace Settling

theorem endpoints_eq (h : Settling is m js m') (e : EndpointId) : m'.store.endpoints[e]?
    = (m.store.endpoints[e]?).map fun q => { q with status := m.store.fate e q } := by
  cases hq : m.store.endpoints[e]? with
  | some q => exact h.endpoints hq
  | none =>
    have hbindings := (h.loops.counts h.run).2.2 e
    rw [hq, Option.map_none, Option.map_eq_none_iff] at hbindings
    exact hbindings

theorem sameOutcome (h₁ : Settling is m js₁ m₁) (h₂ : Settling is m js₂ m₂) :
    m₁.SameOutcome m₂ := by
  obtain ⟨hattempts₁, hassigned₁, hbindings₁⟩ := h₁.loops.counts h₁.run
  obtain ⟨hattempts₂, hassigned₂, hbindings₂⟩ := h₂.loops.counts h₂.run
  refine ⟨Array.ext_getElem? fun e => ?_, fun f w => ?_, fun f w => ?_, fun f => ?_, fun l => ?_⟩
  · rw [h₁.endpoints_eq, h₂.endpoints_eq]
  · rw [h₁.run'.registered_eq, h₂.run'.registered_eq, Store.boundTo, Store.boundTo,
      hbindings₁.endpointsOf, hbindings₂.endpointsOf]
    refine sum_congr rfl fun e he => ?_
    obtain ⟨q, hq, -⟩ := Store.mem_endpointsOf.mp he
    rw [h₁.counted_eq hq, h₂.counted_eq hq]
  · rw [hassigned₁, hassigned₂]
  · rw [hattempts₁, hattempts₂]
  · rw [h₁.running_iff, h₂.running_iff]

theorem carriedThrough (h : Settling is m js m') : m.CarriedThrough js m' := by
  refine ⟨h.not_connecting, fun f fac hfac hreleased e q hq hf hst => ?_, fun f w => ?_⟩
  · -- one of the jobs that wait for its boss and its worker carries it
    have hstate : m.store.state? e = some .connecting := by
      rw [Store.state?, hq, Option.map_some, hst]
    obtain ⟨-, j, hj, he⟩ := h.idle.waiting_of_connecting h.run hstate
    simp only [Store.waiting, hq, List.mem_append] at hj
    have hgets : m.store.GetsThrough e q := by
      refine hj.symm.imp (fun hj => ⟨j, hj, he⟩) fun hj => ⟨⟨j, hj, he⟩, fun told => ?_⟩
      obtain ⟨fac', hfac', hup⟩ := h.run.letGoOf_of_shutDown told
      rw [show q.home.factory = f from hf, hfac] at hfac'
      cases hreleased.symm.trans (Option.some.inj hfac' ▸ hup)
    have hfate : m.store.fate e q = ⟨.registered, q.status.remote⟩ := by
      rw [Store.fate, if_pos hgets, Status.register, hst]
    have hne : q.status.state ≠ .closed := by rw [hst]; decide
    refine ⟨hfate ▸ h.endpoints hq, ?_⟩
    have hbefore := h.idle.counted_eq h.run hq hne
    have hafter := h.counted_eq hq
    rw [if_neg hne, hfate, if_pos rfl, counted_append, hbefore, hst] at hafter
    simpa using hafter
  · rw [h.run'.registered_eq, h.run.registered_eq, Store.boundTo,
      (h.loops.counts h.run).2.2.endpointsOf, ← Store.boundTo, ← sum_add_distrib]
    exact sum_congr rfl fun e _ => counted_append ..

/-- **The loops are confluent.** However the threads of the loops are interleaved and
whatever they are answered, from a machine in which nobody is in the midst of anything: once
every loop has settled, the endpoints, the counters and the loops that run are the same.
Nobody is connecting then, and whoever was connecting in a factory that has not been
released is registered, and has been counted once. -/
theorem confluence (h₁ : Settling is m js₁ m₁) (h₂ : Settling is m js₂ m₂) :
    m₁.SameOutcome m₂ ∧ m.CarriedThrough js₁ m₁ :=
  ⟨h₁.sameOutcome h₂, h₁.carriedThrough⟩

end Settling

end Machine

/-! ## Playing schedules -/

/-- **A schedule of the loops**, with the machine that it leads to. -/
structure Schedule (m : Machine) where
  incidents : List Incident
  machine : Machine
  loops : m.LoopsRun incidents machine

namespace Schedule

variable {m : Machine}

/-- Nobody has moved. -/
def empty (m : Machine) : Schedule m := ⟨[], m, .refl⟩

/-- **The thread of a loop makes so many steps**, and is granted what it asks for. -/
def turn (sc : Schedule m) (t : ThreadId) : Nat → Schedule m
  | 0 => sc
  | n + 1 =>
    match hc : sc.machine.control? t with
    | none => sc
    | some c =>
      match hl : c.serves? with
      | none => sc
      | some _ =>
        match hmove : sc.machine.move t with
        | .act _ _ _ =>
          turn ⟨_, _, sc.loops.advance hc hl (Machine.Step.act hmove).advance⟩ t n
        | .ask q _ =>
          turn ⟨_, _, sc.loops.advance hc hl
            (Machine.Step.answer hmove (Machine.granted q)).advance⟩ t n
        | .blocked _ | .stuck => sc

end Schedule

/-- Attempts at two endpoints of a factory with two workers, and at one of a factory that is
released then; nobody runs a loop yet. -/
def History.awaiting : History :=
  let first : Blueprint := ⟨.client 0 1, ⟨2, Nat.two_pos, ⟨0, ⟨"fake", none⟩⟩, .unconstrained⟩⟩
  let second : Blueprint := ⟨.client 2 3, ⟨1, Nat.one_pos, ⟨0, ⟨"fake", none⟩⟩, .unconstrained⟩⟩
  let one := (((empty.build first).build second).call none (.create 0)).turn 0 40
  let two := (one.call none (.create 0)).turn 2 40
  let three := (two.call none (.create 1)).turn 4 40
  let four := (three.call none (.connect 0 "127.0.0.1:9")).turn 6 40
  let five := (four.call none (.connect 1 "127.0.0.1:9")).turn 8 40
  let six := (five.call none (.connect 2 "127.0.0.1:9")).turn 9 40
  (six.call none (.release 1)).turn 11 60

/-- The loops run one after the other, each boss before its workers. -/
def Schedule.successive : Schedule History.awaiting.machine :=
  (((((empty _).turn 7 38).turn 1 13).turn 3 13).turn 10 27).turn 5 13

/-- The same loops, in bits: a worker has registered its endpoint before the boss that has
queued it has woken it, and another has ended before its boss begins. -/
def Schedule.interleaved : Schedule History.awaiting.machine :=
  (((((((empty _).turn 5 3).turn 7 16).turn 1 13).turn 3 8).turn 7 22).turn 5 10).turn 10 27
    |>.turn 3 14

/-- The two endpoints of the first factory are registered in the end, and the third is open
again. -/
theorem confluence_interleaved :
    let m := History.awaiting.machine
    let m₁ := Schedule.successive.machine
    let m₂ := Schedule.interleaved.machine
    m₁.SameOutcome m₂ ∧ m.CarriedThrough Schedule.successive.incidents m₁
      ∧ Schedule.successive.incidents.length ≠ Schedule.interleaved.incidents.length
      ∧ (∀ e < 3, m.store.state? e = some .connecting) ∧ m₂.store.state? 0 = some .registered
      ∧ m₂.store.state? 1 = some .registered ∧ m₂.store.state? 2 = some .opened
      ∧ ∃ fac, m.store.factories[0]? = some fac ∧ fac.released = false := by
  intro m m₁ m₂
  -- both schedules are gone through once for all that is seen by it
  obtain ⟨idle, hsettled₁, hsettled₂, hfacts, hfac⟩ : m.Idle ∧ m₁.Settled ∧ m₂.Settled
      ∧ (Schedule.successive.incidents.length ≠ Schedule.interleaved.incidents.length
        ∧ (∀ e < 3, m.store.state? e = some .connecting) ∧ m₂.store.state? 0 = some .registered
        ∧ m₂.store.state? 1 = some .registered ∧ m₂.store.state? 2 = some .opened)
      ∧ (m.store.factories[0]?).any (fun fac => !fac.released) = true := by decide +kernel
  have h₁ : Machine.Settling History.awaiting.incidents m Schedule.successive.incidents m₁ :=
    History.awaiting.orderly.uninterrupted.settling idle Schedule.successive.loops hsettled₁
  have h₂ : Machine.Settling History.awaiting.incidents m Schedule.interleaved.incidents m₂ :=
    History.awaiting.orderly.uninterrupted.settling idle Schedule.interleaved.loops hsettled₂
  obtain ⟨hsame, hcarried⟩ := h₁.confluence h₂
  obtain ⟨hlength, hbefore, hzero, hone, htwo⟩ := hfacts
  obtain ⟨fac, hfac, hreleased⟩ := (Option.any_eq_true ..).mp hfac
  exact ⟨hsame, hcarried, hlength, hbefore, hzero, hone, htwo, fac, hfac, by simpa using hreleased⟩

end EndpointControl
