import EndpointControl.Proofs.Afterwards
import EndpointControl.Proofs.Demand

/-!
# Started once, and on one multiplexer

However many threads start a loop, submit to it and tell it to end, and whatever
providers and executors answer, a multiplexer is opened for it once at most and an
executor takes it once at most (`Machine.Launched`). A start that an executor has
refused leaves the multiplexer in the slot, so nobody opens again; one whose opening
failed leaves the slot empty, so the next one opens, unless somebody else does.

A call fails for the reason that it was itself given, and for no other (`FailsAs`,
`StartEnds.failsAs`, `SubmitEnds.failsAs`). That is all there is to say of a single
loop; which loops a factory starts at all is `Machine.OnDemand`.
-/

namespace EndpointControl

/-- Somebody asks for a multiplexer for the loop, whatever the answer. -/
def Incident.asksToOpen (l : LoopId) : Incident → Bool
  | .stepped _ (.answered (.openMultiplexer l' _) _) => l' = l
  | _ => false

/-- **The loop is running**: it has been started and has not ended. -/
def Store.Running (s : Store) (l : LoopId) : Prop :=
  ∃ lp, s.loop? l = some lp ∧ lp.running = true

/-- Who offers a loop to an executor names its multiplexer. -/
theorem Incident.mem_names_execute (t : ThreadId) (x : ExecutorId) (l : LoopId)
    (mux : Multiplexer) (taken : Bool) :
    mux ∈ (Incident.stepped t (.answered (.execute x l mux) taken)).names l := by
  simp [Incident.names, Request.names]

theorem mem_answersTo {t : ThreadId} {is : List Incident} {q : Request} {reply : q.Reply} :
    ⟨q, reply⟩ ∈ answersTo t is ↔ .stepped t (.answered q reply) ∈ is := by
  rw [answersTo, List.mem_flatMap]
  constructor
  · rintro ⟨i, hi, hmem⟩
    unfold Incident.answersTo at hmem
    split at hmem
    · rename_i t' q' reply'
      by_cases ht : t' = t
      · subst ht
        rw [if_pos rfl, List.mem_singleton] at hmem
        cases hmem
        exact hi
      · simp [ht] at hmem
    · exact absurd hmem List.not_mem_nil
  · intro hi
    exact ⟨_, hi, by simp [Incident.answersTo]⟩

/-- What an incident has opened, somebody has been given. -/
theorem Incident.eq_of_mem_opened {i : Incident} {l : LoopId} {mux : Multiplexer}
    (h : mux ∈ i.opened l) :
    ∃ t p, i = .stepped t (.answered (.openMultiplexer l p) (.ok mux)) := by
  unfold opened at h
  split at h
  · rename_i t l' p mux'
    by_cases hl : l' = l
    · subst hl
      rw [if_pos rfl, List.mem_singleton] at h
      exact ⟨t, p, h ▸ rfl⟩
    · simp [hl] at h
  · exact absurd h List.not_mem_nil

theorem exists_of_mem_opened {is : List Incident} {l : LoopId} {mux : Multiplexer}
    (h : mux ∈ opened is l) :
    ∃ t p, .stepped t (.answered (.openMultiplexer l p) (.ok mux)) ∈ is := by
  obtain ⟨i, hi, hmem⟩ := List.mem_flatMap.mp h
  obtain ⟨t, p, rfl⟩ := Incident.eq_of_mem_opened hmem
  exact ⟨t, p, hi⟩

namespace Machine

variable {m m' m'' : Machine} {i : Incident} {is is' is₀ : List Incident} {l : LoopId}
  {t : ThreadId} {below : List Frame} {j : Job}

/-- **Somebody asks for a multiplexer only while the slot is empty.** -/
theorem Traffic.slot_of_asksToOpen (h : Traffic is m) (a : m.Advance i m')
    (hi : i.asksToOpen l = true) : m.store.slot? l = none := by
  cases a with
  | answer hc hmove reply =>
    obtain ⟨fr, rest, rfl, hask⟩ := Control.asks hmove
    cases hask with
    | openNew =>
      obtain rfl := of_decide_eq_true hi
      exact ((h.launch _).fits hc).1
    | _ => exact absurd hi nofun
  | _ => exact absurd hi nofun

/-- **A full slot keeps everybody from asking for a multiplexer.** -/
theorem Traffic.not_asksToOpen (h : Traffic is m) {mux : Multiplexer}
    (hslot : m.store.slot? l = some mux) (h' : m.Unfolds is' m') (hi : i ∈ is') :
    i.asksToOpen l = false := by
  obtain ⟨is₁, is₂, rfl⟩ := List.append_of_mem hi
  obtain ⟨m₁, m₂, h₁, a, -⟩ := h'.split
  have hkept := h₁.slot_kept h hslot
  by_contra hasks
  have hnone := (h.unfolds h₁).slot_of_asksToOpen a (Bool.eq_true_of_not_eq_false hasks)
  exact absurd (hkept.symm.trans hnone) nofun

end Machine

/-! ## Why a call fails -/

/-- **A call that returns this has failed for what it was told**, and for nothing else. -/
structure FailsAs (l : LoopId) (r : Except Failure Unit) (as : List Answer) : Prop where
  /-- It fails because the loop has been told to end, because of a multiplexer, or because
  of an executor. -/
  kinds : ∀ e, r = .error e → e = .released ∨ (∃ id cause, e = .unopened id cause)
    ∨ ∃ role, e = .refused role
  /-- It fails because of a multiplexer exactly if it has failed to open one itself. -/
  unopened : ∀ id cause, r = .error (.unopened id cause)
    ↔ ∃ p : Provider, p.identity = id ∧ ⟨.openMultiplexer l p, .error cause⟩ ∈ as
  /-- It fails because of the executor, which it names by the role of the loop, exactly if
  the executor has refused the loop to it. -/
  refused : ∀ role, r = .error (.refused role)
    ↔ role = l.seat.role ∧ ∃ x mux, ⟨.execute x l mux, false⟩ ∈ as

section Ends

variable {s : Store} {l : LoopId} {j : Job} {r : Except Failure Unit} {as : List Answer}
  {ps : List Note}

theorem StartEnds.failsAs (h : StartEnds s l r as) : FailsAs l r as := by
  cases h with
  | already | told => constructor <;> simp
  | unopened => constructor <;> simp +contextual [eq_comm]
  | refused hm => cases hm <;> constructor <;> simp [eq_comm]
  | started _ hm => cases hm <;> constructor <;> simp

theorem SubmitEnds.failsAs (h : SubmitEnds s l j r as ps) : FailsAs l r as := by
  cases h with
  | accepted h =>
    obtain ⟨hk, hu, hr⟩ := h.failsAs
    constructor <;> simp_all
  | refused h => exact h.failsAs
  | late _ h =>
    obtain ⟨hk, hu, hr⟩ := h.failsAs
    constructor <;> simp_all

/-- **A start that succeeds, or fails because of the executor, has asked for a multiplexer
or found one.** -/
theorem StartEnds.asks_or (h : StartEnds s l r as) (hd : ¬ s.ShutDown l) :
    (∃ p reply, ⟨.openMultiplexer l p, reply⟩ ∈ as) ∨ s.Started l
      ∨ ∃ x mux taken, ⟨.execute x l mux, taken⟩ ∈ as := by
  cases h with
  | already h => exact .inr (.inl h)
  | told h => exact absurd h hd
  | unopened => exact .inl ⟨_, _, List.mem_singleton.mpr rfl⟩
  | refused | started =>
    exact .inr (.inr ⟨_, _, _, List.mem_append_right _ (List.mem_singleton.mpr rfl)⟩)

theorem SubmitEnds.asks_or (h : SubmitEnds s l j r as ps) (hd : ¬ s.ShutDown l) :
    (∃ p reply, ⟨.openMultiplexer l p, reply⟩ ∈ as) ∨ s.Started l
      ∨ ∃ x mux taken, ⟨.execute x l mux, taken⟩ ∈ as := by
  cases h with
  | accepted h =>
    rcases h.asks_or hd with ⟨p, reply, h⟩ | h | ⟨x, mux, taken, h⟩
    · exact .inl ⟨p, reply, List.mem_append_left _ h⟩
    · exact .inr (.inl h)
    · exact .inr (.inr ⟨x, mux, taken, List.mem_append_left _ h⟩)
  | refused h => exact h.asks_or hd
  | late told => exact absurd told hd

/-- A submission that succeeds has woken a multiplexer of the loop. -/
theorem SubmitEnds.wakes (h : SubmitEnds s l j (.ok ()) as ps) :
    ∃ mux reply, ⟨.wake l mux, reply⟩ ∈ as := by
  cases h
  exact ⟨_, _, List.mem_append_right _ (List.mem_singleton.mpr rfl)⟩

end Ends

namespace Machine

variable {m m' m₀ : Machine} {i : Incident} {is is' is₀ : List Incident} {l : LoopId}
  {t : ThreadId} {below : List Frame} {j : Job}

/-- **How a call returns that has its loop started.** -/
structure Returns (m' : Machine) (is₀ is' : List Incident) (t : ThreadId) (below : List Frame)
    (l : LoopId) (r : Except Failure Unit) : Prop where
  /-- It returns to where it was called from. -/
  place : m'.control? t = some (.back below r)
  /-- If it fails, then for what it was told. -/
  fails : FailsAs l r (answersTo t is')
  /-- If nothing had been opened before, it has tried to open a multiplexer, unless somebody
  else has opened one meanwhile or the loop has been told to end. -/
  tries : opened is₀ l = [] → ¬ m'.store.ShutDown l →
    (∃ p reply, ⟨.openMultiplexer l p, reply⟩ ∈ answersTo t is')
      ∨ ∃ t' p mux, t' ≠ t ∧ .stepped t' (.answered (.openMultiplexer l p) (.ok mux)) ∈ is'

/-- What is in the slot at the end of a call has been opened in its course, by the caller
or by somebody else, if nothing had been opened before. -/
theorem Traffic.opens_during (h : Traffic (is₀ ++ is') m') (hnone : opened is₀ l = [])
    {mux : Multiplexer} (hslot : m'.store.slot? l = some mux) (t : ThreadId) :
    (∃ p reply, ⟨.openMultiplexer l p, reply⟩ ∈ answersTo t is')
      ∨ ∃ t' p mux, t' ≠ t ∧ .stepped t' (.answered (.openMultiplexer l p) (.ok mux)) ∈ is' := by
  have hopened := h.opened_of_slot hslot
  rw [opened, List.flatMap_append, ← opened, hnone, List.nil_append] at hopened
  have hmem : mux ∈ opened is' l := by rw [opened, hopened]; exact List.mem_singleton.mpr rfl
  obtain ⟨t', p, hi⟩ := exists_of_mem_opened hmem
  by_cases ht : t' = t
  · exact .inl ⟨p, .ok mux, mem_answersTo.mpr (ht ▸ hi)⟩
  · exact .inr ⟨t', p, mux, ht, hi⟩

theorem Traffic.tries (h : Traffic (is₀ ++ is') m')
    (hends : (∃ p reply, ⟨.openMultiplexer l p, reply⟩ ∈ answersTo t is') ∨ m'.store.Started l
      ∨ ∃ x mux taken, ⟨.execute x l mux, taken⟩ ∈ answersTo t is')
    (hnone : opened is₀ l = []) :
    (∃ p reply, ⟨.openMultiplexer l p, reply⟩ ∈ answersTo t is')
      ∨ ∃ t' p mux, t' ≠ t ∧ .stepped t' (.answered (.openMultiplexer l p) (.ok mux)) ∈ is' := by
  rcases hends with hasked | hstarted | ⟨x, mux, taken, hexecute⟩
  · exact .inl hasked
  · obtain ⟨mux, hslot⟩ := Option.isSome_iff_exists.mp (h.slot_of_started hstarted).1
    exact h.opens_during hnone hslot t
  · have hmem := List.mem_append_right is₀ (mem_answersTo.mp hexecute)
    exact h.opens_during hnone (h.slot_of_names _ hmem mux (Incident.mem_names_execute ..)) t

/-- **How a start returns.** -/
theorem Course.returns_start (h : m₀.Course t (.start l .readShutDown) below is' m')
    (ht : Traffic is₀ m₀) : ∃ r, m'.Returns is₀ is' t below l r := by
  obtain ⟨r, hr, hends, -⟩ := h.startEnds ht
  have ht' := ht.unfolds h.during.unfolds
  exact ⟨r, hr, hends.failsAs, fun hnone hd => ht'.tries (hends.asks_or hd) hnone⟩

/-- **How a submission returns.** If it succeeds it has woken a multiplexer. -/
theorem Course.returns_submit (h : m₀.Course t (.submit l j .start) below is' m')
    (ht : Traffic is₀ m₀) : ∃ r, m'.Returns is₀ is' t below l r
      ∧ (r = .ok () → ∃ mux reply, ⟨.wake l mux, reply⟩ ∈ answersTo t is') := by
  obtain ⟨r, hr, hends⟩ := h.submitEnds ht
  have ht' := ht.unfolds h.during.unfolds
  refine ⟨r, ⟨hr, hends.failsAs, fun hnone hd => ht'.tries (hends.asks_or hd) hnone⟩, ?_⟩
  rintro rfl
  exact hends.wakes

/-! ## Once -/

/-- **What starting a loop has come to** after a history. -/
structure Launched (m : Machine) (is : List Incident) (l : LoopId) : Prop where
  /-- It has been opened once at most, -/
  opened : (opened is l).length ≤ 1
  /-- and an executor has taken it once at most. -/
  taken : taken is l ≤ 1
  /-- Whatever was asked for it was asked with what has been opened, -/
  uses : ∀ i ∈ is, ∀ mux ∈ i.names l, EndpointControl.opened is l = [mux]
  /-- and whoever runs it does so on that, -/
  runs : ∀ {t stack mux p}, m.control? t = some (.running stack) → .serve l mux p ∈ stack →
    EndpointControl.opened is l = [mux]
  /-- Once an executor has been asked, even if it has refused, nobody asks for another
  multiplexer. -/
  kept : ∀ {is₁ is₂ t x mux taken},
    is = is₁ ++ .stepped t (.answered (.execute x l mux) taken) :: is₂ →
    ∀ i ∈ is₂, i.asksToOpen l = false
  /-- No flag goes down. -/
  flags : ∀ {is' m'}, m.Unfolds is' m' → (m.store.Started l → m'.store.Started l)
    ∧ (m.store.ShutDown l → m'.store.ShutDown l) ∧ (m.store.Exited l → m'.store.Exited l)
  /-- A loop that is running and will be running is running all the while. -/
  interval : ∀ {is₁ m₁ is₂ m₂}, m.Unfolds is₁ m₁ → m₁.Unfolds is₂ m₂ → m.store.Running l →
    m₂.store.Running l → m₁.store.Running l

theorem Unfolds.running {is₁ is₂ : List Incident} {m₁ m₂ : Machine} (h₁ : m.Unfolds is₁ m₁)
    (h₂ : m₁.Unfolds is₂ m₂) (h : m.store.Running l) (h' : m₂.store.Running l) :
    m₁.store.Running l := by
  obtain ⟨lp, hlp, hup⟩ := h
  obtain ⟨lp₁, hlp₁, hg₁⟩ := h₁.grows.loop hlp
  obtain ⟨lp₂, hlp₂, hg₂⟩ := h₂.grows.loop hlp₁
  obtain ⟨lp', hlp', hup'⟩ := h'
  obtain rfl := Option.some.inj (hlp₂.symm.trans hlp')
  rw [Loop.running, Bool.and_eq_true] at hup hup'
  refine ⟨lp₁, hlp₁, ?_⟩
  rw [Loop.running, hg₁.started hup.1, Bool.true_and, Bool.not_eq_true']
  by_contra hex
  have hexited := hg₂.exited (Bool.eq_true_of_not_eq_false hex)
  simp [hexited] at hup'

theorem Traffic.launched (h : Traffic is m) (l : LoopId) : m.Launched is l where
  opened := h.length_opened_le l
  taken := h.taken_le l
  uses i hi mux hmux := h.opened_of_slot (h.slot_of_names i hi mux hmux)
  runs hc hmem := h.opened_of_slot (h.aware _ _ hc _ hmem)
  kept {is₁ is₂ t x mux taken} his i hi := by
    subst his
    obtain ⟨m₁, m₂, h₁, a, h₂⟩ := Unfolds.split h
    have ht := Traffic.advance h₁ a
    have hmem : .stepped t (.answered (.execute x l mux) taken)
        ∈ is₁ ++ [.stepped t (.answered (.execute x l mux) taken)] :=
      List.mem_append_right _ (List.mem_singleton.mpr rfl)
    exact ht.not_asksToOpen (ht.slot_of_names _ hmem mux (Incident.mem_names_execute ..)) h₂ hi
  flags h' := ⟨h'.grows.started, h'.grows.shutDown, h'.grows.exited⟩
  interval h₁ h₂ := h₁.running h₂

/-- **Which loops a factory has started** between operations, which is whenever everybody rests.
Up to then the operations may have overlapped in any way, which makes a difference for the boss
only. If no two have, but for pauses in a wake, `turns` says exactly when it has been started; if
some have, `told` says what may have come in between. -/
structure OnDemand (m : Machine) (is : List Incident) (f : FactoryId) : Prop where
  /-- A worker, if endpoints have been assigned to it. -/
  worker : ∀ w, m.store.Started ⟨f, .worker w⟩ ↔ 0 < m.store.assigned f w
  /-- The boss, if an attempt has been accepted, -/
  boss : (∃ e ∈ m.store.ofFactory f, 0 < accepted is e) → m.store.Started ⟨f, .boss⟩
  /-- and not before, unless it has been told to end by somebody who came in between. -/
  told : m.store.Started ⟨f, .boss⟩ → m.store.ShutDown ⟨f, .boss⟩
    ∨ ∃ e ∈ m.store.ofFactory f, 0 < accepted is e
  /-- If nobody has come in between, it has been started exactly if an attempt has been accepted,
  whatever executors do. -/
  turns : Uninterrupted is m →
    (m.store.Started ⟨f, .boss⟩ ↔ ∃ e ∈ m.store.ofFactory f, 0 < accepted is e)
  /-- While nobody connects, the boss has counted what has been accepted. -/
  counted : m.NoConnect → (0 < m.store.attempts f ↔ ∃ e ∈ m.store.ofFactory f, 0 < accepted is e)

theorem Run.onDemand (r : Run is m) (rest : m.AtRest) (f : FactoryId) : m.OnDemand is f where
  worker := r.worker_started_iff rest f
  boss := (r.boss_started rest f).2
  told := (r.boss_started rest f).1
  turns h := h.boss_started_iff rest f
  counted hno := r.attempts_pos_iff hno f

/-- **A loop is started once at most, on one multiplexer, and on demand.** -/
theorem Traffic.startedOnce (h : Traffic is m) :
    (∀ l, m.Launched is l)
      ∧ (∀ {t l below is' m'}, m.Course t (.start l .readShutDown) below is' m' →
        ∃ r, m'.Returns is is' t below l r)
      ∧ (∀ {t l j below is' m'}, m.Course t (.submit l j .start) below is' m' →
        ∃ r, m'.Returns is is' t below l r
          ∧ (r = .ok () → ∃ mux reply, ⟨.wake l mux, reply⟩ ∈ answersTo t is'))
      ∧ (Run is m → m.AtRest → ∀ f, m.OnDemand is f) :=
  ⟨h.launched, fun hc => hc.returns_start h, fun hc => hc.returns_submit h,
    fun r rest => r.onDemand rest⟩

/-! ## Denied at first -/

/-- What a thread hears for which no multiplexer can be opened. -/
def unserved : (q : Request) → q.Reply
  | .openMultiplexer .. => .error "none left"
  | q => granted q

/-- What a thread hears which no executor obliges. -/
def unobliged : (q : Request) → q.Reply
  | .execute .. => false
  | q => granted q

end Machine

namespace History

/-- **A thread asks to open a loop or to have it taken**, and is denied it. -/
def deny (h : History) (t : ThreadId) : History :=
  if alone : h.machine.Alone t then
    match hmove : h.machine.move t with
    | .ask (.openMultiplexer l p) _ =>
      ⟨_, _, h.orderly.advance
        (Machine.Step.answer hmove (Machine.unserved (.openMultiplexer l p))).advance
        ⟨alone, trivial⟩⟩
    | .ask (.execute x l mux) _ =>
      ⟨_, _, h.orderly.advance
        (Machine.Step.answer hmove (Machine.unobliged (.execute x l mux))).advance
        ⟨alone, trivial⟩⟩
    | _ => h
  else h

/-- A channel for which no multiplexer can be opened. -/
def unopened : History :=
  ((((empty.build .small).call none (.create 0)).turn 0 10).deny 0).turn 0 5

/-- Another whose worker the executor refuses, and a third that is made. -/
def retried : History :=
  let refused := (((unopened.call none (.create 0)).turn 1 12).deny 1).turn 1 5
  (refused.call none (.create 0)).turn 2 40

/-- And a connection attempt at its endpoint. -/
def connected : History := (retried.call none (.connect 0 "127.0.0.1:9")).turn 4 40

end History

/-- In the end the worker has been opened and taken once each. A start before that which is
denied a multiplexer says so, and so does a submission whose boss an executor refuses. -/
theorem startedOnce_connected :
    let w : LoopId := ⟨0, .worker 0⟩
    let b : LoopId := ⟨0, .boss⟩
    let m := History.connected.machine
    let is := History.connected.incidents
    let start := History.unopened.machine.spawn none (.running [.start w .readShutDown])
    let submit := History.retried.machine.spawn none
      (.running [.submit b (.attempt 0 "127.0.0.1:9") .start])
    m.control? 1 = some (.finished (.created (.error (.refused .worker))))
      ∧ opened is w = [⟨0, 0⟩] ∧ taken is w = 1 ∧ m.Launched is w
      ∧ m.Orderly is ∧ m.AtRest ∧ m.NoConnect ∧ m.OnDemand is 0
      ∧ m.store.assigned 0 0 = 1 ∧ m.store.attempts 0 = 1
      ∧ (∃ is' m', start.Course 1 (.start w .readShutDown) [] is' m'
        ∧ m'.Returns History.unopened.incidents is' 1 [] w
          (.error (.unopened ⟨"fake", none⟩ "none left")))
      ∧ ∃ is' m', submit.Course 4 (.submit b (.attempt 0 "127.0.0.1:9") .start) [] is' m'
        ∧ m'.Returns History.retried.incidents is' 4 [] b (.error (.refused .boss)) := by
  intro w b m is start submit
  have hm : Machine.Traffic is m := History.connected.orderly.run.traffic
  have hstart : Machine.Traffic History.unopened.incidents start :=
    Machine.Unfolds.use History.unopened.orderly.run.traffic none rfl
  have hsubmit : Machine.Traffic History.retried.incidents submit :=
    Machine.Unfolds.use History.retried.orderly.run.traffic none rfl
  have rest : m.AtRest := by decide +kernel
  obtain ⟨hlaunched, -, -, hdemand⟩ := hm.startedOnce
  obtain ⟨-, hstarts, -⟩ := hstart.startedOnce
  obtain ⟨-, -, hsubmits, -⟩ := hsubmit.startedOnce
  refine ⟨by decide +kernel, by decide +kernel, by decide +kernel, hlaunched w,
    History.connected.orderly, rest, by decide +kernel,
    hdemand History.connected.orderly.run rest 0, by decide +kernel, by decide +kernel, ?_, ?_⟩
  · let m' := start.perform Machine.unserved 1 8
    have hperformed : ∃ is', start.Course 1 (.start w .readShutDown) [] is' m' :=
      Machine.exists_course (by decide +kernel) 8 (by decide +kernel) (by decide +kernel)
    obtain ⟨is', hcourse⟩ := hperformed
    obtain ⟨r, hr⟩ := hstarts hcourse
    have hreturned : m'.control? 1
        = some (.finished (.returned (.error (.unopened ⟨"fake", none⟩ "none left")))) := by
      decide +kernel
    obtain rfl := Outcome.returned.inj
      (Control.finished.inj (Option.some.inj (hr.place.symm.trans hreturned)))
    exact ⟨is', m', hcourse, hr⟩
  · let m' := submit.perform Machine.unobliged 4 15
    have hperformed : ∃ is',
        submit.Course 4 (.submit b (.attempt 0 "127.0.0.1:9") .start) [] is' m' :=
      Machine.exists_course (by decide +kernel) 15 (by decide +kernel) (by decide +kernel)
    obtain ⟨is', hcourse⟩ := hperformed
    obtain ⟨r, hr, -⟩ := hsubmits hcourse
    have hreturned : m'.control? 4
        = some (.finished (.returned (.error (.refused .boss)))) := by
      decide +kernel
    obtain rfl := Outcome.returned.inj
      (Control.finished.inj (Option.some.inj (hr.place.symm.trans hreturned)))
    exact ⟨is', m', hcourse, hr⟩

end EndpointControl
