import EndpointControl.Proofs.FactoryWakes
import EndpointControl.Proofs.Waiting
import EndpointControl.Proofs.Once

/-!
# What comes of a connection attempt

An attempt makes the endpoint connecting before anything can fail, and may then fail at the
boss: because it has been told to end, because no multiplexer can be opened for it, or because
its executor refuses it. What takes the endpoint back is the drop of the job that nobody
has queued. So a call to `connect` that fails leaves everything as it was but for a
multiplexer that the boss has been given meanwhile, and which of the failures it is can be told
from the store in which the call begins and from the answers that it is given
(`Machine.Run.connection`).

The call is followed by itself: everybody else stays where they are (`Control.Performs`). So it
may also come to a lock that somebody else has, and then it waits.
-/

namespace EndpointControl

/-! ## A thread by itself -/

/-- **A thread moves alone and is answered in this way**, from one store and place to another.
These are the answers that it has been given. -/
inductive Control.Performs (replies : (q : Request) → q.Reply) (t : ThreadId) :
    Store → Control → List Answer → Store → Control → Prop where
  /-- It has not moved yet. -/
  | refl (s : Store) (c : Control) : Performs replies t s c [] s c
  /-- It acts and goes on. -/
  | act {s s' : Store} {c c' c'' : Control} {g : Store → Store} {ns : List Note} {as : List Answer}
    (h : c.move s t = .act g c' ns) (rest : Performs replies t (g s) c' as s' c'') :
    Performs replies t s c as s' c''
  /-- It asks, is answered, and goes on. -/
  | ask {s s' : Store} {c c'' : Control} {q : Request} {after : q.Reply → Control}
    {as : List Answer} (h : c.move s t = .ask q after)
    (rest : Performs replies t s (after (replies q)) as s' c'') :
    Performs replies t s c (⟨q, replies q⟩ :: as) s' c''

/-- **A thread that moves alone comes to a lock** that somebody has had from the beginning. -/
def Control.Halts (replies : (q : Request) → q.Reply) (t : ThreadId) (s : Store) (c : Control) :
    Prop :=
  ∃ as s' c' k, c.Performs replies t s as s' c' ∧ c'.move s' t = .blocked k
    ∧ s'.locks.holder? k = s.locks.holder? k

namespace Control

variable {replies : (q : Request) → q.Reply} {t : ThreadId} {s s' s'' : Store}
  {c c' c'' : Control} {as as' : List Answer} {k : Lock}

theorem Performs.trans (h : c.Performs replies t s as s' c')
    (h' : c'.Performs replies t s' as' s'' c'') : c.Performs replies t s (as ++ as') s'' c'' := by
  induction h with
  | refl => exact h'
  | act hmove _ ih => exact .act hmove (ih h')
  | ask hmove _ ih => exact .ask hmove (ih h')

/-- Whoever acts asks for nothing. -/
theorem Acts.performs (replies : (q : Request) → q.Reply) (h : c.Acts t s s' c') :
    c.Performs replies t s [] s' c' := by
  induction h with
  | refl => exact .refl _ _
  | act hmove _ ih => exact .act hmove ih

theorem Performs.one (replies : (q : Request) → q.Reply) {g : Store → Store} {ns : List Note}
    (h : c.move s t = .act g c' ns) : c.Performs replies t s [] (g s) c' :=
  .act h (.refl _ _)

/-- Whoever wants a lock that somebody has waits at once. -/
theorem halts_of_takeLock (h : c.move s t = .takeLock s t k c')
    (held : s.locks.holder? k ≠ none) : c.Halts replies t s :=
  ⟨_, s, c, k, .refl _ _, h.trans (Move.takeLock_eq_blocked.mpr
    ⟨rfl, Option.ne_none_iff_exists'.mp held⟩), rfl⟩

theorem Performs.halts (h : c.Performs replies t s as s' c')
    (hlocks : s'.locks = s.locks) (h' : c'.Halts replies t s') : c.Halts replies t s := by
  obtain ⟨as', s'', c'', k, hperforms, hblocked, hholder⟩ := h'
  exact ⟨_, s'', c'', k, h.trans hperforms, hblocked, hholder.trans (hlocks ▸ rfl)⟩

end Control

namespace Machine

variable {replies : (q : Request) → q.Reply} {t : ThreadId} {m : Machine} {s s' : Store}
  {c c' : Control} {as : List Answer}

theorem perform_one (replies : (q : Request) → q.Reply) (m : Machine) (t : ThreadId) (n : Nat) :
    (m.perform replies t 1).perform replies t n = m.perform replies t (n + 1) := by
  induction n with
  | zero => rfl
  | succ n ih =>
    rw [perform, ih]
    rfl

/-- **What a thread does by itself** it does in a machine in which nobody else moves. -/
theorem exists_perform (h : c.Performs replies t s as s' c') (hs : m.store = s)
    (hc : m.control? t = some c) : ∃ n js, m.Leads js (m.perform replies t n)
      ∧ answersTo t js = as ∧ (m.perform replies t n).store = s'
      ∧ (m.perform replies t n).control? t = some c' := by
  induction h generalizing m with
  | refl => exact ⟨0, [], .refl, rfl, hs, hc⟩
  | @act s s' c c' c'' g ns as hmove _ ih =>
    subst hs
    obtain ⟨n, js, hleads, hanswers, hstore, hcontrol⟩ := ih rfl (control?_act_self hc)
    have hone : m.perform replies t 1 = m.act t g c' := by
      rw [perform, perform, move_eq hc, hmove]
    have a : m.Advance (.stepped t (.acted ns)) (m.perform replies t 1) := hone ▸ .act hc hmove
    rw [← hone, perform_one] at hleads hstore hcontrol
    refine ⟨n + 1, _, (Leads.advance .refl a).trans hleads, ?_, hstore, hcontrol⟩
    rw [answersTo, List.flatMap_append, ← answersTo, ← answersTo, hanswers]
    simp [answersTo, Incident.answersTo]
  | @ask s s' c c'' q after as hmove _ ih =>
    subst hs
    obtain ⟨n, js, hleads, hanswers, hstore, hcontrol⟩ :=
      ih (store_answer ..) (control?_answer_self (replies q) hc)
    have hone : m.perform replies t 1 = m.answer t q after (replies q) := by
      rw [perform, perform, move_eq hc, hmove]
    have a : m.Advance (.stepped t (.answered q (replies q))) (m.perform replies t 1) :=
      hone ▸ .answer hc hmove (replies q)
    rw [← hone, perform_one] at hleads hstore hcontrol
    refine ⟨n + 1, _, (Leads.advance .refl a).trans hleads, ?_, hstore, hcontrol⟩
    rw [answersTo, List.flatMap_append, ← answersTo, ← answersTo, hanswers]
    simp [answersTo, Incident.answersTo]

end Machine

/-! ## Changes that undo or follow one another -/

/-- Giving back a lock that was free when it was taken leaves nothing behind. -/
theorem LockTable.give_take {L : Type} [DecidableEq L] {t : LockTable L} {k : L}
    (free : t.holder? k = none) (h : ThreadId) : (t.take k h).give k = t := by
  have hnone : ∀ e ∈ t.entries, decide (e.1 ≠ k) = true := by
    rw [holder?, Option.map_eq_none_iff, List.find?_eq_none] at free
    exact fun e he => decide_eq_true fun heq => free e he (decide_eq_true heq)
  rw [take, give, List.filter_cons, if_neg (by simp), List.filter_eq_self.mpr hnone]

section Modify

variable {α : Type} (as : Array α) (i : Nat)

theorem modify_modify (g g' : α → α) : (as.modify i g).modify i g' = as.modify i (g' ∘ g) := by
  refine Array.ext_getElem? fun j => ?_
  simp only [Array.getElem?_modify]
  split
  · rw [Option.map_map]
  · rfl

/-- What is made of an element matters, and not how it is said. -/
theorem modify_congr {g g' : α → α} (h : ∀ a, as[i]? = some a → g a = g' a) :
    as.modify i g = as.modify i g' := by
  refine Array.ext_getElem? fun j => ?_
  simp only [Array.getElem?_modify]
  split
  · rename_i hij
    rw [← hij]
    cases ha : as[i]? with
    | none => rfl
    | some a => rw [Option.map_some, Option.map_some, h a ha]
  · rfl

end Modify

namespace Factory

variable (f : Factory) (st : Seat)

theorem modifyLoop_modifyLoop (g g' : Loop → Loop) :
    (f.modifyLoop st g).modifyLoop st g' = f.modifyLoop st (g' ∘ g) := by
  cases st with
  | boss => simp [modifyLoop, Function.comp_def]
  | worker i =>
    simp only [modifyLoop, modify_modify]
    rfl

theorem modifyLoop_congr {g g' : Loop → Loop} (h : ∀ l, f.loop? st = some l → g l = g' l) :
    f.modifyLoop st g = f.modifyLoop st g' := by
  cases st with
  | boss =>
    cases hb : f.boss with
    | none => simp [modifyLoop, hb]
    | some b => simp [modifyLoop, hb, h b.loop (by rw [loop?, hb, Option.map_some])]
  | worker i =>
    have hworkers : f.workers.modify i (fun w => { w with loop := g w.loop })
        = f.workers.modify i fun w => { w with loop := g' w.loop } :=
      modify_congr _ _ fun w hw => by rw [h w.loop (by rw [loop?, hw, Option.map_some])]
    simp only [modifyLoop, hworkers]

end Factory

namespace Store

variable {s : Store} {id : LoopId} {lp : Loop} {e : EndpointId} {r : Endpoint} {k : Lock}

theorem giveLock_takeLock (free : s.locks.holder? k = none) (t : ThreadId) :
    (s.takeLock k t).giveLock k = s := by
  rw [takeLock, giveLock, LockTable.give_take free]

/-- **A loop that is changed twice** is changed once. -/
theorem modifyLoop_modifyLoop (s : Store) (id : LoopId) (g g' : Loop → Loop) :
    (s.modifyLoop id g).modifyLoop id g' = s.modifyLoop id (g' ∘ g) := by
  have h := modify_modify s.factories id.factory (·.modifyLoop id.seat g) (·.modifyLoop id.seat g')
  simp only [modifyLoop, modifyFactory, h]
  congr 2
  exact funext fun f => f.modifyLoop_modifyLoop ..

/-- **What becomes of a loop matters**, and not how it is said. -/
theorem modifyLoop_congr {g g' : Loop → Loop} (found : s.loop? id = some lp) (h : g lp = g' lp) :
    s.modifyLoop id g = s.modifyLoop id g' := by
  have h : s.factories.modify id.factory (·.modifyLoop id.seat g)
      = s.factories.modify id.factory (·.modifyLoop id.seat g') :=
    modify_congr _ _ fun fac hfac => fac.modifyLoop_congr id.seat fun l hl => by
      rw [loop?, hfac, Option.bind_some, hl] at found
      rw [Option.some.inj found, h]
  simp only [modifyLoop, modifyFactory, h]

theorem modifyLoop_eq_self {g : Loop → Loop} (found : s.loop? id = some lp) (h : g lp = lp) :
    s.modifyLoop id g = s := by
  obtain ⟨fac, hfac, -⟩ := Option.bind_eq_some_iff.mp found
  have hsame : s.modifyLoop id g = s.modifyLoop id fun l => l := modifyLoop_congr found h
  refine hsame.trans (modifyFactory_eq_self hfac ?_)
  cases hst : id.seat with
  | boss => simp [Factory.modifyLoop]
  | worker i =>
    have hworkers : fac.workers.modify i (fun w => { w with loop := w.loop }) = fac.workers :=
      Array.ext_getElem? fun j => by rw [Array.getElem?_modify]; simp
    simp only [Factory.modifyLoop, hworkers]

/-- **An endpoint gets back the status that it had.** -/
theorem setStatus_setStatus_eq_self (found : s.endpoints[e]? = some r) (st : Status) :
    (s.setStatus e st).setStatus e r.status = s := by
  have h : (s.endpoints.modify e fun r => { r with status := st }).modify e
      (fun q => { q with status := r.status }) = s.endpoints := by
    rw [modify_modify]
    refine Array.ext_getElem? fun j => ?_
    rw [Array.getElem?_modify]
    split
    · rename_i hj
      rw [← hj, found]
      rfl
    · rfl
  rw [setStatus, setStatus, h]

end Store

/-! ## Starting a loop -/

namespace Loop

variable (replies : (q : Request) → q.Reply) (id : LoopId) (l : Loop)

/-- How a start comes by a multiplexer: the loop has one, or one is opened for it. -/
def obtained : Except String Multiplexer :=
  match l.slot with
  | some mux => .ok mux
  | none => replies (.openMultiplexer id l.provider)

/-- The executor takes the loop when it is offered with this multiplexer. -/
def isTaken (mux : Multiplexer) : Bool := replies (.execute l.executor id mux)

/-- **What a start of the loop comes to.** -/
def startResult : Except Failure Unit :=
  if l.shutDown then .error .released
  else if l.started then .ok ()
  else
    match l.obtained replies id with
    | .error cause => .error (.unopened l.provider.identity cause)
    | .ok mux => if l.isTaken replies id mux then .ok () else .error (.refused id.seat.role)

/-- **What a start makes of the loop.** -/
def afterStart : Loop :=
  if l.shutDown || l.started then l
  else
    match l.obtained replies id with
    | .error _ => l
    | .ok mux => { l with slot := some mux, started := l.isTaken replies id mux }

/-- **The answers that a start is given.** -/
def startAnswers : List Answer :=
  if l.shutDown || l.started then []
  else
    (match l.slot with
      | some _ => []
      | none => [⟨.openMultiplexer id l.provider, replies (.openMultiplexer id l.provider)⟩])
    ++ (match l.obtained replies id with
      | .error _ => []
      | .ok mux => [⟨.execute l.executor id mux, l.isTaken replies id mux⟩])

section Results

variable {replies id l}

theorem obtained_eq_error_iff {cause : String} : l.obtained replies id = .error cause
    ↔ l.slot = none ∧ replies (.openMultiplexer id l.provider) = .error cause := by
  unfold obtained
  cases l.slot <;> simp

theorem startResult_eq_released_iff :
    l.startResult replies id = .error .released ↔ l.shutDown = true := by
  unfold startResult
  grind

theorem startResult_eq_unopened_iff {i : Identity} {cause : String} :
    l.startResult replies id = .error (.unopened i cause) ↔ l.shutDown = false
      ∧ l.started = false ∧ l.obtained replies id = .error cause ∧ i = l.provider.identity := by
  unfold startResult
  grind

theorem startResult_eq_refused_iff {role : Role} :
    l.startResult replies id = .error (.refused role) ↔ l.shutDown = false ∧ l.started = false
      ∧ (∃ mux, l.obtained replies id = .ok mux ∧ l.isTaken replies id mux = false)
      ∧ role = id.seat.role := by
  unfold startResult
  grind

theorem startResult_eq_ok_iff : l.startResult replies id = .ok () ↔ l.shutDown = false
    ∧ (l.started = true
      ∨ ∃ mux, l.obtained replies id = .ok mux ∧ l.isTaken replies id mux = true) := by
  unfold startResult
  grind

theorem startResult_ne_wrongState {n : UInt64} {st : State} :
    l.startResult replies id ≠ .error (.wrongState n st) := by
  unfold startResult
  grind

section Obtained

variable (hd : l.shutDown = false) (hs : l.started = false)

include hd hs

theorem startResult_of_obtained {mux : Multiplexer} (h : l.obtained replies id = .ok mux) :
    l.startResult replies id
      = if l.isTaken replies id mux then .ok () else .error (.refused id.seat.role) := by
  simp [startResult, hd, hs, h]

theorem afterStart_of_obtained {mux : Multiplexer} (h : l.obtained replies id = .ok mux) :
    l.afterStart replies id
      = { l with slot := some mux, started := l.isTaken replies id mux } := by
  simp [afterStart, hd, hs, h]

end Obtained

/-- **A start that fails** leaves the loop as it was but for a multiplexer that has been opened
meanwhile. -/
theorem afterStart_of_error {err : Failure} (h : l.startResult replies id = .error err) :
    l.afterStart replies id = l ∨ l.slot = none ∧ ∃ mux,
      replies (.openMultiplexer id l.provider) = .ok mux
        ∧ l.afterStart replies id = { l with slot := some mux } := by
  by_cases hd : l.shutDown = true
  · exact .inl (by simp [afterStart, hd])
  by_cases hs : l.started = true
  · simp [startResult, hd, hs] at h
  cases hobtained : l.obtained replies id with
  | error cause => exact .inl (by simp [afterStart, hobtained])
  | ok mux =>
    -- the executor has refused it
    have hd := Bool.eq_false_of_not_eq_true hd
    have hs := Bool.eq_false_of_not_eq_true hs
    have htaken : l.isTaken replies id mux = false := by
      by_contra htaken
      have htaken := Bool.eq_true_of_not_eq_false htaken
      rw [startResult_of_obtained hd hs hobtained, if_pos htaken] at h
      cases h
    have hafter : l.afterStart replies id = { l with slot := some mux } := by
      rw [afterStart_of_obtained hd hs hobtained, htaken, ← hs]
    rw [obtained] at hobtained
    cases hslot : l.slot with
    | some mux' =>
      rw [hslot] at hobtained
      obtain rfl := Except.ok.inj hobtained
      exact .inl (by rw [hafter, ← hslot])
    | none =>
      rw [hslot] at hobtained
      exact .inr ⟨rfl, mux, hobtained, hafter⟩

/-- **A start that succeeds** leaves the loop started, with the multiplexer that it has come by. -/
theorem afterStart_of_ok (h : l.startResult replies id = .ok ())
    (hslot : l.started = true → l.slot.isSome = true) :
    ∃ mux, l.obtained replies id = .ok mux
      ∧ l.afterStart replies id = { l with slot := some mux, started := true } := by
  by_cases hs : l.started = true
  · obtain ⟨mux, hmux⟩ := Option.isSome_iff_exists.mp (hslot hs)
    have hobtained : l.obtained replies id = .ok mux := by rw [obtained, hmux]
    have hafter : l.afterStart replies id = l := by simp [afterStart, hs]
    exact ⟨mux, hobtained, by rw [hafter, ← hmux, ← hs]⟩
  · obtain ⟨hd, hs' | ⟨mux, hobtained, htaken⟩⟩ := startResult_eq_ok_iff.mp h
    · exact absurd hs' hs
    · have hs := Bool.eq_false_of_not_eq_true hs
      exact ⟨mux, hobtained, by rw [afterStart_of_obtained hd hs hobtained, htaken]⟩

/-- **All that a start asks for** is a multiplexer, and that the executor takes the loop. -/
theorem of_mem_startAnswers {x : Answer} (h : x ∈ l.startAnswers replies id) :
    x.1 = .openMultiplexer id l.provider ∨ ∃ mux, x.1 = .execute l.executor id mux := by
  unfold startAnswers at h
  split at h
  · cases h
  · rcases List.mem_append.mp h with h | h
    · split at h
      · cases h
      · obtain rfl := List.mem_singleton.mp h
        exact .inl rfl
    · split at h
      · cases h
      · obtain rfl := List.mem_singleton.mp h
        exact .inr ⟨_, rfl⟩

end Results

end Loop

section Procedures

variable (replies : (q : Request) → q.Reply) (t : ThreadId) (below : List Frame) (j : Job)
  (mux : Multiplexer) {s : Store} {id : LoopId} {lp : Loop}

theorem Control.move_start (found : s.loop? id = some lp) (p : StartPoint) :
    (Control.running (.start id p :: below)).move s t = p.move s t below id lp := by
  simp only [Control.move, Frame.move, found]

theorem Control.move_submit (found : s.loop? id = some lp) (p : SubmitPoint) :
    (Control.running (.submit id j p :: below)).move s t = p.move s t below id lp j := by
  simp only [Control.move, Frame.move, found]

/-- **A loop is offered to its executor**, and marked if that takes it. -/
theorem Control.performs_execute (found : s.loop? id = some lp) (hs : lp.started = false) :
    (Control.running (.start id (.execute mux) :: below)).Performs replies t s
      [⟨.execute lp.executor id mux, lp.isTaken replies id mux⟩]
      ((s.modifyLoop id fun l => { l with started := lp.isTaken replies id mux }).giveLock
        (.slot id))
      (.back below (if lp.isTaken replies id mux then .ok () else
        .error (.refused id.seat.role))) := by
  refine .ask (move_start _ _ found (.execute mux)) ?_
  show (Control.running (.start id (if lp.isTaken replies id mux then .mark else
    .leave (.error (.refused id.seat.role))) :: below)).Performs replies t s _ _ _
  cases lp.isTaken replies id mux with
  | true =>
    have found' := Store.loop?_modifyLoop_self found fun l => { l with started := true }
    exact .act (move_start _ _ found .mark) (.act (move_start _ _ found' .announce)
      (.act (move_start _ _ found' (.leave (.ok ()))) (.refl _ _)))
  | false =>
    rw [Store.modifyLoop_eq_self found (by rw [← hs])]
    exact .act (move_start _ _ found _) (.refl _ _)

/-- What a start makes of a loop that is neither started nor told to end, once it has the lock of
the slot. -/
theorem Control.performs_inspect (found : s.loop? id = some lp) (hd : lp.shutDown = false)
    (hs : lp.started = false) (free : s.locks.holder? (.slot id) = none) :
    (Control.running (.start id .inspectSlot :: below)).Performs replies t
      (s.takeLock (.slot id) t) (lp.startAnswers replies id)
      (s.modifyLoop id (Loop.afterStart replies id))
      (.back below (lp.startResult replies id)) := by
  have found' : (s.takeLock (.slot id) t).loop? id = some lp := found
  have hback (g : Loop → Loop) : ((s.takeLock (.slot id) t).modifyLoop id g).giveLock (.slot id)
      = s.modifyLoop id g := by
    show ((s.takeLock (.slot id) t).giveLock (.slot id)).modifyLoop id g = s.modifyLoop id g
    rw [Store.giveLock_takeLock free]
  have hinspect := move_start t below found' .inspectSlot
  have hopen := move_start t below found' .openNew
  cases hslot : lp.slot with
  | some mux =>
    have hobtained : lp.obtained replies id = .ok mux := by rw [Loop.obtained, hslot]
    have hafter : lp.afterStart replies id = { lp with started := lp.isTaken replies id mux } := by
      rw [Loop.afterStart_of_obtained hd hs hobtained, ← hslot]
    have hanswers : lp.startAnswers replies id
        = [⟨.execute lp.executor id mux, lp.isTaken replies id mux⟩] := by
      simp [Loop.startAnswers, hobtained, hd, hs, hslot]
    simp only [StartPoint.move, hslot] at hinspect
    have hexecute := performs_execute replies t below mux found' hs
    have hloop : s.modifyLoop id (Loop.afterStart replies id)
        = s.modifyLoop id fun l => { l with started := lp.isTaken replies id mux } :=
      Store.modifyLoop_congr found hafter
    rw [Loop.startResult_of_obtained hd hs hobtained, hanswers, hloop, ← hback]
    exact .act hinspect hexecute
  | none =>
    simp only [StartPoint.move, hslot] at hinspect
    refine .act hinspect ?_
    cases hreply : replies (.openMultiplexer id lp.provider) with
    | error cause =>
      have hobtained : lp.obtained replies id = .error cause := by
        rw [Loop.obtained, hslot]
        exact hreply
      have hafter : lp.afterStart replies id = lp := by simp [Loop.afterStart, hobtained]
      have hresult : lp.startResult replies id
          = .error (.unopened lp.provider.identity cause) := by
        simp [Loop.startResult, hobtained, hd, hs]
      have hanswers : lp.startAnswers replies id = [⟨.openMultiplexer id lp.provider,
          replies (.openMultiplexer id lp.provider)⟩] := by
        simp [Loop.startAnswers, hobtained, hd, hs, hslot]
      rw [hresult, hanswers, Store.modifyLoop_eq_self found hafter]
      refine .ask hopen ?_
      rw [hreply]
      have hgive := move_start t below found'
        (.leave (.error (.unopened lp.provider.identity cause)))
      have hperforms := Performs.one replies hgive
      rwa [Store.giveLock_takeLock free] at hperforms
    | ok mux =>
      have hobtained : lp.obtained replies id = .ok mux := by
        rw [Loop.obtained, hslot]
        exact hreply
      have hanswers : lp.startAnswers replies id = [⟨.openMultiplexer id lp.provider,
          replies (.openMultiplexer id lp.provider)⟩,
          ⟨.execute lp.executor id mux, lp.isTaken replies id mux⟩] := by
        simp [Loop.startAnswers, hobtained, hd, hs, hslot]
      rw [Loop.startResult_of_obtained hd hs hobtained, hanswers]
      refine .ask hopen ?_
      rw [hreply]
      have hfill := move_start t below found' (.fillSlot mux)
      have found₂ := Store.loop?_modifyLoop_self found' fun l => { l with slot := some mux }
      have hexecute := performs_execute replies t below mux found₂ hs
      rw [Store.modifyLoop_modifyLoop, hback] at hexecute
      have hloop : s.modifyLoop id (Loop.afterStart replies id) = s.modifyLoop id fun l => { l with
          slot := some mux, started := lp.isTaken replies id mux } :=
        Store.modifyLoop_congr found (Loop.afterStart_of_obtained hd hs hobtained)
      rw [hloop]
      exact .act hfill hexecute

/-- **What a start of a loop comes to by itself**, if it can have the lock of the slot when it
needs it. -/
theorem Control.performs_start (found : s.loop? id = some lp)
    (free : lp.shutDown = false → lp.started = false → s.locks.holder? (.slot id) = none) :
    (Control.running (.start id .readShutDown :: below)).Performs replies t s
      (lp.startAnswers replies id) (s.modifyLoop id (Loop.afterStart replies id))
      (.back below (lp.startResult replies id)) := by
  have hread := move_start t below found .readShutDown
  have hstarted := move_start t below found .readStarted
  simp only [StartPoint.move] at hread hstarted
  cases hd : lp.shutDown with
  | true =>
    rw [hd, if_pos rfl] at hread
    rw [Store.modifyLoop_eq_self found (by simp [Loop.afterStart, hd]),
      show lp.startAnswers replies id = [] by simp [Loop.startAnswers, hd],
      show lp.startResult replies id = .error .released by simp [Loop.startResult, hd]]
    exact .act hread (.refl s _)
  | false =>
    rw [hd, if_neg Bool.false_ne_true] at hread
    refine .act hread ?_
    cases hs : lp.started with
    | true =>
      rw [hs, if_pos rfl] at hstarted
      rw [Store.modifyLoop_eq_self found (by simp [Loop.afterStart, hs]),
        show lp.startAnswers replies id = [] by simp [Loop.startAnswers, hs],
        show lp.startResult replies id = .ok () by simp [Loop.startResult, hd, hs]]
      exact .act hstarted (.refl s _)
    | false =>
      -- it takes the lock and looks again
      have free := free hd hs
      have found' : (s.takeLock (.slot id) t).loop? id = some lp := found
      have htake := move_start t below found .takeSlot
      have hreread := move_start t below found' .rereadShutDown
      have hrestarted := move_start t below found' .rereadStarted
      rw [hs, if_neg Bool.false_ne_true] at hstarted
      simp only [StartPoint.move, Move.takeLock, free] at htake
      simp only [StartPoint.move] at hreread hrestarted
      rw [hd, if_neg Bool.false_ne_true] at hreread
      rw [hs, if_neg Bool.false_ne_true] at hrestarted
      exact .act hstarted (.act htake (.act hreread (.act hrestarted
        (performs_inspect _ _ _ found hd hs free))))

/-- A start that needs the lock of the slot waits for whoever has it. -/
theorem Control.halts_start (found : s.loop? id = some lp) (hd : lp.shutDown = false)
    (hs : lp.started = false) (held : s.locks.holder? (.slot id) ≠ none) :
    (Control.running (.start id .readShutDown :: below)).Halts replies t s := by
  have hread := move_start t below found .readShutDown
  have hstarted := move_start t below found .readStarted
  simp only [StartPoint.move] at hread hstarted
  rw [hd, if_neg Bool.false_ne_true] at hread
  rw [hs, if_neg Bool.false_ne_true] at hstarted
  exact Performs.halts (.act hread (.act hstarted (.refl _ _))) rfl
    (halts_of_takeLock (move_start _ _ found .takeSlot) held)

/-! ## Submitting a job -/

/-- **A submission that has the loop started looks into the slot**, or waits for whoever has its
lock. -/
theorem Control.performs_readSlot (found : s.loop? id = some lp) (up : lp.shutDown = false) :
    (Control.running (.submit id j .readShutDown :: below)).Performs replies t s [] s
      (.running (.submit id j (.serialize lp.slot) :: below))
    ∨ (Control.running (.submit id j .readShutDown :: below)).Halts replies t s := by
  have hread := move_submit t below j found .readShutDown
  simp only [SubmitPoint.move] at hread
  rw [up, if_neg Bool.false_ne_true] at hread
  have htake := move_submit t below j found .takeSlot
  by_cases free : s.locks.holder? (.slot id) = none
  · have found' : (s.takeLock (.slot id) t).loop? id = some lp := found
    simp only [SubmitPoint.move, Move.takeLock, free] at htake
    have hgive := move_submit t below j found' .readSlot
    have hperforms := Performs.act hread (.act htake (.one replies hgive))
    rw [Store.giveLock_takeLock free] at hperforms
    exact .inl hperforms
  · exact .inr (Performs.halts (.act hread (.refl _ _)) rfl (halts_of_takeLock htake free))

/-- **A submission that can have the lock of the queue appends its job** and wakes the loop,
however that turns out. -/
theorem Control.performs_takeQueue (found : s.loop? id = some lp)
    (free : s.locks.holder? (.queue id) = none) :
    (Control.running (.submit id j (.takeQueue (some mux)) :: below)).Performs replies t s
      [⟨.wake id mux, replies (.wake id mux)⟩]
      (s.modifyLoop id fun l => { l with queue := l.queue.push j })
      (.running (.submit id j .leave :: below)) := by
  have found' : (s.takeLock (.queue id) t).loop? id = some lp := found
  have htake := move_submit t below j found (.takeQueue (some mux))
  simp only [SubmitPoint.move, Move.takeLock, free] at htake
  have happend := move_submit t below j found' (.append (some mux))
  have hback : ((s.takeLock (.queue id) t).modifyLoop id fun l =>
      { l with queue := l.queue.push j }).giveLock (.queue id)
      = s.modifyLoop id fun l => { l with queue := l.queue.push j } := by
    show ((s.takeLock (.queue id) t).giveLock (.queue id)).modifyLoop id _ = _
    rw [Store.giveLock_takeLock free]
  have found₂ := Store.loop?_modifyLoop_self found fun l => { l with queue := l.queue.push j }
  have hwake := move_submit t below j found₂ (.wake mux)
  refine .act htake (.act happend ?_)
  rw [hback]
  refine .ask hwake ?_
  cases replies (.wake id mux) with
  | ok => exact .refl _ _
  | error cause =>
    exact .act (move_submit _ _ _ found₂ (.wakeFailed cause)) (.refl _ _)

/-- **A submission to a loop that has been started appends its job**, or waits for whoever has
one of the locks of the loop. -/
theorem Control.performs_append (found : s.loop? id = some lp) (up : lp.shutDown = false)
    (hslot : lp.slot = some mux) :
    (Control.running (.submit id j .readShutDown :: below)).Performs replies t s
      [⟨.wake id mux, replies (.wake id mux)⟩]
      (s.modifyLoop id fun l => { l with queue := l.queue.push j }) (.back below (.ok ()))
    ∨ (Control.running (.submit id j .readShutDown :: below)).Halts replies t s := by
  refine (performs_readSlot _ _ _ _ found up).elim (fun hread => ?_) .inr
  rw [hslot] at hread
  have hserialize := move_submit t below j found (.serialize (some mux))
  have found' := Store.loop?_modifyLoop_self found fun l => { l with queue := l.queue.push j }
  have hleave := move_submit t below j found' .leave
  simp only [SubmitPoint.move] at hserialize hleave
  by_cases hlevel : lp.level.serialized = true
  · -- it needs a turn
    rw [if_pos hlevel] at hserialize hleave
    by_cases hturn : s.locks.holder? (.registration id) = none
    · have found₁ : (s.takeLock (.registration id) t).loop? id = some lp := found
      have hother : (s.takeLock (.registration id) t).locks.holder? (.queue id)
          = s.locks.holder? (.queue id) := by
        rw [Store.takeLock, LockTable.holder?_take, if_neg (by simp)]
      simp only [Move.takeLock, hturn] at hserialize
      by_cases free : s.locks.holder? (.queue id) = none
      · have hqueue := performs_takeQueue replies t below j mux found₁ (hother.trans free)
        have hback : ((s.takeLock (.registration id) t).modifyLoop id fun l =>
            { l with queue := l.queue.push j }).giveLock (.registration id)
            = s.modifyLoop id fun l => { l with queue := l.queue.push j } := by
          show ((s.takeLock (.registration id) t).giveLock (.registration id)).modifyLoop id _ = _
          rw [Store.giveLock_takeLock hturn]
        have hperforms := hread.trans (.act hserialize (hqueue.trans (.act
          ((move_submit _ _ _ (Store.loop?_modifyLoop_self found₁ _) .leave).trans (if_pos hlevel))
          (.refl _ _))))
        rw [hback] at hperforms
        exact .inl hperforms
      · -- it waits for the queue while it has the turn
        have hblocked := (move_submit t below j found₁
          (.takeQueue (some mux))).trans (Move.takeLock_eq_blocked.mpr
            ⟨rfl, Option.ne_none_iff_exists'.mp (hother ▸ free)⟩)
        exact .inr ⟨_, _, _, _, hread.trans (.act hserialize (.refl _ _)), hblocked, hother⟩
    · exact .inr (hread.halts rfl (halts_of_takeLock hserialize hturn))
  · rw [if_neg hlevel] at hserialize hleave
    by_cases free : s.locks.holder? (.queue id) = none
    · have hqueue := performs_takeQueue replies t below j mux found free
      exact .inl (hread.trans (.act hserialize (hqueue.trans (.act hleave (.refl _ _)))))
    · exact .inr ((hread.trans (.act hserialize (.refl _ _))).halts rfl
        (halts_of_takeLock (move_submit _ _ _ found (.takeQueue (some mux))) free))

/-! ## Connecting -/

section Connecting

variable {e : EndpointId} {r : Endpoint} {a : Address} {err : Failure}

/-- The endpoint is connecting, and the lock of its status is free again. -/
theorem Store.begun_connect (free : s.locks.holder? (.status e) = none) (st : Status) :
    ((s.takeLock (.status e) t).setStatus e st).giveLock (.status e) = s.setStatus e st := by
  show ((s.takeLock (.status e) t).giveLock (.status e)).setStatus e st = _
  rw [Store.giveLock_takeLock free]

theorem Store.endpoints_setStatus_self (found : s.endpoints[e]? = some r) (st : Status) :
    (s.setStatus e st).endpoints[e]? = some { r with status := st } := by
  rw [Store.endpoints_setStatus found, if_pos rfl]

/-- **An attempt at an endpoint that is not open** leaves everything as it is. -/
theorem Control.performs_connect_of_ne (found : s.endpoints[e]? = some r)
    (free : s.locks.holder? (.status e) = none) (hst : r.status.state ≠ .opened) :
    (Operation.connect e a).control.Performs replies t s [] s
      (.finished (.connected (.error (.wrongState r.number r.status.state)))) := by
  have hacts := acts_connect_of_ne (t := t) (a := a) found free hst
  rw [Store.giveLock_takeLock free] at hacts
  exact hacts.performs replies

/-- **An attempt at an open endpoint** goes as far as the start of the boss. -/
theorem Control.performs_begin (found : s.endpoints[e]? = some r)
    (free : s.locks.holder? (.status e) = none) (hst : r.status.state = .opened)
    (hboss : s.loop? r.boss = some lp) :
    (Operation.connect e a).control.Performs replies t s [] (s.setStatus e ⟨.connecting, some a⟩)
      (.running [.start r.boss .readShutDown, .submit r.boss (.attempt e a) .starting,
        .connect e a .submitting]) := by
  have hbegin := (acts_begin (t := t) (a := a) found free hst).performs replies
  rw [Store.begun_connect t free] at hbegin
  exact hbegin.trans (.act (move_submit _ _ _ (s := s.setStatus e _) hboss .start) (.refl _ _))

/-- **An attempt that fails at the boss** takes the endpoint back. -/
theorem Control.performs_connect_of_error (found : s.endpoints[e]? = some r)
    (free : s.locks.holder? (.status e) = none) (hst : r.status = .initial)
    (hboss : s.loop? r.boss = some lp)
    (hslot : lp.shutDown = false → lp.started = false →
      s.locks.holder? (.slot r.boss) = none)
    (hfail : lp.startResult replies r.boss = .error err) :
    (Operation.connect e a).control.Performs replies t s (lp.startAnswers replies r.boss)
      (s.modifyLoop r.boss (Loop.afterStart replies r.boss))
      (.finished (.connected (.error err))) := by
  have hbegin := performs_begin replies t (a := a) found free (by rw [hst]; rfl) hboss
  have hboss₁ : (s.setStatus e ⟨.connecting, some a⟩).loop? r.boss = some lp := hboss
  have hstart := performs_start replies t [.submit r.boss (.attempt e a) .starting,
    .connect e a .submitting] hboss₁ hslot
  rw [hfail] at hstart
  -- the boss has been given what it has been given, and the endpoint is still connecting
  let s₂ := (s.setStatus e ⟨.connecting, some a⟩).modifyLoop r.boss (Loop.afterStart replies r.boss)
  have hboss₂ : s₂.loop? r.boss = some (lp.afterStart replies r.boss) :=
    Store.loop?_modifyLoop_self hboss₁ _
  have found₂ : s₂.endpoints[e]? = some { r with status := ⟨.connecting, some a⟩ } :=
    Store.endpoints_setStatus_self found _
  have hrefuse := (acts_refuse (t := t) (j := .attempt e a) [.connect e a .submitting] err hboss₂
    found₂ free).performs replies
  have hback : ((s₂.takeLock (.status e) t).setStatus e .initial).giveLock (.status e)
      = s.modifyLoop r.boss (Loop.afterStart replies r.boss) := by
    rw [Store.begun_connect t (s := s₂) free]
    show ((s.setStatus e ⟨.connecting, some a⟩).setStatus e .initial).modifyLoop r.boss _ = _
    rw [← hst, Store.setStatus_setStatus_eq_self found]
  have hrefuse : (Control.running [.submit r.boss (.attempt e a) (.refuse err),
      .connect e a .submitting]).Performs replies t s₂ []
      (s.modifyLoop r.boss (Loop.afterStart replies r.boss))
      (.running [.connect e a (.failed err)]) := hback ▸ hrefuse
  have hfailed : (Control.running [.connect e a (.failed err)]).move
      (s.modifyLoop r.boss (Loop.afterStart replies r.boss)) t
      = .go (.finished (.connected (.error err))) := by
    simp [Control.move, Frame.move, found, ConnectPoint.move]
  have hall := hbegin.trans (hstart.trans (hrefuse.trans (.act hfailed (.refl _ _))))
  simpa using hall

/-- **An attempt that the boss takes** goes through, or waits for whoever has a lock of the
boss. -/
theorem Control.performs_connect_of_ok (found : s.endpoints[e]? = some r)
    (free : s.locks.holder? (.status e) = none) (hst : r.status.state = .opened)
    (hboss : s.loop? r.boss = some lp)
    (hslot : lp.shutDown = false → lp.started = false →
      s.locks.holder? (.slot r.boss) = none)
    (hok : lp.startResult replies r.boss = .ok ())
    (hup : lp.shutDown = false) (hmux : (lp.afterStart replies r.boss).slot = some mux) :
    (Operation.connect e a).control.Performs replies t s
      (lp.startAnswers replies r.boss ++ [⟨.wake r.boss mux, replies (.wake r.boss mux)⟩])
      (((s.setStatus e ⟨.connecting, some a⟩).modifyLoop r.boss fun l =>
          { l.afterStart replies r.boss with
            queue := (l.afterStart replies r.boss).queue.push (.attempt e a) }).modifyFactory
        r.factory fun f => f.modifyBoss fun b => { b with attempts := b.attempts + 1 })
      (.finished (.connected (.ok ())))
    ∨ (Operation.connect e a).control.Halts replies t s := by
  have hbegin := performs_begin replies t (a := a) found free hst hboss
  have hboss₁ : (s.setStatus e ⟨.connecting, some a⟩).loop? r.boss = some lp := hboss
  have hstart := performs_start replies t [.submit r.boss (.attempt e a) .starting,
    .connect e a .submitting] hboss₁ hslot
  rw [hok] at hstart
  let s₂ := (s.setStatus e ⟨.connecting, some a⟩).modifyLoop r.boss (Loop.afterStart replies r.boss)
  have hboss₂ : s₂.loop? r.boss = some (lp.afterStart replies r.boss) :=
    Store.loop?_modifyLoop_self hboss₁ _
  have hup₂ : (lp.afterStart replies r.boss).shutDown = false := by
    unfold Loop.afterStart
    split
    · exact hup
    · split <;> exact hup
  have hstarted := hbegin.trans hstart
  rcases performs_append replies t [.connect e a .submitting] (.attempt e a) mux hboss₂ hup₂ hmux
    with happend | hhalts
  · rw [Store.modifyLoop_modifyLoop] at happend
    have hcount : (Control.running [.connect e a .count]).move
        ((s.setStatus e ⟨.connecting, some a⟩).modifyLoop r.boss
          ((fun l => { l with queue := l.queue.push (.attempt e a) }) ∘
            Loop.afterStart replies r.boss)) t
        = .change (fun s => s.modifyFactory r.factory fun f =>
            f.modifyBoss fun b => { b with attempts := b.attempts + 1 })
          (.finished (.connected (.ok ()))) := by
      have found₂ := Store.endpoints_setStatus_self found ⟨.connecting, some a⟩
      simp [Control.move, Frame.move, found₂, ConnectPoint.move]
    exact .inl (hstarted.trans (happend.trans (.act hcount (.refl _ _))))
  · exact .inr (hstarted.halts rfl hhalts)

end Connecting

end Procedures

/-- **What comes of a call to `connect`** that begins in the store `s` and is given these answers:
its result, what it has been told, and the store that it leaves. The endpoint is `r`, its factory
is `f`, and `l` is the loop of the boss. -/
structure Connection (replies : (q : Request) → q.Reply) (s : Store) (e : EndpointId) (a : Address)
    (r : Endpoint) (f : Factory) (l : Loop) (res : Except Failure Unit) (as : List Answer)
    (s' : Store) : Prop where
  /-- The state of the endpoint is in the way exactly if it is not open, and it is told, -/
  wrongState : ∀ n st, res = .error (.wrongState n st)
    ↔ r.status.state ≠ .opened ∧ n = r.number ∧ st = r.status.state
  /-- and then nobody is asked for anything and nothing is touched, released or not. -/
  untouched : r.status.state ≠ .opened → as = [] ∧ s' = s
  /-- Otherwise the factory is in the way exactly if it has been released. -/
  released : res = .error .released ↔ r.status.state = .opened ∧ f.released = true
  /-- Otherwise the provider is, exactly if the boss is not started, has no multiplexer, and none
  can be opened. -/
  unopened : ∀ i cause, res = .error (.unopened i cause)
    ↔ (r.status.state = .opened ∧ f.released = false) ∧ (l.started = false ∧ l.slot = none
      ∧ replies (.openMultiplexer r.boss l.provider) = .error cause) ∧ i = l.provider.identity
  /-- Otherwise the executor is, exactly if the boss is not started and the executor refuses it. -/
  refused : ∀ role, res = .error (.refused role)
    ↔ (r.status.state = .opened ∧ f.released = false) ∧ (l.started = false
      ∧ ∃ mux, l.obtained replies r.boss = .ok mux ∧ l.isTaken replies r.boss mux = false)
      ∧ role = .boss
  /-- Otherwise the attempt is accepted. -/
  accepted : res = .ok () ↔ (r.status.state = .opened ∧ f.released = false) ∧ (l.started = true
    ∨ ∃ mux, l.obtained replies r.boss = .ok mux ∧ l.isTaken replies r.boss mux = true)
  /-- Then the endpoint is connecting to the address, and one job has been added at the end of the
  queue of the boss, which has been started on the multiplexer that it had, or on the one that has
  been opened for it if it had none; the attempt is counted. -/
  connecting : res = .ok () → ∃ mux, l.obtained replies r.boss = .ok mux
    ∧ s' = ((s.setStatus e ⟨.connecting, some a⟩).modifyLoop r.boss fun l => { l with
      slot := some mux, started := true, queue := l.queue.push (.attempt e a) }).modifyFactory
    r.factory fun f => f.modifyBoss fun b => { b with attempts := b.attempts + 1 }
  /-- An attempt that fails leaves everything as it was, but for a multiplexer that has been
  opened for the boss meanwhile, -/
  atomic : ∀ err, res = .error err → s' = s ∨ l.slot = none ∧ ∃ mux,
    replies (.openMultiplexer r.boss l.provider) = .ok mux
      ∧ s' = s.modifyLoop r.boss fun l => { l with slot := some mux }
  /-- and all that it has asked for is this, and that the executor of the boss takes the loop. -/
  asked : ∀ err, res = .error err → ∀ x ∈ as, x.1 = .openMultiplexer r.boss l.provider
    ∨ ∃ mux, x.1 = .execute l.executor r.boss mux

section Procedures

variable {replies : (q : Request) → q.Reply} {t : ThreadId} {s : Store} {lp : Loop}
  {e : EndpointId} {r : Endpoint} {a : Address} {f : Factory}

/-- An endpoint that is not open is in the way of everything else. -/
theorem connection_of_ne (hst : r.status.state ≠ .opened) :
    Connection replies s e a r f lp (.error (.wrongState r.number r.status.state)) [] s where
  wrongState n st := by simp [hst, eq_comm]
  untouched _ := ⟨rfl, rfl⟩
  released := by simp [hst]
  unopened i cause := by simp [hst]
  refused role := by simp [hst]
  accepted := by simp [hst]
  connecting := by rintro ⟨⟩
  atomic _ _ := .inl rfl
  asked _ _ x hx := absurd hx List.not_mem_nil

/-- **What comes of an attempt at an open endpoint** is what comes of the start of the boss. -/
theorem connection_of_opened {as : List Answer} {s' : Store} (hst : r.status.state = .opened)
    (hreleased : lp.shutDown = f.released)
    (hok : lp.startResult replies r.boss = .ok () → ∃ mux, lp.obtained replies r.boss = .ok mux
      ∧ s' = ((s.setStatus e ⟨.connecting, some a⟩).modifyLoop r.boss fun l => { l with
        slot := some mux, started := true, queue := l.queue.push (.attempt e a) }).modifyFactory
        r.factory fun f => f.modifyBoss fun b => { b with attempts := b.attempts + 1 })
    (herror : ∀ err, lp.startResult replies r.boss = .error err →
      as = lp.startAnswers replies r.boss ∧ (s' = s ∨ lp.slot = none ∧ ∃ mux,
        replies (.openMultiplexer r.boss lp.provider) = .ok mux
          ∧ s' = s.modifyLoop r.boss fun l => { l with slot := some mux })) :
    Connection replies s e a r f lp (lp.startResult replies r.boss) as s' where
  wrongState n st := by simp [hst, Loop.startResult_ne_wrongState]
  untouched hne := absurd hst hne
  released := by simp [hst, Loop.startResult_eq_released_iff, hreleased]
  unopened i cause := by
    simp [hst, Loop.startResult_eq_unopened_iff, Loop.obtained_eq_error_iff, hreleased, and_assoc]
  refused role := by
    simp only [hst, Loop.startResult_eq_refused_iff, hreleased, true_and, and_assoc]
    rfl
  accepted := by simp [hst, Loop.startResult_eq_ok_iff, hreleased]
  connecting := hok
  atomic err h := (herror err h).2
  asked err h x hx := Loop.of_mem_startAnswers ((herror err h).1 ▸ hx)

/-- **What comes of a call to `connect` by itself**, unless it comes to a lock that somebody
has. -/
theorem Control.performs_connect (replies : (q : Request) → q.Reply)
    (found : s.endpoints[e]? = some r) (hboss : s.loop? r.boss = some lp)
    (hopened : r.status.state = .opened → r.status = .initial)
    (hslot : lp.started = true → lp.slot.isSome = true) (hreleased : lp.shutDown = f.released) :
    (∃ res as s', (Operation.connect e a).control.Performs replies t s as s'
        (.finished (.connected res)) ∧ Connection replies s e a r f lp res as s')
      ∨ (Operation.connect e a).control.Halts replies t s := by
  by_cases free : s.locks.holder? (.status e) = none
  case neg =>
    have htake : (Operation.connect e a).control.move s t = .takeLock s t (.status e)
        (.running [.connect e a .begin]) := by
      simp [Operation.control, Control.move, Frame.move, found, ConnectPoint.move]
    exact .inr (halts_of_takeLock htake free)
  by_cases hst : r.status.state = .opened
  case neg =>
    exact .inl ⟨_, _, _, performs_connect_of_ne _ _ found free hst, connection_of_ne hst⟩
  by_cases hfree : lp.shutDown = false → lp.started = false → s.locks.holder? (.slot r.boss) = none
  case neg =>
    push Not at hfree
    obtain ⟨hd, hs, held⟩ := hfree
    exact .inr ((performs_begin _ _ (a := a) found free hst hboss).halts rfl
      (halts_start _ _ _ (s := s.setStatus e _) hboss hd hs held))
  cases hresult : lp.startResult replies r.boss with
  | error err =>
    have hperforms := performs_connect_of_error replies t (a := a) found free (hopened hst) hboss
      hfree hresult
    refine .inl ⟨_, _, _, hperforms, hresult ▸ connection_of_opened hst hreleased
      (fun hok => by cases hok.symm.trans hresult) fun err _ => ⟨rfl, ?_⟩⟩
    rcases Loop.afterStart_of_error hresult with hafter | ⟨hnone, mux, hopen, hafter⟩
    · exact .inl (Store.modifyLoop_eq_self hboss hafter)
    · exact .inr ⟨hnone, mux, hopen, Store.modifyLoop_congr hboss hafter⟩
  | ok =>
    obtain ⟨mux, hobtained, hafter⟩ := Loop.afterStart_of_ok hresult hslot
    have hup := (Loop.startResult_eq_ok_iff.mp hresult).1
    rcases performs_connect_of_ok replies t mux (a := a) found free hst hboss hfree hresult hup
      (by rw [hafter]) with hperforms | hhalts
    · refine .inl ⟨_, _, _, hperforms, hresult ▸ connection_of_opened hst hreleased
        (fun _ => ⟨mux, hobtained, ?_⟩) fun err herror => by cases hresult.symm.trans herror⟩
      have hboss₁ : (s.setStatus e ⟨.connecting, some a⟩).loop? r.boss = some lp := hboss
      have hloop : (s.setStatus e ⟨.connecting, some a⟩).modifyLoop r.boss (fun l =>
          { l.afterStart replies r.boss with
            queue := (l.afterStart replies r.boss).queue.push (.attempt e a) })
          = (s.setStatus e ⟨.connecting, some a⟩).modifyLoop r.boss fun l => { l with
            slot := some mux, started := true, queue := l.queue.push (.attempt e a) } :=
        Store.modifyLoop_congr hboss₁ (by rw [hafter])
      rw [hloop]
    · exact .inr hhalts

end Procedures

namespace Machine

variable {m : Machine} {is : List Incident} {t : ThreadId} {e : EndpointId} {a : Address}
  {f : FactoryId} {fac : Factory}

/-- **While no release is under way**, a factory that has been released has told all its loops to
end. -/
theorem Run.allTold_of_letGoOf (r : Run is m) (hidle : ∀ u, ¬ m.Releases is f u)
    (h : m.LetGoOf f) : m.store.AllTold f := by
  have hmoved : ¬ Unmoved is f := fun hun => (r.first f).1 hun h
  unfold Unmoved at hmoved
  push Not at hmoved
  obtain ⟨u, hap, hi, ho⟩ := hmoved
  obtain ⟨u₀, hfirst⟩ := exists_first hi ho
  obtain ⟨c, hc, hne, htold⟩ := r.told_of_first hfirst
  cases c with
  | running stack => exact absurd ⟨hfirst.1, stack, hc, hne⟩ (hidle u₀)
  | finished o =>
    have hends : o.endsFor (some (.release f)) = true := r.from_of_carriesOut hfirst.1 hc
    cases o <;> first | exact htold rfl | cases hends

theorem Run.shutDown_eq_released (r : Run is m) (hidle : ∀ u, ¬ m.Releases is f u) {st : Seat}
    {lp : Loop} (found : m.store.loop? ⟨f, st⟩ = some lp)
    (hfac : m.store.factories[f]? = some fac) : lp.shutDown = fac.released := by
  rw [Bool.eq_iff_iff]
  constructor
  · intro hd
    obtain ⟨fac', hfac', hup⟩ := r.letGoOf_of_shutDown ⟨lp, found, hd⟩
    obtain rfl := Option.some.inj (hfac.symm.trans hfac')
    exact hup
  · intro hup
    exact (r.allTold_of_letGoOf hidle ⟨fac, hfac, hup⟩ (st.rank + 1)).2 st st.rank.lt_succ_self lp
      found

/-- A thread that comes to a lock by itself waits for somebody else, who has had it from the
beginning. -/
theorem Run.waits_of_halts (r : Run is m) {replies : (q : Request) → q.Reply} {c : Control}
    (hc : m.control? t = some c) (h : c.Halts replies t m.store) :
    ∃ n k u, (m.perform replies t n).move t = .blocked k ∧ u ≠ t
      ∧ m.store.locks.holder? k = some u := by
  obtain ⟨as, s', c', k, hperforms, hblocked, hholder⟩ := h
  obtain ⟨n, js, hleads, -, hstore, hcontrol⟩ := exists_perform hperforms rfl hc
  have hmove : (m.perform replies t n).move t = .blocked k := by
    rw [move_eq hcontrol, hstore, hblocked]
  obtain ⟨-, -, -, -, u, hu⟩ := wants_of_blocked hmove
  refine ⟨n, k, u, hmove, ?_, by rw [← hholder, ← hstore, hu]⟩
  rintro rfl
  exact Nat.lt_irrefl _ ((r.leads hleads).rank_lt hmove hu)

/-- **What comes of a call to `connect`** on a stream endpoint, in any machine that a history leads
to and in which its factory is not being released. The call moves by itself and is given
any answers; it returns as the store and the answers tell, and a call that fails leaves the
store as it was. If it does not return, somebody else has had a lock that it needs from the
beginning. -/
theorem Run.connection (r : Run is m) {q : Endpoint}
    (hc : m.control? t = some (Operation.connect e a).control)
    (found : m.store.endpoints[e]? = some q) (hfac : m.store.factories[q.factory]? = some fac)
    (hfl : fac.flavor = .client) (hidle : ∀ u, ¬ m.Releases is q.factory u)
    (replies : (q : Request) → q.Reply) :
    (∃ l, m.store.loop? q.boss = some l ∧ ∃ n js res, m.Leads js (m.perform replies t n)
      ∧ (m.perform replies t n).control? t = some (.finished (.connected res))
      ∧ Connection replies m.store e a q fac l res (answersTo t js) (m.perform replies t n).store)
    ∨ ∃ n k u, (m.perform replies t n).move t = .blocked k ∧ u ≠ t
      ∧ m.store.locks.holder? k = some u := by
  obtain ⟨b, hb⟩ : ∃ b, fac.boss = some b := by
    unfold Factory.flavor at hfl
    split at hfl
    · exact ⟨_, ‹_›⟩
    · cases hfl
  have hboss : m.store.loop? q.boss = some b.loop := by
    rw [Store.loop?, Endpoint.boss, hfac, Option.bind_some, Factory.loop?, hb, Option.map_some]
  have hopened (hst : q.status.state = .opened) : q.status = .initial := by
    have hstatus : m.store.status? e = some q.status := by
      rw [Store.status?, found]
      rfl
    have hcoherent := r.coherent hstatus
    rw [Status.Coherent, hst] at hcoherent
    rw [Status.initial, ← hst, ← hcoherent]
  have hslot (hs : b.loop.started = true) : b.loop.slot.isSome = true := by
    have hsome := (r.traffic.slot_of_started ⟨b.loop, hboss, hs⟩).1
    rwa [Store.slot?_eq hboss] at hsome
  have hreleased : b.loop.shutDown = fac.released := r.shutDown_eq_released hidle hboss hfac
  rcases Control.performs_connect replies (t := t) (a := a) found hboss hopened hslot
    hreleased with ⟨res, as, s', hperforms, hconnection⟩ | hhalts
  · obtain ⟨n, js, hleads, hanswers, hstore, hcontrol⟩ := exists_perform hperforms rfl hc
    refine .inl ⟨b.loop, hboss, n, js, res, hleads, hcontrol, ?_⟩
    rw [hanswers, hstore]
    exact hconnection
  · exact .inr (r.waits_of_halts hc hhalts)

end Machine

/-- A channel is made, and an attempt at its endpoint is about to begin. -/
def History.attempting : History :=
  (((empty.build .small).call none (.create 0)).turn 0 40).call none (.connect 0 "127.0.0.1:9")

/-- The executor refuses the boss. The endpoint is open again, and nothing is queued or counted. -/
theorem connection_attempting :
    let m := History.attempting.machine
    let boss : LoopId := ⟨0, .boss⟩
    ∃ n js, m.Leads js (m.perform Machine.unobliged 2 n)
      ∧ (m.perform Machine.unobliged 2 n).control? 2
        = some (.finished (.connected (.error (.refused .boss))))
      ∧ (m.perform Machine.unobliged 2 n).store.status? 0 = some .initial
      ∧ (m.perform Machine.unobliged 2 n).store.queue boss = []
      ∧ (m.perform Machine.unobliged 2 n).store.attempts 0 = 0 := by
  intro m boss
  have r : Machine.Run History.attempting.incidents m := History.attempting.orderly.run
  have hc : m.control? 2 = some (Operation.connect 0 "127.0.0.1:9").control := by decide +kernel
  have found : m.store.endpoints[0]? = some ⟨0, 0, 0, .initial⟩ := by decide +kernel
  have hfound : m.store.factories[0]?.isSome := by decide +kernel
  obtain ⟨fac, hfac⟩ := Option.isSome_iff_exists.mp hfound
  have hflavor : m.store.factories[0]?.map (·.flavor) = some .client := by decide +kernel
  have hfl : fac.flavor = .client := by
    rwa [hfac, Option.map_some, Option.some_inj] at hflavor
  have hup : m.store.factories[0]?.map (·.released) = some false := by decide +kernel
  have hreleased : fac.released = false := by rwa [hfac, Option.map_some, Option.some_inj] at hup
  have hnobody : some (.release 0) ∉ origins History.attempting.incidents := by decide +kernel
  have hidle (u : ThreadId) : ¬ m.Releases History.attempting.incidents 0 u :=
    fun h => hnobody (List.mem_of_getElem? h.1)
  rcases r.connection hc found hfac hfl hidle Machine.unobliged with
    ⟨l, hl, n, js, res, hleads, hreturned, hconnection⟩ | ⟨n, k, u, -, -, hu⟩
  · have hboss : m.store.loop? boss = some (.idle ⟨0, ⟨"fake", none⟩⟩ .unconstrained 0) := by
      decide +kernel
    obtain rfl := Option.some.inj (hl.symm.trans hboss)
    have hres : res = .error (.refused .boss) :=
      (hconnection.refused .boss).mpr ⟨⟨rfl, hreleased⟩, ⟨rfl, ⟨0, 0⟩, rfl, rfl⟩, rfl⟩
    subst hres
    refine ⟨n, js, hleads, hreturned, ?_⟩
    rcases hconnection.atomic _ rfl with hstore | ⟨-, mux, hopened, hstore⟩
    · rw [hstore]
      decide +kernel
    · obtain rfl := Except.ok.inj hopened
      rw [hstore]
      decide +kernel
  · have hfree : m.store.locks.entries = [] := by decide +kernel
    rw [LockTable.holder?, hfree] at hu
    cases hu

end EndpointControl
