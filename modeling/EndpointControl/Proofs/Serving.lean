import EndpointControl.Proofs.Turns

/-!
# Who runs which loop

A loop that has been started has a thread that runs it, until it has ended
(`Machine.Run.attended`), and that thread is one of the loop's executor
(`Machine.Run.home_of_serves`). So an executor that has been shut down and has no
thread left has no loop left that runs, and gets none (`Machine.Orderly.vacant`).
-/

namespace EndpointControl

/-- The loop that the procedure runs. -/
def Frame.served? : Frame → Option LoopId
  | .serve l _ _ => some l
  | _ => none

/-- **The loop that the thread runs.** -/
def Control.serves? : Control → Option LoopId
  | .running stack => stack.findSome? Frame.served?
  | .finished _ => none

theorem Frame.SameCall.served? {fr fr' : Frame} (h : SameCall fr fr') :
    fr'.served? = fr.served? := by
  cases h <;> rfl

theorem Frame.served?_of_not_root {fr : Frame} (h : fr.isRoot = false) : fr.served? = none := by
  cases fr <;> first | rfl | exact absurd h nofun

section Procedures

variable {s : Store} {t : ThreadId} {fr : Frame} {below : List Frame} {g : Store → Store}
  {c c' : Control} {ns : List Note}

theorem Control.serves?_cons (fr : Frame) (below : List Frame) :
    (Control.running (fr :: below)).serves? = fr.served?.or (Control.running below).serves? := by
  rw [serves?, serves?, List.findSome?_cons]
  cases fr.served? <;> rfl

/-- A thread runs the same loop to its end. -/
theorem Control.Goes.serves? (h : c'.Goes fr below) (hb : fr.Below s below) :
    c'.serves? = (Control.running (fr :: below)).serves? ∨ ∃ o, c' = .finished o ∧ below = [] := by
  cases h with
  | within hsame => exact .inl (by rw [serves?_cons, serves?_cons, hsame.served?])
  | calls hsame hnew =>
    left
    rw [serves?_cons, Frame.served?_of_not_root (Frame.isRoot_of_isNew hnew), Option.none_or,
      serves?_cons, serves?_cons, hsame.served?]
  | returns hroot =>
    left
    obtain ⟨caller, rest, rfl, -⟩ := hb.exists_caller hroot
    rw [back, serves?_cons fr, Frame.served?_of_not_root hroot, Option.none_or, serves?_cons,
      serves?_cons, (caller.sameCall_resume _).served?]
  | ends hroot => exact .inr ⟨_, rfl, hb.eq_nil hroot⟩

/-- **What is on top after a step**: the same procedure, one that is just
beginning, or the caller. -/
theorem Control.Goes.top {fr₁ : Frame} {rest₁ : List Frame} (h : c'.Goes fr below)
    (hb : fr.Below s below) (hc' : c' = .running (fr₁ :: rest₁)) :
    fr.SameCall fr₁ ∧ rest₁ = below ∨ fr₁.isNew = true
      ∨ ∃ caller r, Frame.Calls fr caller ∧ fr₁ = caller.resume r := by
  cases h with
  | within hsame =>
    obtain ⟨rfl, rfl⟩ := List.cons.inj (Control.running.inj hc')
    exact .inl ⟨hsame, rfl⟩
  | calls hsame hnew => exact .inr (.inl ((List.cons.inj (Control.running.inj hc')).1 ▸ hnew))
  | @returns r hroot =>
    obtain ⟨caller, rest, rfl, hcall, -⟩ := hb.exists_caller hroot
    exact .inr (.inr ⟨caller, r, hcall, (List.cons.inj (Control.running.inj hc')).1.symm⟩)
  | ends => exact absurd hc' nofun

/-- **A thread that no longer runs a loop has seen it to its end.** -/
theorem Control.serves?_of_act (hc : c.Sound s) (h : c.move s t = .act g c' ns) :
    c'.serves? = c.serves? ∨ c'.serves? = none
      ∧ ∀ l, c.serves? = some l → ∃ m n, c = .running [.serve l m (.announceExit n)] := by
  obtain ⟨fr, below, rfl, hgoes⟩ := goes_of_act h
  refine (hgoes.serves? hc.2.2).imp_right ?_
  rintro ⟨o, rfl, rfl⟩
  refine ⟨rfl, fun l hl => ?_⟩
  -- a loop ends at one point only
  cases fr with
  | serve l' m p =>
    obtain rfl : l' = l := Option.some.inj hl
    cases moves_of_running h with
    | serve found hp =>
      cases p
      case announceExit n => exact ⟨m, n, rfl⟩
      case run batch n => cases batch <;> simp [ServePoint.move] at hp
      case report n => cases n <;> simp [ServePoint.move] at hp
      case discard rest n => cases rest <;> simp [ServePoint.move] at hp
      all_goals simp [ServePoint.move] at hp
      all_goals split at hp <;> simp at hp
  | _ => cases hl

theorem Control.serves?_of_ask {q : Request} {after : q.Reply → Control} (reply : q.Reply)
    (h : c.move s t = .ask q after) : (after reply).serves? = c.serves? := by
  obtain ⟨fr, fr', below, rfl, hsame, hafter⟩ := goes_of_ask reply h
  rw [hafter, serves?, serves?, List.findSome?_cons, List.findSome?_cons, hsame.served?]

/-- Whoever returns is no longer on the stack. -/
@[simp] theorem Control.back_ne (fr : Frame) (below : List Frame) (r : Except Failure Unit) :
    back below r ≠ .running (fr :: below) := by
  cases below with
  | nil => exact nofun
  | cons caller rest => simp [back]

/-- A loop is about to be marked as started only after an executor has taken it. -/
theorem Control.ne_mark_of_act (hc : c.Sound s) (h : c.move s t = .act g c' ns) (id : LoopId)
    (below : List Frame) : c' ≠ .running (.start id .mark :: below) := by
  intro hc'
  obtain ⟨fr, below', rfl, hgoes⟩ := goes_of_act h
  -- nothing but an answer leads there: no other point of the start, no call and no return
  rcases hgoes.top hc.2.2 hc' with ⟨hsame, rfl⟩ | hnew | ⟨caller, r, hcall, heq⟩
  · cases hsame with
    | @start _ p =>
      subst hc'
      cases moves_of_running h with
      | start found hp =>
        cases p <;> simp [StartPoint.move] at hp
        case leave r => exact absurd hp.2.1.symm (back_ne _ _ _)
        all_goals
          split at hp
          all_goals first | exact absurd hp.2.1.symm (back_ne _ _ _) | simp at hp
  · cases hnew
  · cases hcall <;> cases r <;> cases heq

/-- **A loop announces its end once it is marked as ended.** -/
theorem Control.exited_of_act (hc : c.Sound s) (h : c.move s t = .act g c' ns) {id : LoopId}
    {m : Multiplexer} {n : Nat} {below : List Frame}
    (hc' : c' = .running (.serve id m (.announceExit n) :: below)) : (g s).Exited id := by
  obtain ⟨fr, below', rfl, hgoes⟩ := goes_of_act h
  -- the loop gets there from the point before it, where it is marked
  rcases hgoes.top hc.2.2 hc' with ⟨hsame, rfl⟩ | hnew | ⟨caller, r, hcall, heq⟩
  · cases hsame with
    | @serve _ _ p =>
      subst hc'
      cases moves_of_running h with
      | serve found hp =>
        cases p
        case run batch n =>
          cases batch with
          | nil => simp [ServePoint.move] at hp
          | cons j rest => cases j <;> simp [ServePoint.move, Frame.ofJob] at hp
        case report n => cases n <;> simp [ServePoint.move] at hp
        case discard rest n =>
          cases rest <;> simp [ServePoint.move, Frame.ofDropped] at hp
        all_goals simp [ServePoint.move] at hp
        case serialize => split at hp <;> simp at hp
        case endTurn => split at hp <;> simp at hp
        case readShutDown => split at hp <;> simp at hp
        case markExited =>
          rw [hp.1]
          exact ⟨_, Store.loop?_modifyLoop_self found _, rfl⟩
  · cases hnew
  · cases hcall <;> cases r <;> cases heq

theorem Control.ne_announceExit_of_ask {q : Request} {after : q.Reply → Control}
    (reply : q.Reply) (h : c.move s t = .ask q after) {id : LoopId} {m : Multiplexer} {n : Nat} :
    after reply ≠ .running (.serve id m (.announceExit n) :: below) := by
  obtain ⟨fr, below', rfl, ha⟩ := asks h
  cases ha with
  | openNew | wakeSubmit | wakeSignal => cases reply <;> exact nofun
  | _ => exact nofun

/-- **Whoever may mark a loop as started has been told that an executor took it.** -/
theorem Control.execute_of_ask {q : Request} {after : q.Reply → Control} (reply : q.Reply)
    (h : c.move s t = .ask q after) {id : LoopId}
    (hmark : after reply = .running (.start id .mark :: below)) :
    ∃ x mux, (⟨q, reply⟩ : (q : Request) × q.Reply) = ⟨.execute x id mux, true⟩ := by
  obtain ⟨fr, below', rfl, ha⟩ := asks h
  cases ha with
  | @execute id' l mux found =>
    cases reply with
    | true =>
      obtain ⟨rfl, -⟩ := Frame.start.inj (List.cons.inj (Control.running.inj hmark)).1
      exact ⟨_, mux, rfl⟩
    | false => exact absurd hmark nofun
  | openNew | wakeSubmit | wakeSignal => cases reply <;> exact absurd hmark nofun
  | _ => exact absurd hmark nofun

/-- A loop is offered to its executor. -/
theorem Control.executor_of_ask {x : ExecutorId} {id : LoopId} {m : Multiplexer}
    {after : Bool → Control} (h : c.move s t = .ask (.execute x id m) after) :
    ∃ l, s.loop? id = some l ∧ l.executor = x := by
  obtain ⟨fr, below', rfl, ha⟩ := asks h
  cases ha with
  | execute found => exact ⟨_, found, rfl⟩

end Procedures

namespace Machine

variable {m m' : Machine} {i : Incident} {is : List Incident}

/-- Some thread runs the loop. -/
def Serves (m : Machine) (id : LoopId) : Prop :=
  ∃ t c, m.control? t = some c ∧ c.serves? = some id

/-- **The loop has ended, or some thread runs it.** -/
def Attended (m : Machine) (id : LoopId) : Prop := m.store.Exited id ∨ m.Serves id

theorem Serves.setControl {id : LoopId} (h : m.Serves id) {t : ThreadId} {c : Control}
    (hc : m.control? t = some c) {c' : Control} (hserves : c'.serves? = c.serves?) :
    (m.setControl t c').Serves id := by
  obtain ⟨t', d, hd, hid⟩ := h
  by_cases ht : t = t'
  · subst ht
    obtain rfl := Option.some.inj (hc.symm.trans hd)
    exact ⟨t, c', control?_setControl_self hc c', hserves.trans hid⟩
  · exact ⟨t', d, by rw [control?_setControl, if_neg ht, hd], hid⟩

theorem Serves.spawn {id : LoopId} (h : m.Serves id) (x : Option ExecutorId) (c : Control) :
    (m.spawn x c).Serves id := by
  obtain ⟨t, d, hd, hid⟩ := h
  exact ⟨t, d, control?_spawn_of_eq_some hd .., hid⟩

theorem serves_spawn (m : Machine) (x : Option ExecutorId) (id : LoopId) (mux : Multiplexer) :
    (m.spawn x (.running [.serve id mux .announce])).Serves id :=
  ⟨m.threads.size, _, by rw [control?_spawn, if_pos rfl], rfl⟩

/-- **What is attended to stays so**, if loops announce their end once they are
marked as ended. -/
theorem Advance.attended (a : m.Advance i m') {id : LoopId} (h : m.Attended id)
    (hsound : ∀ t c, m.control? t = some c → c.Sound m.store)
    (hend : ∀ t mux n below,
      m.control? t = some (.running (.serve id mux (.announceExit n) :: below)) →
      m.store.Exited id) : m'.Attended id := by
  rcases h with h | h
  · exact .inl (a.grows.exited h)
  cases a with
  | @act t c c' g ns hc hmove =>
    rcases Control.serves?_of_act (hsound t c hc) hmove with heq | ⟨hnone, hlast⟩
    · exact .inr (h.setControl (m := { m with store := g m.store }) hc heq)
    · obtain ⟨t', d, hd, hid⟩ := h
      by_cases ht : t = t'
      · subst ht
        obtain rfl := Option.some.inj (hc.symm.trans hd)
        -- it ran the loop until now, so it announced its end
        obtain ⟨mux, n, rfl⟩ := hlast id hid
        exact .inl ((Control.grows_of_move hmove).exited (hend t mux n [] hc))
      · exact .inr ⟨t', d, by rw [control?_act, if_neg ht, hd], hid⟩
  | @answer t c q after hc hmove reply =>
    have hset := h.setControl hc (Control.serves?_of_ask reply hmove)
    rcases answer_eq m t q after reply with he | ⟨x, l, mux, rfl, he⟩ <;> rw [he]
    · exact .inr hset
    · exact .inr (hset.spawn _ _)
  | call home o => exact .inr (h.spawn _ _)
  | build b => exact .inr h

/-- A loop that announces its end has ended. -/
theorem Reachable.exited_of_announceExit (hm : m.Reachable) :
    ∀ t id mux n below, m.control? t = some (.running (.serve id mux (.announceExit n) :: below)) →
      m.store.Exited id := by
  have h : m.store.Sound ∧ ∀ t c, m.control? t = some c → c.Sound m.store
      ∧ ∀ id mux n below, c = .running (.serve id mux (.announceExit n) :: below) →
        m.store.Exited id := by
    -- what a thread knows by its point outlasts the steps of others, as marks are never lowered
    refine hm.invariant (P := Store.Sound) (Q := fun s c => c.Sound s ∧ ∀ id mux n below,
      c = .running (.serve id mux (.announceExit n) :: below) → s.Exited id) .empty
      (fun _ b hs => hs.build b) ?grows ?act ?ask ?called ?served
    case grows =>
      intro s s' c hg hc
      exact ⟨hg.control hc.1, fun id mux n below h => hg.exited (hc.2 id mux n below h)⟩
    case act =>
      intro s t c g c' ns hs hc h
      obtain ⟨hs', hc'⟩ := Control.sound_of_act hs hc.1 h
      exact ⟨hs', hc', fun id mux n below => Control.exited_of_act hc.1 h⟩
    case ask =>
      intro s t c q after reply hs hc h
      refine ⟨Control.sound_of_ask reply hc.1 h, fun id mux n below heq => ?_⟩
      exact absurd heq (Control.ne_announceExit_of_ask reply h)
    case called => exact fun _ o => by cases o <;> exact ⟨⟨trivial, trivial, rfl⟩, nofun⟩
    case served => exact fun _ _ _ => ⟨⟨trivial, trivial, rfl⟩, nofun⟩
  exact fun t id mux n below hc => (h.2 t _ hc).2 id mux n below rfl

/-- **A loop that has been started is attended to.** -/
theorem Run.attended (r : Run is m) :
    (∀ id, m.store.Started id → m.Attended id) ∧ ∀ t id below,
      m.control? t = some (.running (.start id .mark :: below)) → m.Attended id := by
  refine r.induction (motive := fun _ m => (∀ id, m.store.Started id → m.Attended id)
    ∧ ∀ t id below, m.control? t = some (.running (.start id .mark :: below)) → m.Attended id)
    ?empty ?advance
  case empty =>
    refine ⟨?_, fun t id below h => by simp [control?, Machine.empty] at h⟩
    rintro id ⟨l, hl, -⟩
    simp [Machine.empty, Store.empty, Store.loop?] at hl
  case advance =>
    intro is m i m' r ih a
    obtain ⟨hstarted, hmark⟩ := ih
    obtain ⟨-, hsound⟩ := r.reachable.sound
    -- what is attended to stays so, and a loop is marked after it was taken
    have hstep {id : LoopId} (h : m.Attended id) : m'.Attended id :=
      a.attended h hsound fun t => r.reachable.exited_of_announceExit t id
    refine ⟨fun id hid => hstep ?_, fun t id below hd => ?_⟩
    · cases a with
      | @act t c c' g ns hc hmove =>
        rcases (Control.flags_of_act hmove).started id hid with h | ⟨below, rfl⟩
        · exact hstarted id h
        · exact hmark t id below hc
      | answer => exact hstarted id (by rwa [store_answer] at hid)
      | call => exact hstarted id hid
      | build b =>
        have hflags : Flags m.store (.finished .served) (m.store.build b) := .build b
        exact hstarted id ((hflags.started id hid).resolve_right (by rintro ⟨_, ⟨⟩⟩))
    · cases a.places hd with
      | kept hc => exact hstep (hmark t id below hc)
      | acted hc hmove => exact absurd rfl (Control.ne_mark_of_act (hsound t _ hc) hmove id below)
      | answered reply hc hmove hafter hm =>
        -- whoever may mark it has just been told that an executor runs it
        obtain ⟨x, mux, heq⟩ := Control.execute_of_ask reply hmove hafter.symm
        cases heq
        exact .inr (hm ▸ serves_spawn _ (some x) id mux)
      | @called _ o ht hd => cases o <;> cases hd
      | served ht hc hmove hd => cases hd

/-! ## On whose threads -/

@[simp] theorem home?_setControl (m : Machine) (t t' : ThreadId) (c : Control) :
    (m.setControl t c).home? t' = m.home? t' := by
  simp only [home?, setControl, Array.getElem?_modify]
  split
  · cases m.threads[t']? <;> rfl
  · rfl

@[simp] theorem home?_act (m : Machine) (t t' : ThreadId) (g : Store → Store) (c : Control) :
    (m.act t g c).home? t' = m.home? t' :=
  home?_setControl _ t t' c

theorem home?_spawn (m : Machine) (x : Option ExecutorId) (c : Control) (t : ThreadId) :
    (m.spawn x c).home? t = if t = m.threads.size then x else m.home? t := by
  simp only [home?, spawn, Array.getElem?_push]
  split
  · rfl
  · rfl

/-- **Threads stay with their executors.** -/
theorem Advance.home?_eq (a : m.Advance i m') {t : ThreadId} (hlt : t < m.threads.size) :
    m'.home? t = m.home? t := by
  cases a with
  | act => exact home?_act ..
  | @answer t' c q after hc hmove reply =>
    rcases answer_eq m t' q after reply with he | ⟨x, l, mux, -, he⟩ <;> rw [he]
    · exact home?_setControl ..
    · rw [home?_spawn, size_setControl, if_neg (Nat.ne_of_lt hlt), home?_setControl]
  | call => rw [home?_spawn, if_neg (Nat.ne_of_lt hlt)]
  | build => rfl

/-- **A loop runs on a thread of its executor.** -/
theorem Run.home_of_serves (r : Run is m) : ∀ {t c id}, m.control? t = some c →
    c.serves? = some id → ∃ l, m.store.loop? id = some l ∧ m.home? t = some l.executor := by
  refine r.induction (motive := fun _ m => ∀ {t c id}, m.control? t = some c →
    c.serves? = some id → ∃ l, m.store.loop? id = some l ∧ m.home? t = some l.executor)
    ?empty ?advance
  case empty => exact fun hc => by simp [control?, Machine.empty] at hc
  case advance =>
    intro is m i m' r ih a t d id hd hid
    have hkeep {c : Control} (hc : m.control? t = some c) (hid : c.serves? = some id) :
        ∃ l, m'.store.loop? id = some l ∧ m'.home? t = some l.executor := by
      obtain ⟨l, hl, hx⟩ := ih hc hid
      obtain ⟨l', hl', hg⟩ := a.grows.loop hl
      exact ⟨l', hl', by rw [a.home?_eq (lt_size_of_control? hc), hx, hg.executor]⟩
    cases a.places hd with
    | kept hc => exact hkeep hc hid
    | acted hc hmove =>
      rcases Control.serves?_of_act (r.reachable.sound.2 t _ hc) hmove with heq | ⟨hnone, -⟩
      · exact hkeep hc (heq ▸ hid)
      · cases hnone.symm.trans hid
    | answered reply hc hmove hafter =>
      exact hkeep hc (Control.serves?_of_ask reply hmove ▸ hafter ▸ hid)
    | @called _ o ht hd =>
      rw [hd] at hid
      cases o <;> cases hid
    | served ht hc hmove hd hi hm =>
      rw [hd] at hid
      obtain rfl := Option.some.inj hid
      -- a new thread is one of the executor that the loop was offered to
      obtain ⟨l, hl, rfl⟩ := Control.executor_of_ask hmove
      refine ⟨l, by rw [hm, store_spawn, store_setControl, hl], ?_⟩
      rw [hm, home?_spawn, size_setControl, if_pos ht]

/-- **Every factory runs its loops on its executors.** -/
theorem Run.staffed (r : Run is m) : m.store.Staffed := by
  refine r.induction (motive := fun _ m => m.store.Staffed) ?empty ?advance
  case empty => exact fun f fac hf => by simp [Machine.empty, Store.empty] at hf
  case advance =>
    intro is m i m' r ih a
    cases a with
    | act hc hmove => exact (Control.flags_of_act hmove).staffed ih
    | answer => rwa [store_answer]
    | call => exact ih
    | build b => exact (Flags.build (c := .finished .served) b).staffed ih

/-! ## Executors without loops -/

/-- **No loop runs on the executor.** -/
def Vacant (m : Machine) (x : ExecutorId) : Prop :=
  ∀ t c, m.control? t = some c → m.home? t = some x → c.serves? = none

theorem Deserted.vacant {x : ExecutorId} (h : m.Deserted x) : m.Vacant x := by
  intro t c hc hx
  obtain ⟨th, hth, rfl⟩ := Option.map_eq_some_iff.mp hc
  rw [home?, hth, Option.bind_some] at hx
  have hover := h th (Array.mem_of_getElem? hth) hx
  cases hcontrol : th.control with
  | finished o => rfl
  | running stack => rw [hcontrol] at hover; exact absurd hover nofun

/-- **An executor that has been shut down gets no loop.** -/
theorem Advance.vacant (a : m.Advance i m') (hman : m.Mannered is i) (hm : m.Reachable)
    {x : ExecutorId} (hq : Quit is x) (h : m.Vacant x) : m'.Vacant x := by
  intro t d hd hx
  have hkeep {c : Control} (hc : m.control? t = some c) : c.serves? = none :=
    h t c hc (a.home?_eq (lt_size_of_control? hc) ▸ hx)
  cases a.places hd with
  | kept hc => exact hkeep hc
  | acted hc hmove =>
    rcases Control.serves?_of_act (hm.sound.2 t _ hc) hmove with heq | ⟨hnone, -⟩
    · exact heq ▸ hkeep hc
    · exact hnone
  | answered reply hc hmove hafter =>
    rw [hafter, Control.serves?_of_ask reply hmove]
    exact hkeep hc
  | @called _ o ht hd =>
    rw [hd]
    cases o <;> rfl
  | served ht hc hmove hd hi hm' =>
    -- an executor that takes a loop has not been shut down
    subst hi
    rw [hm', home?_spawn, size_setControl, if_pos ht, Option.some.injEq] at hx
    exact absurd (hx ▸ hq) hman.2

/-- **A loop that was started on an executor without loops has ended.** -/
theorem Run.exited_of_vacant (r : Run is m) {id : LoopId} {l : Loop}
    (found : m.store.loop? id = some l) (hx : m.Vacant l.executor) (hs : l.started = true) :
    l.exited = true := by
  rcases r.attended.1 id ⟨l, found, hs⟩ with ⟨l', hl', hup⟩ | ⟨t, c, hc, hid⟩
  · exact Option.some.inj (found.symm.trans hl') ▸ hup
  · obtain ⟨l', hl', hhome⟩ := r.home_of_serves hc hid
    obtain rfl := Option.some.inj (found.symm.trans hl')
    exact absurd ((hx t c hc hhome).symm.trans hid) nofun

end Machine

end EndpointControl
