import EndpointControl.Proofs.Looping

/-!
# What is queued is taken

A loop that waits takes everything that is queued before it looks whether to end,
also when it has been told to. So what is in the queue of a loop while nobody is in
the midst of anything (`Machine.Idle`) is begun before the loop waits again or ends
(`Machine.Traffic.drains`). What comes later need not be: but nothing comes to a
worker that has been told to end when nobody is on the way to it
(`Machine.Run.pushed_of_told`).
-/

namespace EndpointControl

/-! ## Idle threads -/

/-- **A procedure is idle** before it has begun, while its loop waits and once that has been
marked as ended, and while it waits for executors. -/
def Frame.isIdle : Frame → Bool
  | .create _ .readReleased | .connect _ _ .takeStatus | .close _ .takeStatus
  | .release _ .raise => true
  | .serve _ _ .announce | .serve _ _ .wait | .serve _ _ (.announceExit _) => true
  | .release _ (.terminate u) =>
    match u.turn with
    | .await .. => true
    | _ => false
  | _ => false

/-- **A thread is idle** at its end, and when the procedure it is in is idle. -/
def Control.isIdle : Control → Bool
  | .finished _ => true
  | .running (fr :: _) => fr.isIdle
  | .running [] => false

/-- **Nobody is in the midst of anything**, not even held up in a wake. -/
def Machine.Idle (m : Machine) : Prop := ∀ th ∈ m.threads, th.control.isIdle = true

instance (m : Machine) : Decidable m.Idle :=
  inferInstanceAs (Decidable (∀ th ∈ m.threads, _))

section Procedures

variable {s : Store} {fr : Frame} {below : List Frame} {c : Control} {l : LoopId}

/-- **An idle thread has nothing but its one procedure**, and that has nothing in its hands
and nothing to hand over. -/
theorem Control.Sound.of_isIdle (hc : c.Sound s) (h : c.isIdle = true) :
    c.cargo = [] ∧ c.errand? = none ∧ c.registering? = none
      ∧ ∀ l p, c.serving? l = some p → p = .announce ∨ p = .wait
        ∨ ∃ mux n, p = .announceExit n ∧ c = .running [.serve l mux (.announceExit n)] := by
  obtain (_ | ⟨fr, below⟩) | o := c
  · cases hc
  · have hidle : fr.isIdle = true := h
    have hroot : fr.isRoot = true := by
      cases fr <;> first | rfl | (simp [Frame.isIdle] at hidle)
    obtain rfl := hc.2.2.eq_nil hroot
    have hserving (l : LoopId) : (Control.running [fr]).serving? l = fr.serving? l := by
      rw [serving?_cons, serving?_nil, Option.or_none]
    simp only [hserving]
    cases fr with
    | serve l' mux p =>
      have hp : p = .announce ∨ p = .wait ∨ ∃ n, p = .announceExit n := by
        cases p <;> simp [Frame.isIdle] at hidle ⊢
      refine ⟨by obtain rfl | rfl | ⟨n, rfl⟩ := hp <;> rfl, rfl, rfl, fun l p' hp' => ?_⟩
      simp only [Frame.serving?] at hp'
      split at hp'
      · rename_i hl
        subst hl
        obtain rfl := Option.some.inj hp'
        rcases hp with hp | hp | ⟨n, hn⟩
        · exact .inl hp
        · exact .inr (.inl hp)
        · exact .inr (.inr ⟨mux, n, hn, by rw [hn]⟩)
      · cases hp'
    | create f p | connect e a p | close e p | release f p =>
      cases p <;> first
        | exact ⟨rfl, rfl, rfl, by rintro _ _ ⟨⟩⟩
        | (simp [Frame.isIdle] at hidle)
    | _ => cases hroot
  · exact ⟨rfl, rfl, rfl, by rintro _ _ ⟨⟩⟩

/-- **The loop that a thread runs** is the one at whose points it is. -/
theorem Frame.Below.serving?_isSome_iff (hb : fr.Below s below) :
    ((Control.running (fr :: below)).serving? l).isSome
      ↔ (Control.running (fr :: below)).serves? = some l := by
  induction below generalizing fr with
  | nil =>
    cases fr with
    | serve l' m p =>
      by_cases hl : l' = l
      · simp [Frame.serving?, Control.serves?, Frame.served?, hl]
      · simp [Frame.serving?, Control.serves?, Frame.served?, hl]
    | _ => simp [Frame.serving?, Control.serves?, Frame.served?]
  | cons caller rest ih =>
    have hroot : fr.isRoot = false := by cases hb.1 <;> rfl
    rw [Control.serving?_cons, Frame.serving?_of_not_root hroot, Option.none_or,
      Control.serves?_cons, Frame.served?_of_not_root hroot, Option.none_or]
    exact ih hb.2.2

theorem Control.Sound.serving?_isSome_iff (hc : c.Sound s) :
    (c.serving? l).isSome ↔ c.serves? = some l := by
  match c, hc with
  | .finished _, _ => simp [serves?]
  | .running (_ :: _), hc => exact hc.2.2.serving?_isSome_iff

end Procedures

namespace Machine

variable {m m' : Machine} {i : Incident} {is js : List Incident} {t : ThreadId} {e : EndpointId}
  {l : LoopId} {f : FactoryId} {w : Nat} {c : Control} {σ : Stage}

theorem Idle.control (h : m.Idle) (hc : m.control? t = some c) : c.isIdle = true := by
  obtain ⟨th, hth, rfl⟩ := Option.map_eq_some_iff.mp hc
  exact h th (Array.mem_of_getElem? hth)

theorem Idle.not_errand (h : m.Idle) (hm : m.Reachable) (x : Handing) : ¬ m.Errand l t e x := by
  rintro ⟨c, hc, he, -⟩
  exact absurd (((hm.sound.2 t c hc).of_isIdle (h.control hc)).2.1.symm.trans he) nofun

theorem Idle.not_registering (h : m.Idle) (hm : m.Reachable) (x : Bool) :
    ¬ m.Registering l t e x := by
  rintro ⟨c, hc, he, -⟩
  exact absurd (((hm.sound.2 t c hc).of_isIdle (h.control hc)).2.2.1.symm.trans he) nofun

/-- **Where a loop is while nobody is in the midst of anything**: it is about to begin, or
it waits, or it has been marked as ended. -/
theorem Idle.serving?_cases (h : m.Idle) (hm : m.Reachable) {p : ServePoint}
    (hp : m.serving? l = some p) :
    p = .announce ∨ p = .wait ∨ ∃ n, p = .announceExit n ∧ m.store.Exited l := by
  obtain ⟨t, c, hc, hserving⟩ := exists_of_serving? hp
  rcases ((hm.sound.2 t c hc).of_isIdle (h.control hc)).2.2.2 l p hserving with
    rfl | rfl | ⟨mux, n, rfl, rfl⟩
  · exact .inl rfl
  · exact .inr (.inl rfl)
  · exact .inr (.inr ⟨n, rfl, hm.exited_of_announceExit t l mux n [] hc⟩)

theorem Idle.batch_eq_nil (h : m.Idle) (hm : m.Reachable) : m.batch l = [] ∧ m.leftover l = [] := by
  rw [batch, leftover]
  cases hp : m.serving? l with
  | none => exact ⟨rfl, rfl⟩
  | some p => obtain rfl | rfl | ⟨n, rfl, -⟩ := h.serving?_cases hm hp <;> exact ⟨rfl, rfl⟩

/-- **What has been appended to the queue of a loop** has been begun, dropped, or is in the
queue. -/
theorem Idle.pushed_eq (h : m.Idle) (r : Run is m) :
    pushed is l = begun is l ++ dropped is l ++ m.store.queue l := by
  have horder := (r.traffic.delivers l).order
  obtain ⟨hbatch, hleftover⟩ := h.batch_eq_nil (l := l) r.reachable
  rwa [hbatch, hleftover, List.append_nil, List.append_nil] at horder

/-- **What is on its way for an endpoint is what is queued.** -/
theorem Idle.tokens_eq (h : m.Idle) (hm : m.Reachable) : m.tokens e σ = m.store.queued e σ := by
  have hzero : m.total (fun _ c => c.cargo.count (e, σ)) = 0 := by
    rw [total_eq_zero_iff]
    intro t c hc
    rw [((hm.sound.2 t c hc).of_isIdle (h.control hc)).1, List.count_nil]
  rw [tokens, hzero, Nat.zero_add]

/-- **A connecting endpoint is a stream endpoint, and one of the jobs that wait for its boss
and its worker carries it.** -/
theorem Idle.waiting_of_connecting (h : m.Idle) (r : Run is m)
    (hstate : m.store.state? e = some .connecting) :
    m.store.flavor? e = some .client ∧ ∃ j ∈ m.store.waiting e, j.endpoint = e := by
  have hzero : ∀ σ, σ ≠ .travelling → m.tokens e σ = 0 := by
    intro σ hσ
    rw [h.tokens_eq r.reachable, Store.queued, count_cargo, if_neg hσ]
  have horder := r.inOrder e
  have hst : (m.account is e).state = some .connecting := hstate
  unfold Account.InOrder at horder
  split at horder
  case h_1 => cases hst.symm.trans horder.state
  case h_2 hfl =>
    refine ⟨hfl, ?_⟩
    rcases horder.settled (fun σ hσ _ => hzero σ hσ) with ⟨-, hone⟩ | ⟨hne | hne, -⟩ | ⟨hne, -⟩
    · have hone : m.tokens e .travelling = 1 := hone
      rw [h.tokens_eq r.reachable, Store.queued, count_cargo, if_pos rfl] at hone
      obtain ⟨j, hj, he⟩ := List.countP_pos_iff.mp (Nat.lt_of_lt_of_eq Nat.one_pos hone.symm)
      exact ⟨j, hj, of_decide_eq_true he⟩
    all_goals cases hst.symm.trans hne
  case h_3 =>
    have hpos : 1 ≤ m.tokens e .entering + m.tokens e .dropping := horder.connecting hst
    rw [hzero _ (by decide), hzero _ (by decide)] at hpos
    cases hpos

/-! ## Ended loops -/

/-- **Whoever runs the loop has nothing left to do** but to say that it has ended. -/
def AtEnd (m : Machine) (l : LoopId) : Prop :=
  ∀ t c, m.control? t = some c → (c.serving? l).isSome →
    ∃ mux n, c = .running [.serve l mux (.announceExit n)]

/-- **Nobody turns back from the end of a loop**, and nobody else comes to run it. -/
theorem AtEnd.advance (h : m.AtEnd l) (hstacked : ∀ t c, m.control? t = some c → c.Stacked)
    (a : m.Advance i m') (htaken : i.taken l = 0) : m'.AtEnd l := by
  intro t d hd hserving
  cases a.places hd with
  | kept hc => exact h t d hc hserving
  | acted hc hmove =>
    obtain ⟨mux, n, rfl⟩ := h t _ hc (Control.serving?_of_act (hstacked t _ hc) hmove hserving)
    cases Control.moves_of_running hmove with
    | serve _ hp =>
      simp [ServePoint.move] at hp
      rw [hp.2.1] at hserving
      cases hserving
  | answered reply hc hmove hafter =>
    obtain ⟨mux, n, rfl⟩ := h t _ hc (Control.serving?_of_answer reply hmove (hafter ▸ hserving))
    obtain ⟨fr, below, heq, ha⟩ := Control.asks hmove
    cases heq
    cases ha
  | @called _ o ht hd =>
    rw [hd] at hserving
    cases o <;> cases hserving
  | served ht hc hmove hd hi =>
    rw [hd, Control.serving?_cons, Frame.serving?] at hserving
    split at hserving
    · rename_i hl
      simp [hi, hl, Incident.taken] at htaken
    · cases hserving

/-- **A loop ends by being marked so.** -/
theorem Advance.marks (a : m.Advance i m') (hold : ¬ m.store.Exited l)
    (hexited : m'.store.Exited l) : ∃ t mux n below g c' ns,
      m.control? t = some (.running (.serve l mux (.markExited n) :: below))
      ∧ (Control.running (.serve l mux (.markExited n) :: below)).move m.store t = .act g c' ns
      ∧ i = .stepped t (.acted ns) ∧ m' = m.act t g c' := by
  cases a with
  | @act t c c' g ns hc hmove =>
    obtain ⟨mux, n, below, rfl⟩ :=
      ((Control.flags_of_act hmove).exited l hexited).resolve_left hold
    exact ⟨t, mux, n, below, g, c', ns, hc, hmove, rfl, rfl⟩
  | answer => exact absurd (by rwa [store_answer] at hexited) hold
  | call home o => exact absurd hexited hold
  | build b =>
    have hflags : Flags m.store (.finished .served) (m.store.build b) := .build b
    rcases hflags.exited l hexited with h | ⟨_, _, _, ⟨⟩⟩
    exact absurd h hold

/-- **Only the one thread that runs a loop marks it as ended.** -/
theorem Traffic.ended_of_act {g : Store → Store} {ns : List Note} {mux : Multiplexer} {n : Nat}
    {below : List Frame} {c' : Control} (h : Traffic is m)
    (hc : m.control? t = some (.running (.serve l mux (.markExited n) :: below)))
    (hmove : (Control.running (.serve l mux (.markExited n) :: below)).move m.store t
      = .act g c' ns) :
    taken is l = 1 ∧ (m.act t g c').AtEnd l := by
  obtain rfl := (h.stacked t _ hc).eq_nil rfl
  have hserves : ((Control.running [.serve l mux (.markExited n)]).serving? l).isSome := by
    rw [Control.serving?_serve]
    rfl
  refine ⟨(h.serving hc hc hserves hserves).2, fun t' d hd hserving => ?_⟩
  rw [control?_act] at hd
  split at hd
  · obtain ⟨-, -, rfl⟩ := Option.map_eq_some_iff.mp hd
    cases Control.moves_of_running hmove with
    | serve _ hp =>
      simp [ServePoint.move] at hp
      exact ⟨mux, n, hp.2.1⟩
  · rename_i hne
    exact absurd (h.serving hc hd hserves hserving).1 hne

/-- **A loop that has ended** has been taken, and has nothing left to do. -/
theorem Traffic.ended (h : Traffic is m) : m.store.Exited l → taken is l = 1 ∧ m.AtEnd l := by
  refine h.induction (motive := fun is m => m.store.Exited l → taken is l = 1 ∧ m.AtEnd l)
    ?empty ?advance ?use
  case empty =>
    rintro ⟨lp, hlp, -⟩
    simp [Machine.empty, Store.empty, Store.loop?] at hlp
  case advance =>
    intro is m i m' h ih a hexited
    by_cases hold : m.store.Exited l
    · -- it is not taken again
      obtain ⟨htaken, hend⟩ := ih hold
      have hle := (h.advance a).taken_le l
      rw [taken_concat] at hle ⊢
      have hzero : i.taken l = 0 := by omega
      exact ⟨by omega, hend.advance h.stacked a hzero⟩
    · -- it has just been marked
      obtain ⟨t, mux, n, below, g, c', ns, hc, hmove, rfl, rfl⟩ := a.marks hold hexited
      obtain ⟨htaken, hend⟩ := h.ended_of_act hc hmove
      refine ⟨?_, hend⟩
      simpa [Incident.taken] using htaken
  case use =>
    intro is m fr home h ih hnew hexited
    obtain ⟨htaken, hend⟩ := ih hexited
    refine ⟨htaken, fun t c hc hserving => ?_⟩
    rw [control?_spawn] at hc
    split at hc
    · obtain rfl := Option.some.inj hc
      rw [Control.serving?_cons,
        Frame.serving?_of_not_root (Frame.isRoot_of_isNew hnew)] at hserving
      cases hserving
    · exact hend t c hc hserving

/-- **A loop that has ended was told to**, has been taken, and has nothing left to do. -/
theorem Run.ended (r : Run is m) (hexited : m.store.Exited l) :
    m.store.ShutDown l ∧ taken is l = 1 ∧ m.AtEnd l := by
  refine ⟨?_, r.traffic.ended hexited⟩
  refine r.induction (motive := fun _ m => m.store.Exited l → m.store.ShutDown l) ?empty ?advance
    hexited
  case empty =>
    rintro ⟨lp, hlp, -⟩
    simp [Machine.empty, Store.empty, Store.loop?] at hlp
  case advance =>
    intro is m i m' r ih a hexited
    by_cases hold : m.store.Exited l
    · exact a.grows.shutDown (ih hold)
    · obtain ⟨t, mux, n, below, g, c', ns, hc, -⟩ := a.marks hold hexited
      exact a.grows.shutDown (r.reachable.sound.2 t _ hc).1

/-! ## Draining -/

/-- **What a loop has begun, and what it is going to begin of its batch**, becomes only
more. -/
theorem Traffic.begun_append_batch (h : Traffic is m) (a : m.Advance i m') :
    begun is l ++ m.batch l <+: begun (is ++ [i]) l ++ m'.batch l := by
  cases h.befalls a (l := l) with
  | aside _ hserving hns =>
    rw [(SameLogs.of_aside hns).begun, batch, batch, hserving]
  | pushes _ hserving hns =>
    rw [begun_concat, hns, batch, batch, hserving]
    simp
  | turns hi _ _ _ hp hp' turn =>
    subst hi
    cases turn with
    | passes hcalm hns =>
      have hbatch : m'.batch l = m.batch l := by
        rw [batch, batch, hp, hp', Option.map_some, Option.map_some, hcalm.batch]
      rw [(SameLogs.of_aside hns).begun, hbatch]
    | _ => simp [batch, hp, hp', Incident.notes]
  | waited _ hp hp' hns => simp [batch, hp, hp', hns]
  | enters _ hp hp' hns => simp [batch, hp, hp', hns]

/-- **The loop is going to take what is queued** before it looks whether to end: it is on its
way to, or no executor has taken it yet. -/
structure Undrained (m : Machine) (is : List Incident) (l : LoopId) : Prop where
  fresh : ∀ p, m.serving? l = some p → p.isFresh = true
  untaken : m.serving? l = none → taken is l = 0

/-- A loop that has ended does not take anything. -/
theorem Traffic.not_undrained (h : Traffic is m) (hexited : m.store.Exited l) :
    ¬ m.Undrained is l := by
  intro hundrained
  obtain ⟨htaken, hend⟩ := h.ended hexited
  cases hp : m.serving? l with
  | none => exact absurd (htaken.symm.trans (hundrained.untaken hp)) nofun
  | some p =>
    obtain ⟨t, c, hc, hserving⟩ := exists_of_serving? hp
    obtain ⟨mux, n, rfl⟩ := hend t c hc (by rw [hserving]; rfl)
    rw [Control.serving?_serve] at hserving
    obtain rfl := Option.some.inj hserving
    exact absurd (hundrained.fresh _ hp) nofun

/-- Whoever is taken by an executor runs. -/
theorem Traffic.taken_eq_zero (h : Traffic is m) (a : m.Advance i m')
    (hnone : m'.serving? l = none) : i.taken l = 0 := by
  by_contra htaken
  cases a with
  | answer hc hmove reply =>
    exact absurd (hnone.symm.trans ((h.advance (.answer hc hmove reply)).serving?_of_taken htaken))
      nofun
  | _ => exact htaken rfl

/-- **A loop takes everything that is queued before it looks whether to end.** -/
theorem Traffic.drains (h : Traffic is m) (h' : m.Leads js m') (hu : m.Undrained is l) :
    m'.Undrained (is ++ js) l ∨ pushed is l <+: begun (is ++ js) l ++ m'.batch l := by
  -- by induction on what happens: until it takes the queue, the loop is on its way to do so
  induction h' with
  | refl => exact .inl (by rwa [List.append_nil])
  | @advance js m' m'' i h' a ih =>
    have ht : Traffic (is ++ js) m' := h.unfolds h'.unfolds
    rw [← List.append_assoc]
    rcases ih with hu' | htaken
    · have hnone (hserving : m''.serving? l = none) (hold : m'.serving? l = none) :
          taken (is ++ js ++ [i]) l = 0 := by
        rw [taken_concat, hu'.untaken hold, ht.taken_eq_zero a hserving]
      have hon {p : ServePoint} (hp : m''.serving? l = some p) (hfresh : p.isFresh = true) :
          m''.Undrained (is ++ js ++ [i]) l :=
        ⟨fun p' hp' => Option.some.inj (hp.symm.trans hp') ▸ hfresh,
          fun hnone => absurd (hp.symm.trans hnone) nofun⟩
      cases ht.befalls a (l := l) with
      | aside _ hserving | pushes _ hserving =>
        exact .inl ⟨fun p hp => hu'.fresh p (hserving ▸ hp), fun hp => hnone hp (hserving ▸ hp)⟩
      | turns hi hc found found' hq hq' turn =>
        subst hi
        have hfresh' := hu'.fresh _ hq
        cases turn with
        | passes hcalm => exact .inl (hon hq' (hcalm.fresh hfresh'))
        | takes =>
          have hd := ht.delivers l
          have hnil : dropped (is ++ js) l = [] := by
            refine hd.undropped (fun p h => ?_) fun hnone => by cases hq.symm.trans hnone
            obtain rfl := Option.some.inj (hq.symm.trans h)
            rfl
          have horder := hd.order
          simp only [batch, leftover, hq, hnil, Option.map_some, Option.getD_some,
            ServePoint.batch, ServePoint.leftover, List.append_nil, Store.queue_eq found,
            pushed_append] at horder
          right
          rw [begun_concat, batch, hq', Option.map_some, Option.getD_some, ServePoint.batch,
            Incident.notes, List.flatMap_nil, List.append_nil, ← horder]
          exact List.prefix_append _ _
        | _ => cases hfresh'
      | waited _ _ hq' => exact .inl (hon hq' rfl)
      | enters _ _ hq' => exact .inl (hon hq' rfl)
    · exact .inr (htaken.trans (ht.begun_append_batch a))

/-! ## Told workers -/

/-- **Nothing comes to a worker that has been told to end**, if nobody has been admitted
before. -/
theorem Run.pushed_of_told (r : Run is m) (h : m.Leads js m')
    (told : m.store.ShutDown ⟨f, .worker w⟩)
    (hnone : ∀ t e, ¬ m.Errand ⟨f, .worker w⟩ t e .admitted) :
    pushed js ⟨f, .worker w⟩ = [] ∧ ∀ t e, ¬ m'.Errand ⟨f, .worker w⟩ t e .admitted := by
  induction h with
  | refl => exact ⟨rfl, hnone⟩
  | @advance js m' m'' i h a ih =>
    obtain ⟨hpushed, hnone⟩ := ih
    obtain ⟨out, hstep, -, -⟩ := (r.leads h).forwards a f w
    have hpushed' : pushed (js ++ [i]) ⟨f, .worker w⟩
        = i.notes.flatMap (Note.pushes ⟨f, .worker w⟩) := by rw [pushed_concat, hpushed]; rfl
    rw [hpushed']
    -- nobody is admitted any more, so nobody arrives
    generalize harrived : (i.notes.flatMap (Note.pushes ⟨f, .worker w⟩)).map Job.endpoint
      = arrived at hstep
    cases hstep with
    | aside hsame =>
      exact ⟨List.map_eq_nil_iff.mp harrived, fun t e he => hnone t e ((hsame ..).mp he)⟩
    | @sets t₀ e₀ _ hnew hothers =>
      refine ⟨List.map_eq_nil_iff.mp harrived, fun t e he => ?_⟩
      by_cases ht : t₀ = t
      · subst ht
        cases (he.eq hnew).2
      · exact hnone t e ((hothers t e _ ht).mp he)
    | enters _ _ _ hup => exact absurd (h.grows.shutDown told) hup
    | @refused t₀ e₀ _ hdone hothers =>
      refine ⟨List.map_eq_nil_iff.mp harrived, fun t e he => ?_⟩
      by_cases ht : t₀ = t
      · subst ht
        exact hdone e _ he
      · exact hnone t e ((hothers t e _ ht).mp he)
    | hands hold => exact absurd hold (hnone _ _)

end Machine

end EndpointControl
