import EndpointControl.Proofs.Lifecycle
import EndpointControl.Proofs.Draining
import EndpointControl.Proofs.Afterwards

/-!
# What is queued on a loop when it is told to end

A loop drains its queue and looks whether to end afterwards. So it depends on where it stands
what becomes of the jobs that are queued at the moment when it is told to end
(`Machine.Run.cutoff`).

* A loop that has taken a batch and not looked yet runs the rest of its batch and nothing else.
  It finds the flag up, and all that was queued is dropped at its end; an endpoint whose job
  is dropped is not registered and not counted, and its attempt is taken back.
* Any other loop takes the queue once more before it looks: one that waits, one that has just
  been woken, one that an executor has not begun yet, or one that no executor has taken. It
  begins everything that was queued when it was told, and drops none of it
  (`Machine.exists_begun_after_told`).
-/

namespace EndpointControl

/-! ## Jobs that are given up -/

namespace Account

variable {a a' : Account} {leg : Leg}

/-- **The job that carried the endpoint has been given up**: nothing is on its way to register
the endpoint, and it has not been counted. -/
structure GivenUp (a : Account) : Prop where
  travelling : a.tokens .travelling = 0
  counting : a.tokens .counting = 0
  counted : a.counted = 0
  phase : a.Over ∨ a.Plain

/-- **What has been given up is not taken up again.** -/
theorem GivenUp.booked (h : a.GivenUp) (b : a.Booked leg a') (hf : a.flavor ≠ none) :
    a'.GivenUp := by
  obtain ⟨htravelling, hcounting, hcounted, hover | hplain⟩ := h
  · have hover' := hover.booked b hf
    exact ⟨hover'.travelling, hover'.counting, hover'.counted, .inl hover'⟩
  · have htravelling' := b.tokens .travelling
    have hcounting' := b.tokens .counting
    have hcounted' := b.counted
    have hplain' := hplain.booked b hf
    cases leg with
    | accept => exact b.absurd_of_takes hplain.committed Nat.one_pos rfl
    | abandon | refuse | register | pass => exact b.absurd_of_takes htravelling Nat.one_pos rfl
    | count => exact b.absurd_of_takes hcounting Nat.one_pos rfl
    | enroll fl => exact absurd b.founds.1 hf
    | _ =>
      simp [Leg.takes, Leg.puts] at htravelling' hcounting' hcounted'
      exact ⟨by omega, by omega, by omega, .inr hplain'⟩

theorem GivenUp.flavor_ne_none (h : a.GivenUp) (ha : a.InOrder) : a.flavor ≠ none := by
  intro hf
  rw [InOrder, hf] at ha
  rcases h.phase with hover | hplain
  · cases ha.accepted.symm.trans hover.accepted
  · exact hplain.born ha.state

theorem GivenUp.ne_registered (h : a.GivenUp) : a.state ≠ some .registered := by
  intro hst
  rcases h.phase with hover | hplain
  · simpa [hst] using hover.state
  · have hone := hplain.registered hst
    have hcounting := h.counting
    have hcounted := h.counted
    omega

/-- **While nobody has an attempt at it in hand**, such an endpoint is open or closed. -/
theorem GivenUp.state (h : a.GivenUp) (hentering : a.tokens .entering = 0)
    (hdropping : a.tokens .dropping = 0) :
    a.state = some .opened ∨ a.state = some .closed := by
  have hne := h.ne_registered
  rcases h.phase with hover | hplain
  · rcases hover.state with hst | hst | ⟨-, hpos⟩
    · exact .inl hst
    · exact .inr hst
    · omega
  · cases hst : a.state with
    | none => exact absurd hst hplain.born
    | some st =>
      cases st with
      | opened => exact .inl rfl
      | connecting =>
        have hpos := hplain.connecting hst
        omega
      | registered => exact absurd hst hne
      | closed => exact .inr rfl

end Account

namespace Machine

variable {m m' m₁ : Machine} {i : Incident} {is js : List Incident} {t : ThreadId} {l : LoopId}
  {mux : Multiplexer} {j : Job} {e : EndpointId}

/-- **A job that is dropped goes from the loop's hands to the one who drops it.** -/
theorem tokens_of_drop {rest : List Job} {n : Nat} {g : Store → Store} {c' : Control}
    {ns : List Note} (hc : m.control? t = some (.running [.serve l mux (.discard (j :: rest) n)]))
    (hmove : (Control.running [.serve l mux (.discard (j :: rest) n)]).move m.store t
      = .act g c' ns) (σ : Stage) :
    (m.act t g c').tokens j.endpoint σ + [Stage.travelling].count σ
      = m.tokens j.endpoint σ + [Stage.dropping].count σ := by
  have htotal := total_act (fun _ c => c.cargo.count (j.endpoint, σ)) hc g c'
  cases Control.moves_of_running hmove with
  | serve found hp =>
    simp [ServePoint.move] at hp
    obtain ⟨rfl, rfl, -⟩ := hp
    have hbefore : (Control.running [.serve l mux (.discard (j :: rest) n)]).cargo
        = j.cargo :: rest.map Job.cargo := List.append_nil _
    have hafter : (Control.running
        [.ofDropped j, .serve l mux (.discard rest n)]).cargo
        = (j.endpoint, .dropping) :: rest.map Job.cargo := by
      rw [Control.cargo_running_cons, Frame.cargo_ofDropped]
      exact congrArg _ (List.append_nil _)
    simp only [hbefore, hafter, List.count_cons, Job.cargo] at htotal
    simp only [tokens, store_act]
    cases σ <;> simp at htotal ⊢ <;> omega

/-- **Whoever drops a job gives it up.** -/
theorem Run.givenUp_of_drop (r : Run is m) {rest : List Job} {n : Nat} {g : Store → Store}
    {c' : Control} {ns : List Note}
    (hc : m.control? t = some (.running [.serve l mux (.discard (j :: rest) n)]))
    (hmove : (Control.running [.serve l mux (.discard (j :: rest) n)]).move m.store t
      = .act g c' ns) :
    ((m.act t g c').account (is ++ [.stepped t (.acted ns)]) j.endpoint).GivenUp := by
  have htravelling := tokens_of_drop hc hmove .travelling
  have hcounting := tokens_of_drop hc hmove .counting
  have hdropping := tokens_of_drop hc hmove .dropping
  simp at htravelling hcounting hdropping
  have hcounted : counted (is ++ [.stepped t (.acted ns)]) j.endpoint = counted is j.endpoint := by
    cases Control.moves_of_running hmove with
    | serve found hp =>
      simp [ServePoint.move] at hp
      rw [counted_append, counted_singleton, Incident.notes, hp.2.2]
      rfl
  obtain ⟨leg, b⟩ := Advance.booked r.reachable (.act hc hmove) is j.endpoint
  have horder := r.inOrder j.endpoint
  unfold Account.InOrder at horder
  split at horder
  case h_1 =>
    have hzero : m.tokens j.endpoint .travelling = 0 := horder.tokens .travelling
    omega
  case h_2 hf =>
    -- a stream endpoint whose job is on its way is under way
    have hunderway : (m.account is j.endpoint).UnderWay := by
      rcases horder with h | h | h | h
      · have hzero : m.tokens j.endpoint .travelling = 0 := h.travelling
        omega
      · exact h
      all_goals
        have hzero : m.tokens j.endpoint .travelling = 0 := h.travelling
        omega
    have hone : 1 ≤ (m.act t g c').tokens j.endpoint .dropping := by omega
    have hover : ((m.act t g c').account (is ++ [.stepped t (.acted ns)]) j.endpoint).Over := by
      rcases hunderway.booked b (by simp [hf]) with h | h | h
      · have hnone := h.inHand
        rw [Account.inHand] at hnone
        simp only [account] at hnone
        omega
      · have hnone := h.inHand
        rw [Account.inHand] at hnone
        simp only [account] at hnone
        omega
      · exact h
    exact ⟨hover.travelling, hover.counting, hover.counted, .inl hover⟩
  case h_3 hf =>
    have honce := horder.once
    simp only [account] at honce
    refine ⟨?_, ?_, ?_, .inr (horder.booked b (by simp [hf]))⟩
    · show (m.act t g c').tokens j.endpoint .travelling = 0
      omega
    · show (m.act t g c').tokens j.endpoint .counting = 0
      omega
    · show counted _ j.endpoint = 0
      omega

/-- **The endpoint of a job that has been dropped** is not registered by it any more. -/
theorem Run.givenUp_of_dropped (r : Run is m) :
    j ∈ dropped is l → (m.account is j.endpoint).GivenUp := by
  refine r.induction (motive := fun is m => j ∈ dropped is l → (m.account is j.endpoint).GivenUp)
    (fun hj => absurd hj List.not_mem_nil) ?advance
  case advance =>
    intro is m i m' r ih a hj
    by_cases hold : j ∈ dropped is l
    · have hgiven := ih hold
      obtain ⟨leg, b⟩ := a.booked r.reachable is j.endpoint
      exact hgiven.booked b (hgiven.flavor_ne_none (r.inOrder _))
    · -- it has just been dropped, by the thread that runs the loop
      cases r.traffic.befalls a (l := l) with
      | aside _ _ hns => exact absurd ((SameLogs.of_aside hns).dropped ▸ hj) hold
      | pushes _ _ hns | waited _ _ _ hns | enters _ _ _ hns => simp [hns, hold] at hj
      | turns hi hc found _ hp _ turn =>
        subst hi
        cases turn with
        | passes _ hns => exact absurd ((SameLogs.of_aside hns).dropped ▸ hj) hold
        | drops =>
          simp [hold, Incident.notes] at hj
          subst hj
          cases a with
          | act hc' hmove =>
            obtain rfl := Option.some.inj (hc.symm.trans hc')
            exact r.givenUp_of_drop hc hmove
        | _ => simp [hold, Incident.notes] at hj

end Machine

/-! ## Before the look at the flag, and after it -/

/-- **The loop has found the flag up**, and is on the way to its end. -/
def ServePoint.isEnding : ServePoint → Bool
  | .takeQueueLast | .takeRest | .discard .. | .markExited _ | .announceExit _ => true
  | _ => false

section Procedures

variable {s : Store} {t : ThreadId} {id : LoopId} {l : Loop} {m : Multiplexer} {p : ServePoint}
  {g : Store → Store} {c : Control} {ns : List Note}

/-- **A step of the thread that runs a loop heeds the flag.** -/
structure ServePoint.Heeds (l : Loop) (p : ServePoint) (p' : Option ServePoint) : Prop where
  /-- A loop that has been told to end and is not about to take what is queued never is
  again. -/
  told : l.shutDown = true → p.isFresh = false → ∀ q, p' = some q → q.isFresh = false
  /-- One that has not been told does not come to its end. -/
  up : l.shutDown = false → p.isEnding = false → ∃ q, p' = some q ∧ q.isEnding = false

theorem ServePoint.heeds_of_move (h : p.move s t [] id l m = .act g c ns) :
    p.Heeds l (c.serving? id) := by
  have hon {p' : ServePoint} (hc : c = .running [.serve id m p'])
      (hfresh : p.isFresh = false → l.shutDown = true → p'.isFresh = false)
      (hending : p.isEnding = false → l.shutDown = false → p'.isEnding = false) :
      p.Heeds l (c.serving? id) := by
    rw [hc, Control.serving?_serve]
    exact ⟨fun told hp _ hp' => Option.some.inj hp' ▸ hfresh hp told,
      fun up hp => ⟨_, rfl, hending hp up⟩⟩
  have hcalls {fr : Frame} {p' : ServePoint} (hc : c = .running [fr, .serve id m p'])
      (hroot : fr.isRoot = false) (hfresh : p'.isFresh = false)
      (hending : p.isEnding = false → p'.isEnding = false) : p.Heeds l (c.serving? id) := by
    rw [hc, Control.serving?_cons, Frame.serving?_of_not_root hroot, Option.none_or,
      Control.serving?_serve]
    exact ⟨fun _ _ _ hp' => Option.some.inj hp' ▸ hfresh, fun _ hp => ⟨_, rfl, hending hp⟩⟩
  cases p with
  | run batch n =>
    cases batch with
    | nil => exact hon (Move.go_eq_act.mp h).2.1 (fun _ _ => rfl) fun _ _ => rfl
    | cons j rest =>
      exact hcalls (Move.tell_eq_act.mp h).2.1 (by cases j <;> rfl) rfl fun _ => rfl
  | discard rest n =>
    cases rest with
    | nil => exact hon (Move.go_eq_act.mp h).2.1 (fun _ _ => rfl) fun h _ => by cases h
    | cons j rest => exact hcalls (Move.tell_eq_act.mp h).2.1 rfl rfl fun h => by cases h
  | report n =>
    cases n <;> exact hon (Move.act_eq_act.mp h).2.1 (fun _ _ => rfl) fun _ _ => rfl
  | readShutDown =>
    refine hon (Move.go_eq_act.mp h).2.1 (fun _ told => ?_) fun _ up => ?_
    · rw [if_pos told]
      rfl
    · rw [if_neg (by simp [up])]
      rfl
  | announceExit n =>
    rw [(Move.say_eq_act.mp h).2.1]
    exact ⟨fun _ _ p' hp' => (by cases hp'), fun _ hp => (by cases hp)⟩
  | serialize =>
    simp only [ServePoint.move] at h
    split at h
    · exact hon (Move.takeLock_eq_act.mp h).2.2.1 (fun h => by cases h) fun _ _ => rfl
    · exact hon (Move.go_eq_act.mp h).2.1 (fun h => by cases h) fun _ _ => rfl
  | endTurn n =>
    simp only [ServePoint.move] at h
    split at h <;> exact hon (Move.act_eq_act.mp h).2.1 (fun _ _ => rfl) fun _ _ => rfl
  | takeQueue => exact hon (Move.takeLock_eq_act.mp h).2.2.1 (fun h => by cases h) fun _ _ => rfl
  | takeQueueLast =>
    exact hon (Move.takeLock_eq_act.mp h).2.2.1 (fun _ _ => rfl) fun h => by cases h
  | wait => cases h
  | announce | takeBatch | waited =>
    exact hon (Move.act_eq_act.mp h).2.1 (fun h => by cases h) fun _ _ => rfl
  | takeRest | markExited =>
    exact hon (Move.act_eq_act.mp h).2.1 (fun _ _ => rfl) fun h => by cases h

end Procedures

namespace Machine

variable {m m' m₁ : Machine} {i : Incident} {is js : List Incident} {t : ThreadId} {l : LoopId}
  {mux : Multiplexer} {p : ServePoint} {ns : List Note} {lp : Loop}

theorem Traffic.heeds (h : Traffic is m) (a : m.Advance (.stepped t (.acted ns)) m')
    (hc : m.control? t = some (.running [.serve l mux p])) (found : m.store.loop? l = some lp) :
    p.Heeds lp (m'.serving? l) := by
  cases a with
  | act hc' hmove =>
    obtain rfl := Option.some.inj (hc.symm.trans hc')
    rw [h.serving?_act hc hmove (Control.serving?_serve ..)]
    cases Control.moves_of_running hmove with
    | serve found' hp =>
      obtain rfl := Option.some.inj (found.symm.trans found')
      exact ServePoint.heeds_of_move hp

/-- **A loop that has not been told to end** is not on the way to its end, and if nobody runs it
no executor has taken it. -/
theorem Traffic.not_ending (h : Traffic is m) : ¬ m.store.ShutDown l →
    (∀ p, m.serving? l = some p → p.isEnding = false) ∧ (m.serving? l = none → taken is l = 0) := by
  refine h.induction (motive := fun is m => ¬ m.store.ShutDown l →
    (∀ p, m.serving? l = some p → p.isEnding = false) ∧ (m.serving? l = none → taken is l = 0))
    (fun _ => ⟨fun p hp => absurd hp nofun, fun _ => rfl⟩) ?advance ?use
  case advance =>
    intro is m i m' h ih a up
    obtain ⟨hending, htaken⟩ := ih fun told => up (a.grows.shutDown told)
    have hon {p : ServePoint} (hp : m'.serving? l = some p) (h : p.isEnding = false) :
        (∀ p, m'.serving? l = some p → p.isEnding = false)
          ∧ (m'.serving? l = none → taken (is ++ [i]) l = 0) :=
      ⟨fun q hq => Option.some.inj (hp.symm.trans hq) ▸ h,
        fun hnone => absurd (hp.symm.trans hnone) nofun⟩
    cases h.befalls a (l := l) with
    | aside _ hserving | pushes _ hserving =>
      rw [hserving]
      refine ⟨hending, fun hnone => ?_⟩
      rw [taken_concat, htaken hnone, h.taken_eq_zero a (hserving.trans hnone)]
    | @turns lp _ p _ _ _ _ hi hc found _ hp =>
      subst hi
      have hup : lp.shutDown = false := by
        by_contra hd
        exact up (a.grows.shutDown ⟨lp, found, Bool.eq_true_of_not_eq_false hd⟩)
      obtain ⟨q, hq, hq'⟩ := (h.heeds a hc found).up hup (hending p hp)
      exact hon hq hq'
    | waited _ _ hp' | enters _ _ hp' => exact hon hp' rfl
  case use =>
    intro is m fr home h ih hnew up
    rw [serving?_spawn_of_isNew home hnew]
    exact ih up

/-- **The loop has taken its last batch**: it has been told to end, and is not going to take
what is queued but to drop it. Of `last` it has begun some, and the rest is its batch; what was
`queued` behind it the loop is going to drop, or has dropped. -/
structure Closing (m : Machine) (is : List Incident) (l : LoopId) (last queued : List Job) :
    Prop where
  told : m.store.ShutDown l
  taken : taken is l = 1
  past : ∀ p, m.serving? l = some p → p.isFresh = false
  pushed : last ++ queued <+: pushed is l
  begun : begun is l ++ m.batch l = last
  dropped : (∃ p, m.serving? l = some p ∧ p.last? = none)
    ∨ queued <+: dropped is l ++ m.leftover l

/-- **A loop that has taken its last batch** takes no other. -/
theorem Closing.advance {last queued : List Job} (hcl : m.Closing is l last queued)
    (h : Traffic is m) (a : m.Advance i m') : m'.Closing (is ++ [i]) l last queued := by
  have htaken : EndpointControl.taken (is ++ [i]) l = 1 := by
    have hle := (h.advance a).taken_le l
    rw [taken_concat, hcl.taken] at hle ⊢
    omega
  have told := a.grows.shutDown hcl.told
  have hpushed : last ++ queued <+: EndpointControl.pushed (is ++ [i]) l := by
    rw [pushed_concat]
    exact hcl.pushed.trans (List.prefix_append _ _)
  have horder := ((h.advance a).delivers l).order
  cases h.befalls a (l := l) with
  | aside _ hserving hns =>
    have hlogs : SameLogs is (is ++ [i]) l := .of_aside hns
    refine ⟨told, htaken, hserving ▸ hcl.past, hpushed, ?_, ?_⟩
    · rw [hlogs.begun, batch, hserving]
      exact hcl.begun
    · rw [hlogs.dropped, leftover, hserving]
      exact hcl.dropped
  | pushes _ hserving hns =>
    refine ⟨told, htaken, hserving ▸ hcl.past, hpushed, ?_, ?_⟩
    · rw [begun_concat, hns, batch, hserving]
      exact (congrArg (· ++ _) (List.append_nil _)).trans hcl.begun
    · rw [dropped_concat, hns, leftover, hserving]
      exact (List.append_nil (EndpointControl.dropped is l)).symm ▸ hcl.dropped
  | @turns lp lp' p p' t mux ns hi hc found found' hp hp' turn =>
    subst hi
    have hpast := hcl.past p hp
    have hbegun := hcl.begun
    have hdropped := hcl.dropped
    have hpast' : ∀ q, m'.serving? l = some q → q.isFresh = false := by
      obtain ⟨lp₁, found₁, hd⟩ := hcl.told
      obtain rfl := Option.some.inj (found.symm.trans found₁)
      exact (h.heeds a hc found).told hd hpast
    rw [batch, hp, Option.map_some, Option.getD_some] at hbegun
    rw [leftover, hp, Option.map_some, Option.getD_some] at hdropped
    have hbegun' :
        EndpointControl.begun (is ++ [.stepped t (.acted ns)]) l ++ m'.batch l = last := by
      cases turn with
      | passes hcalm hns =>
        rw [(SameLogs.of_aside hns).begun, batch, hp', Option.map_some, Option.getD_some,
          hcalm.batch]
        exact hbegun
      | takes => cases hpast
      | _ => simpa [batch, hp', Incident.notes] using hbegun
    refine ⟨told, htaken, hpast', hpushed, hbegun', ?_⟩
    -- where the loop has looked for the last time it has found what was queued
    have hlooked (hlast : p.last? ≠ none) :
        queued <+: EndpointControl.dropped is l ++ p.leftover := by
      rcases hdropped with ⟨q, hq, hnone⟩ | hq
      · obtain rfl := Option.some.inj hq
        exact absurd hnone hlast
      · exact hq
    cases turn with
    | passes hcalm hns =>
      rw [(SameLogs.of_aside hns).dropped, leftover, hp', Option.map_some, Option.getD_some,
        hcalm.leftover]
      rcases hdropped with ⟨q, hq, hnone⟩ | hq
      · obtain rfl := Option.some.inj hq
        exact .inl ⟨_, rfl, hcalm.last.trans hnone⟩
      · exact .inr hq
    | takes => cases hpast
    | begins | reports => exact .inl ⟨_, hp', rfl⟩
    | takesRest =>
      right
      have hqueue : m'.store.queue l = [] := Store.queue_eq found'
      rw [horder, hbegun', hqueue, List.append_nil] at hpushed
      simpa [Incident.notes] using (List.prefix_append_right_inj last).mp hpushed
    | drops => exact .inr (by simpa [leftover, hp', Incident.notes] using hlooked (by rintro ⟨⟩))
    | exits => exact .inr (by simpa [leftover, hp', Incident.notes] using hlooked (by rintro ⟨⟩))
    | ends => exact .inr (by simpa [leftover, hp', Incident.notes] using hlooked (by rintro ⟨⟩))
  | waited _ hp => cases hcl.past _ hp
  | enters _ _ _ _ hfresh => cases hcl.taken.symm.trans hfresh

theorem Closing.leads {last queued : List Job} (hcl : m.Closing is l last queued)
    (h : Traffic is m) (h' : m.Leads js m') : m'.Closing (is ++ js) l last queued := by
  induction h' with
  | refl => rwa [List.append_nil]
  | advance h' a ih =>
    rw [← List.append_assoc]
    exact ih.advance (h.unfolds h'.unfolds) a

/-- Whoever runs a loop that has ended has nothing in their hands. -/
theorem Traffic.last?_of_exited (h : Traffic is m) (hexited : m.store.Exited l) :
    m.batch l = [] ∧ m.leftover l = [] ∧ ∀ p, m.serving? l = some p → p.last? ≠ none := by
  have hend := (h.ended hexited).2
  rw [batch, leftover]
  cases hp : m.serving? l with
  | none => exact ⟨rfl, rfl, fun p hp => by cases hp⟩
  | some p =>
    obtain ⟨t, c, hc, hserving⟩ := exists_of_serving? hp
    obtain ⟨mux, n, rfl⟩ := hend t c hc (by rw [hserving]; rfl)
    rw [Control.serving?_serve] at hserving
    obtain rfl := Option.some.inj hserving
    exact ⟨rfl, rfl, fun q hq => by cases hq; simp [ServePoint.last?]⟩

/-- **A loop that has ended after its last batch** has run that and dropped what was queued
behind it. -/
theorem Closing.of_exited {last queued : List Job} (hcl : m.Closing is l last queued)
    (h : Traffic is m) (hexited : m.store.Exited l) :
    EndpointControl.begun is l = last ∧ queued <+: EndpointControl.dropped is l := by
  obtain ⟨hbatch, hleftover, hlast⟩ := h.last?_of_exited hexited
  have hbegun := hcl.begun
  have hdropped := hcl.dropped
  rw [hbatch, List.append_nil] at hbegun
  rw [hleftover, List.append_nil] at hdropped
  refine ⟨hbegun, hdropped.resolve_left ?_⟩
  rintro ⟨p, hp, hnone⟩
  exact hlast p hp hnone

end Machine

/-! ## What becomes of what is queued -/

/-- **The loop has taken a batch and not looked yet** whether to end. -/
def ServePoint.isWorking : ServePoint → Bool
  | .run .. | .endTurn _ | .report _ | .readShutDown => true
  | _ => false

/-- Where a loop can be that is not on the way to its end. -/
theorem ServePoint.of_not_isEnding {p : ServePoint} (h : p.isEnding = false) :
    p.last? = none ∧ p.leftover = [] ∧ (p.isWorking = true → p.isFresh = false)
      ∧ (p.isWorking = false → p.isFresh = true ∧ p.batch = []) := by
  cases p <;> simp [isEnding, last?, isWorking, isFresh] at h ⊢

namespace Machine

variable {m m' m₁ : Machine} {i : Incident} {is js : List Incident} {l : LoopId} {j : Job}

/-- **The loop has taken a batch and not looked yet** whether to end. -/
def Working (m : Machine) (l : LoopId) : Prop := ∃ p, m.serving? l = some p ∧ p.isWorking = true

/-- **What has been queued for a loop that has not been told to end**: it has been begun, is
in the batch, or is still in the queue, and nothing has been dropped. -/
theorem Traffic.pushed_eq (h : Traffic is m) (up : ¬ m.store.ShutDown l) :
    pushed is l = begun is l ++ m.batch l ++ m.store.queue l := by
  obtain ⟨hending, htaken⟩ := h.not_ending up
  have hd := h.delivers l
  have horder := hd.order
  have hleftover : m.leftover l = [] := by
    rw [leftover]
    cases hp : m.serving? l with
    | none => rfl
    | some p => exact (ServePoint.of_not_isEnding (hending p hp)).2.1
  rwa [hd.undropped (fun p hp => (ServePoint.of_not_isEnding (hending p hp)).1) htaken,
    hleftover, List.append_nil, List.append_nil] at horder

/-- **Raising the flag of a loop** does nothing else to the loop. -/
theorem Traffic.raised (h : Traffic is m) (a : m.Advance i m₁) (up : ¬ m.store.ShutDown l)
    (told : m₁.store.ShutDown l) : m₁.store.queue l = m.store.queue l
      ∧ m₁.serving? l = m.serving? l ∧ SameLogs is (is ++ [i]) l ∧ i.taken l = 0 := by
  cases a with
  | @act t c c' g ns hc hmove =>
    obtain ⟨below, rfl⟩ := ((Control.flags_of_act hmove).shutDown l told).resolve_left up
    have hserving := h.serving?_act_of_eq (l := l) hc hmove
      ((Control.goes_of_running hmove).serving? (h.stacked t _ hc) (by simp))
    cases Control.moves_of_running hmove with
    | signal found hp =>
      simp [SignalPoint.move] at hp
      obtain ⟨rfl, -, rfl⟩ := hp
      exact ⟨queue_congr found (Store.loop?_modifyLoop_self found _) rfl, hserving,
        .of_aside (List.forall_mem_nil _), rfl⟩
  | answer => exact absurd (by rwa [store_answer] at told) up
  | call => exact absurd told up
  | build b =>
    have hflags : Flags m.store (.finished .served) (m.store.build b) := .build b
    exact absurd ((hflags.shutDown l told).resolve_right (by rintro ⟨_, ⟨⟩⟩)) up

/-- **A loop that is told in the midst of its work** has taken its last batch. -/
theorem Traffic.closing (h : Traffic is m) (a : m.Advance i m₁) (up : ¬ m.store.ShutDown l)
    (told : m₁.store.ShutDown l) (hworking : m.Working l) :
    m₁.Closing (is ++ [i]) l (begun is l ++ m.batch l) (m.store.queue l) := by
  obtain ⟨-, hserving, hlogs, -⟩ := h.raised a up told
  obtain ⟨p, hp, hw⟩ := hworking
  obtain ⟨hlast, -, hpast, -⟩ := ServePoint.of_not_isEnding ((h.not_ending up).1 p hp)
  have hp₁ := hserving.trans hp
  refine ⟨told, (h.advance a).taken_of_serving? hp₁, fun q hq => ?_, ?_, ?_, .inl ⟨p, hp₁, hlast⟩⟩
  · obtain rfl := Option.some.inj (hp₁.symm.trans hq)
    exact hpast hw
  · rw [hlogs.pushed, h.pushed_eq up]
  · rw [hlogs.begun, batch, batch, hserving]

/-- **A loop that is told anywhere else** is still going to take what is queued. -/
theorem Traffic.undrained (h : Traffic is m) (a : m.Advance i m₁) (up : ¬ m.store.ShutDown l)
    (told : m₁.store.ShutDown l) (hidle : ¬ m.Working l) :
    m₁.Undrained (is ++ [i]) l ∧ m.batch l = [] := by
  obtain ⟨-, hserving, -, htaken⟩ := h.raised a up told
  obtain ⟨hending, huntaken⟩ := h.not_ending up
  have hfresh {p : ServePoint} (hp : m.serving? l = some p) :
      p.isFresh = true ∧ p.batch = [] := by
    refine (ServePoint.of_not_isEnding (hending p hp)).2.2.2 ?_
    exact Bool.eq_false_of_not_eq_true fun hw => hidle ⟨p, hp, hw⟩
  refine ⟨⟨fun p hp => (hfresh (hserving ▸ hp)).1, fun hnone => ?_⟩, ?_⟩
  · rw [taken_concat, huntaken (hserving ▸ hnone), htaken]
  · rw [batch]
    cases hp : m.serving? l with
    | none => rfl
    | some p => exact (hfresh hp).2

/-- **What has been given up is open again or closed**, once nobody has anything in hand. -/
theorem Run.status_of_dropped (r : Run is m) (hj : j ∈ dropped is l) (rest : m.AtRest) :
    m.store.status? j.endpoint = some .initial ∨ m.store.state? j.endpoint = some .closed := by
  have hgiven := r.givenUp_of_dropped hj
  obtain ⟨q, found⟩ : ∃ q, m.store.endpoints[j.endpoint]? = some q := by
    have hflavor : m.store.flavor? j.endpoint ≠ none := hgiven.flavor_ne_none (r.inOrder _)
    cases found : m.store.endpoints[j.endpoint]? with
    | none => exact absurd (by rw [Store.flavor?, found]; rfl) hflavor
    | some q => exact ⟨q, rfl⟩
  have hzero := (r.reachable.tokens_of_atRest rest found).2
  have hentering := hzero .entering (by simp) (by simp)
  have hdropping := hzero .dropping (by simp) (by simp)
  refine (hgiven.state hentering hdropping).imp (fun hopened => ?_) id
  have hst : m.store.status? j.endpoint = some q.status := by
    rw [Store.status?, found]
    rfl
  have hopened : q.status.state = .opened := by
    have hstate : m.store.state? j.endpoint = some .opened := hopened
    rw [Store.state?_eq, hst] at hstate
    exact Option.some.inj hstate
  have hcoherent := r.coherent hst
  rw [Status.Coherent, hopened] at hcoherent
  rw [hst, Status.initial, ← hopened, ← hcoherent]

/-- **A loop that is told anywhere else begins what is queued**, all of it and in order, before it
ends. -/
theorem Run.begins_queued (r : Run is m) (a : m.Advance i m₁) (up : ¬ m.store.ShutDown l)
    (told : m₁.store.ShutDown l) (h : m₁.Leads js m') (hidle : ¬ m.Working l)
    (hexited : m'.store.Exited l) :
    begun is l ++ m.store.queue l <+: begun (is ++ i :: js) l
      ∧ dropped (is ++ i :: js) l <:+: pushed (i :: js) l := by
  have r₁ := a.run r
  have r' := r₁.leads h
  rw [List.append_cons]
  obtain ⟨hundrained, hnil⟩ := r.traffic.undrained a up told hidle
  obtain ⟨-, -, hlogs, -⟩ := r.traffic.raised a up told
  obtain ⟨hbatch, hleftover, -⟩ := r'.traffic.last?_of_exited hexited
  have hpushed := r.traffic.pushed_eq up
  have hdrains := (r₁.traffic.drains h hundrained).resolve_left (r'.traffic.not_undrained hexited)
  rw [hnil, List.append_nil] at hpushed
  rw [hlogs.pushed, hbatch, List.append_nil] at hdrains
  refine ⟨hpushed ▸ hdrains, ?_⟩
  -- what has come since is what has been begun of it, dropped, or left
  obtain ⟨later, hlater⟩ := hdrains
  have horder := (r'.traffic.delivers l).order
  rw [hbatch, hleftover, List.append_nil, List.append_nil, ← hlater, ← List.append_cons,
    pushed_append, List.append_assoc, List.append_assoc, List.append_cancel_left_eq] at horder
  exact ⟨later, m'.store.queue l, by rw [← List.append_cons, horder, List.append_assoc]⟩

/-- **What becomes of the jobs that are queued on a loop at the moment when it is told to
end.** If the loop has taken a batch and not looked yet whether to end, it begins the rest of that
batch and none of them; it drops them at its end, their endpoints are not counted and not
registered, and are open again without an address, or closed, as soon as everybody rests. Wherever
else the loop is then, it begins all of them in order, and all that it drops has come to its queue
later. -/
theorem Run.cutoff (r : Run is m) (a : m.Advance i m₁) (up : ¬ m.store.ShutDown l)
    (told : m₁.store.ShutDown l) (h : m₁.Leads js m') :
    (m.Working l → begun (is ++ i :: js) l <+: begun is l ++ m.batch l
      ∧ (m'.store.Exited l → begun (is ++ i :: js) l = begun is l ++ m.batch l
        ∧ m.store.queue l <+: dropped (is ++ i :: js) l
        ∧ ∀ j ∈ m.store.queue l, counted (is ++ i :: js) j.endpoint = 0
          ∧ m'.store.state? j.endpoint ≠ some .registered
          ∧ (m'.AtRest → m'.store.status? j.endpoint = some .initial
            ∨ m'.store.state? j.endpoint = some .closed)))
    ∧ (¬ m.Working l → m'.store.Exited l →
      begun is l ++ m.store.queue l <+: begun (is ++ i :: js) l
      ∧ dropped (is ++ i :: js) l <:+: pushed (i :: js) l) := by
  refine ⟨fun hworking => ?_, r.begins_queued a up told h⟩
  have r₁ := a.run r
  have r' := r₁.leads h
  rw [List.append_cons]
  have hcl := (r.traffic.closing a up told hworking).leads r₁.traffic h
  refine ⟨hcl.begun ▸ List.prefix_append _ _, fun hexited => ?_⟩
  obtain ⟨hbegun, hdropped⟩ := hcl.of_exited r'.traffic hexited
  refine ⟨hbegun, hdropped, fun j hj => ?_⟩
  have hj' := hdropped.subset hj
  have hgiven := r'.givenUp_of_dropped hj'
  exact ⟨hgiven.counted, hgiven.ne_registered, r'.status_of_dropped hj'⟩

/-- What a thread performs leads from one machine to another. -/
theorem exists_leads_perform (m : Machine) (replies : (q : Request) → q.Reply) (t : ThreadId)
    (n : Nat) : ∃ js, m.Leads js (m.perform replies t n) := by
  induction n with
  | zero => exact ⟨[], .refl⟩
  | succ n ih =>
    obtain ⟨js, h⟩ := ih
    rw [perform]
    split
    · rename_i hmove
      exact ⟨_, h.advance (Step.act hmove).advance⟩
    · rename_i hmove
      exact ⟨_, h.advance (Step.answer hmove _).advance⟩
    all_goals exact ⟨js, h⟩

end Machine

namespace History

/-- A boss has queued an endpoint with a worker that no thread has begun to run yet. The factory
is being released, and the worker is about to be told to end. -/
def queued : History :=
  let made := ((empty.build .small).call none (.create 0)).turn 0 40
  let handing := ((made.call none (.connect 0 "127.0.0.1:9")).turn 2 40).turn 3 16
  (handing.call none (.release 0)).turn 4 10

/-- A boss is in the midst of a hand-over, and another attempt is queued behind it. The factory is
being released, and the boss is about to be told to end. -/
def queuedBehind : History :=
  let made := ((empty.build .small).call none (.create 0)).turn 0 40
  let second := (made.call none (.create 0)).turn 2 40
  let handing := ((second.call none (.connect 0 "127.0.0.1:9")).turn 3 40).turn 4 16
  let queued := (handing.call none (.connect 1 "127.0.0.1:9")).turn 5 40
  (queued.call none (.release 0)).turn 6 3

end History

namespace Machine

/-- **A loop begins a job that was queued when the loop was told to end**: the endpoint is
registered and counted. -/
theorem exists_begun_after_told : ∃ is m i m₁ js m' l j, Run is m ∧ m.Advance i m₁
    ∧ ¬ m.store.ShutDown l ∧ m₁.store.ShutDown l ∧ m₁.Leads js m' ∧ m'.store.Exited l
    ∧ m.store.queue l = [j] ∧ begun is l = [] ∧ j ∈ begun (is ++ i :: js) l
    ∧ m.store.state? j.endpoint = some .connecting ∧ m.store.registered 0 0 = 0
    ∧ m'.store.state? j.endpoint = some .registered ∧ m'.store.registered 0 0 = 1 := by
  let m := History.queued.machine
  let l : LoopId := ⟨0, .worker 0⟩
  let told := m.perform granted 4 1
  let served := told.perform granted 1 40
  have r : Run History.queued.incidents m := History.queued.orderly.run
  obtain ⟨hap, a⟩ : ∃ hap, m.Advance (.stepped 4 hap) told :=
    exists_advance_of_perform (by decide +kernel)
  obtain ⟨js, h⟩ := told.exists_leads_perform granted 1 40
  have hbefore : ¬ m.store.ShutDown l ∧ m.store.queue l = [.registration 0]
      ∧ m.serving? l = some .announce ∧ begun History.queued.incidents l = []
      ∧ m.store.state? 0 = some .connecting ∧ m.store.registered 0 0 = 0 := by decide +kernel
  obtain ⟨hup, hqueue, hannounce, hnone, hconnecting, hzero⟩ := hbefore
  have htold : told.store.ShutDown l := by decide +kernel
  have hafter : served.store.Exited l ∧ served.store.state? 0 = some .registered
      ∧ served.store.registered 0 0 = 1 := by decide +kernel
  obtain ⟨hexited, hregistered, hone⟩ := hafter
  have hidle : ¬ m.Working l := by
    rintro ⟨p, hp, hw⟩
    obtain rfl := Option.some.inj (hannounce.symm.trans hp)
    cases hw
  have hbegun := (r.begins_queued a hup htold h hidle hexited).1
  refine ⟨_, m, _, told, js, served, l, .registration 0, r, a, hup, htold, h, hexited, hqueue,
    hnone, ?_, hconnecting, hzero, hregistered, hone⟩
  exact hbegun.subset (List.mem_append_right _ (hqueue ▸ List.mem_cons_self))

/-- The boss finishes its hand-over and drops the other attempt, and the endpoint is open
again. -/
theorem cutoff_queuedBehind :
    let m := History.queuedBehind.machine
    let is := History.queuedBehind.incidents
    let boss : LoopId := ⟨0, .boss⟩
    m.store.queue boss = [.attempt 1 "127.0.0.1:9"] ∧ m.store.state? 1 = some .connecting
      ∧ ∃ i m₁ js m', m.Advance i m₁ ∧ ¬ m.store.ShutDown boss ∧ m₁.store.ShutDown boss
        ∧ m₁.Leads js m' ∧ m'.store.Exited boss
        ∧ begun (is ++ i :: js) boss = [.attempt 0 "127.0.0.1:9"]
        ∧ .attempt 1 "127.0.0.1:9" ∈ dropped (is ++ i :: js) boss
        ∧ (m'.store.status? 1 = some .initial ∨ m'.store.state? 1 = some .closed) := by
  intro m is boss
  let told := m.perform granted 6 1
  let released := told.perform granted 6 40
  let ended := released.perform granted 4 60
  have hbefore : m.store.queue boss = [.attempt 1 "127.0.0.1:9"]
      ∧ m.store.state? 1 = some .connecting ∧ ¬ m.store.ShutDown boss
      ∧ m.serving? boss = some (.run [] 1)
      ∧ begun is boss ++ m.batch boss = [.attempt 0 "127.0.0.1:9"] := by decide +kernel
  obtain ⟨hqueue, hconnecting, hup, hserving, hbegun⟩ := hbefore
  obtain ⟨hap, a⟩ : ∃ hap, m.Advance (.stepped 6 hap) told :=
    exists_advance_of_perform (by decide +kernel)
  obtain ⟨js, h⟩ := told.exists_leads_perform granted 6 40
  obtain ⟨js', h'⟩ := released.exists_leads_perform granted 4 60
  have htold : told.store.ShutDown boss := by decide +kernel
  have hexited : ended.store.Exited boss := by decide +kernel
  obtain ⟨-, hdrops⟩ := (History.queuedBehind.orderly.run.cutoff a hup htold (h.trans h')).1
    ⟨_, hserving, rfl⟩
  obtain ⟨hbegun', hdropped, hstatus⟩ := hdrops hexited
  have hmem : Job.attempt 1 "127.0.0.1:9" ∈ m.store.queue boss := hqueue ▸ List.mem_cons_self
  exact ⟨hqueue, hconnecting, _, told, _, ended, a, hup, htold, h.trans h', hexited,
    hbegun'.trans hbegun, hdropped.subset hmem, (hstatus _ hmem).2.2 (by decide +kernel)⟩

end Machine

end EndpointControl
