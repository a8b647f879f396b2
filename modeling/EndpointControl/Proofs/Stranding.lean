import EndpointControl.Proofs.Afterwards
import EndpointControl.Proofs.Cutoff
import EndpointControl.Proofs.Wakes

/-!
# What an ended loop can have in its queue

A submission looks whether the loop has been told to end, and appends its job later. Nothing
keeps the loop from ending in between, so a job can be left behind in the queue of a loop that has
ended (`Machine.exists_stranded`). This module says how much can be left behind, and by whom.

Whoever looks once the flag is up is turned away. So from then on the jobs that are appended and
those that somebody is still about to append are, together, the ones that somebody was about to
append when the flag went up (`Machine.Unfolds.appending`). A loop takes its queue for the last
time after that, and takes all that is in it. What an ended loop has in its queue has therefore
come after this last look, from somebody who had looked at the flag before it went up; every other
job has been begun or dropped (`Machine.Traffic.leavings`). An endpoint that is still connecting
when its boss and its worker have ended is an endpoint of such a job
(`Machine.Run.leftBehind_of_connecting`).
-/

namespace EndpointControl

/-- **The submission has seen that the loop goes on**, and has not appended its job yet. -/
def SubmitPoint.isAppending : SubmitPoint → Bool
  | .takeSlot | .readSlot | .serialize _ | .takeQueue _ | .append _ => true
  | _ => false

/-- **The thread is about to append the job** to the queue of the loop, and will not look at its
flag again. -/
def Control.isAppending (l : LoopId) (j : Job) : Control → Bool
  | .running (.submit l' j' p :: _) => p.isAppending && decide (l' = l ∧ j' = j)
  | _ => false

/-! ## One step -/

section Procedures

variable {s : Store} {t : ThreadId} {l : LoopId} {j : Job} {fr : Frame} {below : List Frame}
  {g : Store → Store} {c c' : Control} {ns : List Note}

/-- Whoever is in the midst of no submission has still to look. -/
theorem Control.isAppending_of_isClear (h : c.isClear = true) : c.isAppending l j = false := by
  unfold isAppending
  split
  · rename_i p _
    cases p <;> first | rfl | cases h
  · rfl

/-- Only a submission leads to where a job is appended. -/
theorem Control.Goes.isAppending (h : c.Goes fr below) (hst : fr.Stacked below)
    (hfr : ∀ l j p, fr ≠ .submit l j p) : c.isAppending l j = false := by
  rcases h.within_or_isClear hst with ⟨fr', hsame, rfl⟩ | hclear
  · cases hsame with
    | submit => exact absurd rfl (hfr _ _ _)
    | _ => rfl
  · exact isAppending_of_isClear hclear

/-- **A submission to a loop that has been told to end** appends its job if it has looked before,
and is turned away if it looks now. -/
theorem SubmitPoint.isAppending_of_move {l' : LoopId} {lp : Loop} {j' : Job} {p : SubmitPoint}
    (found : s.loop? l' = some lp) (told : s.ShutDown l)
    (h : p.move s t below l' lp j' = .act g c ns) (hst : (Frame.submit l' j' p).Stacked below) :
    (ns.flatMap (Note.pushes l)).count j + (c.isAppending l j).toNat
      = ((Control.running (.submit l' j' p :: below)).isAppending l j).toNat := by
  cases p <;> simp [SubmitPoint.move] at h
  case readShutDown =>
    obtain ⟨-, rfl, rfl⟩ := h
    by_cases hl : l' = l
    · subst hl
      obtain ⟨lp', found', hup⟩ := told
      obtain rfl := Option.some.inj (found.symm.trans found')
      rw [if_pos hup]
      rfl
    · simp [Control.isAppending, hl]
  case append mo =>
    obtain ⟨-, rfl, rfl⟩ := h
    have hcount : ((Note.pushed l' j').pushes l).count j = (decide (l' = l ∧ j' = j)).toNat := by
      by_cases hl : l' = l
      · by_cases hj : j' = j <;> simp [hl, hj]
      · simp [hl]
    rw [List.flatMap_singleton, hcount]
    cases mo <;> rfl
  case start | refuse =>
    obtain ⟨-, rfl, rfl⟩ := h
    rw [Control.isAppending_of_isClear (Control.isClear_of_isNew rfl _)]
    rfl
  case serialize =>
    split at h <;> simp at h
    · obtain ⟨-, -, rfl, rfl⟩ := h
      exact Nat.zero_add _
    · obtain ⟨-, rfl, rfl⟩ := h
      exact Nat.zero_add _
  case takeSlot | takeQueue =>
    obtain ⟨-, -, rfl, rfl⟩ := h
    exact Nat.zero_add _
  case readSlot | wakeFailed =>
    obtain ⟨-, rfl, rfl⟩ := h
    exact Nat.zero_add _
  case leave =>
    split at h <;> simp at h <;> obtain ⟨-, rfl, rfl⟩ := h <;>
      rw [Control.isAppending_of_isClear (hst.isClear_back _)] <;> rfl
  case refused =>
    obtain ⟨-, rfl, rfl⟩ := h
    rw [Control.isAppending_of_isClear (hst.isClear_back _)]
    rfl

/-- **Once a loop has been told to end nobody more comes to append to it**, and whoever is about
to append a job is so until it has. -/
theorem Control.isAppending_of_act (hc : c.Stacked) (told : s.ShutDown l)
    (h : c.move s t = .act g c' ns) : (ns.flatMap (Note.pushes l)).count j
      + (c'.isAppending l j).toNat = (c.isAppending l j).toNat := by
  have hnil := pushes_eq_nil (l := l) hc h
  obtain ⟨fr, below, rfl, hgoes⟩ := goes_of_act h
  by_cases hfr : ∃ l' j' p, fr = .submit l' j' p
  · obtain ⟨l', j', p, rfl⟩ := hfr
    cases moves_of_running h with
    | submit found hp => exact p.isAppending_of_move found told hp hc
  · have hne (l' j' p) : fr ≠ .submit l' j' p := fun heq => hfr ⟨l', j', p, heq⟩
    have hbefore : (running (fr :: below)).isAppending l j = false := by
      cases fr <;> first | rfl | exact absurd rfl (hne _ _ _)
    rw [hgoes.isAppending hc hne, hbefore, hnil]
    · rfl
    · exact fun l' j' p below' heq => hne l' j' p (List.cons.inj (running.inj heq)).1

/-- Whoever asks for something is not about to append, neither before nor after. -/
theorem Control.isAppending_of_ask {q : Request} {after : q.Reply → Control} (reply : q.Reply)
    (h : c.move s t = .ask q after) :
    c.isAppending l j = false ∧ (after reply).isAppending l j = false := by
  obtain ⟨fr, below, rfl, hask⟩ := asks h
  cases hask <;> first | exact ⟨rfl, rfl⟩ | (cases reply <;> exact ⟨rfl, rfl⟩)

end Procedures

namespace Machine

variable {m m' m₁ : Machine} {i : Incident} {is js : List Incident} {l : LoopId} {j : Job}
  {e : EndpointId} {q : Endpoint}

/-- **How many are about to append the job** to the queue of the loop. -/
def appending (m : Machine) (l : LoopId) (j : Job) : Nat :=
  m.total fun _ c => (c.isAppending l j).toNat

/-- Whoever begins is not about to append. -/
theorem appending_spawn (m : Machine) (home : Option ExecutorId) {c : Control}
    (hc : c.isClear = true) : (m.spawn home c).appending l j = m.appending l j := by
  rw [appending, total_spawn, Control.isAppending_of_isClear hc, Bool.toNat_false, Nat.add_zero,
    appending]

theorem Traffic.appending_of_advance (h : Traffic is m) (told : m.store.ShutDown l)
    (a : m.Advance i m') (j : Job) :
    (i.notes.flatMap (Note.pushes l)).count j + m'.appending l j = m.appending l j := by
  cases a with
  | @act t c c' g ns hc hmove =>
    have hstep := Control.isAppending_of_act (j := j) (h.stacked t c hc) told hmove
    have htotal := total_act (fun _ c => (c.isAppending l j).toNat) hc g c'
    simp only [appending, Incident.notes]
    omega
  | @answer t c q after hc hmove reply =>
    obtain ⟨hbefore, hafter⟩ := Control.isAppending_of_ask (l := l) (j := j) reply hmove
    have htotal := total_answer (w := fun _ c => (c.isAppending l j).toNat) hc
      (fun _ _ _ => rfl) after reply
    rw [hbefore, hafter] at htotal
    exact (Nat.zero_add _).trans htotal
  | call home o =>
    exact (Nat.zero_add _).trans (m.appending_spawn home (by cases o <;> rfl))
  | build => exact Nat.zero_add _

/-- **From when a loop has been told to end**, the jobs that have been appended to its queue since
and those that somebody is about to append are the ones that somebody was about to append then. -/
theorem Unfolds.appending (h' : m.Unfolds js m') (h : Traffic is m) (told : m.store.ShutDown l)
    (j : Job) : (pushed js l).count j + m'.appending l j = m.appending l j := by
  induction h' with
  | refl => exact Nat.zero_add _
  | advance h' a ih =>
    have hstep := (h.unfolds h').appending_of_advance (h'.grows.shutDown told) a j
    rw [pushed_concat, List.count_append]
    omega
  | use h' home hnew ih =>
    rw [appending_spawn _ home (Control.isClear_of_isNew hnew [])]
    exact ih

/-! ## The last look -/

/-- **The loop has taken its queue for the last time.** -/
def PastLook (m : Machine) (l : LoopId) : Prop :=
  (∃ p n, m.serving? l = some p ∧ p.last? = some n) ∨ m.store.Exited l

/-- A loop has taken its queue for the last time before it is marked as ended. -/
theorem Traffic.pastLook_of_exited (h : Traffic is m) (a : m.Advance i m')
    (hexited : m'.store.Exited l) : m.PastLook l := by
  by_cases hold : m.store.Exited l
  · exact .inr hold
  · obtain ⟨t, mux, n, below, g, c', ns, hc, -⟩ := a.marks hold hexited
    obtain rfl := (h.stacked t _ hc).eq_nil rfl
    exact .inl ⟨_, n, h.serving?_eq hc (Control.serving?_serve ..), rfl⟩

/-- **A loop that has not been told to end** is going to take its queue again. -/
theorem Traffic.not_pastLook (h : Traffic is m) (up : ¬ m.store.ShutDown l) : ¬ m.PastLook l := by
  obtain ⟨hending, huntaken⟩ := h.not_ending up
  rintro (⟨p, n, hp, hlast⟩ | hexited)
  · cases (ServePoint.of_not_isEnding (hending p hp)).1.symm.trans hlast
  · -- a loop that has ended is at its end, or nobody runs it though it has been taken
    obtain ⟨htaken, -⟩ := h.ended hexited
    obtain ⟨-, -, hlast⟩ := h.last?_of_exited hexited
    cases hp : m.serving? l with
    | none => cases htaken.symm.trans (huntaken hp)
    | some p => exact hlast p hp (ServePoint.of_not_isEnding (hending p hp)).1

/-- **Either the loop takes its queue, or the queue grows by what is appended.** A loop that has
taken its queue for the last time does not take it again. -/
theorem Traffic.queue_of_advance (h : Traffic is m) (a : m.Advance i m') :
    m'.store.queue l = [] ∨ m'.store.queue l = m.store.queue l ++ i.notes.flatMap (Note.pushes l)
      ∧ (m'.PastLook l → m.PastLook l) := by
  have hlook (hp' : ∀ p n, m'.serving? l = some p → p.last? = some n → m.PastLook l) :
      m'.PastLook l → m.PastLook l := by
    rintro (⟨p, n, hp, hlast⟩ | hexited)
    · exact hp' p n hp hlast
    · exact h.pastLook_of_exited a hexited
  have hstays (hserving : m'.serving? l = m.serving? l) : m'.PastLook l → m.PastLook l :=
    hlook fun p n hp hlast => .inl ⟨p, n, hserving ▸ hp, hlast⟩
  -- where the loop has not looked for the last time, it can only have ended before
  have hnotYet {p : ServePoint} (hp' : m'.serving? l = some p) (hnone : p.last? = none) :
      m'.PastLook l → m.PastLook l := hlook fun q n hq hlast => by
    obtain rfl := Option.some.inj (hp'.symm.trans hq)
    cases hnone.symm.trans hlast
  have hpushes (hns : ∀ n ∈ i.notes, n.concerns l = false) :
      i.notes.flatMap (Note.pushes l) = [] := by
    have hlogs : pushed ([] ++ [i]) l = pushed [] l := (SameLogs.of_aside hns).pushed
    rwa [pushed_concat] at hlogs
  cases h.befalls a (l := l) with
  | aside hqueue hserving hns =>
    exact .inr ⟨by rw [hqueue, hpushes hns, List.append_nil], hstays hserving⟩
  | pushes hqueue hserving hns => exact .inr ⟨by rw [hqueue, hns]; simp, hstays hserving⟩
  | waited hqueue _ hp' hns => exact .inr ⟨by rw [hqueue, hns]; simp, hnotYet hp' rfl⟩
  | enters hqueue _ hp' hns => exact .inr ⟨by rw [hqueue, hns]; simp, hnotYet hp' rfl⟩
  | turns _ _ found found' hp hp' turn =>
    generalize hns : i.notes = ns at turn hpushes
    cases turn with
    | passes hcalm haside =>
      refine .inr ⟨by rw [queue_congr found found' rfl, hpushes haside, List.append_nil], ?_⟩
      refine hlook fun p n hq hlast => .inl ⟨_, n, hp, ?_⟩
      obtain rfl := Option.some.inj (hp'.symm.trans hq)
      exact hcalm.last.symm.trans hlast
    | takes | takesRest => exact .inl (Store.queue_eq found')
    | begins | reports =>
      exact .inr ⟨by rw [queue_congr found found' rfl]; simp, hnotYet hp' rfl⟩
    | drops | exits | ends =>
      exact .inr ⟨by rw [queue_congr found found' rfl]; simp, fun _ => .inl ⟨_, _, hp, rfl⟩⟩

/-- **After the last look** the jobs in the queue and those that somebody is about to append are
among the ones that somebody was about to append before. -/
theorem Unfolds.queue_count_le (h' : m.Unfolds js m') (h : Traffic is m)
    (told : m.store.ShutDown l) (hbefore : ¬ m.PastLook l) (hpast : m'.PastLook l) (j : Job) :
    (m'.store.queue l).count j + m'.appending l j ≤ m.appending l j := by
  induction h' with
  | refl => exact absurd hpast hbefore
  | @advance js m' m'' i h' a ih =>
    rcases (h.unfolds h').queue_of_advance a (l := l) with hnil | ⟨hqueue, hlook⟩
    · have hsince := (h'.advance a).appending h told j
      rw [hnil, List.count_nil]
      omega
    · have hstep := (h.unfolds h').appending_of_advance (h'.grows.shutDown told) a j
      have hle := ih (hlook hpast)
      rw [hqueue, List.count_append]
      omega
  | use h' home hnew ih =>
    rw [appending_spawn _ home (Control.isClear_of_isNew hnew [])]
    refine ih (hpast.imp_left ?_)
    rintro ⟨p, n, hp, hlast⟩
    exact ⟨p, n, (serving?_spawn_of_isNew home hnew).symm.trans hp, hlast⟩

/-! ## What is left behind -/

/-- **The loop has been told to end**, which has led to `m₁`, and this has happened since. -/
def ToldSince (m : Machine) (is : List Incident) (l : LoopId) (m₁ : Machine)
    (js : List Incident) : Prop :=
  ∃ is₀ m₀ i, Traffic is₀ m₀ ∧ ¬ m₀.store.ShutDown l ∧ m₀.Advance i m₁ ∧ m₁.store.ShutDown l
    ∧ m₁.Unfolds js m ∧ is = is₀ ++ i :: js

/-- **A flag that is up has gone up** in one step. -/
theorem Traffic.exists_toldSince (h : Traffic is m) :
    m.store.ShutDown l → ∃ m₁ js, m.ToldSince is l m₁ js := by
  refine h.induction (motive := fun is m => m.store.ShutDown l → ∃ m₁ js, m.ToldSince is l m₁ js)
    ?empty ?advance ?use
  case empty =>
    rintro ⟨lp, hlp, -⟩
    simp [Machine.empty, Store.empty, Store.loop?] at hlp
  case advance =>
    intro is m i m' h ih a told
    by_cases hold : m.store.ShutDown l
    · obtain ⟨m₁, js, is₀, m₀, i₀, h₀, up, a₀, told₁, h₁, rfl⟩ := ih hold
      exact ⟨m₁, js ++ [i], is₀, m₀, i₀, h₀, up, a₀, told₁, h₁.advance a, by simp⟩
    · exact ⟨m', [], is, m, i, h, hold, a, told, .refl, rfl⟩
  case use =>
    intro is m fr home h ih hnew told
    obtain ⟨m₁, js, is₀, m₀, i₀, h₀, up, a₀, told₁, h₁, his⟩ := ih told
    exact ⟨m₁, js, is₀, m₀, i₀, h₀, up, a₀, told₁, h₁.use home hnew, his⟩

/-- **What an ended loop can have in its queue.** All that has ever been appended has been begun
or dropped, but for what is in the queue now. That has been appended, and what somebody is still
about to append would be, by those who were about to when the loop was told to end. -/
theorem Traffic.leavings (h : Traffic is m) (hexited : m.store.Exited l) :
    pushed is l = begun is l ++ dropped is l ++ m.store.queue l
      ∧ ∃ m₁ js, m.ToldSince is l m₁ js
        ∧ ∀ j, (m.store.queue l).count j + m.appending l j ≤ m₁.appending l j := by
  constructor
  · have horder := (h.delivers l).order
    obtain ⟨hbatch, hleftover, -⟩ := h.last?_of_exited hexited
    rwa [hbatch, hleftover, List.append_nil, List.append_nil] at horder
  · have told : m.store.ShutDown l := by
      by_contra up
      exact h.not_pastLook up (.inr hexited)
    obtain ⟨m₁, js, hsince⟩ := h.exists_toldSince told
    refine ⟨m₁, js, hsince, fun j => ?_⟩
    obtain ⟨is₀, m₀, i, h₀, up, a, told₁, h₁, -⟩ := hsince
    -- the flag goes up before the last look
    have hbefore : ¬ m₁.PastLook l := by
      rintro (⟨p, n, hp, hlast⟩ | hexited₁)
      · rw [(h₀.raised a up told₁).2.1] at hp
        exact h₀.not_pastLook up (.inl ⟨p, n, hp, hlast⟩)
      · exact h₀.not_pastLook up (h₀.pastLook_of_exited a hexited₁)
    exact h₁.queue_count_le (h₀.advance a) told₁ hbefore (.inr hexited) j

/-- **The job was left behind**: a thread was about to append it when the loop was told to end. -/
def LeftBehind (m : Machine) (is : List Incident) (l : LoopId) (j : Job) : Prop :=
  ∃ m₁ js, m.ToldSince is l m₁ js ∧ ∃ t c, m₁.control? t = some c ∧ c.isAppending l j = true

/-- **Each job in the queue of an ended loop was left behind.** -/
theorem Traffic.leftBehind (h : Traffic is m) (hexited : m.store.Exited l)
    (hj : j ∈ m.store.queue l) : m.LeftBehind is l j := by
  obtain ⟨-, m₁, js, hsince, hle⟩ := h.leavings hexited
  have hcount := List.count_pos_iff.mpr hj
  have hpos : 0 < m₁.appending l j := by
    have := hle j
    omega
  obtain ⟨t, c, hc, hw⟩ := exists_of_total_pos hpos
  refine ⟨m₁, js, hsince, t, c, hc, ?_⟩
  by_contra hno
  rw [Bool.eq_false_of_not_eq_true hno] at hw
  cases hw

/-- At rest, nobody runs a loop that has ended. -/
theorem Run.not_serves_of_exited (r : Run is m) (rest : m.AtRest) (hexited : m.store.Exited l) :
    ¬ m.Serves l := by
  rintro ⟨t, c, hc, hserves⟩
  have hserving := (r.reachable.sound.2 t c hc).serving?_isSome_iff.mpr hserves
  obtain ⟨mux, n, rfl⟩ := (r.traffic.ended hexited).2 t c hc hserving
  exact absurd (rest.control hc) nofun

/-- **An endpoint that is connecting though its boss and its worker have ended** has been left
behind: a job in the queue of one of them carries it, and somebody who had seen this loop go on
was about to append the job when the loop was told to end. -/
theorem Run.leftBehind_of_connecting (r : Run is m) (rest : m.AtRest)
    (found : m.store.endpoints[e]? = some q) (hstate : q.status.state = .connecting)
    (hboss : m.store.Exited q.boss) (hhome : m.store.Exited q.home) :
    ∃ l j, (l = q.boss ∨ l = q.home) ∧ j ∈ m.store.queue l ∧ j.endpoint = e
      ∧ m.LeftBehind is l j := by
  have hqueued {l : LoopId} (hexited : m.store.Exited l) (hun : m.unrunOn l e ≠ 0) :
      ∃ j, j ∈ m.store.queue l ∧ j.endpoint = e ∧ m.LeftBehind is l j := by
    rw [r.reachable.unrunOn_of_not_serves (r.not_serves_of_exited rest hexited)] at hun
    obtain ⟨j, hj, he⟩ := List.countP_pos_iff.mp (Nat.pos_of_ne_zero hun)
    exact ⟨j, hj, of_decide_eq_true he, r.traffic.leftBehind hexited hj⟩
  have hfactory : m.store.factories[q.factory]?.isSome := by
    obtain ⟨lp, hlp, -⟩ := hboss
    obtain ⟨fac, hfac, -⟩ := Option.bind_eq_some_iff.mp hlp
    exact Option.isSome_iff_exists.mpr ⟨fac, hfac⟩
  by_cases hun : m.unrunOn q.boss e = 0
  · have hne : m.unrunOn q.home e ≠ 0 := by
      intro hzero
      refine r.reachable.not_connecting rest found hfactory ?_ hstate
      rw [unrun, found]
      simp [hun, hzero]
    obtain ⟨j, hj⟩ := hqueued hhome hne
    exact ⟨_, j, .inr rfl, hj⟩
  · obtain ⟨j, hj⟩ := hqueued hboss hun
    exact ⟨_, j, .inl rfl, hj⟩

/-- The attempt has been left behind, the release has gone on, and boss and worker have ended. -/
def abandoned : Machine := (stranded.play 4 60).play 1 40

/-- Its endpoint is connecting, though everybody has returned. -/
theorem leftBehind_abandoned : ∃ is, Run is abandoned ∧ abandoned.AtRest
    ∧ abandoned.store.state? 0 = some .connecting
    ∧ ∃ l j, j ∈ abandoned.store.queue l ∧ j.endpoint = 0 ∧ abandoned.LeftBehind is l j := by
  obtain ⟨is, r⟩ := (exists_stranded.1.play 4 60).play 1 40
  have hends : abandoned.store.Exited ⟨0, .boss⟩ ∧ abandoned.store.Exited ⟨0, .worker 0⟩
      ∧ abandoned.store.endpoints[0]? = some ⟨0, 0, 0, .connecting, some "127.0.0.1:9"⟩ := by
    decide +kernel
  obtain ⟨hboss, hworker, found⟩ := hends
  have rest : abandoned.AtRest := by decide +kernel
  obtain ⟨l, j, -, hj, he, hleft⟩ := r.leftBehind_of_connecting rest found rfl hboss hworker
  exact ⟨is, r, rest, by decide +kernel, l, j, hj, he, hleft⟩

end Machine

end EndpointControl
