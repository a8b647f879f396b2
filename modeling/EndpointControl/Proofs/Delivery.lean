import EndpointControl.Proofs.Courses

/-!
# What becomes of the jobs of a loop

A job that has been appended to the queue of a loop is there until the loop takes
everything queued; then it is in the batch of the loop until the loop begins it.
What the loop finds at its end it drops. All of this keeps the order in which the
jobs came, so at any time the jobs that have ever been appended are, in this order,
those begun, the rest of the batch, those dropped and about to be dropped, and
those in the queue (`Machine.Traffic.delivery`).

The proof follows the one thread that runs the loop (`Machine.serving?`). Somebody
who submits can only append, however many there are and at whatever point the loop
is, and nobody else touches queue or batch.
-/

namespace EndpointControl

/-! ## What a history tells about jobs -/

/-- The jobs that a note says were appended to the queue of the loop. -/
@[simp] def Note.pushes (l : LoopId) : Note → List Job
  | .pushed l' j => if l' = l then [j] else []
  | _ => []

/-- The jobs that a note says the loop has begun. -/
@[simp] def Note.begins (l : LoopId) : Note → List Job
  | .started l' j => if l' = l then [j] else []
  | _ => []

/-- The jobs that a note says the loop has dropped. -/
@[simp] def Note.drops (l : LoopId) : Note → List Job
  | .dropped l' j => if l' = l then [j] else []
  | _ => []

/-- How many jobs the loop says it has run. -/
@[simp] def Note.reports (l : LoopId) : Note → Nat
  | .said (.ran l' n) => if l' = l then n else 0
  | _ => 0

/-- **The jobs that have been appended to the queue of the loop.** -/
def pushed (is : List Incident) (l : LoopId) : List Job :=
  (is.flatMap Incident.notes).flatMap (Note.pushes l)

/-- **The jobs that the loop has begun.** -/
def begun (is : List Incident) (l : LoopId) : List Job :=
  (is.flatMap Incident.notes).flatMap (Note.begins l)

/-- **The jobs that the loop has dropped.** -/
def dropped (is : List Incident) (l : LoopId) : List Job :=
  (is.flatMap Incident.notes).flatMap (Note.drops l)

/-- **How many jobs the loop says it has run**, over all its batches. -/
def reported (is : List Incident) (l : LoopId) : Nat :=
  ((is.flatMap Incident.notes).map (Note.reports l)).sum

section Logs

variable (is : List Incident) (i : Incident) (l : LoopId)

@[simp] theorem pushed_concat :
    pushed (is ++ [i]) l = pushed is l ++ i.notes.flatMap (Note.pushes l) := by
  simp [pushed]

@[simp] theorem begun_concat :
    begun (is ++ [i]) l = begun is l ++ i.notes.flatMap (Note.begins l) := by
  simp [begun]

@[simp] theorem dropped_concat :
    dropped (is ++ [i]) l = dropped is l ++ i.notes.flatMap (Note.drops l) := by
  simp [dropped]

@[simp] theorem reported_concat :
    reported (is ++ [i]) l = reported is l + (i.notes.map (Note.reports l)).sum := by
  simp [reported]

end Logs

theorem pushed_append (is is' : List Incident) (l : LoopId) :
    pushed (is ++ is') l = pushed is l ++ pushed is' l := by
  rw [pushed, List.flatMap_append, List.flatMap_append, ← pushed, ← pushed]

/-- **Two histories tell the same about the jobs of a loop.** -/
structure SameLogs (is is' : List Incident) (l : LoopId) : Prop where
  pushed : pushed is' l = pushed is l
  begun : begun is' l = begun is l
  dropped : dropped is' l = dropped is l
  reported : reported is' l = reported is l

/-- Notes that are not about the jobs of the loop. -/
theorem SameLogs.of_aside {is : List Incident} {i : Incident} {l : LoopId}
    (h : ∀ n ∈ i.notes, n.concerns l = false) : SameLogs is (is ++ [i]) l := by
  have hnil (f : Note → List Job) (hf : ∀ n, n.concerns l = false → f n = []) :
      i.notes.flatMap f = [] := List.flatMap_eq_nil_iff.mpr fun n hn => hf n (h n hn)
  have hoff {l' : LoopId} (h : decide (l' = l) = false) : ¬ l' = l := of_decide_eq_false h
  constructor
  · rw [pushed_concat, hnil, List.append_nil]
    intro n hn
    cases n <;> first | rfl | exact if_neg (hoff hn)
  · rw [begun_concat, hnil, List.append_nil]
    intro n hn
    cases n <;> first | rfl | exact if_neg (hoff hn)
  · rw [dropped_concat, hnil, List.append_nil]
    intro n hn
    cases n <;> first | rfl | exact if_neg (hoff hn)
  · rw [reported_concat, List.sum_eq_zero_iff.mpr, Nat.add_zero]
    intro k hk
    obtain ⟨n, hn, rfl⟩ := List.mem_map.mp hk
    have hn := h n hn
    unfold Note.reports
    split
    · exact if_neg (hoff hn)
    · rfl

/-! ## Where the loop is -/

/-- **The point at which somebody runs the loop**, if anybody does. -/
def Machine.serving? (m : Machine) (l : LoopId) : Option ServePoint :=
  m.threads.toList.findSome? fun th => th.control.serving? l

namespace Machine

variable {m m' : Machine} {is : List Incident} {i : Incident} {l : LoopId} {t : ThreadId}
  {c c' : Control} {p : ServePoint}

theorem serving?_eq_none_iff :
    m.serving? l = none ↔ ∀ t c, m.control? t = some c → c.serving? l = none := by
  rw [serving?, List.findSome?_eq_none_iff]
  constructor
  · intro h t c hc
    obtain ⟨th, hth, rfl⟩ := Option.map_eq_some_iff.mp hc
    exact h th (Array.mem_toList_iff.mpr (Array.mem_of_getElem? hth))
  · intro h th hth
    obtain ⟨t, hlt, rfl⟩ := Array.mem_iff_getElem.mp (Array.mem_toList_iff.mp hth)
    exact h t _ (by rw [control?, Array.getElem?_eq_getElem hlt, Option.map_some])

theorem exists_of_serving? (h : m.serving? l = some p) :
    ∃ t c, m.control? t = some c ∧ c.serving? l = some p := by
  obtain ⟨th, hth, hp⟩ := List.exists_of_findSome?_eq_some h
  obtain ⟨t, hlt, rfl⟩ := Array.mem_iff_getElem.mp (Array.mem_toList_iff.mp hth)
  exact ⟨t, _, by rw [control?, Array.getElem?_eq_getElem hlt, Option.map_some], hp⟩

/-- **The thread that runs a loop says where the loop is.** -/
theorem Traffic.serving?_eq (h : Traffic is m) (hc : m.control? t = some c)
    (hp : c.serving? l = some p) : m.serving? l = some p := by
  cases hs : m.serving? l with
  | none => exact absurd (hp.symm.trans (serving?_eq_none_iff.mp hs t c hc)) nofun
  | some p' =>
    obtain ⟨t', d, hd, hp'⟩ := exists_of_serving? hs
    obtain ⟨rfl, -⟩ := h.serving hc hd (by rw [hp]; rfl) (by rw [hp']; rfl)
    obtain rfl := Option.some.inj (hc.symm.trans hd)
    exact hp'.symm.trans hp

/-- A loop that is run has been taken by an executor. -/
theorem Traffic.taken_of_serving? (h : Traffic is m) (hp : m.serving? l = some p) :
    taken is l = 1 := by
  obtain ⟨t, c, hc, hp⟩ := exists_of_serving? hp
  exact (h.serving hc hc (by rw [hp]; rfl) (by rw [hp]; rfl)).2

/-- The loop is where it was if who runs it is where they were. -/
theorem Traffic.serving?_congr {is' : List Incident} (h' : Traffic is' m')
    (hfwd : ∀ t c p, m.control? t = some c → c.serving? l = some p →
      ∃ c', m'.control? t = some c' ∧ c'.serving? l = some p)
    (hback : ∀ t c', m'.control? t = some c' → (c'.serving? l).isSome →
      ∃ t c, m.control? t = some c ∧ (c.serving? l).isSome) : m'.serving? l = m.serving? l := by
  cases hs : m.serving? l with
  | none =>
    refine serving?_eq_none_iff.mpr fun t c' hc' => ?_
    by_contra hne
    obtain ⟨t, c, hc, hsome⟩ := hback t c' hc' (Option.isSome_iff_ne_none.mpr hne)
    rw [serving?_eq_none_iff.mp hs t c hc] at hsome
    exact absurd hsome nofun
  | some p =>
    obtain ⟨t, c, hc, hp⟩ := exists_of_serving? hs
    obtain ⟨c', hc', hp'⟩ := hfwd t c p hc hp
    exact h'.serving?_eq hc' hp'

/-- **A step of a thread that leaves the loop where it is.** -/
theorem Traffic.serving?_act_of_eq (h : Traffic is m) {g : Store → Store} {ns : List Note}
    (hc : m.control? t = some c) (hmove : c.move m.store t = .act g c' ns)
    (heq : c'.serving? l = c.serving? l) : (m.act t g c').serving? l = m.serving? l := by
  refine Traffic.serving?_congr (h.advance (.act hc hmove)) (fun t' d p hd hp => ?_)
    fun t' d hd hsome => ?_
  · by_cases ht : t = t'
    · subst ht
      obtain rfl := Option.some.inj (hc.symm.trans hd)
      exact ⟨c', control?_act_self hc, heq.trans hp⟩
    · exact ⟨d, by rw [control?_act, if_neg ht, hd], hp⟩
  · rw [control?_act] at hd
    split at hd
    · obtain ⟨-, -, rfl⟩ := Option.map_eq_some_iff.mp hd
      exact ⟨t, c, hc, heq ▸ hsome⟩
    · exact ⟨t', d, hd, hsome⟩

/-- **A step of the thread that runs the loop.** -/
theorem Traffic.serving?_act (h : Traffic is m) {g : Store → Store} {ns : List Note}
    (hc : m.control? t = some c) (hmove : c.move m.store t = .act g c' ns)
    (hp : c.serving? l = some p) : (m.act t g c').serving? l = c'.serving? l := by
  have hself : (m.act t g c').control? t = some c' := control?_act_self hc
  cases hp' : c'.serving? l with
  | some p' => exact Traffic.serving?_eq (h.advance (.act hc hmove)) hself hp'
  | none =>
    refine serving?_eq_none_iff.mpr fun t' d hd => ?_
    by_cases ht : t = t'
    · subst ht
      obtain rfl := Option.some.inj (hself.symm.trans hd)
      exact hp'
    · -- nobody else runs it
      rw [control?_act, if_neg ht] at hd
      by_contra hne
      exact ht (h.serving hc hd (by rw [hp]; rfl) (Option.isSome_iff_ne_none.mpr hne)).1

/-- A thread that runs no loop makes no difference. -/
theorem serving?_spawn (home : Option ExecutorId) (hc : c.serving? l = none) :
    (m.spawn home c).serving? l = m.serving? l := by
  rw [serving?, serving?, spawn, Array.toList_push, List.findSome?_append]
  simp [hc]

/-- A call that has just been begun runs none. -/
theorem serving?_spawn_of_isNew {fr : Frame} (home : Option ExecutorId) (hnew : fr.isNew = true) :
    (m.spawn home (.running [fr])).serving? l = m.serving? l := by
  refine serving?_spawn home ?_
  rw [Control.serving?_cons, Frame.serving?_of_not_root (Frame.isRoot_of_isNew hnew)]
  rfl

/-- **What an incident is for the jobs of a loop.** -/
inductive Befalls (m : Machine) (is : List Incident) (i : Incident) (m' : Machine) (l : LoopId) :
    Prop where
  /-- Nothing. -/
  | aside (hqueue : m'.store.queue l = m.store.queue l) (hserving : m'.serving? l = m.serving? l)
    (hns : ∀ n ∈ i.notes, n.concerns l = false)
  /-- A job is appended. -/
  | pushes {j : Job} (hqueue : m'.store.queue l = m.store.queue l ++ [j])
    (hserving : m'.serving? l = m.serving? l) (hns : i.notes = [.pushed l j])
  /-- The thread that runs the loop goes on. -/
  | turns {lp lp' : Loop} {p : ServePoint} {p' : Option ServePoint} {t : ThreadId}
    {mux : Multiplexer} {ns : List Note} (hi : i = .stepped t (.acted ns))
    (hc : m.control? t = some (.running [.serve l mux p])) (found : m.store.loop? l = some lp)
    (found' : m'.store.loop? l = some lp') (hp : m.serving? l = some p)
    (hp' : m'.serving? l = p') (turn : p.Turns l lp lp' p' i.notes)
  /-- A wait ends. -/
  | waited {r : Except String Nat} (hqueue : m'.store.queue l = m.store.queue l)
    (hp : m.serving? l = some .wait) (hp' : m'.serving? l = some (.waited r))
    (hns : i.notes = [])
  /-- An executor takes the loop. -/
  | enters (hqueue : m'.store.queue l = m.store.queue l) (hp : m.serving? l = none)
    (hp' : m'.serving? l = some .announce) (hns : i.notes = []) (fresh : taken is l = 0)

/-- What the loop is does not matter to its queue. -/
theorem queue_congr {s s' : Store} {lp lp' : Loop} (found : s.loop? l = some lp)
    (found' : s'.loop? l = some lp') (h : lp'.queue = lp.queue) : s'.queue l = s.queue l := by
  rw [Store.queue_eq found, Store.queue_eq found', h]

theorem Traffic.befalls_act (h : Traffic is m) {g : Store → Store} {ns : List Note}
    (hc : m.control? t = some c) (hmove : c.move m.store t = .act g c' ns) :
    m.Befalls is (.stepped t (.acted ns)) (m.act t g c') l := by
  have hst := h.stacked t c hc
  -- whoever does not run the loop leaves it where it is
  have hstays {fr : Frame} {below : List Frame} (heq : c = .running (fr :: below))
      (hfr : ∀ mux p, fr ≠ .serve l mux p) : (m.act t g c').serving? l = m.serving? l := by
    subst heq
    exact h.serving?_act_of_eq hc hmove ((Control.goes_of_running hmove).serving? hst hfr)
  have hdeals : c.Deals l m.store (g m.store) c' ns := Control.deals_of_act hst hmove
  cases hdeals with
  | aside hloop hns hserving =>
    exact .aside (by rw [store_act, Store.queue, hloop, Store.queue])
      (h.serving?_act_of_eq hc hmove hserving) hns
  | fills found hloop =>
    exact .aside (queue_congr found hloop rfl) (hstays rfl (by simp))
      (List.forall_mem_nil _)
  | marks found hloop =>
    exact .aside (queue_congr found hloop rfl) (hstays rfl (by simp))
      (List.forall_mem_nil _)
  | raises found hloop =>
    exact .aside (queue_congr found hloop rfl) (hstays rfl (by simp))
      (List.forall_mem_nil _)
  | pushes found hloop =>
    refine .pushes ?_ (hstays rfl (by simp)) rfl
    rw [store_act, Store.queue_eq hloop, Store.queue_eq found, Array.toList_push]
  | turns found hloop hserving turn =>
    have hp := h.serving?_eq hc (Control.serving?_serve ..)
    exact .turns rfl hc found hloop hp
      ((h.serving?_act hc hmove (Control.serving?_serve ..)).trans hserving) turn

/-- Whoever is taken by an executor begins to run. -/
theorem Traffic.serving?_of_taken {q : Request} {after : q.Reply → Control} {reply : q.Reply}
    {is' : List Incident} (h' : Traffic is' (m.answer t q after reply))
    (htaken : (Incident.stepped t (.answered q reply)).taken l ≠ 0) :
    (m.answer t q after reply).serving? l = some .announce := by
  cases q with
  | execute x l' mux =>
    cases reply with
    | true =>
      have hl : l' = l := by
        by_contra hne
        exact htaken (if_neg hne)
      refine h'.serving?_eq (t := m.threads.size) (c := .running [.serve l' mux .announce]) ?_ ?_
      · rw [answer_execute, control?_spawn, size_setControl, if_pos rfl]
      · rw [hl, Control.serving?_serve]
    | false => exact absurd rfl htaken
  | _ => exact absurd rfl htaken

theorem Traffic.befalls_answer (h : Traffic is m) {q : Request} {after : q.Reply → Control}
    (reply : q.Reply) (hc : m.control? t = some c) (hmove : c.move m.store t = .ask q after) :
    m.Befalls is (.stepped t (.answered q reply)) (m.answer t q after reply) l := by
  have h' := h.advance (.answer hc hmove reply)
  have hself : (m.answer t q after reply).control? t = some (after reply) :=
    control?_answer_self reply hc
  have hqueue : (m.answer t q after reply).store.queue l = m.store.queue l := by rw [store_answer]
  rcases (Control.serving?_of_ask reply hmove : _ = c.serving? l ∨ _) with
    heq | ⟨mux, r, below, rfl, hafter⟩
  · by_cases htaken : (Incident.stepped t (.answered q reply)).taken l = 0
    · refine .aside hqueue (h'.serving?_congr (fun t' d p hd hp => ?_) fun t' d hd hsome => ?_)
        (List.forall_mem_nil _)
      · by_cases ht : t = t'
        · subst ht
          obtain rfl := Option.some.inj (hc.symm.trans hd)
          exact ⟨_, hself, heq.trans hp⟩
        · refine ⟨d, ?_, hp⟩
          rw [← hd]
          refine Advance.control?_of_ne (.answer hc hmove reply) (lt_size_of_control? hd) ?_
          rintro h' heq'
          exact ht (Incident.stepped.inj heq').1
      · rcases Advance.serving (.answer hc hmove reply) h.stacked hd hsome with ⟨d', hd', hs'⟩ | h₁
        · exact ⟨t', d', hd', hs'⟩
        · exact absurd (htaken.symm.trans h₁.2) nofun
    · -- an executor has taken the loop, for the first time
      have hle := h'.taken_le l
      rw [taken_concat] at hle
      have hfresh : taken is l = 0 := by omega
      refine .enters hqueue (serving?_eq_none_iff.mpr fun t' d hd => ?_) ?_ rfl hfresh
      · by_contra hne
        have hsome := Option.isSome_iff_ne_none.mpr hne
        have hone := (h.serving hd hd hsome hsome).2
        omega
      · exact h'.serving?_of_taken htaken
  · exact .waited (r := r) hqueue (h.serving?_eq hc (Control.serving?_serve ..))
      (h'.serving?_eq hself (by rw [hafter, Control.serving?_serve])) rfl

/-- **Every incident is one of these for every loop.** -/
theorem Traffic.befalls (h : Traffic is m) (a : m.Advance i m') : m.Befalls is i m' l := by
  cases a with
  | act hc hmove => exact h.befalls_act hc hmove
  | answer hc hmove reply => exact h.befalls_answer reply hc hmove
  | call home o =>
    exact .aside rfl (serving?_spawn home (by cases o <;> rfl)) (List.forall_mem_nil _)
  | build b =>
    refine .aside ?_ rfl (List.forall_mem_nil _)
    rw [Machine.build, Store.queue, Store.queue]
    rcases m.store.loop?_build b l with h | ⟨hnone, p, v, x, h⟩
    · rw [h]
    · rw [h, hnone]
      rfl

/-! ## What becomes of a job -/

/-- **The rest of the batch that the loop holds.** -/
def batch (m : Machine) (l : LoopId) : List Job := ((m.serving? l).map ServePoint.batch).getD []

/-- **What the loop is about to drop** at its end. -/
def leftover (m : Machine) (l : LoopId) : List Job :=
  ((m.serving? l).map ServePoint.leftover).getD []

/-- How many jobs the loop has begun since it last said so. -/
def unreported (m : Machine) (l : LoopId) : Nat :=
  ((m.serving? l).map ServePoint.unreported).getD 0

/-- **The whereabouts of the jobs of a loop.** -/
structure Delivers (m : Machine) (is : List Incident) (l : LoopId) : Prop where
  order : pushed is l
    = begun is l ++ m.batch l ++ (dropped is l ++ m.leftover l) ++ m.store.queue l
  count : reported is l + m.unreported l = (begun is l).length
  undropped : (∀ p, m.serving? l = some p → p.last? = none) →
    (m.serving? l = none → taken is l = 0) → dropped is l = []

/-- Nothing becomes of any job. -/
theorem Delivers.calm (hd : m.Delivers is l) (hlogs : SameLogs is (is ++ [i]) l)
    (hqueue : m'.store.queue l = m.store.queue l) (hbatch : m'.batch l = m.batch l)
    (hleftover : m'.leftover l = m.leftover l) (hunreported : m'.unreported l = m.unreported l)
    (hundropped : (∀ p, m'.serving? l = some p → p.last? = none) →
      (m'.serving? l = none → taken (is ++ [i]) l = 0) → dropped is l = []) :
    m'.Delivers (is ++ [i]) l := by
  refine ⟨?_, ?_, fun hp hnone => hlogs.dropped.trans (hundropped hp hnone)⟩
  · rw [hlogs.pushed, hlogs.begun, hlogs.dropped, hqueue, hbatch, hleftover]
    exact hd.order
  · rw [hlogs.reported, hlogs.begun, hunreported]
    exact hd.count

theorem taken_of_concat (h : taken (is ++ [i]) l = 0) : taken is l = 0 := by
  rw [taken_concat] at h
  omega

theorem Delivers.pushes (hd : m.Delivers is l) {j : Job}
    (hqueue : m'.store.queue l = m.store.queue l ++ [j]) (hserving : m'.serving? l = m.serving? l)
    (hns : i.notes = [.pushed l j]) : m'.Delivers (is ++ [i]) l := by
  have hpushed : pushed (is ++ [i]) l = pushed is l ++ [j] := by simp [hns]
  have hbegun : begun (is ++ [i]) l = begun is l := by simp [hns]
  have hdropped : dropped (is ++ [i]) l = dropped is l := by simp [hns]
  have hreported : reported (is ++ [i]) l = reported is l := by simp [hns]
  refine ⟨?_, ?_, fun hp hnone => ?_⟩
  · rw [hpushed, hbegun, hdropped, hqueue, batch, leftover, hserving, hd.order, batch, leftover]
    simp only [List.append_assoc]
  · rw [hreported, hbegun, unreported, hserving]
    exact hd.count
  · rw [hdropped]
    exact hd.undropped (hserving ▸ hp) fun hs => taken_of_concat (hnone (hserving.trans hs))

theorem Delivers.turns (hd : m.Delivers is l) {lp lp' : Loop} {p : ServePoint}
    {p' : Option ServePoint} (found : m.store.loop? l = some lp)
    (found' : m'.store.loop? l = some lp') (hp : m.serving? l = some p)
    (hp' : m'.serving? l = p') (turn : p.Turns l lp lp' p' i.notes) (htaken : taken is l = 1) :
    m'.Delivers (is ++ [i]) l := by
  have horder := hd.order
  have hcount := hd.count
  -- nothing has been dropped before the loop has come to its end
  have hundropped (hlast : p.last? = none) : dropped is l = [] := by
    refine hd.undropped (fun p₁ h₁ => ?_) fun hnone => absurd (hp.symm.trans hnone) nofun
    obtain rfl := Option.some.inj (hp.symm.trans h₁)
    exact hlast
  simp only [batch, leftover, unreported, hp, Option.map_some, Option.getD_some,
    Store.queue_eq found] at horder hcount
  generalize hns : i.notes = ns at turn
  cases turn with
  | @passes p p' _ hcalm haside =>
    refine hd.calm (.of_aside (hns ▸ haside)) (queue_congr found found' rfl) ?_ ?_ ?_ ?_
    · rw [batch, hp', batch, hp]
      exact hcalm.batch
    · rw [leftover, hp', leftover, hp]
      exact hcalm.leftover
    · rw [unreported, hp', unreported, hp]
      exact hcalm.unreported
    · intro hlast _
      exact hundropped (hcalm.last ▸ hlast p' hp')
  | takes =>
    have hnil := hundropped rfl
    refine ⟨?_, ?_, fun _ _ => ?_⟩
    · simpa [hns, batch, leftover, hp', Store.queue_eq found', hnil] using horder
    · simpa [hns, unreported, hp'] using hcount
    · simpa [hns] using hnil
  | @begins j rest n =>
    have hnil := hundropped rfl
    refine ⟨?_, ?_, fun _ _ => ?_⟩
    · simpa [hns, batch, leftover, hp', Store.queue_eq found'] using horder
    · simp [hns, unreported, hp'] at hcount ⊢
      omega
    · simpa [hns] using hnil
  | @reports n =>
    have hnil := hundropped rfl
    refine ⟨?_, ?_, fun _ _ => ?_⟩
    · simpa [hns, batch, leftover, hp', Store.queue_eq found'] using horder
    · simpa [hns, unreported, hp'] using hcount
    · simpa [hns] using hnil
  | takesRest =>
    have hnil := hundropped rfl
    refine ⟨?_, ?_, fun _ _ => ?_⟩
    · simpa [hns, batch, leftover, hp', Store.queue_eq found', hnil] using horder
    · simpa [hns, unreported, hp'] using hcount
    · simpa [hns] using hnil
  | @drops j rest n =>
    refine ⟨?_, ?_, fun hlast _ => absurd (hlast _ hp') nofun⟩
    · simpa [hns, batch, leftover, hp', Store.queue_eq found'] using horder
    · simpa [hns, unreported, hp'] using hcount
  | exits =>
    refine ⟨?_, ?_, fun hlast _ => absurd (hlast _ hp') nofun⟩
    · simpa [hns, batch, leftover, hp', Store.queue_eq found'] using horder
    · simpa [hns, unreported, hp'] using hcount
  | ends =>
    refine ⟨?_, ?_, fun _ hnone => ?_⟩
    · simpa [hns, batch, leftover, hp', Store.queue_eq found'] using horder
    · simpa [hns, unreported, hp'] using hcount
    · -- whoever ran the loop was taken by an executor
      have hzero := taken_of_concat (hnone hp')
      omega

/-- **Along all traffic no job is lost, none comes twice, and none overtakes
another.** -/
theorem Traffic.delivers (h : Traffic is m) (l : LoopId) : m.Delivers is l := by
  refine h.induction (motive := fun is m => m.Delivers is l) ⟨rfl, rfl, fun _ _ => rfl⟩
    (fun {is m i m'} h ih a => ?advance) (fun {is m fr} home _ ih hnew => ?use)
  case use =>
    have hserving := serving?_spawn_of_isNew (m := m) (l := l) home hnew
    refine ⟨?_, ?_, ?_⟩
    · rw [batch, leftover, hserving]
      exact ih.order
    · rw [unreported, hserving]
      exact ih.count
    · rw [hserving]
      exact ih.undropped
  case advance =>
    cases h.befalls a with
    | aside hqueue hserving hns =>
      refine ih.calm (.of_aside hns) hqueue (by rw [batch, hserving, batch])
        (by rw [leftover, hserving, leftover]) (by rw [unreported, hserving, unreported]) ?_
      rw [hserving]
      exact fun hp hnone => ih.undropped hp fun hs => taken_of_concat (hnone hs)
    | pushes hqueue hserving hns => exact ih.pushes hqueue hserving hns
    | turns _ _ found found' hp hp' turn =>
      exact ih.turns found found' hp hp' turn (h.taken_of_serving? hp)
    | waited hqueue hp hp' hns =>
      refine ih.calm (.of_aside (hns ▸ List.forall_mem_nil _)) hqueue (by simp [batch, hp, hp'])
        (by simp [leftover, hp, hp'])
        (by simp [unreported, hp, hp']) fun _ _ => ?_
      refine ih.undropped (fun p h => ?_) fun hnone => absurd (hp.symm.trans hnone) nofun
      obtain rfl := Option.some.inj (hp.symm.trans h)
      rfl
    | enters hqueue hp hp' hns fresh =>
      refine ih.calm (.of_aside (hns ▸ List.forall_mem_nil _)) hqueue (by simp [batch, hp, hp'])
        (by simp [leftover, hp, hp'])
        (by simp [unreported, hp, hp']) fun _ _ => ?_
      exact ih.undropped (fun p h => absurd (hp.symm.trans h) nofun) fun _ => fresh

/-! ## The last look into the queue -/

/-- **The loop has looked into its queue for the last time**, and these jobs had been
appended to it before. -/
def LookedLast (m : Machine) (is : List Incident) (l : LoopId) (js : List Job) : Prop :=
  ∃ is₁ m₁ t mux m₂ is₂, Traffic is₁ m₁
    ∧ m₁.control? t = some (.running [.serve l mux .takeRest])
    ∧ m₁.Advance (.stepped t (.acted [])) m₂ ∧ m₂.Unfolds is₂ m
    ∧ is = is₁ ++ [.stepped t (.acted [])] ++ is₂ ∧ pushed is₁ l = js

theorem LookedLast.advance {js : List Job} (h : m.LookedLast is l js) (a : m.Advance i m') :
    m'.LookedLast (is ++ [i]) l js := by
  obtain ⟨is₁, m₁, t, mux, m₂, is₂, h₁, hc, ha, h₂, rfl, hjs⟩ := h
  exact ⟨is₁, m₁, t, mux, m₂, is₂ ++ [i], h₁, hc, ha, h₂.advance a, by simp, hjs⟩

theorem LookedLast.use {js : List Job} (h : m.LookedLast is l js) (home : Option ExecutorId)
    {fr : Frame} (hnew : fr.isNew = true) : (m.spawn home (.running [fr])).LookedLast is l js := by
  obtain ⟨is₁, m₁, t, mux, m₂, is₂, h₁, hc, ha, h₂, his, hjs⟩ := h
  exact ⟨is₁, m₁, t, mux, m₂, is₂, h₁, hc, ha, h₂.use home hnew, his, hjs⟩

/-- **What a loop that ends does with the jobs that it has found.** -/
structure Concludes (m : Machine) (is : List Incident) (l : LoopId) : Prop where
  ending : ∀ {p n}, m.serving? l = some p → p.last? = some n →
    m.LookedLast is l (begun is l ++ dropped is l ++ m.leftover l)
      ∧ (dropped is l ++ m.leftover l).length = n
  ended : ∀ {n}, .said (.exiting l n) ∈ is.flatMap Incident.notes →
    m.serving? l = none ∧ taken is l = 1 ∧ m.LookedLast is l (begun is l ++ dropped is l)
      ∧ (dropped is l).length = n

/-- What was said before, or has just been said. -/
theorem exiting_of_concat {n : Nat}
    (h : .said (.exiting l n) ∈ (is ++ [i]).flatMap Incident.notes) :
    .said (.exiting l n) ∈ is.flatMap Incident.notes ∨ .said (.exiting l n) ∈ i.notes := by
  rwa [List.flatMap_append, List.mem_append, List.flatMap_singleton] at h

theorem Concludes.keep (hcon : m.Concludes is l) (a : m.Advance i m')
    (hbegun : begun (is ++ [i]) l = begun is l) (hdropped : dropped (is ++ [i]) l = dropped is l)
    (hserving : m'.serving? l = m.serving? l) (hle : taken (is ++ [i]) l ≤ 1)
    (hns : ∀ n, .said (.exiting l n) ∉ i.notes) : m'.Concludes (is ++ [i]) l := by
  constructor
  · intro p n hp hlast
    rw [hbegun, hdropped, leftover, hserving]
    obtain ⟨hlook, hlength⟩ := hcon.ending (hserving ▸ hp) hlast
    exact ⟨hlook.advance a, hlength⟩
  · intro n hn
    rw [hbegun, hdropped, hserving]
    obtain ⟨hnone, htaken, hlook, hlength⟩ :=
      hcon.ended ((exiting_of_concat hn).resolve_right (hns n))
    refine ⟨hnone, ?_, hlook.advance a, hlength⟩
    rw [taken_concat] at hle ⊢
    omega

/-- A loop that somebody runs has not said that it ends. -/
theorem Concludes.exiting_notMem (hcon : m.Concludes is l) (hp : m.serving? l = some p) (n : Nat) :
    .said (.exiting l n) ∉ is.flatMap Incident.notes :=
  fun hn => absurd (hp.symm.trans (hcon.ended hn).1) nofun

/-- A loop that is run, and has not looked for the last time. -/
theorem Concludes.of_last?_eq_none (hcon : m.Concludes is l) (hp : m.serving? l = some p)
    {p' : ServePoint} (hp' : m'.serving? l = some p') (hlast : p'.last? = none)
    (hns : ∀ n, .said (.exiting l n) ∉ i.notes) : m'.Concludes (is ++ [i]) l where
  ending h hsome := by
    obtain rfl := Option.some.inj (hp'.symm.trans h)
    exact absurd (hlast.symm.trans hsome) nofun
  ended hn := by
    rcases exiting_of_concat hn with hn | hn
    · exact absurd hn (hcon.exiting_notMem hp _)
    · exact absurd hn (hns _)

/-- A loop that is run, and has looked for the last time. -/
theorem Concludes.of_last? (hcon : m.Concludes is l) (hp : m.serving? l = some p)
    {p' : ServePoint} {n : Nat} (hp' : m'.serving? l = some p') (hlast : p'.last? = some n)
    (hns : ∀ n, .said (.exiting l n) ∉ i.notes)
    (hlook : m'.LookedLast (is ++ [i]) l
      (begun (is ++ [i]) l ++ dropped (is ++ [i]) l ++ m'.leftover l))
    (hlength : (dropped (is ++ [i]) l ++ m'.leftover l).length = n) :
    m'.Concludes (is ++ [i]) l where
  ending h hsome := by
    obtain rfl := Option.some.inj (hp'.symm.trans h)
    obtain rfl := Option.some.inj (hlast.symm.trans hsome)
    exact ⟨hlook, hlength⟩
  ended hn := by
    rcases exiting_of_concat hn with hn | hn
    · exact absurd hn (hcon.exiting_notMem hp _)
    · exact absurd hn (hns _)

theorem Concludes.turns (hcon : m.Concludes is l) (h : Traffic is m) {ns : List Note}
    (a : m.Advance (.stepped t (.acted ns)) m') {lp lp' : Loop} {p : ServePoint}
    {p' : Option ServePoint} {mux : Multiplexer}
    (hc : m.control? t = some (.running [.serve l mux p])) (found : m.store.loop? l = some lp)
    (hp : m.serving? l = some p) (hp' : m'.serving? l = p') (turn : p.Turns l lp lp' p' ns) :
    m'.Concludes (is ++ [.stepped t (.acted ns)]) l := by
  have horder := (h.delivers l).order
  cases turn with
  | @passes p p' _ hcalm haside =>
    have hlogs : SameLogs is (is ++ [.stepped t (.acted ns)]) l := .of_aside haside
    have hns (n : Nat) : .said (.exiting l n) ∉ ns := fun hn => by
      simpa [Note.concerns] using haside _ hn
    cases hlast : p.last? with
    | none => exact hcon.of_last?_eq_none hp hp' (hcalm.last.trans hlast) hns
    | some n =>
      obtain ⟨hlook, hlength⟩ := hcon.ending hp hlast
      have hleftover : m'.leftover l = m.leftover l := by
        rw [leftover, hp', leftover, hp]
        exact hcalm.leftover
      refine hcon.of_last? hp hp' (hcalm.last.trans hlast) hns ?_ ?_
      · rw [hlogs.begun, hlogs.dropped, hleftover]
        exact hlook.advance a
      · rwa [hlogs.dropped, hleftover]
  | takes => exact hcon.of_last?_eq_none hp hp' rfl (by simp [Incident.notes])
  | begins => exact hcon.of_last?_eq_none hp hp' rfl (by simp [Incident.notes])
  | reports => exact hcon.of_last?_eq_none hp hp' rfl (by simp [Incident.notes])
  | takesRest =>
    -- nothing has been dropped yet, so what was appended is begun or queued
    have hnil : dropped is l = [] := by
      refine (h.delivers l).undropped (fun p h => ?_)
        fun hnone => by cases hp.symm.trans hnone
      obtain rfl := Option.some.inj (hp.symm.trans h)
      rfl
    have hleftover : m'.leftover l = lp.queue.toList := by simp [leftover, hp']
    refine hcon.of_last? hp hp' rfl (by simp [Incident.notes]) ?_ ?_
    · refine ⟨is, m, t, mux, m', [], h, hc, a, .refl, (List.append_nil _).symm, ?_⟩
      rw [hleftover]
      simpa [Incident.notes, batch, leftover, hp, hnil, Store.queue_eq found] using horder
    · simp [Incident.notes, hleftover, hnil]
  | @drops j rest n =>
    obtain ⟨hlook, hlength⟩ := hcon.ending hp rfl
    have hold : m.leftover l = j :: rest := by simp [leftover, hp]
    have hnew : m'.leftover l = rest := by simp [leftover, hp']
    rw [hold] at hlook hlength
    refine hcon.of_last? hp hp' rfl (by simp [Incident.notes]) ?_ ?_
    · simpa [Incident.notes, hnew] using hlook.advance a
    · simpa [Incident.notes, hnew] using hlength
  | exits =>
    obtain ⟨hlook, hlength⟩ := hcon.ending hp rfl
    have hold : m.leftover l = [] := by simp [leftover, hp]
    have hnew : m'.leftover l = [] := by simp [leftover, hp']
    rw [hold] at hlook hlength
    refine hcon.of_last? hp hp' rfl (by simp [Incident.notes]) ?_ ?_
    · simpa [Incident.notes, hnew] using hlook.advance a
    · simpa [Incident.notes, hnew] using hlength
  | @ends n =>
    obtain ⟨hlook, hlength⟩ := hcon.ending hp rfl
    have hold : m.leftover l = [] := by simp [leftover, hp]
    rw [hold] at hlook hlength
    refine ⟨fun h => (by cases hp'.symm.trans h), fun hn => ⟨hp', ?_, ?_, ?_⟩⟩
    · simpa [Incident.taken] using h.taken_of_serving? hp
    · simpa [Incident.notes] using hlook.advance a
    · rcases exiting_of_concat hn with hn | hn
      · exact absurd hn (hcon.exiting_notMem hp _)
      · simp [Incident.notes] at hn
        subst hn
        simpa [Incident.notes] using hlength

/-- **In all traffic a loop that ends drops what it has found**, and nothing else. -/
theorem Traffic.concludes (h : Traffic is m) (l : LoopId) : m.Concludes is l := by
  refine h.induction (motive := fun is m => m.Concludes is l) ⟨by rintro _ _ ⟨⟩, by rintro _ ⟨⟩⟩
    (fun {is m i m'} h ih a => ?advance) (fun {is m fr} home h ih hnew => ?use)
  case use =>
    have hserving := serving?_spawn_of_isNew (m := m) (l := l) home hnew
    constructor
    · intro p n hp hlast
      rw [leftover, hserving]
      obtain ⟨hlook, hlength⟩ := ih.ending (hserving ▸ hp) hlast
      exact ⟨hlook.use home hnew, hlength⟩
    · intro n hn
      rw [hserving]
      obtain ⟨hnone, htaken, hlook, hlength⟩ := ih.ended hn
      exact ⟨hnone, htaken, hlook.use home hnew, hlength⟩
  case advance =>
    have hle := (h.advance a).taken_le l
    cases h.befalls a with
    | aside hqueue hserving hns =>
      have hlogs : SameLogs is (is ++ [i]) l := .of_aside hns
      refine ih.keep a hlogs.begun hlogs.dropped hserving hle fun n hn => ?_
      exact absurd (hns _ hn) (by simp [Note.concerns])
    | pushes hqueue hserving hns =>
      exact ih.keep a (by simp [hns]) (by simp [hns]) hserving hle (by simp [hns])
    | turns hi hc found found' hp hp' turn =>
      subst hi
      exact ih.turns h a hc found hp hp' turn
    | waited hqueue hp hp' hns => exact ih.of_last?_eq_none hp hp' rfl (by simp [hns])
    | enters hqueue hp hp' hns fresh =>
      constructor
      · intro p n hp hlast
        obtain rfl := Option.some.inj (hp'.symm.trans hp)
        cases hlast
      · -- a loop that has ended is not taken again
        intro n hn
        rcases exiting_of_concat hn with hn | hn
        · cases fresh.symm.trans (ih.ended hn).2.1
        · simp [hns] at hn

/-! ## In order, and once -/

/-- **What becomes of the jobs of a loop**, in all traffic: whoever submits them, however
many do so, and whatever the loop is doing in the meantime.

The jobs that have ever been appended are, in this order, those that the loop has
begun, the rest of its batch, those that it has dropped at its end or is about to
drop, and those in its queue. When the loop says that it ends, and how many jobs it
has dropped, these are the last of those that had been appended before it looked
into its queue for the last time, and with those that it has said to have run they
are all of these. A submission that fails has appended nothing, and one that
succeeds its job, once. -/
theorem Traffic.delivery (h : Traffic is m) (l : LoopId) :
    pushed is l = begun is l ++ m.batch l ++ (dropped is l ++ m.leftover l) ++ m.store.queue l
      ∧ (∀ n, .said (.exiting l n) ∈ is.flatMap Incident.notes →
        m.batch l = [] ∧ m.leftover l = [] ∧ (dropped is l).length = n
          ∧ ∃ js, m.LookedLast is l js ∧ js = begun is l ++ dropped is l
            ∧ reported is l + n = js.length)
      ∧ ∀ {is₀ m₀ t j below is' m'}, Traffic is₀ m₀ →
        m₀.Course t (.submit l j .start) below is' m' →
        ∃ r, m'.control? t = some (.back below r)
          ∧ (r = .ok () → (notesBy t is').filter Note.isPush = [.pushed l j])
          ∧ ∀ e, r = .error e → (notesBy t is').filter Note.isPush = [] := by
  have hd := h.delivers l
  refine ⟨hd.order, fun n hn => ?_, fun h₀ hcourse => ?_⟩
  · obtain ⟨hnone, -, hlook, hlength⟩ := (h.concludes l).ended hn
    have hcount := hd.count
    refine ⟨by rw [batch, hnone]; rfl, by rw [leftover, hnone]; rfl, hlength, _, hlook, rfl, ?_⟩
    rw [List.length_append, hlength, ← hcount, unreported, hnone]
    rfl
  · obtain ⟨r, hr, hends⟩ := hcourse.submitEnds h₀
    exact ⟨r, hr, hends.pushes⟩

end Machine

namespace Scene

/-- A worker runs one job. Somebody who looked at the worker before it was told to end
appends another one after it has run its last batch, and the worker drops this. -/
def drained : Scene :=
  let w : LoopId := ⟨0, .worker 0⟩
  let made := ((empty.build .small).call (.create 0)).turn 0 Machine.granted 40
  let queued := (made.use (.submit w (.registration 0) .start) rfl).turn 2 Machine.granted 40
  let busy := queued.turn 1 Machine.granted 6
  let late := (busy.use (.submit w (.attempt 0 "127.0.0.1:9") .start) rfl).turn 3 Machine.granted 7
  let told := (late.use (.signal w .raise) rfl).turn 4 Machine.granted 20
  ((told.turn 1 Machine.granted 7).turn 3 Machine.granted 9).turn 1 Machine.granted 20

end Scene

/-- It has run one job and dropped one, and a submission that comes now is refused. -/
theorem delivery_drained :
    let m := Scene.drained.machine
    let is := Scene.drained.incidents
    let w : LoopId := ⟨0, .worker 0⟩
    let m₀ := m.spawn none (.running [.submit w (.registration 0) .start])
    pushed is w = [.registration 0, .attempt 0 "127.0.0.1:9"] ∧ begun is w = [.registration 0]
      ∧ dropped is w = [.attempt 0 "127.0.0.1:9"]
      ∧ pushed is w = begun is w ++ m.batch w ++ (dropped is w ++ m.leftover w) ++ m.store.queue w
      ∧ (∃ js, m.LookedLast is w js ∧ reported is w + 1 = js.length)
      ∧ ∃ is' m', m₀.Course 5 (.submit w (.registration 0) .start) [] is' m'
        ∧ m'.control? 5 = some (.finished (.returned (.error .released)))
        ∧ (notesBy 5 is').filter Note.isPush = [] := by
  intro m is w m₀
  have ht : Machine.Traffic is m := Scene.drained.traffic
  obtain ⟨horder, hexit, hsubmit⟩ := ht.delivery w
  refine ⟨by decide +kernel, by decide +kernel, by decide +kernel, horder, ?_, ?_⟩
  · obtain ⟨-, -, -, js, hlook, -, hcount⟩ := hexit 1 (by decide +kernel)
    exact ⟨js, hlook, hcount⟩
  · let m₁ := m₀.perform Machine.granted 5 6
    have hperformed : ∃ is', m₀.Course 5 (.submit w (.registration 0) .start) [] is' m₁ :=
      Machine.exists_course (by decide +kernel) 6 (by decide +kernel) (by decide +kernel)
    obtain ⟨is', hcourse⟩ := hperformed
    obtain ⟨r, hr, -, herror⟩ := hsubmit (ht.unfolds (.use .refl none rfl)) hcourse
    have hreturned : m₁.control? 5 = some (.finished (.returned (.error .released))) := by
      decide +kernel
    refine ⟨is', _, hcourse, hreturned, herror .released ?_⟩
    exact Outcome.returned.inj (Control.finished.inj (Option.some.inj (hr.symm.trans hreturned)))

end EndpointControl
