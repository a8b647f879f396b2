import EndpointControl.Proofs.Sharing

/-!
# The course of a call

A call that starts a loop, submits to it or tells it to end is a stretch of the
history: from the point where the procedure begins until it has returned to what is
below it (`Machine.During`). All the while others may do what they like. What the
thread itself is told (`answersTo`) and leaves behind (`notesBy`) decides how the
call ends, and conversely: a start fails because opening failed exactly if its own
opening did, because the executor refused exactly if that refused it, and
otherwise because the loop has been told to end (`StartEnds`). A submission appends
its job once if it succeeds, and nothing if it fails (`SubmitEnds`).
-/

namespace EndpointControl

/-! ## Calls -/

/-- What has been asked, and how it was answered. -/
abbrev Answer := (q : Request) × q.Reply

/-- What a thread is told in an incident. -/
def Incident.answersTo (t : ThreadId) : Incident → List Answer
  | .stepped t' (.answered q reply) => if t' = t then [⟨q, reply⟩] else []
  | _ => []

/-- What a thread leaves behind in an incident. -/
def Incident.notesBy (t : ThreadId) : Incident → List Note
  | .stepped t' (.acted ns) => if t' = t then ns else []
  | _ => []

/-- A thread is told nothing in what it does not do itself. -/
theorem Incident.answersTo_of_ne {i : Incident} {t : ThreadId} (h : ∀ hap, i ≠ .stepped t hap) :
    i.answersTo t = [] := by
  cases i with
  | stepped t' hap =>
    cases hap with
    | acted => rfl
    | answered q reply => exact if_neg fun heq => h _ (by rw [heq])
  | _ => rfl

theorem Incident.notesBy_of_ne {i : Incident} {t : ThreadId} (h : ∀ hap, i ≠ .stepped t hap) :
    i.notesBy t = [] := by
  cases i with
  | stepped t' hap =>
    cases hap with
    | acted => exact if_neg fun heq => h _ (by rw [heq])
    | answered => rfl
  | _ => rfl

/-- **What the thread has been told.** -/
def answersTo (t : ThreadId) (is : List Incident) : List Answer :=
  is.flatMap (Incident.answersTo t)

/-- **What the thread has left behind.** -/
def notesBy (t : ThreadId) (is : List Incident) : List Note := is.flatMap (Incident.notesBy t)

@[simp] theorem answersTo_nil (t : ThreadId) : answersTo t [] = [] := rfl

@[simp] theorem notesBy_nil (t : ThreadId) : notesBy t [] = [] := rfl

@[simp] theorem answersTo_concat (t : ThreadId) (is : List Incident) (i : Incident) :
    answersTo t (is ++ [i]) = answersTo t is ++ i.answersTo t := by
  simp [answersTo]

@[simp] theorem notesBy_concat (t : ThreadId) (is : List Incident) (i : Incident) :
    notesBy t (is ++ [i]) = notesBy t is ++ i.notesBy t := by
  simp [notesBy]

namespace Machine

/-- **The thread is in the midst of a call** that will return to these procedures. -/
def InCall (m : Machine) (t : ThreadId) (below : List Frame) : Prop :=
  ∃ fr above, m.control? t = some (.running (fr :: (above ++ below)))

/-- **What happens while a thread is in the midst of a call**, up to its return. -/
inductive During (t : ThreadId) (below : List Frame) (m : Machine) :
    List Incident → Machine → Prop where
  /-- Nothing happens. -/
  | refl : During t below m [] m
  /-- One thing more happens before the call has returned. -/
  | advance {is : List Incident} {m' m'' : Machine} {i : Incident} (h : During t below m is m')
    (busy : m'.InCall t below) (a : m'.Advance i m'') : During t below m (is ++ [i]) m''
  /-- Somebody calls a procedure. -/
  | use {is : List Incident} {m' : Machine} (h : During t below m is m') (home : Option ExecutorId)
    {fr : Frame} (hnew : fr.isNew = true) :
    During t below m is (m'.spawn home (.running [fr]))

variable {m m' : Machine} {is is₀ : List Incident} {t : ThreadId} {below : List Frame}

theorem During.unfolds (h : m.During t below is m') : m.Unfolds is m' := by
  induction h with
  | refl => exact .refl
  | advance _ _ a ih => exact ih.advance a
  | use _ home hnew ih => exact ih.use home hnew

/-- **Induction over the course of a call.** What holds of the thread, of what it has
been told and of what it has left behind outlasts what others do, and only the steps
of the thread itself have to be looked at. -/
theorem During.invariant {P : Store → Control → List Answer → List Note → Prop}
    (grows : ∀ {s s' c as ns}, s.Grows s' → P s c as ns → P s' c as ns)
    (act : ∀ {s fr above c' g as ns ns'}, P s (.running (fr :: (above ++ below))) as ns →
      (Control.running (fr :: (above ++ below))).Stacked →
      (Control.running (fr :: (above ++ below))).Aware s →
      (Control.running (fr :: (above ++ below))).move s t = .act g c' ns' →
      P (g s) c' as (ns ++ ns'))
    (ask : ∀ {s fr above q as ns} {after : q.Reply → Control} (reply : q.Reply),
      P s (.running (fr :: (above ++ below))) as ns →
      (Control.running (fr :: (above ++ below))).move s t = .ask q after →
      P s (after reply) (as ++ [⟨q, reply⟩]) ns)
    (ht : Traffic is₀ m) {c : Control} (hc : m.control? t = some c) (hstart : P m.store c [] [])
    (h : m.During t below is m') :
    ∃ c', m'.control? t = some c' ∧ P m'.store c' (answersTo t is) (notesBy t is) := by
  induction h with
  | refl => exact ⟨c, hc, hstart⟩
  | @use is m' h home fr hnew ih =>
    obtain ⟨c', hc', hP⟩ := ih
    exact ⟨c', control?_spawn_of_eq_some hc' .., hP⟩
  | @advance is m' m'' i h busy a ih =>
    obtain ⟨c', hc', hP⟩ := ih
    have htr := ht.unfolds h.unfolds
    by_cases hi : ∃ h, i = .stepped t h
    · -- the thread itself moves
      obtain ⟨hap, rfl⟩ := hi
      obtain ⟨fr, above, hbusy⟩ := busy
      obtain rfl := Option.some.inj (hbusy.symm.trans hc')
      cases a with
      | @act _ _ _ _ ns hc'' hmove =>
        obtain rfl := Option.some.inj (hc'.symm.trans hc'')
        refine ⟨_, control?_act_self hc', ?_⟩
        have hanswers : (Incident.stepped t (.acted ns)).answersTo t = [] := rfl
        have hnotes : (Incident.stepped t (.acted ns)).notesBy t = ns := if_pos rfl
        rw [answersTo_concat, notesBy_concat, hanswers, hnotes, List.append_nil]
        exact act hP (htr.stacked t _ hc') (htr.aware t _ hc') hmove
      | @answer _ _ q _ hc'' hmove reply =>
        obtain rfl := Option.some.inj (hc'.symm.trans hc'')
        refine ⟨_, control?_answer_self reply hc', ?_⟩
        have hanswers : (Incident.stepped t (.answered q reply)).answersTo t = [⟨q, reply⟩] :=
          if_pos rfl
        have hnotes : (Incident.stepped t (.answered q reply)).notesBy t = [] := rfl
        rw [answersTo_concat, notesBy_concat, hanswers, hnotes, List.append_nil, store_answer]
        exact ask reply hP hmove
    · have hne : ∀ h, i ≠ .stepped t h := fun h heq => hi ⟨h, heq⟩
      refine ⟨c', by rw [a.control?_of_ne (lt_size_of_control? hc') hne, hc'], ?_⟩
      rw [answersTo_concat, notesBy_concat, Incident.answersTo_of_ne hne,
        Incident.notesBy_of_ne hne, List.append_nil, List.append_nil]
      exact grows a.grows hP

end Machine

/-! ## How a start ends -/

/-- **How a loop comes by its multiplexer in a start**: it has one, or one is opened
for it. -/
inductive Opens (l : LoopId) (m : Multiplexer) : List Answer → Prop where
  /-- It has one. -/
  | found : Opens l m []
  /-- One is opened. -/
  | opened {p : Provider} : Opens l m [⟨.openMultiplexer l p, .ok m⟩]

/-- **How a start ends**, given all that it has been told. -/
inductive StartEnds (s : Store) (l : LoopId) : Except Failure Unit → List Answer → Prop where
  /-- The loop has been started before. -/
  | already (h : s.Started l) : StartEnds s l (.ok ()) []
  /-- The loop has been told to end. -/
  | told (h : s.ShutDown l) : StartEnds s l (.error .released) []
  /-- Opening a multiplexer has failed. -/
  | unopened {p : Provider} {cause : String} :
    StartEnds s l (.error (.unopened p.identity cause)) [⟨.openMultiplexer l p, .error cause⟩]
  /-- The executor has refused the loop. -/
  | refused {x : ExecutorId} {m : Multiplexer} {as : List Answer} (hm : Opens l m as) :
    StartEnds s l (.error (.refused l.seat.role)) (as ++ [⟨.execute x l m, false⟩])
  /-- The executor has taken the loop. -/
  | started {x : ExecutorId} {m : Multiplexer} {as : List Answer} (h : s.Started l)
    (hm : Opens l m as) : StartEnds s l (.ok ()) (as ++ [⟨.execute x l m, true⟩])

/-- **What a start has been told** when it is at this point. -/
def StartPoint.Told (s : Store) (l : LoopId) (as : List Answer) : StartPoint → Prop
  | .fillSlot m => ∃ p, as = [⟨.openMultiplexer l p, .ok m⟩]
  | .execute m => Opens l m as
  | .mark => ∃ x m as', Opens l m as' ∧ as = as' ++ [⟨.execute x l m, true⟩]
  | .announce => s.Started l ∧ ∃ x m as', Opens l m as' ∧ as = as' ++ [⟨.execute x l m, true⟩]
  | .leave r => StartEnds s l r as
  | _ => as = []

/-- **A start is under way, or has returned.** -/
def Starts (s : Store) (l : LoopId) (below : List Frame) (c : Control) (as : List Answer) : Prop :=
  (∃ p, c = .running (.start l p :: below) ∧ p.Told s l as)
    ∨ ∃ r, c = .back below r ∧ StartEnds s l r as

/-- The note says that a job was appended to a queue. -/
def Note.isPush : Note → Bool
  | .pushed .. => true
  | _ => false

section Procedures

variable {s s' : Store} {t : ThreadId} {l : LoopId} {below : List Frame} {g : Store → Store}
  {c : Control} {as : List Answer} {ns : List Note} {r : Except Failure Unit}

theorem StartEnds.mono (h : StartEnds s l r as) (hs : s.Grows s') : StartEnds s' l r as := by
  cases h with
  | already h => exact .already (hs.started h)
  | told h => exact .told (hs.shutDown h)
  | unopened => exact .unopened
  | refused hm => exact .refused hm
  | started h hm => exact .started (hs.started h) hm

theorem StartPoint.Told.mono {p : StartPoint} (h : p.Told s l as) (hs : s.Grows s') :
    p.Told s' l as := by
  cases p
  case announce => exact ⟨hs.started h.1, h.2⟩
  case leave r => exact StartEnds.mono h hs
  all_goals exact h

theorem Starts.mono (h : Starts s l below c as) (hs : s.Grows s') : Starts s' l below c as := by
  rcases h with ⟨p, hc, hp⟩ | ⟨r, hc, hr⟩
  · exact .inl ⟨p, hc, hp.mono hs⟩
  · exact .inr ⟨r, hc, hr.mono hs⟩

/-- **A step of a start** goes on with it, or returns as it has to. -/
theorem StartPoint.starts_of_act {p : StartPoint} {lp : Loop} (found : s.loop? l = some lp)
    (h : p.move s t below l lp = .act g c ns) (hp : p.Told s l as) :
    Starts (g s) l below c as ∧ ns.filter Note.isPush = [] := by
  cases p <;> simp [StartPoint.move] at h
  case readShutDown =>
    obtain ⟨rfl, rfl, rfl⟩ := h
    obtain rfl : as = [] := hp
    split
    · exact ⟨.inr ⟨_, rfl, .told ⟨lp, found, ‹_›⟩⟩, rfl⟩
    · exact ⟨.inl ⟨_, rfl, rfl⟩, rfl⟩
  case readStarted =>
    obtain ⟨rfl, rfl, rfl⟩ := h
    obtain rfl : as = [] := hp
    split
    · exact ⟨.inr ⟨_, rfl, .already ⟨lp, found, ‹_›⟩⟩, rfl⟩
    · exact ⟨.inl ⟨_, rfl, rfl⟩, rfl⟩
  case takeSlot =>
    obtain ⟨-, rfl, rfl, rfl⟩ := h
    exact ⟨.inl ⟨_, rfl, hp⟩, rfl⟩
  case rereadShutDown =>
    obtain ⟨rfl, rfl, rfl⟩ := h
    obtain rfl : as = [] := hp
    refine ⟨.inl ⟨_, rfl, ?_⟩, rfl⟩
    split
    · exact .told ⟨lp, found, ‹_›⟩
    · rfl
  case rereadStarted =>
    obtain ⟨rfl, rfl, rfl⟩ := h
    obtain rfl : as = [] := hp
    refine ⟨.inl ⟨_, rfl, ?_⟩, rfl⟩
    split
    · exact .already ⟨lp, found, ‹_›⟩
    · rfl
  case inspectSlot =>
    obtain ⟨rfl, rfl, rfl⟩ := h
    obtain rfl : as = [] := hp
    refine ⟨.inl ⟨_, rfl, ?_⟩, rfl⟩
    split
    · exact .found
    · rfl
  case fillSlot m =>
    obtain ⟨rfl, rfl, rfl⟩ := h
    obtain ⟨p, rfl⟩ := hp
    exact ⟨.inl ⟨_, rfl, .opened⟩, rfl⟩
  case mark =>
    obtain ⟨rfl, rfl, rfl⟩ := h
    exact ⟨.inl ⟨_, rfl, ⟨_, Store.loop?_modifyLoop_self found _, rfl⟩, hp⟩, rfl⟩
  case announce =>
    obtain ⟨rfl, rfl, rfl⟩ := h
    obtain ⟨hs, x, m, as', hm, rfl⟩ := hp
    exact ⟨.inl ⟨_, rfl, .started hs hm⟩, rfl⟩
  case leave r =>
    obtain ⟨rfl, rfl, rfl⟩ := h
    exact ⟨.inr ⟨r, rfl, StartEnds.mono hp (.of_eq rfl rfl)⟩, rfl⟩

/-- **An answer to a start.** -/
theorem StartPoint.starts_of_ask {p : StartPoint} {q : Request} {after : q.Reply → Control}
    (reply : q.Reply) (h : (Control.running (.start l p :: below)).move s t = .ask q after)
    (hp : p.Told s l as) : Starts s l below (after reply) (as ++ [⟨q, reply⟩]) := by
  obtain ⟨fr, rest, heq, hask⟩ := Control.asks h
  obtain ⟨rfl, rfl⟩ := List.cons.inj (Control.running.inj heq)
  cases hask with
  | openNew found =>
    obtain rfl : as = [] := hp
    cases reply with
    | ok m => exact .inl ⟨_, rfl, _, rfl⟩
    | error cause => exact .inl ⟨_, rfl, .unopened⟩
  | execute found =>
    refine .inl ⟨_, rfl, ?_⟩
    cases reply with
    | true => exact ⟨_, _, _, hp, rfl⟩
    | false => exact .refused hp

/-- A call that is under way has not returned. -/
theorem Control.back_ne_busy (fr : Frame) (above : List Frame) :
    back below r ≠ .running (fr :: (above ++ below)) := by
  cases below with
  | nil => exact nofun
  | cons caller rest =>
    intro h
    have hlength := congrArg List.length (Control.running.inj h)
    simp at hlength
    omega

end Procedures

/-! ## How a submission ends -/

/-- **How a submission ends**, given all that it has been told and every job that it has
appended to a queue. -/
inductive SubmitEnds (s : Store) (l : LoopId) (j : Job) :
    Except Failure Unit → List Answer → List Note → Prop where
  /-- The job has been appended, once, and the loop has been woken. -/
  | accepted {m : Multiplexer} {w : Except String Unit} {as : List Answer}
    (h : StartEnds s l (.ok ()) as) :
    SubmitEnds s l j (.ok ()) (as ++ [⟨.wake l m, w⟩]) [.pushed l j]
  /-- The loop could not be started. -/
  | refused {e : Failure} {as : List Answer} (h : StartEnds s l (.error e) as) :
    SubmitEnds s l j (.error e) as []
  /-- The loop has been told to end in the meantime. -/
  | late {as : List Answer} (told : s.ShutDown l) (h : StartEnds s l (.ok ()) as) :
    SubmitEnds s l j (.error .released) as []

/-- **What a submission has been told and has appended** when it is at this point. -/
def SubmitPoint.Told (s : Store) (l : LoopId) (j : Job) (as : List Answer) (ps : List Note) :
    SubmitPoint → Prop
  | .start => as = [] ∧ ps = []
  | .starting => False
  | .wake _ => StartEnds s l (.ok ()) as ∧ ps = [.pushed l j]
  | .wakeFailed _ | .leave => SubmitEnds s l j (.ok ()) as ps
  | .refuse e | .refused e => SubmitEnds s l j (.error e) as ps
  | _ => StartEnds s l (.ok ()) as ∧ ps = []

/-- **A submission is under way, or has returned.** -/
inductive Submits (s : Store) (l : LoopId) (j : Job) (below : List Frame) (as : List Answer)
    (ps : List Note) : Control → Prop where
  /-- It is at one of its points. -/
  | under {p : SubmitPoint} (h : p.Told s l j as ps) :
    Submits s l j below as ps (.running (.submit l j p :: below))
  /-- It has the loop started. -/
  | starting {p : StartPoint} (h : p.Told s l as) (hps : ps = []) :
    Submits s l j below as ps (.running (.start l p :: .submit l j .starting :: below))
  /-- It drops the job. -/
  | dropping {p : DropPoint} {e : Failure} (h : SubmitEnds s l j (.error e) as ps) :
    Submits s l j below as ps
      (.running (.drop j.endpoint p :: .submit l j (.refused e) :: below))
  /-- It has returned. -/
  | returned {r : Except Failure Unit} (h : SubmitEnds s l j r as ps) :
    Submits s l j below as ps (.back below r)

section Procedures

variable {s s' : Store} {t : ThreadId} {l : LoopId} {j : Job} {below : List Frame}
  {g : Store → Store} {c c' : Control} {as : List Answer} {ns ps : List Note}
  {r : Except Failure Unit}

theorem SubmitEnds.mono (h : SubmitEnds s l j r as ps) (hs : s.Grows s') :
    SubmitEnds s' l j r as ps := by
  cases h with
  | accepted h => exact .accepted (h.mono hs)
  | refused h => exact .refused (h.mono hs)
  | late told h => exact .late (hs.shutDown told) (h.mono hs)

/-- **A submission that succeeds appends its job once**, and one that fails nothing. -/
theorem SubmitEnds.pushes (h : SubmitEnds s l j r as ps) :
    (r = .ok () → ps = [.pushed l j]) ∧ ∀ e, r = .error e → ps = [] := by
  cases h with
  | accepted => exact ⟨fun _ => rfl, nofun⟩
  | refused | late => exact ⟨nofun, fun _ _ => rfl⟩

theorem SubmitPoint.Told.mono {p : SubmitPoint} (h : p.Told s l j as ps) (hs : s.Grows s') :
    p.Told s' l j as ps := by
  cases p
  case start | starting => exact h
  case wakeFailed | leave | refuse | refused => exact SubmitEnds.mono h hs
  all_goals exact ⟨h.1.mono hs, h.2⟩

theorem Submits.mono (h : Submits s l j below as ps c) (hs : s.Grows s') :
    Submits s' l j below as ps c := by
  cases h with
  | under h => exact .under (h.mono hs)
  | starting h hps => exact .starting (h.mono hs) hps
  | dropping h => exact .dropping (h.mono hs)
  | returned h => exact .returned (h.mono hs)

/-- **A step of a submission** goes on with it, or returns as it has to. -/
theorem SubmitPoint.submits_of_act {p : SubmitPoint} {lp : Loop} (found : s.loop? l = some lp)
    (h : p.move s t below l lp j = .act g c ns) (ha : (Frame.submit l j p).Aware s)
    (hp : p.Told s l j as ps) : Submits (g s) l j below as (ps ++ ns.filter Note.isPush) c := by
  have hquiet (hns : ns.filter Note.isPush = []) : ps ++ ns.filter Note.isPush = ps := by
    rw [hns, List.append_nil]
  have hgrows := SubmitPoint.grows_of_move h
  cases p <;> simp [SubmitPoint.move] at h
  case start =>
    obtain ⟨rfl, rfl, rfl⟩ := h
    obtain ⟨rfl, rfl⟩ := hp
    exact .starting rfl rfl
  case readShutDown =>
    obtain ⟨rfl, rfl, rfl⟩ := h
    obtain ⟨hends, rfl⟩ := hp
    split
    · exact .under (SubmitEnds.late ⟨lp, found, ‹_›⟩ hends)
    · exact .under ⟨hends, rfl⟩
  case takeSlot | takeQueue =>
    obtain ⟨-, rfl, rfl, rfl⟩ := h
    obtain ⟨hends, rfl⟩ := hp
    exact .under ⟨hends.mono (.of_eq rfl rfl), rfl⟩
  case readSlot =>
    obtain ⟨rfl, rfl, rfl⟩ := h
    obtain ⟨hends, rfl⟩ := hp
    exact .under ⟨hends.mono (.of_eq rfl rfl), rfl⟩
  case serialize mo =>
    obtain ⟨hends, rfl⟩ := hp
    split at h <;> simp at h
    · obtain ⟨-, rfl, rfl, rfl⟩ := h
      exact .under ⟨hends.mono (.of_eq rfl rfl), rfl⟩
    · obtain ⟨rfl, rfl, rfl⟩ := h
      exact .under ⟨hends, rfl⟩
  case append mo =>
    obtain ⟨rfl, rfl, rfl⟩ := h
    obtain ⟨hends, rfl⟩ := hp
    -- a loop that has been started has a multiplexer to wake
    obtain ⟨m, rfl, -⟩ := ha
    exact .under ⟨hends.mono hgrows, rfl⟩
  case wakeFailed cause =>
    obtain ⟨rfl, rfl, rfl⟩ := h
    rw [hquiet rfl]
    exact .under (p := .leave) hp
  case leave =>
    split at h <;> simp at h <;> obtain ⟨rfl, rfl, rfl⟩ := h <;> rw [hquiet rfl]
    · exact .returned (SubmitEnds.mono hp (.of_eq rfl rfl))
    · exact .returned hp
  case refuse e =>
    obtain ⟨rfl, rfl, rfl⟩ := h
    rw [hquiet rfl]
    exact .dropping hp
  case refused e =>
    obtain ⟨rfl, rfl, rfl⟩ := h
    rw [hquiet rfl]
    exact .returned hp

/-- **A submission that goes on**, whatever is on top. -/
theorem Submits.act {fr : Frame} {above : List Frame}
    (h : Submits s l j below as ps (.running (fr :: (above ++ below))))
    (ha : (Control.running (fr :: (above ++ below))).Aware s)
    (hmove : (Control.running (fr :: (above ++ below))).move s t = .act g c' ns) :
    Submits (g s) l j below as (ps ++ ns.filter Note.isPush) c' := by
  generalize hc : Control.running (fr :: (above ++ below)) = c at h ha hmove
  cases h with
  | under hp =>
    cases Control.moves_of_running hmove with
    | submit found h => exact SubmitPoint.submits_of_act found h (Control.aware_cons.mp ha).1 hp
  | starting hp hps =>
    subst hps
    cases Control.moves_of_running hmove with
    | start found h =>
      obtain ⟨hstarts, hnone⟩ := StartPoint.starts_of_act found h hp
      rw [hnone]
      rcases hstarts with ⟨p', rfl, hp'⟩ | ⟨r, rfl, hr⟩
      · exact .starting hp' rfl
      · cases r with
        | ok => exact .under (p := .readShutDown) ⟨hr, rfl⟩
        | error e => exact .under (p := .refuse e) (SubmitEnds.refused hr)
  | @dropping p e hp =>
    cases Control.moves_of_running hmove with
    | drop found h =>
      cases p <;> simp [DropPoint.move] at h
      · obtain ⟨-, rfl, rfl, rfl⟩ := h
        rw [List.filter_nil, List.append_nil]
        exact .dropping (hp.mono (.of_eq rfl rfl))
      · obtain ⟨rfl, rfl, rfl⟩ := h
        rw [List.filter_nil, List.append_nil]
        exact .under (p := .refused e)
          (SubmitEnds.mono hp (Store.grows_giveLock_iff.mpr (s.grows_setStatus _ _)))
  | returned => exact absurd hc.symm (Control.back_ne_busy fr above)

theorem Submits.ask {fr : Frame} {above : List Frame} {q : Request} {after : q.Reply → Control}
    (reply : q.Reply) (h : Submits s l j below as ps (.running (fr :: (above ++ below))))
    (hmove : (Control.running (fr :: (above ++ below))).move s t = .ask q after) :
    Submits s l j below (as ++ [⟨q, reply⟩]) ps (after reply) := by
  generalize hc : Control.running (fr :: (above ++ below)) = c at h hmove
  cases h with
  | under hp =>
    obtain ⟨fr, rest, heq, hask⟩ := Control.asks hmove
    obtain ⟨rfl, rfl⟩ := List.cons.inj (Control.running.inj heq)
    cases hask with
    | wakeSubmit =>
      obtain ⟨hends, rfl⟩ := hp
      cases reply <;> exact .under (SubmitEnds.accepted hends)
  | starting hp hps =>
    subst hps
    rcases StartPoint.starts_of_ask reply hmove hp with ⟨p', heq, hp'⟩ | ⟨r, heq, hr⟩ <;> rw [heq]
    · exact .starting hp' rfl
    · cases r with
      | ok => exact .under (p := .readShutDown) ⟨hr, rfl⟩
      | error e => exact .under (p := .refuse e) (SubmitEnds.refused hr)
  | dropping =>
    obtain ⟨fr, rest, heq, hask⟩ := Control.asks hmove
    obtain ⟨rfl, rfl⟩ := List.cons.inj (Control.running.inj heq)
    cases hask
  | returned => exact absurd hc.symm (Control.back_ne_busy fr above)

end Procedures

/-! ## From beginning to end -/

namespace Machine

variable {m m' : Machine} {is is₀ : List Incident} {t : ThreadId} {l : LoopId} {j : Job}
  {fr : Frame} {below : List Frame}

/-- **A call from its beginning to its return.** -/
structure Course (m : Machine) (t : ThreadId) (fr : Frame) (below : List Frame)
    (is : List Incident) (m' : Machine) : Prop where
  begins : m.control? t = some (.running (fr :: below))
  during : m.During t below is m'
  left : ¬ m'.InCall t below

/-- **A start in its course.** It never appends a job. -/
theorem During.starts (h : m.During t below is m') (ht : Traffic is₀ m)
    (hc : m.control? t = some (.running (.start l .readShutDown :: below))) :
    ∃ c', m'.control? t = some c' ∧ Starts m'.store l below c' (answersTo t is)
      ∧ (notesBy t is).filter Note.isPush = [] := by
  refine h.invariant (P := fun s c as ns => Starts s l below c as ∧ ns.filter Note.isPush = [])
    (fun hs hP => ⟨hP.1.mono hs, hP.2⟩) (fun hP _ _ hmove => ?act) (fun reply hP hmove => ?ask)
    ht hc ⟨.inl ⟨_, rfl, rfl⟩, rfl⟩
  case act =>
    obtain ⟨⟨p, heq, hp⟩ | ⟨r, heq, -⟩, hnone⟩ := hP
    · rw [heq] at hmove
      cases Control.moves_of_running hmove with
      | start found h =>
        obtain ⟨hstarts, hquiet⟩ := StartPoint.starts_of_act found h hp
        exact ⟨hstarts, by rw [List.filter_append, hnone, hquiet, List.append_nil]⟩
    · exact absurd heq.symm (Control.back_ne_busy _ _)
  case ask =>
    obtain ⟨⟨p, heq, hp⟩ | ⟨r, heq, -⟩, hnone⟩ := hP
    · rw [heq] at hmove
      exact ⟨StartPoint.starts_of_ask reply hmove hp, hnone⟩
    · exact absurd heq.symm (Control.back_ne_busy _ _)

/-- **A submission in its course.** -/
theorem During.submits (h : m.During t below is m') (ht : Traffic is₀ m)
    (hc : m.control? t = some (.running (.submit l j .start :: below))) :
    ∃ c', m'.control? t = some c' ∧ Submits m'.store l j below (answersTo t is)
      ((notesBy t is).filter Note.isPush) c' :=
  h.invariant (P := fun s c as ns => Submits s l j below as (ns.filter Note.isPush) c)
    (fun hs hP => hP.mono hs)
    (fun hP _ ha hmove => by rw [List.filter_append]; exact hP.act ha hmove)
    (fun reply hP hmove => hP.ask reply hmove) ht hc (.under ⟨rfl, rfl⟩)

/-- **How a start ends.** -/
theorem Course.startEnds (h : m.Course t (.start l .readShutDown) below is m')
    (ht : Traffic is₀ m) : ∃ r, m'.control? t = some (.back below r)
      ∧ StartEnds m'.store l r (answersTo t is) ∧ (notesBy t is).filter Note.isPush = [] := by
  obtain ⟨c', hc', hstarts, hnone⟩ := h.during.starts ht h.begins
  rcases hstarts with ⟨p, rfl, -⟩ | ⟨r, rfl, hr⟩
  · exact absurd ⟨_, [], hc'⟩ h.left
  · exact ⟨r, hc', hr, hnone⟩

/-- **How a submission ends.** -/
theorem Course.submitEnds (h : m.Course t (.submit l j .start) below is m')
    (ht : Traffic is₀ m) : ∃ r, m'.control? t = some (.back below r)
      ∧ SubmitEnds m'.store l j r (answersTo t is) ((notesBy t is).filter Note.isPush) := by
  obtain ⟨c', hc', hsubmits⟩ := h.during.submits ht h.begins
  cases hsubmits with
  | under => exact absurd ⟨_, [], hc'⟩ h.left
  | starting => exact absurd ⟨_, [.submit l j .starting], hc'⟩ h.left
  | dropping => exact absurd ⟨_, [.submit l j (.refused _)], hc'⟩ h.left
  | returned hends => exact ⟨_, hc', hends⟩

/-! ## Performing a call -/

/-- Whether the stack is that of a call which returns to these procedures. -/
def Control.isBusy (below : List Frame) : Control → Bool
  | .running stack => below.length < stack.length && below.isSuffixOf stack
  | .finished _ => false

theorem inCall_iff : m.InCall t below ↔ (m.control? t).any (Control.isBusy below) = true := by
  constructor
  · rintro ⟨fr, above, hc⟩
    rw [hc, Option.any_some, Control.isBusy, Bool.and_eq_true, decide_eq_true_eq,
      List.isSuffixOf_iff_suffix]
    refine ⟨?_, fr :: above, rfl⟩
    rw [List.length_cons, List.length_append]
    omega
  · intro h
    cases hc : m.control? t with
    | none => rw [hc] at h; exact absurd h nofun
    | some c =>
      rw [hc, Option.any_some] at h
      cases c with
      | finished o => exact absurd h nofun
      | running stack =>
        rw [Control.isBusy, Bool.and_eq_true, decide_eq_true_eq, List.isSuffixOf_iff_suffix] at h
        obtain ⟨hlength, above, rfl⟩ := h
        cases above with
        | nil => simp at hlength
        | cons fr above => exact ⟨fr, above, hc⟩

instance : Decidable (m.InCall t below) := decidable_of_iff _ inCall_iff.symm

/-- **A thread makes so many steps**, and is answered in this way. -/
def perform (replies : (q : Request) → q.Reply) (m : Machine) (t : ThreadId) : Nat → Machine
  | 0 => m
  | n + 1 =>
    let m := perform replies m t n
    match m.move t with
    | .act g c _ => m.act t g c
    | .ask q after => m.answer t q after (replies q)
    | .blocked _ | .stuck => m

/-- A thread that gets anywhere has made a step. -/
theorem exists_advance_of_perform {replies : (q : Request) → q.Reply}
    (h : m.perform replies t 1 ≠ m) :
    ∃ hap, m.Advance (.stepped t hap) (m.perform replies t 1) := by
  simp only [perform] at h ⊢
  split
  · rename_i hmove
    exact ⟨_, (Step.act hmove).advance⟩
  · rename_i hmove
    exact ⟨_, (Step.answer hmove _).advance⟩
  all_goals simp_all

/-- **A thread that performs a call to its end** has gone through its course. -/
theorem exists_course {replies : (q : Request) → q.Reply}
    (hc : m.control? t = some (.running (fr :: below))) (n : Nat)
    (busy : ∀ k < n, (m.perform replies t k).InCall t below)
    (left : ¬ (m.perform replies t n).InCall t below) :
    ∃ is, m.Course t fr below is (m.perform replies t n) := by
  have h (k : Nat) (hk : k ≤ n) : ∃ is, m.During t below is (m.perform replies t k) := by
    induction k with
    | zero => exact ⟨[], .refl⟩
    | succ k ih =>
      obtain ⟨is, hduring⟩ := ih (Nat.le_of_succ_le hk)
      have hbusy := busy k hk
      rw [perform]
      split
      · rename_i hmove
        exact ⟨_, hduring.advance hbusy (Step.act hmove).advance⟩
      · rename_i hmove
        exact ⟨_, hduring.advance hbusy (Step.answer hmove _).advance⟩
      all_goals exact ⟨is, hduring⟩
  obtain ⟨is, hduring⟩ := h n le_rfl
  exact ⟨is, hc, hduring, left⟩

end Machine

end EndpointControl
