import EndpointControl.Proofs.FactoryWakes

/-!
# Whatever waits and wakes come to

What a wait on a multiplexer reports, and whether a wake gets through, no provider
promises. It is called the *weather* here. The library speaks of it – so many were
ready, waiting failed, waking failed – and does nothing else about it.

The *outline* of a machine is what it would be had the weather been calm, with
nothing ready and every wake delivered. A thread that is about to speak of a wake
that failed stands, in outline, already behind that; and in the outline of a
history that step is not there at all. Everything else happens in the outline
step by step (`Machine.Run.outline`), and a history is determined by who moves
when and what is answered (`Machine.Run.eq_of_plain`). So two histories of one
agenda have one outline, and differ in nothing but what they said about the
weather (`Machine.Run.weatherproof`).
-/

namespace EndpointControl

/-! ## The weather -/

/-- What is said about the weather. -/
def Note.isWeather : Note → Bool
  | .said (.ready ..) | .said (.waitFailed ..) | .said (.wakeFailed ..) => true
  | _ => false

/-- Nothing is done but to say that waking failed. -/
def Happening.tellsFailure : Happening → Bool
  | .acted [.said (.wakeFailed ..)] => true
  | _ => false

/-- **What is answered depends on the weather.** -/
def Request.isWeather : Request → Bool
  | .wake .. | .wait .. => true
  | _ => false

/-- **The answer in calm weather.** What does not depend on the weather stays as it is. -/
def Request.calm : (q : Request) → q.Reply → q.Reply
  | .wake .., _ => .ok ()
  | .wait .., _ => .ok 0
  | .openMultiplexer .., reply => reply
  | .execute .., reply => reply
  | .shutDown _, reply => reply
  | .isMember _, reply => reply
  | .await _, reply => reply

/-- In calm weather all answers to a wait or a wake are the same. -/
theorem Request.calm_of_weather {q : Request} (h : q.isWeather = true) (reply reply' : q.Reply) :
    q.calm reply = q.calm reply' := by
  cases q <;> first | rfl | exact absurd h nofun

theorem Request.calm_calm (q : Request) (reply : q.Reply) :
    q.calm (q.calm reply) = q.calm reply := by
  cases q <;> rfl

/-! ## Outlines -/

/-- A submission, as if no wake had failed. -/
def SubmitPoint.outline : SubmitPoint → SubmitPoint
  | .wakeFailed _ => .leave
  | p => p

/-- A signal, as if no wake had failed. -/
def SignalPoint.outline : SignalPoint → SignalPoint
  | .wakeFailed _ => .giveSlot
  | p => p

/-- A loop, as if nothing had ever been ready. -/
def ServePoint.outline : ServePoint → ServePoint
  | .waited _ => .waited (.ok 0)
  | p => p

/-- **A procedure in calm weather.** -/
def Frame.outline : Frame → Frame
  | .submit l j p => .submit l j p.outline
  | .signal l p => .signal l p.outline
  | .serve l m p => .serve l m p.outline
  | fr => fr

/-- **Where a thread would be in calm weather.** -/
def Control.outline : Control → Control
  | .running stack => .running (stack.map Frame.outline)
  | .finished o => .finished o

/-- **A machine in calm weather.** The weather leaves the store alone. -/
def Machine.outline (m : Machine) : Machine where
  store := m.store
  threads := m.threads.map fun th => { th with control := th.control.outline }

/-- **What an incident would be in calm weather.** Nobody would speak of a wake that
failed. -/
def Incident.outline : Incident → List Incident
  | .stepped t (.acted ns) =>
    if (Happening.acted ns).tellsFailure then []
    else [.stepped t (.acted (ns.filter (!·.isWeather)))]
  | .stepped t (.answered q reply) => [.stepped t (.answered q (q.calm reply))]
  | i => [i]

/-- **A history in calm weather.** -/
def outlined (is : List Incident) : List Incident := is.flatMap Incident.outline

/-- An incident without its notes. -/
def Incident.plain : Incident → Incident
  | .stepped t (.acted _) => .stepped t (.acted [])
  | i => i

/-- **The agenda of a history**: what is called and built, who moves when, and what is
answered but for the weather. -/
def agenda (is : List Incident) : List Incident := (outlined is).map Incident.plain

theorem Happening.isWeather_of_tellsFailure {ns : List Note}
    (h : (acted ns).tellsFailure = true) : ∃ n ∈ ns, n.isWeather = true := by
  unfold tellsFailure at h
  split at h
  · rename_i heq
    rw [Happening.acted.inj heq]
    exact ⟨_, List.mem_singleton_self _, rfl⟩
  · exact absurd h nofun

/-- In outline one thing at most becomes of an incident, and it is calm. -/
theorem Incident.outline_cases (i : Incident) :
    i.outline = [] ∨ ∃ j, i.outline = [j] ∧ j.outline = [j] := by
  match i with
  | .stepped t (.acted ns) =>
    rw [outline]
    split
    · exact .inl rfl
    · refine .inr ⟨_, rfl, ?_⟩
      rw [outline, if_neg, List.filter_filter]
      · simp only [Bool.and_self]
      -- no word about the weather is left
      · intro htell
        obtain ⟨n, hn, hweather⟩ := Happening.isWeather_of_tellsFailure htell
        exact absurd hweather (by simpa using (List.mem_filter.mp hn).2)
  | .stepped t (.answered q reply) =>
    refine .inr ⟨_, rfl, ?_⟩
    rw [outline, q.calm_calm]
  | .called .. => exact .inr ⟨_, rfl, rfl⟩
  | .built _ => exact .inr ⟨_, rfl, rfl⟩

theorem outlined_concat (is : List Incident) (i : Incident) :
    outlined (is ++ [i]) = outlined is ++ i.outline := by
  rw [outlined, List.flatMap_append, List.flatMap_singleton, outlined]

theorem agenda_append (is is' : List Incident) : agenda (is ++ is') = agenda is ++ agenda is' := by
  rw [agenda, outlined, List.flatMap_append, List.map_append, agenda, agenda, outlined, outlined]

theorem agenda_concat (is : List Incident) (i : Incident) :
    agenda (is ++ [i]) = agenda is ++ i.outline.map Incident.plain := by
  rw [agenda, outlined_concat, List.map_append, agenda]

/-- The thread is about to speak of a wake that failed. -/
def Control.isTelling : Control → Bool
  | .running (.submit _ _ (.wakeFailed _) :: _) | .running (.signal _ (.wakeFailed _) :: _) => true
  | _ => false

/-! ## One move in calm weather -/

theorem Frame.outline_resume (fr : Frame) (r : Except Failure Unit) :
    (fr.resume r).outline = fr.outline.resume r := by
  cases fr with
  | submit l j p =>
    cases p with
    | starting => cases r <;> rfl
    | _ => rfl
  | attempt e a p =>
    cases p with
    | submitting => cases r <;> rfl
    | _ => rfl
  | create f p =>
    cases p with
    | starting | submitting => cases r <;> rfl
    | _ => rfl
  | connect e a p =>
    cases p with
    | submitting => cases r <;> rfl
    | _ => rfl
  | _ => rfl

theorem Control.outline_back (below : List Frame) (r : Except Failure Unit) :
    (back below r).outline = back (below.map Frame.outline) r := by
  cases below with
  | nil => rfl
  | cons caller rest => exact congrArg (fun fr => running (fr :: _)) (caller.outline_resume r)

theorem Frame.outline_ofJob (j : Job) : (ofJob j).outline = ofJob j := by cases j <;> rfl

/-- **The second move is the first in calm weather.** -/
inductive Move.Outlines : Move → Move → Prop where
  | act {g : Store → Store} {c : Control} {ns : List Note}
    (hns : (Happening.acted ns).tellsFailure = false) :
    Outlines (.act g c ns) (.act g c.outline (ns.filter (!·.isWeather)))
  | ask {q : Request} {after after' : q.Reply → Control}
    (h : ∀ r, after' (q.calm r) = (after r).outline) : Outlines (.ask q after) (.ask q after')
  | blocked {k : Lock} : Outlines (.blocked k) (.blocked k)
  | stuck : Outlines .stuck .stuck

namespace Move.Outlines

variable {c c' : Control}

theorem change {g : Store → Store} (h : c' = c.outline) :
    (Move.change g c).Outlines (Move.change g c') := by
  subst h
  exact .act rfl

theorem tell {g : Store → Store} {ns ns' : List Note}
    (hns : (Happening.acted ns).tellsFailure = false) (h : c' = c.outline)
    (hns' : ns' = ns.filter (!·.isWeather)) : (Move.act g c ns).Outlines (.act g c' ns') := by
  subst h hns'
  exact .act hns

theorem go (h : c' = c.outline) : (Move.go c).Outlines (Move.go c') := change h

theorem say {n : Notice} (hn : (Note.said n).isWeather = false) (h : c' = c.outline) :
    (Move.say n c).Outlines (Move.say n c') := by
  refine tell ?_ h (by simp [hn])
  cases n <;> first | rfl | exact absurd hn nofun

theorem takeLock {s : Store} {t : ThreadId} {k : Lock} (h : c' = c.outline) :
    (Move.takeLock s t k c).Outlines (Move.takeLock s t k c') := by
  unfold Move.takeLock
  split
  · exact .blocked
  · exact .change h

end Move.Outlines

section Procedures

variable {s : Store} {t : ThreadId} {below : List Frame}

theorem StartPoint.outlines {id : LoopId} {l : Loop} (p : StartPoint) :
    (p.move s t below id l).Outlines (p.move s t (below.map Frame.outline) id l) := by
  cases p with
  | readShutDown | readStarted =>
    refine .go ?_
    split
    · exact (Control.outline_back ..).symm
    · rfl
  | takeSlot => exact .takeLock rfl
  | openNew => exact .ask fun r => by cases r <;> rfl
  | execute m => exact .ask fun _ => rfl
  | fillSlot | mark => exact .change rfl
  | announce => exact .say rfl rfl
  | leave r => exact .change (Control.outline_back ..).symm
  | _ => exact .go rfl

theorem SubmitPoint.outlines {id : LoopId} {l : Loop} {j : Job} (p : SubmitPoint)
    (hp : (Control.running (.submit id j p :: below)).isTelling = false) :
    (p.move s t below id l j).Outlines (p.outline.move s t (below.map Frame.outline) id l j) := by
  cases p with
  | start => exact .go rfl
  | starting => exact .stuck
  | readShutDown => exact .go (by split <;> rfl)
  | takeSlot | takeQueue => exact .takeLock rfl
  | readSlot => exact .change rfl
  | serialize m =>
    simp only [SubmitPoint.outline, SubmitPoint.move]
    split
    · exact .takeLock rfl
    · exact .go rfl
  | append m =>
    cases m with
    | none | some => exact .act rfl
  | wake m => exact .ask fun r => by cases r <;> rfl
  | wakeFailed => cases hp
  | leave =>
    simp only [SubmitPoint.outline, SubmitPoint.move]
    split
    · exact .change (Control.outline_back ..).symm
    · exact .go (Control.outline_back ..).symm
  | refuse e => exact .go rfl
  | refused e => exact .go (Control.outline_back ..).symm

theorem SignalPoint.outlines {id : LoopId} {l : Loop} (p : SignalPoint)
    (hp : (Control.running (.signal id p :: below)).isTelling = false) :
    (p.move s t below id l).Outlines (p.outline.move s t (below.map Frame.outline) id l) := by
  cases p with
  | raise =>
    refine .change ?_
    split
    · exact (Control.outline_back ..).symm
    · rfl
  | takeSlot => exact .takeLock rfl
  | readSlot => exact .go (by cases l.slot <;> rfl)
  | wake m => exact .ask fun r => by cases r <;> rfl
  | wakeFailed => exact absurd hp nofun
  | giveSlot => exact .change rfl
  | announce => exact .say rfl (Control.outline_back ..).symm

/-- What a loop says about a wait is about the weather. -/
theorem Notice.filter_ofWait (id : LoopId) (r : Except String Nat) :
    (ofWait id r).filter (!·.isWeather) = [] := by
  unfold ofWait
  split <;> rfl

theorem Notice.tellsFailure_ofWait (id : LoopId) (r : Except String Nat) :
    (Happening.acted (ofWait id r)).tellsFailure = false := by
  unfold ofWait
  split <;> rfl

theorem ServePoint.outlines {id : LoopId} {l : Loop} {m : Multiplexer} (p : ServePoint) :
    (p.move s t below id l m).Outlines (p.outline.move s t (below.map Frame.outline) id l m) := by
  cases p with
  | announce => exact .say rfl rfl
  | serialize =>
    simp only [ServePoint.outline, ServePoint.move]
    split
    · exact .takeLock rfl
    · exact .go rfl
  | takeQueue | takeQueueLast => exact .takeLock rfl
  | takeBatch | takeRest | markExited => exact .change rfl
  | run batch n =>
    cases batch with
    | nil => exact .go rfl
    | cons j rest =>
      refine .tell rfl ?_ rfl
      exact congrArg (fun fr => Control.running (fr :: _)) (Frame.outline_ofJob j).symm
  | endTurn n =>
    simp only [ServePoint.outline, ServePoint.move]
    split
    · exact .change rfl
    · exact .go rfl
  | report n =>
    cases n with
    | zero => exact .go rfl
    | succ n => exact .say rfl rfl
  | readShutDown => exact .go (by split <;> rfl)
  | wait => exact .ask fun _ => rfl
  | waited r => exact .tell (Notice.tellsFailure_ofWait ..) rfl (Notice.filter_ofWait ..).symm
  | discard rest n =>
    cases rest with
    | nil => exact .go rfl
    | cons j rest => exact .tell rfl rfl rfl
  | announceExit n => exact .say rfl rfl

theorem AttemptPoint.outlines {id : EndpointId} {e : Endpoint} {a : Address} (p : AttemptPoint) :
    (p.move below id e a).Outlines (p.move (below.map Frame.outline) id e a) := by
  cases p with
  | announce | announceRefusal => exact .say rfl rfl
  | submit | drop => exact .go rfl
  | submitting => exact .stuck
  | leave => exact .go (Control.outline_back ..).symm

theorem RegistrationPoint.outlines {id : EndpointId} {e : Endpoint} (p : RegistrationPoint) :
    (p.move s t below id e).Outlines (p.move s t (below.map Frame.outline) id e) := by
  cases p with
  | takeStatus => exact .takeLock rfl
  | mark =>
    refine .change ?_
    split
    · rfl
    · exact (Control.outline_back ..).symm
  | count => exact .tell rfl rfl rfl
  | announce => exact .say rfl (Control.outline_back ..).symm

theorem DropPoint.outlines {id : EndpointId} {e : Endpoint} (p : DropPoint) :
    (p.move s t below id e).Outlines (p.move s t (below.map Frame.outline) id e) := by
  cases p with
  | takeStatus => exact .takeLock rfl
  | revert => exact .change (Control.outline_back ..).symm

theorem CreatePoint.outlines {id : FactoryId} {f : Factory} (p : CreatePoint) :
    (p.move s below id f).Outlines (p.move s (below.map Frame.outline) id f) := by
  cases p with
  | readReleased => exact .go (by split <;> rfl)
  | pickWorker | drawNumber | count => exact .change rfl
  | enroll w n => exact .change (by cases f.flavor <;> rfl)
  | start | failed => exact .go rfl
  | starting | submitting => exact .stuck
  | announceBound => exact .say rfl rfl
  | submit e =>
    simp only [CreatePoint.move]
    split
    · exact .stuck
    · exact .go rfl
  | announce e =>
    simp only [CreatePoint.move]
    split
    · exact .stuck
    · exact .say rfl rfl

theorem ConnectPoint.outlines {id : EndpointId} {e : Endpoint} {a : Address} (p : ConnectPoint) :
    (p.move s t below id e a).Outlines (p.move s t (below.map Frame.outline) id e a) := by
  cases p with
  | takeStatus => exact .takeLock rfl
  | begin =>
    simp only [ConnectPoint.move]
    split <;> exact .change rfl
  | submit | failed => exact .go rfl
  | submitting => exact .stuck
  | count => exact .change rfl

theorem ClosePoint.outlines {id : EndpointId} {e : Endpoint} (p : ClosePoint) :
    (p.move s t below id e).Outlines (p.move s t (below.map Frame.outline) id e) := by
  cases p with
  | takeStatus => exact .takeLock rfl
  | close => exact .change rfl

/-- What is said of executors has nothing to do with the weather. -/
theorem Termination.isWeather_of_note {u after : Termination} {n : Notice}
    (h : u.turn = .note n after) : (Note.said n).isWeather = false := by
  unfold Termination.turn at h
  split at h <;> cases h <;> rfl

theorem ReleasePoint.outlines {id : FactoryId} {f : Factory} (p : ReleasePoint) :
    (p.move below id f).Outlines (p.move (below.map Frame.outline) id f) := by
  cases p with
  | raise => exact .change (by split <;> rfl)
  | announce => exact .say rfl (by cases f.flavor <;> rfl)
  | signalBoss => exact .go rfl
  | signalWorkers i =>
    simp only [ReleasePoint.move]
    split <;> exact .go rfl
  | announceWorkers | announceEnd => exact .say rfl rfl
  | terminate u =>
    simp only [ReleasePoint.move]
    split
    case h_4 n after hu => exact .say (Termination.isWeather_of_note hu) rfl
    case h_5 | h_6 => exact .go rfl
    all_goals exact .ask fun _ => rfl

/-- **A thread moves as in calm weather**, unless it is about to speak of a wake that
failed. -/
theorem Frame.outlines (fr : Frame)
    (h : (Control.running (fr :: below)).isTelling = false) :
    (fr.move s t below).Outlines (fr.outline.move s t (below.map Frame.outline)) := by
  cases fr with
  | start id p =>
    simp only [Frame.outline, Frame.move]
    split
    · exact p.outlines
    · exact .stuck
  | submit id j p =>
    simp only [Frame.outline, Frame.move]
    split
    · exact p.outlines h
    · exact .stuck
  | signal id p =>
    simp only [Frame.outline, Frame.move]
    split
    · exact p.outlines h
    · exact .stuck
  | serve id m p =>
    simp only [Frame.outline, Frame.move]
    split
    · exact p.outlines
    · exact .stuck
  | attempt id a p | registration id p | drop id p | create id p | connect id a p | close id p
  | release id p =>
    simp only [Frame.outline, Frame.move]
    split
    · exact p.outlines
    · exact .stuck

theorem Control.outlines {c : Control} (h : c.isTelling = false) :
    (c.move s t).Outlines (c.outline.move s t) :=
  match c, h with
  | .running [], _ => .stuck
  | .running (fr :: _), h => fr.outlines h
  | .finished _, _ => .stuck

/-- **Whoever speaks of a wake that failed** does nothing else, and is then where it would be
had the wake got through. -/
theorem Control.move_of_isTelling {c : Control} (h : c.isTelling = true) :
    c.move s t = .stuck ∧ c.outline.move s t = .stuck ∨ ∃ l cause d,
      c.move s t = .say (.wakeFailed l cause) d ∧ d.outline = c.outline ∧ d.isTelling = false := by
  unfold isTelling at h
  split at h
  · rename_i id j cause below
    cases found : s.loop? id with
    | none => exact .inl (by simp [move, outline, Frame.move, Frame.outline, found])
    | some l =>
      refine .inr ⟨id, cause, .running (.submit id j .leave :: below), ?_, rfl, rfl⟩
      simp only [move, Frame.move, found, SubmitPoint.move]
  · rename_i id cause below
    cases found : s.loop? id with
    | none => exact .inl (by simp [move, outline, Frame.move, Frame.outline, found])
    | some l =>
      refine .inr ⟨id, cause, .running (.signal id .giveSlot :: below), ?_, rfl, rfl⟩
      simp only [move, Frame.move, found, SignalPoint.move]
  · cases h

end Procedures

/-! ## Histories in calm weather -/

/-- An entry that is changed can as well be changed in the image. -/
theorem map_modify {α β : Type} {f : α → β} {k : α → α} {k' : β → β}
    (hk : ∀ a, f (k a) = k' (f a)) (as : Array α) (i : Nat) :
    (as.modify i k).map f = (as.map f).modify i k' := by
  apply Array.ext_getElem?
  intro j
  rw [Array.getElem?_map, Array.getElem?_modify, Array.getElem?_modify, Array.getElem?_map]
  split
  · cases as[j]? <;> simp [hk]
  · rfl

namespace Machine

variable {m m' n k : Machine} {t : ThreadId} {c d : Control} {i j : Incident}
  {is is' js : List Incident}

theorem outline_empty : empty.outline = empty := by simp [outline, empty]

theorem control?_outline (m : Machine) (t : ThreadId) :
    m.outline.control? t = (m.control? t).map Control.outline := by
  simp only [control?, outline, Array.getElem?_map, Option.map_map, Function.comp_def]

theorem outline_setControl (m : Machine) (t : ThreadId) (c : Control) :
    (m.setControl t c).outline = m.outline.setControl t c.outline := by
  simp only [outline, setControl, mk.injEq, true_and]
  exact map_modify (by intro th; rfl) m.threads t

theorem outline_spawn (m : Machine) (x : Option ExecutorId) (c : Control) :
    (m.spawn x c).outline = m.outline.spawn x c.outline := by
  simp only [outline, spawn, Array.map_push]

theorem outline_answer {q : Request} {after after' : q.Reply → Control} (reply : q.Reply)
    (h : after' (q.calm reply) = (after reply).outline) :
    (m.answer t q after reply).outline = m.outline.answer t q after' (q.calm reply) := by
  have hset : (m.setControl t (after reply)).outline
      = m.outline.setControl t (after' (q.calm reply)) := by rw [outline_setControl, h]
  cases q with
  | execute x l mux =>
    cases reply with
    | true =>
      rw [answer_execute, outline_spawn, hset]
      rfl
    | false => exact hset
  | _ => exact hset

theorem outline_control (o : Operation) : o.control.outline = o.control := by cases o <;> rfl

/-- Whoever goes nowhere changes nothing. -/
theorem setControl_eq_self (h : m.control? t = some c) : m.setControl t c = m := by
  obtain ⟨th, hth, rfl⟩ := Option.map_eq_some_iff.mp h
  obtain ⟨store, threads⟩ := m
  simp only [setControl, mk.injEq, true_and]
  apply Array.ext_getElem?
  intro t'
  rw [Array.getElem?_modify]
  split
  · rename_i ht
    subst ht
    simp only at hth
    rw [hth, Option.map_some]
  · rfl

/-- A word about a wake that failed is not there in outline. -/
theorem outline_act_of_telling (hc : m.control? t = some c) (hd : d.outline = c.outline) :
    (m.act t (fun s => s) d).outline = m.outline := by
  have hself : m.outline.control? t = some d.outline := by rw [control?_outline, hc, hd]; rfl
  rw [act, outline_setControl]
  exact setControl_eq_self hself

/-- **Whatever happens, happens in calm weather as well**, unless it is a word about a wake
that failed. -/
theorem Advance.outline (a : m.Advance i m') : m.outline.Leads i.outline m'.outline := by
  have one {i : Incident} {n : Machine} (a : m.outline.Advance i n) : m.outline.Leads [i] n :=
    .advance .refl a
  -- where somebody moves, the move in calm weather is made
  have calm {t : ThreadId} {c : Control} (hc : m.control? t = some c) :
      m.outline.control? t = some c.outline := by rw [control?_outline, hc, Option.map_some]
  cases a with
  | @act t c d g ns hc h =>
    cases htell : c.isTelling with
    | true =>
      obtain ⟨hstuck, -⟩ | ⟨l, cause, d', hsay, hd, -⟩ := Control.move_of_isTelling htell
      · cases hstuck.symm.trans h
      · obtain ⟨rfl, rfl, rfl⟩ := Move.act.inj (hsay.symm.trans h)
        rw [outline_act_of_telling hc hd]
        exact .refl
    | false =>
      have hmove := h ▸ c.outlines (s := m.store) (t := t) htell
      generalize hcalm : c.outline.move m.store t = mv at hmove
      cases hmove with
      | act hns =>
        rw [Incident.outline, if_neg (by simp [hns]), Machine.act, outline_setControl]
        exact one (.act (calm hc) hcalm)
  | @answer t c q after hc h reply =>
    have htell : c.isTelling = false := by
      by_contra htell
      obtain ⟨hstuck, -⟩ | ⟨l, cause, d', hsay, -⟩ :=
        Control.move_of_isTelling (Bool.eq_true_of_not_eq_false htell)
      · cases hstuck.symm.trans h
      · cases hsay.symm.trans h
    have hmove := h ▸ c.outlines (s := m.store) (t := t) htell
    generalize hcalm : c.outline.move m.store t = mv at hmove
    cases hmove with
    | ask hafter =>
      rw [outline_answer reply (hafter reply)]
      exact one (.answer (calm hc) hcalm _)
  | call home o =>
    rw [outline_spawn, outline_control]
    exact one (.call home o)
  | build b => exact one (.build b)

/-- **A history in calm weather is a history**, and leads to the machine in calm weather. -/
theorem Run.outline (r : Run is m) : Run (outlined is) m.outline := by
  refine r.induction (motive := fun is m => Run (outlined is) m.outline) ?empty ?advance
  case empty => rw [outline_empty]; exact .empty
  case advance =>
    intro is m i m' _ ih a
    rw [outlined_concat]
    exact ih.leads a.outline

/-! ## Histories of one agenda -/

/-- What is noted is determined by what happens. -/
theorem Advance.eq_of_plain {m₁ m₂ : Machine} (a : m.Advance i m₁) (b : m.Advance j m₂)
    (h : i.plain = j.plain) : i = j ∧ m₁ = m₂ := by
  have heq : i = j := by
    cases a with
    | act hc hmove =>
      cases b with
      | act hc' hmove' =>
        obtain rfl := (Incident.stepped.inj h).1
        obtain rfl := Option.some.inj (hc.symm.trans hc')
        obtain ⟨-, -, rfl⟩ := Move.act.inj (hmove.symm.trans hmove')
        rfl
      | answer => exact absurd (Incident.stepped.inj h).2 nofun
      | call | build => exact absurd h nofun
    | answer | call | build =>
      cases b with
      | act => exact absurd h nofun
      | answer | call | build => exact h
  subst heq
  exact ⟨rfl, a.unique b⟩

/-- **A history is determined by who moves when and what is answered.** -/
theorem Run.eq_of_plain (r : Run is m) (r' : Run is' m')
    (h : is.map Incident.plain = is'.map Incident.plain) : is = is' ∧ m = m' := by
  refine r.induction (motive := fun is m => ∀ {is' m'}, Run is' m' →
    is.map Incident.plain = is'.map Incident.plain → is = is' ∧ m = m') ?empty ?advance r' h
  case empty =>
    intro is' m' r' h
    obtain rfl := List.map_eq_nil_iff.mp h.symm
    exact ⟨rfl, Run.empty.unique r'⟩
  case advance =>
    intro is m i m' _ ih a is'' m'' r'' h
    rcases List.eq_nil_or_concat is'' with rfl | ⟨is', i', rfl⟩
    · exact absurd h (by simp)
    -- the other history ends with the same incident, after the same history
    rw [List.concat_eq_append] at r'' h ⊢
    rw [List.map_append, List.map_append] at h
    obtain ⟨hbefore, hlast⟩ := List.append_inj' h rfl
    obtain ⟨m₀, m₁, r₀, a₀, hrest⟩ := r''.split
    obtain ⟨rfl, rfl⟩ := ih r₀ hbefore
    obtain ⟨rfl, rfl⟩ := a.eq_of_plain a₀ (List.singleton_inj.mp hlast)
    exact ⟨rfl, hrest.eq_of_nil.symm⟩

/-- **Two histories of one agenda have one outline.** -/
theorem Run.outline_eq (r : Run is m) (r' : Run is' m') (h : agenda is' = agenda is) :
    outlined is' = outlined is ∧ m'.outline = m.outline :=
  r'.outline.eq_of_plain r.outline h

end Machine

/-! ## Any weather -/

/-- **The weather**: what is answered to a wait or a wake, after whatever has happened. -/
abbrev Weather := List Incident → (q : Request) → q.Reply

/-- What is answered is what the weather makes of it. -/
def Incident.Bears (reply : (q : Request) → q.Reply) : Incident → Prop
  | .stepped _ (.answered q r) => q.isWeather = true → r = reply q
  | _ => True

/-- **The history takes place in this weather.** -/
def InWeather (ω : Weather) (is : List Incident) : Prop :=
  ∀ js i, js ++ [i] <+: is → i.Bears (ω js)

theorem InWeather.nil (ω : Weather) : InWeather ω [] := by
  intro js i h
  exact absurd (List.prefix_nil.mp h) (by simp)

theorem InWeather.concat {ω : Weather} {is : List Incident} {i : Incident} (h : InWeather ω is)
    (hi : i.Bears (ω is)) : InWeather ω (is ++ [i]) := by
  intro js j hprefix
  rcases List.prefix_concat_iff.mp hprefix with heq | hprefix
  · obtain ⟨rfl, hj⟩ := List.append_inj' heq rfl
    obtain rfl := List.singleton_inj.mp hj
    exact hi
  · exact h js j hprefix

namespace Machine

variable {m m' n k : Machine} {t : ThreadId} {c d : Control} {i j : Incident}
  {is is' js : List Incident} {ω : Weather}

/-- **Whoever has a word to say about a wake** can say it at once, in any weather. -/
theorem Run.speaks (r : Run is n) (hω : InWeather ω is) (hc : n.control? t = some c)
    (hmove : c.outline.move n.store t ≠ .stuck) :
    ∃ js n' d, Run (is ++ js) n' ∧ InWeather ω (is ++ js) ∧ outlined js = []
      ∧ n'.outline = n.outline ∧ n'.control? t = some d ∧ d.isTelling = false
      ∧ d.outline = c.outline := by
  cases htell : c.isTelling with
  | false => exact ⟨[], n, c, by rwa [List.append_nil], by rwa [List.append_nil], rfl, rfl, hc,
      htell, rfl⟩
  | true =>
    obtain ⟨-, hstuck⟩ | ⟨l, cause, d, hsay, hd, hquiet⟩ := Control.move_of_isTelling htell
    · exact absurd hstuck hmove
    · exact ⟨[.stepped t (.acted [.said (.wakeFailed l cause)])], _, d, (Advance.act hc hsay).run r,
        hω.concat trivial, rfl, outline_act_of_telling hc hd, control?_act_self hc, hquiet, hd⟩

/-- **Whatever happens in calm weather, happens in any.** -/
theorem Run.bears (r : Run is n) (hω : InWeather ω is) (a : n.outline.Advance i k)
    (hi : i.outline = [i]) :
    ∃ js n', Run (is ++ js) n' ∧ InWeather ω (is ++ js) ∧ outlined js = [i] ∧ n'.outline = k := by
  -- whoever moves first says what it has to say about a wake
  have moves {t : ThreadId} {c : Control} {mv : Move} (hc : n.outline.control? t = some c)
      (hmove : c.move n.store t = mv) (hne : mv ≠ .stuck) :
      ∃ js n' d, Run (is ++ js) n' ∧ InWeather ω (is ++ js) ∧ outlined js = []
        ∧ n'.outline = n.outline ∧ n'.control? t = some d ∧ (d.move n'.store t).Outlines mv := by
    rw [control?_outline] at hc
    obtain ⟨c, hc', rfl⟩ := Option.map_eq_some_iff.mp hc
    obtain ⟨js, n', d, r', hω', hjs, hn', hd, hquiet, hcalm⟩ := r.speaks hω hc' (hmove ▸ hne)
    have hstore : n'.outline.store = n.outline.store := congrArg Machine.store hn'
    exact ⟨js, n', d, r', hω', hjs, hn', hd, by
      rw [← hmove, ← hcalm, show n.store = n'.store from hstore.symm]
      exact d.outlines hquiet⟩
  have one {js : List Incident} {i' : Incident} (hjs : outlined js = []) (hi' : i'.outline = [i]) :
      outlined (js ++ [i']) = [i] := by rw [outlined_concat, hjs, hi', List.nil_append]
  cases a with
  | @act t c c' g ns hc hmove =>
    obtain ⟨js, n', d, r', hω', hjs, hn', hd, hmoves⟩ := moves hc hmove (by rintro ⟨⟩)
    generalize hact : d.move n'.store t = mv at hmoves
    cases hmoves with
    | @act _ d' ns' hns =>
      refine ⟨js ++ [.stepped t (.acted ns')], n'.act t g d', ?_, ?_, one hjs ?_, ?_⟩
      · rw [← List.append_assoc]
        exact (Advance.act hd hact).run r'
      · rw [← List.append_assoc]
        exact hω'.concat trivial
      · rw [Incident.outline, if_neg (by simp [hns])]
      · rw [act, outline_setControl, act, ← hn']
        rfl
  | @answer t c q after hc hmove reply =>
    obtain ⟨js, n', d, r', hω', hjs, hn', hd, hmoves⟩ := moves hc hmove (by rintro ⟨⟩)
    generalize hask : d.move n'.store t = mv at hmoves
    cases hmoves with
    | @ask _ after' _ hafter =>
      -- the weather has its say, if it has any
      have hcalm : q.calm reply = reply := by
        have heq := List.singleton_inj.mp hi
        simpa using heq
      obtain ⟨r₀, hr₀, hbears⟩ : ∃ r₀, q.calm r₀ = reply
          ∧ (Incident.stepped t (.answered q r₀)).Bears (ω (is ++ js)) := by
        cases hq : q.isWeather with
        | true =>
          exact ⟨ω (is ++ js) q, (q.calm_of_weather hq _ reply).trans hcalm, fun _ => rfl⟩
        | false => exact ⟨reply, hcalm, fun h => by cases hq.symm.trans h⟩
      refine ⟨js ++ [.stepped t (.answered q r₀)], n'.answer t q after' r₀, ?_, ?_, one hjs ?_, ?_⟩
      · rw [← List.append_assoc]
        exact (Advance.answer hd hask r₀).run r'
      · rw [← List.append_assoc]
        exact hω'.concat hbears
      · rw [Incident.outline, hr₀]
      · rw [outline_answer r₀ (hafter r₀), hn', hr₀]
  | call home o =>
    refine ⟨[.called home o], _, (Advance.call home o).run r, hω.concat trivial, rfl, ?_⟩
    rw [outline_spawn, outline_control]
  | build b => exact ⟨[.built b], _, (Advance.build b).run r, hω.concat trivial, rfl, rfl⟩

theorem Leads.advance_of_singleton (h : m.Leads [i] m') : m.Advance i m' := by
  generalize his : [i] = is at h
  cases h with
  | refl => exact absurd his nofun
  | @advance is m' m'' j h a =>
    obtain ⟨hnil, hi⟩ := @List.append_inj' _ [] _ _ _ his rfl
    subst hnil
    obtain rfl := List.singleton_inj.mp hi
    exact h.eq_of_nil ▸ a

/-- **Every history can take place in any weather**: the same agenda can be gone through. -/
theorem Run.inWeather (r : Run is m) (ω : Weather) :
    ∃ is' m', Run is' m' ∧ agenda is' = agenda is ∧ InWeather ω is' := by
  refine r.induction (motive := fun is m => ∃ is' m', Run is' m' ∧ agenda is' = agenda is
    ∧ InWeather ω is') ⟨[], _, .empty, rfl, .nil ω⟩ ?_
  intro is m i m₁ r ⟨is', m', r', hagenda, hω⟩ a
  have hm' : m'.outline = m.outline := (r.outline_eq r' hagenda).2
  have hcalm := a.outline
  obtain hi | ⟨j, hi, hj⟩ := i.outline_cases
  · refine ⟨is', m', r', ?_, hω⟩
    rw [hagenda, agenda_concat, hi, List.map_nil, List.append_nil]
  · rw [hi, ← hm'] at hcalm
    obtain ⟨js, n, r'', hω', hjs, -⟩ := r'.bears hω hcalm.advance_of_singleton hj
    refine ⟨_, n, r'', ?_, hω'⟩
    rw [agenda_append, hagenda, agenda_concat, hi, agenda.eq_def js, hjs]

end Machine

/-! ## What the weather cannot change -/

section Telling

variable (is : List Incident) (l : LoopId)

/-- **All that is lost in outline is what is said about the weather.** -/
theorem notes_outlined :
    (outlined is).flatMap Incident.notes = (is.flatMap Incident.notes).filter (!·.isWeather) := by
  rw [outlined, List.flatMap_assoc, List.filter_flatMap]
  refine List.flatMap_congr fun i _ => ?_
  match i with
  | .stepped t (.acted ns) =>
    rw [Incident.outline]
    split
    · rename_i htell
      unfold Happening.tellsFailure at htell
      split at htell
      · rename_i heq
        obtain rfl := Happening.acted.inj heq
        rfl
      · exact absurd htell nofun
    · rw [List.flatMap_singleton]
      rfl
  | .stepped t (.answered q reply) => rfl
  | .called .. => rfl
  | .built _ => rfl

/-- Whoever looks at answers alone, and not at what the weather makes of them, sees no
difference. -/
theorem flatMap_outlined {β : Type} {f : Incident → List β}
    (hacted : ∀ t ns, f (.stepped t (.acted ns)) = [])
    (hcalm : ∀ t q reply, f (.stepped t (.answered q (q.calm reply)))
      = f (.stepped t (.answered q reply))) : (outlined is).flatMap f = is.flatMap f := by
  rw [outlined, List.flatMap_assoc]
  refine List.flatMap_congr fun i _ => ?_
  match i with
  | .stepped t (.acted ns) =>
    rw [Incident.outline, hacted]
    split
    · rfl
    · rw [List.flatMap_singleton, hacted]
  | .stepped t (.answered q reply) => rw [Incident.outline, List.flatMap_singleton, hcalm]
  | .called .. => exact List.flatMap_singleton ..
  | .built _ => exact List.flatMap_singleton ..

theorem sum_outlined {f : Incident → Nat} (hacted : ∀ t ns, f (.stepped t (.acted ns)) = 0)
    (hcalm : ∀ t q reply, f (.stepped t (.answered q (q.calm reply)))
      = f (.stepped t (.answered q reply))) : ((outlined is).map f).sum = (is.map f).sum := by
  -- a sum is the length of a list with so many entries for each incident
  have hentries : (outlined is).flatMap (fun i => List.replicate (f i) ())
      = is.flatMap fun i => List.replicate (f i) () :=
    flatMap_outlined is (fun t ns => by rw [hacted, List.replicate_zero])
      fun t q reply => by rw [hcalm]
  simpa only [List.length_flatMap, List.length_replicate] using congrArg List.length hentries

theorem opened_outlined : opened (outlined is) l = opened is l :=
  flatMap_outlined is (fun _ _ => rfl) fun _ q _ => by cases q <;> rfl

theorem taken_outlined : taken (outlined is) l = taken is l :=
  sum_outlined is (fun _ _ => rfl) fun _ q _ => by cases q <;> rfl

theorem wakesAt_outlined : wakesAt (outlined is) l = wakesAt is l := by
  rw [wakesAt_eq_sum, wakesAt_eq_sum]
  exact sum_outlined is (fun _ _ => rfl) fun _ q _ => by cases q <;> rfl

end Telling

/-- What a note that is about the weather does not tell, is told without such notes. -/
theorem flatMap_filter_weather {β : Type} {f : Note → List β}
    (hf : ∀ n, n.isWeather = true → f n = []) (ns : List Note) :
    (ns.filter (!·.isWeather)).flatMap f = ns.flatMap f := by
  induction ns with
  | nil => rfl
  | cons n ns ih =>
    rw [List.filter_cons, List.flatMap_cons]
    split
    · rw [List.flatMap_cons, ih]
    · rename_i hn
      rw [ih, hf n (by simpa using hn), List.nil_append]

theorem countP_filter_weather {p : Note → Bool} (hp : ∀ n, n.isWeather = true → p n = false)
    (ns : List Note) : (ns.filter (!·.isWeather)).countP p = ns.countP p := by
  rw [List.countP_filter]
  refine List.countP_congr fun n _ => ?_
  cases hn : n.isWeather with
  | true => simp [hp n hn]
  | false => simp

theorem Control.outline_eq_finished {c : Control} {out : Outcome} :
    c.outline = .finished out ↔ c = .finished out := by
  cases c with
  | running stack => exact ⟨nofun, nofun⟩
  | finished o => exact .rfl

namespace Machine

variable {m m' : Machine} {is is' : List Incident}

theorem control?_outline_finished {t : ThreadId} {out : Outcome} :
    m.outline.control? t = some (.finished out) ↔ m.control? t = some (.finished out) := by
  rw [control?_outline, Option.map_eq_some_iff]
  constructor
  · rintro ⟨c, hc, hout⟩
    rw [hc, Control.outline_eq_finished.mp hout]
  · exact fun h => ⟨_, h, rfl⟩

/-- **Two histories that differ in their weather alone**, with the machines that they lead
to. -/
structure Unswayed (is : List Incident) (m : Machine) (is' : List Incident) (m' : Machine) :
    Prop where
  /-- Flags, slots, queues, counters, the states of endpoints and their addresses are the
  same, and who holds which lock. -/
  store : m'.store = m.store
  /-- Every thread is run by the same executor, and stands where it stands in the other but
  for the weather. -/
  outline : m'.outline = m.outline
  /-- The same operations and loops have ended, and with the same result. -/
  ended : ∀ t out, m'.control? t = some (.finished out) ↔ m.control? t = some (.finished out)
  /-- The same has been said, but for the weather, and the same noted. -/
  notes : (is'.flatMap Incident.notes).filter (!·.isWeather)
    = (is.flatMap Incident.notes).filter (!·.isWeather)
  /-- The same jobs have been appended, run and dropped, in the same order. -/
  jobs : ∀ l, SameLogs is is' l
  /-- The same attempts have been accepted, -/
  accepted : ∀ e, EndpointControl.accepted is' e = EndpointControl.accepted is e
  /-- and the same endpoints counted. -/
  counted : ∀ e, EndpointControl.counted is' e = EndpointControl.counted is e
  /-- The same multiplexers have been opened for each loop, -/
  opened : ∀ l, EndpointControl.opened is' l = EndpointControl.opened is l
  /-- an executor has taken it as often, -/
  taken : ∀ l, EndpointControl.taken is' l = EndpointControl.taken is l
  /-- and somebody has gone to wake it as often. -/
  wakes : ∀ l, wakesAt is' l = wakesAt is l

/-- What is told without a word about the weather is the same. -/
theorem sameLogs_of_notes (h : (is'.flatMap Incident.notes).filter (!·.isWeather)
    = (is.flatMap Incident.notes).filter (!·.isWeather)) (l : LoopId) : SameLogs is is' l := by
  have same {β : Type} {f : Note → List β} (hf : ∀ n, n.isWeather = true → f n = []) :
      (is'.flatMap Incident.notes).flatMap f = (is.flatMap Incident.notes).flatMap f := by
    rw [← flatMap_filter_weather hf, h, flatMap_filter_weather hf]
  constructor
  · exact same fun n hn => by cases n <;> first | rfl | exact absurd hn nofun
  · exact same fun n hn => by cases n <;> first | rfl | exact absurd hn nofun
  · exact same fun n hn => by cases n <;> first | rfl | exact absurd hn nofun
  · -- as many jobs have been reported as a list has entries
    have hreports := congrArg List.length <|
      same (f := fun n => List.replicate (n.reports l) ()) fun n hn => by
        unfold Note.isWeather at hn
        split at hn <;> first | rfl | exact absurd hn nofun
    simpa only [List.length_flatMap, List.length_replicate, ← reported.eq_def] using hreports

theorem Run.unswayed (r : Run is m) (r' : Run is' m') (h : agenda is' = agenda is) :
    Unswayed is m is' m' := by
  obtain ⟨his, hm⟩ := r.outline_eq r' h
  have hnotes : (is'.flatMap Incident.notes).filter (!·.isWeather)
      = (is.flatMap Incident.notes).filter (!·.isWeather) := by
    rw [← notes_outlined, his, notes_outlined]
  exact {
    store := (congrArg Machine.store hm :)
    outline := hm
    ended := fun t out => by
      rw [← control?_outline_finished, hm, control?_outline_finished]
    notes := hnotes
    jobs := sameLogs_of_notes hnotes
    accepted := fun e => by
      rw [EndpointControl.accepted, ← countP_filter_weather, hnotes, countP_filter_weather,
        EndpointControl.accepted]
      all_goals exact fun n hn => by cases n <;> first | rfl | cases hn
    counted := fun e => by
      rw [EndpointControl.counted, List.count, ← countP_filter_weather, hnotes,
        countP_filter_weather, EndpointControl.counted, List.count]
      all_goals exact fun n hn => by cases n <;> first | rfl | cases hn
    opened := fun l => by rw [← opened_outlined, his, opened_outlined]
    taken := fun l => by rw [← taken_outlined, his, taken_outlined]
    wakes := fun l => by rw [← wakesAt_outlined, his, wakesAt_outlined] }

/-- A history can be broken off anywhere. -/
theorem Run.of_append (r : Run (is ++ is') m) : ∃ k, Run is k := by
  cases is' with
  | nil => exact ⟨m, List.append_nil is ▸ r⟩
  | cons i rest =>
    obtain ⟨k, -, rk, -⟩ := r.split
    exact ⟨k, rk⟩

/-- **What the weather can do to a history**: nothing. -/
structure Weatherproof (m : Machine) (is : List Incident) : Prop where
  /-- Its agenda can be gone through in any weather, -/
  anyWeather : ∀ ω, ∃ is' m', Run is' m' ∧ agenda is' = agenda is ∧ InWeather ω is'
  /-- and in any weather comes to the same, -/
  unswayed : ∀ {is' m'}, Run is' m' → agenda is' = agenda is → Unswayed is m is' m'
  /-- all the way through: whatever state it was in, the other was in at the same place. -/
  throughout : ∀ {is' m'}, Run is' m' → agenda is' = agenda is → ∀ {js k}, js <+: is → Run js k →
    ∃ js' k', js' <+: is' ∧ Run js' k' ∧ Unswayed js k js' k'

/-- A history has gone through all of its agenda, one thing after the other. -/
theorem exists_prefix_of_agenda {js a : List Incident} (h : agenda is = agenda js ++ a) :
    ∃ js', js' <+: is ∧ agenda js' = agenda js := by
  induction is using List.reverseRecOn generalizing a with
  | nil => exact ⟨[], List.prefix_rfl, (List.append_eq_nil_iff.mp h.symm).1.symm⟩
  | append_singleton is i ih =>
    rw [agenda_concat] at h
    have earlier {a : List Incident} (h : agenda is = agenda js ++ a) :
        ∃ js', js' <+: is ++ [i] ∧ agenda js' = agenda js :=
      (ih h).imp fun _ hjs => ⟨hjs.1.trans (List.prefix_append ..), hjs.2⟩
    obtain hi | ⟨j, hi, -⟩ := i.outline_cases
    · rw [hi, List.map_nil, List.append_nil] at h
      exact earlier h
    · rw [hi, List.map_singleton] at h
      rcases List.eq_nil_or_concat a with rfl | ⟨a, x, rfl⟩
      · refine ⟨is ++ [i], List.prefix_rfl, ?_⟩
        rw [agenda_concat, hi, List.map_singleton, h, List.append_nil]
      · rw [List.concat_eq_append, ← List.append_assoc] at h
        exact earlier (List.append_inj' h rfl).1

/-- **Waits and wakes have no influence**, whatever they report. -/
theorem Run.weatherproof (r : Run is m) : m.Weatherproof is where
  anyWeather ω := r.inWeather ω
  unswayed r' h := r.unswayed r' h
  throughout {is' m'} r' h js k hjs rk := by
    obtain ⟨rest, rfl⟩ := hjs
    rw [agenda_append] at h
    obtain ⟨js', ⟨rest', rfl⟩, hjs'⟩ := exists_prefix_of_agenda h
    obtain ⟨k', rk'⟩ := r'.of_append
    exact ⟨js', k', List.prefix_append .., rk', rk.unswayed rk' hjs'⟩

end Machine

/-- No wake gets through, and every wait fails. -/
def Weather.storm : Weather := fun _ q =>
  match q with
  | .openMultiplexer .. => .error "storm"
  | .execute .. => false
  | .wake .. => .error "storm"
  | .wait .. => .error "storm"
  | .shutDown _ => ()
  | .isMember _ => false
  | .await _ => false

/-- An endpoint is connected and the factory released in a storm as in calm weather. -/
theorem weatherproof_released :
    let boss : LoopId := ⟨0, .boss⟩
    let is := History.released.incidents
    History.released.machine.Weatherproof is ∧ 0 < wakesAt is boss
      ∧ ∃ is' m', Machine.Run is' m' ∧ InWeather .storm is' ∧ wakesAt is' boss = wakesAt is boss
        ∧ m'.control? 2 = some (.finished (.connected (.ok ())))
        ∧ m'.control? 4 = some (.finished .released) := by
  intro boss is
  have hproof := History.released.orderly.run.weatherproof
  obtain ⟨is', m', r', hagenda, hstorm⟩ := hproof.anyWeather .storm
  have hsame := hproof.unswayed r' hagenda
  have hseen : 0 < wakesAt is boss
      ∧ History.released.machine.control? 2 = some (.finished (.connected (.ok ())))
      ∧ History.released.machine.control? 4 = some (.finished .released) := by decide +kernel
  exact ⟨hproof, hseen.1, is', m', r', hstorm, hsame.wakes boss, (hsame.ended ..).mpr hseen.2.1,
    (hsame.ended ..).mpr hseen.2.2⟩

end EndpointControl
