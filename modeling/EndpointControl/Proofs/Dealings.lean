import EndpointControl.Proofs.Holding

/-!
# What a step does to one loop

Most steps have nothing to do with a given loop. Those that have are few: its slot
is filled, it is marked as started or told to end, a job is appended to its queue,
or the thread that runs it goes on (`Control.deals_of_act`). The thread that runs a
loop takes what is queued, begins or drops one job after the other, says how many
it has run, and ends; all its other steps change nothing that jobs depend on
(`ServePoint.Turns`).

Everything that is said of single loops rests on this one case distinction.
-/

namespace EndpointControl

/-- **The note is about the jobs of the loop**, or what it says of them. -/
def Note.concerns (id : LoopId) : Note → Bool
  | .pushed l _ | .started l _ | .dropped l _ => l = id
  | .said (.ran l _) | .said (.exiting l _) => l = id
  | _ => false

/-! ## The thread that runs a loop -/

namespace ServePoint

/-- **The rest of the batch** that the loop has taken. -/
@[simp] def batch : ServePoint → List Job
  | .run batch _ => batch
  | _ => []

/-- **The rest of what the loop drops** at its end. -/
@[simp] def leftover : ServePoint → List Job
  | .discard rest _ => rest
  | _ => []

/-- How many jobs the loop has begun since it last said so. -/
@[simp] def unreported : ServePoint → Nat
  | .run _ n | .endTurn n | .report n => n
  | _ => 0

/-- **How many jobs the loop has found** when it looked into its queue for the last
time. -/
def last? : ServePoint → Option Nat
  | .discard _ n | .markExited n | .announceExit n => some n
  | _ => none

/-- **The loop has taken a batch and has not waited since.** What is queued in the
meantime is not seen before the wait is over. -/
def isBusy : ServePoint → Bool
  | .run .. | .endTurn _ | .report _ | .readShutDown | .wait => true
  | _ => false

/-- **The loop is going to take what is queued** before it looks whether to end. -/
def isFresh : ServePoint → Bool
  | .announce | .serialize | .takeQueue | .takeBatch | .wait | .waited _ => true
  | _ => false

/-- **A step with which nothing becomes of any job.** -/
structure Calm (l : Loop) (p p' : ServePoint) : Prop where
  batch : p'.batch = p.batch
  leftover : p'.leftover = p.leftover
  unreported : p'.unreported = p.unreported
  last : p'.last? = p.last?
  busy : p'.isBusy = true → p.isBusy = true
  fresh : p.isFresh = true → p'.isFresh = true
  wait : p' = .wait → l.shutDown = false

/-- Where a loop comes that has nothing in hand, it does not wait. -/
theorem Calm.of_idle {l : Loop} {p p' : ServePoint} (batch : p'.batch = p.batch)
    (leftover : p'.leftover = p.leftover) (unreported : p'.unreported = p.unreported)
    (last : p'.last? = p.last?) (idle : p'.isBusy = false)
    (fresh : p.isFresh = true → p'.isFresh = true) : Calm l p p' where
  batch := batch
  leftover := leftover
  unreported := unreported
  last := last
  busy h := by cases idle.symm.trans h
  fresh := fresh
  wait h := by cases h; cases idle

/-- **One step of the thread that runs a loop**: what it does to the loop, where it
leads, if the thread goes on, and what it leaves behind. -/
inductive Turns (id : LoopId) (l : Loop) :
    ServePoint → Loop → Option ServePoint → List Note → Prop where
  /-- Nothing becomes of any job. -/
  | passes {p p' : ServePoint} {ns : List Note} (h : Calm l p p')
    (hns : ∀ n ∈ ns, n.concerns id = false) : Turns id l p l (some p') ns
  /-- It takes everything queued. -/
  | takes : Turns id l .takeBatch { l with queue := #[] } (some (.run l.queue.toList 0)) []
  /-- It begins the next job. -/
  | begins {j : Job} {rest : List Job} {n : Nat} :
    Turns id l (.run (j :: rest) n) l (some (.run rest (n + 1))) [.started id j]
  /-- It says how many it has run. -/
  | reports {n : Nat} :
    Turns id l (.report (n + 1)) l (some .readShutDown) [.said (.ran id (n + 1))]
  /-- It takes what is left. -/
  | takesRest :
    Turns id l .takeRest { l with queue := #[] } (some (.discard l.queue.toList l.queue.size)) []
  /-- It drops the next job. -/
  | drops {j : Job} {rest : List Job} {n : Nat} :
    Turns id l (.discard (j :: rest) n) l (some (.discard rest n)) [.dropped id j]
  /-- It is marked as ended. -/
  | exits {n : Nat} :
    Turns id l (.markExited n) { l with exited := true } (some (.announceExit n)) []
  /-- It says so, and the thread ends. -/
  | ends {n : Nat} : Turns id l (.announceExit n) l none [.said (.exiting id n)]

end ServePoint

/-- The point at which the procedure runs the loop. -/
def Frame.serving? (id : LoopId) : Frame → Option ServePoint
  | .serve l _ p => if l = id then some p else none
  | _ => none

/-- **The point at which the thread runs the loop**, if it does. -/
def Control.serving? (id : LoopId) : Control → Option ServePoint
  | .running stack => stack.findSome? (Frame.serving? id)
  | .finished _ => none

section Serving

variable {id : LoopId} {fr fr' caller : Frame} {below : List Frame}

@[simp] theorem Control.serving?_nil : (Control.running []).serving? id = none := rfl

@[simp] theorem Control.serving?_finished (o : Outcome) :
    (Control.finished o).serving? id = none := rfl

@[simp] theorem Control.serving?_cons : (Control.running (fr :: below)).serving? id
    = (fr.serving? id).or ((Control.running below).serving? id) := by
  rw [serving?, serving?, List.findSome?_cons]
  cases fr.serving? id <;> rfl

theorem Frame.serving?_of_not_root (h : fr.isRoot = false) : fr.serving? id = none := by
  cases fr <;> first | rfl | exact absurd h nofun

/-- Nobody runs a loop while it has to be told how a call ended. -/
theorem Frame.serving?_resume (caller : Frame) (r : Except Failure Unit) :
    (caller.resume r).serving? id = caller.serving? id := by
  unfold resume
  split
  all_goals first | rfl | (split <;> rfl)

/-- **A return leaves the loop that the thread runs where it is.** -/
theorem Control.serving?_back (h : fr.isRoot = false) (r : Except Failure Unit) :
    (back below r).serving? id = (Control.running (fr :: below)).serving? id := by
  rw [serving?_cons, Frame.serving?_of_not_root h, Option.none_or]
  cases below with
  | nil => rfl
  | cons caller rest => rw [back, serving?_cons, serving?_cons, Frame.serving?_resume]

/-- **So does every step of another procedure.** -/
theorem Control.Goes.serving? {c : Control} (h : c.Goes fr below) (hst : fr.Stacked below)
    (hfr : ∀ m p, fr ≠ .serve id m p) :
    c.serving? id = (Control.running (fr :: below)).serving? id := by
  have hnone {fr' : Frame} (hsame : fr.SameCall fr') : fr'.serving? id = none := by
    cases hsame with
    | @serve l m p p' =>
      rw [Frame.serving?, if_neg]
      rintro rfl
      exact hfr m p rfl
    | _ => rfl
  cases h with
  | within hsame => rw [serving?_cons, serving?_cons, hnone hsame, hnone .rfl]
  | calls hsame hnew =>
    rw [serving?_cons, Frame.serving?_of_not_root (Frame.isRoot_of_isNew hnew), serving?_cons,
      serving?_cons, hnone hsame, hnone .rfl, Option.none_or]
  | returns hroot => exact serving?_back hroot _
  | ends hroot =>
    obtain rfl := hst.eq_nil hroot
    rw [serving?_cons, hnone .rfl, Option.none_or]
    rfl

end Serving

/-! ## All others -/

/-- **What one step does to one loop.** -/
inductive Control.Deals (id : LoopId) (s s' : Store) : Control → Control → List Note → Prop where
  /-- Nothing. -/
  | aside {c c' : Control} {ns : List Note} (hloop : s'.loop? id = s.loop? id)
    (hns : ∀ n ∈ ns, n.concerns id = false) (hserving : c'.serving? id = c.serving? id) :
    Deals id s s' c c' ns
  /-- Its slot is filled. -/
  | fills {l : Loop} {m : Multiplexer} {below : List Frame} (found : s.loop? id = some l)
    (hloop : s'.loop? id = some { l with slot := some m }) :
    Deals id s s' (.running (.start id (.fillSlot m) :: below))
      (.running (.start id (.execute m) :: below)) []
  /-- It is marked as started. -/
  | marks {l : Loop} {below : List Frame} (found : s.loop? id = some l)
    (hloop : s'.loop? id = some { l with started := true }) :
    Deals id s s' (.running (.start id .mark :: below))
      (.running (.start id .announce :: below)) []
  /-- It is told to end. -/
  | raises {l : Loop} {below : List Frame} {c' : Control} (found : s.loop? id = some l)
    (hloop : s'.loop? id = some { l with shutDown := true })
    (hc' : c' = if l.shutDown then .back below (.ok ())
      else .running (.signal id .takeSlot :: below)) :
    Deals id s s' (.running (.signal id .raise :: below)) c' []
  /-- A job is appended to its queue. -/
  | pushes {l : Loop} {j : Job} {mo : Option Multiplexer} {below : List Frame} {c' : Control}
    (found : s.loop? id = some l)
    (hloop : s'.loop? id = some { l with queue := l.queue.push j })
    (hc' : c' = .running (.submit id j (match mo with
      | some m => .wake m
      | none => .leave) :: below)) :
    Deals id s s' (.running (.submit id j (.append mo) :: below)) c' [.pushed id j]
  /-- The thread that runs it goes on. -/
  | turns {l l' : Loop} {m : Multiplexer} {p : ServePoint} {p' : Option ServePoint} {c' : Control}
    {ns : List Note} (found : s.loop? id = some l) (hloop : s'.loop? id = some l')
    (hserving : c'.serving? id = p') (turn : p.Turns id l l' p' ns) :
    Deals id s s' (.running [.serve id m p]) c' ns

section Procedures

variable {id : LoopId} {s : Store} {t : ThreadId} {below : List Frame} {g : Store → Store}
  {c c' : Control} {ns : List Note}

/-- What comes of a wait is not about jobs. -/
theorem Notice.ofWait_aside (id id' : LoopId) (r : Except String Nat) :
    ∀ n ∈ Notice.ofWait id r, n.concerns id' = false := by
  unfold Notice.ofWait
  split <;> simp [Note.concerns]

@[simp] theorem Control.serving?_serve (id : LoopId) (m : Multiplexer) (p : ServePoint)
    (below : List Frame) : (Control.running (.serve id m p :: below)).serving? id = some p := by
  simp [Frame.serving?]

/-- A step between two points with which nothing becomes of any job. -/
theorem ServePoint.turns_of_calm {s' : Store} {l : Loop} {m : Multiplexer} {p p' : ServePoint}
    (found : s.loop? id = some l) (hg : s'.loop? id = s.loop? id) (h : Calm l p p')
    (hns : ∀ n ∈ ns, n.concerns id = false) : ∃ l', s'.loop? id = some l'
      ∧ p.Turns id l l' ((Control.running [.serve id m p']).serving? id) ns :=
  ⟨l, hg.trans found, Control.serving?_serve id m p' [] ▸ .passes h hns⟩

/-- Such a step that leaves nothing behind. -/
theorem ServePoint.turns_of_silent {s' : Store} {l : Loop} {m : Multiplexer} {p p' : ServePoint}
    (found : s.loop? id = some l) (hg : s'.loop? id = s.loop? id) (h : Calm l p p') :
    ∃ l', s'.loop? id = some l'
      ∧ p.Turns id l l' ((Control.running [.serve id m p']).serving? id) [] :=
  turns_of_calm found hg h (List.forall_mem_nil _)

/-- **A step of the thread that runs a loop is one of its turns.** -/
theorem ServePoint.turns {l : Loop} {m : Multiplexer} {p : ServePoint}
    (found : s.loop? id = some l) (h : p.move s t [] id l m = .act g c ns) :
    ∃ l', (g s).loop? id = some l' ∧ p.Turns id l l' (c.serving? id) ns := by
  have hself (k : Loop → Loop) : (s.modifyLoop id k).loop? id = some (k l) :=
    Store.loop?_modifyLoop_self found k
  cases p
  case run batch n =>
    cases batch with
    | nil =>
      simp [ServePoint.move] at h
      obtain ⟨rfl, rfl, rfl⟩ := h
      exact turns_of_silent found rfl ⟨rfl, rfl, rfl, rfl, fun h => h, by rintro ⟨⟩, by simp⟩
    | cons j rest =>
      simp [ServePoint.move] at h
      obtain ⟨rfl, rfl, rfl⟩ := h
      refine ⟨l, found, ?_⟩
      cases j <;> exact Control.serving?_serve id m (.run rest (n + 1)) [] ▸ .begins
  case report n =>
    cases n with
    | zero =>
      simp [ServePoint.move] at h
      obtain ⟨rfl, rfl, rfl⟩ := h
      exact turns_of_silent found rfl ⟨rfl, rfl, rfl, rfl, fun _ => rfl, by rintro ⟨⟩, by simp⟩
    | succ n =>
      simp [ServePoint.move] at h
      obtain ⟨rfl, rfl, rfl⟩ := h
      exact ⟨l, found, Control.serving?_serve id m .readShutDown [] ▸ .reports⟩
  case discard rest n =>
    cases rest with
    | nil =>
      simp [ServePoint.move] at h
      obtain ⟨rfl, rfl, rfl⟩ := h
      exact turns_of_silent found rfl (.of_idle rfl rfl rfl rfl rfl (by rintro ⟨⟩))
    | cons j rest =>
      simp [ServePoint.move] at h
      obtain ⟨rfl, rfl, rfl⟩ := h
      exact ⟨l, found, Control.serving?_serve id m (.discard rest n) [] ▸ .drops⟩
  all_goals simp [ServePoint.move] at h
  case serialize =>
    split at h <;> simp at h
    · obtain ⟨-, rfl, rfl, rfl⟩ := h
      exact turns_of_silent found rfl (.of_idle rfl rfl rfl rfl rfl fun _ => rfl)
    · obtain ⟨rfl, rfl, rfl⟩ := h
      exact turns_of_silent found rfl (.of_idle rfl rfl rfl rfl rfl fun _ => rfl)
  case takeBatch =>
    obtain ⟨rfl, rfl, rfl⟩ := h
    exact ⟨_, hself _, Control.serving?_serve id m (.run l.queue.toList 0) [] ▸ .takes⟩
  case takeRest =>
    obtain ⟨rfl, rfl, rfl⟩ := h
    exact ⟨_, hself _,
      Control.serving?_serve id m (.discard l.queue.toList l.queue.size) [] ▸ .takesRest⟩
  case endTurn n =>
    split at h <;> simp at h <;> obtain ⟨rfl, rfl, rfl⟩ := h
    all_goals
      exact turns_of_silent found rfl ⟨rfl, rfl, rfl, rfl, fun _ => rfl, by rintro ⟨⟩, by simp⟩
  case readShutDown =>
    obtain ⟨rfl, rfl, rfl⟩ := h
    split
    · exact turns_of_silent found rfl (.of_idle rfl rfl rfl rfl rfl (by rintro ⟨⟩))
    · exact turns_of_silent found rfl
        ⟨rfl, rfl, rfl, rfl, fun _ => rfl, by rintro ⟨⟩, fun _ => by simp_all⟩
  case markExited n =>
    obtain ⟨rfl, rfl, rfl⟩ := h
    exact ⟨_, hself _, Control.serving?_serve id m (.announceExit n) [] ▸ .exits⟩
  case announceExit n =>
    obtain ⟨rfl, rfl, rfl⟩ := h
    exact ⟨l, found, .ends⟩
  case takeQueue =>
    obtain ⟨-, rfl, rfl, rfl⟩ := h
    exact turns_of_silent found rfl (.of_idle rfl rfl rfl rfl rfl fun _ => rfl)
  case takeQueueLast =>
    obtain ⟨-, rfl, rfl, rfl⟩ := h
    exact turns_of_silent found rfl (.of_idle rfl rfl rfl rfl rfl (by rintro ⟨⟩))
  case announce =>
    obtain ⟨rfl, rfl, rfl⟩ := h
    exact turns_of_calm found rfl (.of_idle rfl rfl rfl rfl rfl fun _ => rfl)
      (List.forall_mem_singleton.mpr rfl)
  case waited r =>
    obtain ⟨rfl, rfl, rfl⟩ := h
    exact turns_of_calm found rfl (.of_idle rfl rfl rfl rfl rfl fun _ => rfl)
      (Notice.ofWait_aside id id r)

/-- A loop that is changed by somebody else is another loop. -/
theorem Store.loop?_modifyLoop_of_ne {id' : LoopId} (h : id' ≠ id) (k : Loop → Loop) :
    (s.modifyLoop id' k).loop? id = s.loop? id := by
  rw [Store.loop?_modifyLoop, if_neg h]

theorem StartPoint.deals {id' : LoopId} {l : Loop} {p : StartPoint} (found : s.loop? id' = some l)
    (h : p.move s t below id' l = .act g c ns)
    (hserving : c.serving? id = (Control.running (.start id' p :: below)).serving? id) :
    (Control.running (.start id' p :: below)).Deals id s (g s) c ns := by
  cases p <;> simp [StartPoint.move] at h
  case fillSlot m =>
    obtain ⟨rfl, rfl, rfl⟩ := h
    by_cases hid : id' = id
    · subst hid
      exact .fills found (Store.loop?_modifyLoop_self found _)
    · exact .aside (Store.loop?_modifyLoop_of_ne hid _) (List.forall_mem_nil _) hserving
  case mark =>
    obtain ⟨rfl, rfl, rfl⟩ := h
    by_cases hid : id' = id
    · subst hid
      exact .marks found (Store.loop?_modifyLoop_self found _)
    · exact .aside (Store.loop?_modifyLoop_of_ne hid _) (List.forall_mem_nil _) hserving
  case takeSlot =>
    obtain ⟨-, rfl, rfl, rfl⟩ := h
    exact .aside rfl (List.forall_mem_nil _) hserving
  case announce =>
    obtain ⟨rfl, rfl, rfl⟩ := h
    exact .aside rfl (List.forall_mem_singleton.mpr rfl) hserving
  all_goals
    obtain ⟨rfl, rfl, rfl⟩ := h
    exact .aside rfl (List.forall_mem_nil _) hserving

theorem SubmitPoint.deals {id' : LoopId} {l : Loop} {j : Job} {p : SubmitPoint}
    (found : s.loop? id' = some l) (h : p.move s t below id' l j = .act g c ns)
    (hserving : c.serving? id = (Control.running (.submit id' j p :: below)).serving? id) :
    (Control.running (.submit id' j p :: below)).Deals id s (g s) c ns := by
  cases p <;> simp [SubmitPoint.move] at h
  case append mo =>
    obtain ⟨rfl, rfl, rfl⟩ := h
    by_cases hid : id' = id
    · subst hid
      exact .pushes found (Store.loop?_modifyLoop_self found _) rfl
    · exact .aside (Store.loop?_modifyLoop_of_ne hid _)
        (List.forall_mem_singleton.mpr (decide_eq_false hid)) hserving
  case takeSlot | takeQueue =>
    obtain ⟨-, rfl, rfl, rfl⟩ := h
    exact .aside rfl (List.forall_mem_nil _) hserving
  case serialize m =>
    split at h <;> simp at h
    · obtain ⟨-, rfl, rfl, rfl⟩ := h
      exact .aside rfl (List.forall_mem_nil _) hserving
    · obtain ⟨rfl, rfl, rfl⟩ := h
      exact .aside rfl (List.forall_mem_nil _) hserving
  case leave =>
    split at h <;> simp at h <;> obtain ⟨rfl, rfl, rfl⟩ := h <;>
      exact .aside rfl (List.forall_mem_nil _) hserving
  case wakeFailed cause =>
    obtain ⟨rfl, rfl, rfl⟩ := h
    exact .aside rfl (List.forall_mem_singleton.mpr rfl) hserving
  all_goals
    obtain ⟨rfl, rfl, rfl⟩ := h
    exact .aside rfl (List.forall_mem_nil _) hserving

theorem SignalPoint.deals {id' : LoopId} {l : Loop} {p : SignalPoint}
    (found : s.loop? id' = some l) (h : p.move s t below id' l = .act g c ns)
    (hserving : c.serving? id = (Control.running (.signal id' p :: below)).serving? id) :
    (Control.running (.signal id' p :: below)).Deals id s (g s) c ns := by
  cases p <;> simp [SignalPoint.move] at h
  case raise =>
    obtain ⟨rfl, rfl, rfl⟩ := h
    by_cases hid : id' = id
    · subst hid
      exact .raises found (Store.loop?_modifyLoop_self found _) rfl
    · exact .aside (Store.loop?_modifyLoop_of_ne hid _) (List.forall_mem_nil _) hserving
  case takeSlot =>
    obtain ⟨-, rfl, rfl, rfl⟩ := h
    exact .aside rfl (List.forall_mem_nil _) hserving
  case wakeFailed | announce =>
    obtain ⟨rfl, rfl, rfl⟩ := h
    exact .aside rfl (List.forall_mem_singleton.mpr rfl) hserving
  all_goals
    obtain ⟨rfl, rfl, rfl⟩ := h
    exact .aside rfl (List.forall_mem_nil _) hserving

/-- The thread that runs another loop. -/
theorem ServePoint.deals {id' : LoopId} {l : Loop} {m : Multiplexer} {p : ServePoint}
    (hid : id' ≠ id) (h : p.move s t below id' l m = .act g c ns)
    (hserving : c.serving? id = (Control.running (.serve id' m p :: below)).serving? id) :
    (Control.running (.serve id' m p :: below)).Deals id s (g s) c ns := by
  have hnote {n : Note} (hn : n.concerns id = decide (id' = id)) :
      ∀ n' ∈ [n], n'.concerns id = false :=
    List.forall_mem_singleton.mpr (hn.trans (decide_eq_false hid))
  cases p
  case run batch n =>
    cases batch <;> simp [ServePoint.move] at h <;> obtain ⟨rfl, rfl, rfl⟩ := h
    · exact .aside rfl (List.forall_mem_nil _) hserving
    · exact .aside rfl (hnote rfl) hserving
  case report n =>
    cases n <;> simp [ServePoint.move] at h <;> obtain ⟨rfl, rfl, rfl⟩ := h
    · exact .aside rfl (List.forall_mem_nil _) hserving
    · exact .aside rfl (hnote rfl) hserving
  case discard rest n =>
    cases rest <;> simp [ServePoint.move] at h <;> obtain ⟨rfl, rfl, rfl⟩ := h
    · exact .aside rfl (List.forall_mem_nil _) hserving
    · exact .aside rfl (hnote rfl) hserving
  all_goals simp [ServePoint.move] at h
  case serialize =>
    split at h <;> simp at h
    · obtain ⟨-, rfl, rfl, rfl⟩ := h
      exact .aside rfl (List.forall_mem_nil _) hserving
    · obtain ⟨rfl, rfl, rfl⟩ := h
      exact .aside rfl (List.forall_mem_nil _) hserving
  case takeQueue | takeQueueLast =>
    obtain ⟨-, rfl, rfl, rfl⟩ := h
    exact .aside rfl (List.forall_mem_nil _) hserving
  case takeBatch | takeRest | markExited =>
    obtain ⟨rfl, rfl, rfl⟩ := h
    exact .aside (Store.loop?_modifyLoop_of_ne hid _) (List.forall_mem_nil _) hserving
  case endTurn n =>
    split at h <;> simp at h <;> obtain ⟨rfl, rfl, rfl⟩ := h <;>
      exact .aside rfl (List.forall_mem_nil _) hserving
  case announce =>
    obtain ⟨rfl, rfl, rfl⟩ := h
    exact .aside rfl (List.forall_mem_singleton.mpr rfl) hserving
  case waited r =>
    obtain ⟨rfl, rfl, rfl⟩ := h
    exact .aside rfl (Notice.ofWait_aside id' id r) hserving
  case announceExit n =>
    obtain ⟨rfl, rfl, rfl⟩ := h
    exact .aside rfl (hnote rfl) hserving
  case readShutDown =>
    obtain ⟨rfl, rfl, rfl⟩ := h
    exact .aside rfl (List.forall_mem_nil _) hserving

/-- Nothing is done to any loop, and nothing is noted about one. -/
def Store.Aloof (s s' : Store) (ns : List Note) : Prop :=
  ∀ id, s'.loop? id = s.loop? id ∧ ∀ n ∈ ns, n.concerns id = false

theorem Store.aloof {s s' : Store} (h : s'.factories = s.factories) : s.Aloof s' [] :=
  fun id => ⟨by rw [Store.loop?, h, Store.loop?], List.forall_mem_nil _⟩

theorem Store.aloof_note {s s' : Store} {n : Note} (h : s'.factories = s.factories)
    (hn : ∀ id, n.concerns id = false) : s.Aloof s' [n] :=
  fun id => ⟨by rw [Store.loop?, h, Store.loop?], List.forall_mem_singleton.mpr (hn id)⟩

theorem Store.aloof_modifyFactory {f : FactoryId} {k : Factory → Factory}
    (h : ∀ (fac : Factory) st, (k fac).loop? st = fac.loop? st)
    (hns : ∀ id, ∀ n ∈ ns, n.concerns id = false) : s.Aloof (s.modifyFactory f k) ns :=
  fun id => ⟨s.loop?_modifyFactory f h id, hns id⟩

/-- What is said while executors are let go is not about jobs. -/
theorem Termination.aside_of_turn {u after : Termination} {n : Notice}
    (h : u.turn = .note n after) (id : LoopId) : (Note.said n).concerns id = false := by
  unfold Termination.turn at h
  split at h
  case h_5 => obtain ⟨rfl, -⟩ := Turn.note.inj h; rfl
  case h_8 => obtain ⟨rfl, -⟩ := Turn.note.inj h; rfl
  all_goals exact absurd h nofun

theorem AttemptPoint.aloof {e : EndpointId} {r : Endpoint} {a : Address} {p : AttemptPoint}
    (h : p.move below e r a = .act g c ns) : s.Aloof (g s) ns := by
  cases p <;> simp [AttemptPoint.move] at h <;> obtain ⟨rfl, rfl, rfl⟩ := h
  case announce | announceRefusal => exact Store.aloof_note rfl fun _ => rfl
  all_goals exact Store.aloof rfl

theorem RegistrationPoint.aloof {e : EndpointId} {r : Endpoint} {p : RegistrationPoint}
    (h : p.move s t below e r = .act g c ns) : s.Aloof (g s) ns := by
  cases p <;> simp [RegistrationPoint.move] at h
  case takeStatus =>
    obtain ⟨-, rfl, rfl, rfl⟩ := h
    exact Store.aloof rfl
  case mark =>
    obtain ⟨rfl, rfl, rfl⟩ := h
    exact Store.aloof rfl
  case count =>
    obtain ⟨rfl, rfl, rfl⟩ := h
    refine Store.aloof_modifyFactory (fun fac st => ?_) fun _ => List.forall_mem_singleton.mpr rfl
    rw [Factory.loop?_modifyWorker]
    exact fun _ => rfl
  case announce =>
    obtain ⟨rfl, rfl, rfl⟩ := h
    exact Store.aloof_note rfl fun _ => rfl

theorem DropPoint.aloof {e : EndpointId} {r : Endpoint} {p : DropPoint}
    (h : p.move s t below e r = .act g c ns) : s.Aloof (g s) ns := by
  cases p <;> simp [DropPoint.move] at h
  case takeStatus => obtain ⟨-, rfl, rfl, rfl⟩ := h; exact Store.aloof rfl
  case revert => obtain ⟨rfl, rfl, rfl⟩ := h; exact Store.aloof rfl

theorem CreatePoint.aloof {f : FactoryId} {fac : Factory} {p : CreatePoint}
    (h : p.move s below f fac = .act g c ns) : s.Aloof (g s) ns := by
  cases p <;> simp [CreatePoint.move] at h
  case count w n =>
    obtain ⟨rfl, rfl, rfl⟩ := h
    refine Store.aloof_modifyFactory (fun fac st => ?_) fun _ => List.forall_mem_nil _
    rw [Factory.loop?_modifyWorker]
    exact fun _ => rfl
  case pickWorker | drawNumber =>
    obtain ⟨rfl, rfl, rfl⟩ := h
    exact Store.aloof_modifyFactory (fun _ _ => rfl) fun _ => List.forall_mem_nil _
  case submit e => split at h <;> simp at h; obtain ⟨rfl, rfl, rfl⟩ := h; exact Store.aloof rfl
  case announce e =>
    split at h <;> simp at h
    obtain ⟨rfl, rfl, rfl⟩ := h
    exact Store.aloof_note rfl fun _ => rfl
  case announceBound w n =>
    obtain ⟨rfl, rfl, rfl⟩ := h
    exact Store.aloof_note rfl fun _ => rfl
  all_goals
    obtain ⟨rfl, rfl, rfl⟩ := h
    exact Store.aloof rfl

theorem ConnectPoint.aloof {e : EndpointId} {r : Endpoint} {a : Address} {p : ConnectPoint}
    (h : p.move s t below e r a = .act g c ns) : s.Aloof (g s) ns := by
  cases p <;> simp [ConnectPoint.move] at h
  case count =>
    obtain ⟨rfl, rfl, rfl⟩ := h
    refine Store.aloof_modifyFactory (fun fac st => ?_) fun _ => List.forall_mem_nil _
    rw [Factory.loop?_modifyBoss]
    exact fun _ => rfl
  case takeStatus => obtain ⟨-, rfl, rfl, rfl⟩ := h; exact Store.aloof rfl
  case begin => split at h <;> simp at h <;> obtain ⟨rfl, rfl, rfl⟩ := h <;> exact Store.aloof rfl
  all_goals
    obtain ⟨rfl, rfl, rfl⟩ := h
    exact Store.aloof rfl

theorem ClosePoint.aloof {e : EndpointId} {r : Endpoint} {p : ClosePoint}
    (h : p.move s t below e r = .act g c ns) : s.Aloof (g s) ns := by
  cases p <;> simp [ClosePoint.move] at h
  case takeStatus => obtain ⟨-, rfl, rfl, rfl⟩ := h; exact Store.aloof rfl
  case close => obtain ⟨rfl, rfl, rfl⟩ := h; exact Store.aloof rfl

theorem ReleasePoint.aloof {f : FactoryId} {fac : Factory} {p : ReleasePoint}
    (h : p.move below f fac = .act g c ns) : s.Aloof (g s) ns := by
  cases p <;> simp [ReleasePoint.move] at h
  case raise =>
    obtain ⟨rfl, rfl, rfl⟩ := h
    exact Store.aloof_modifyFactory (fun _ _ => rfl) fun _ => List.forall_mem_nil _
  case signalWorkers i =>
    split at h <;> simp at h <;> obtain ⟨rfl, rfl, rfl⟩ := h <;> exact Store.aloof rfl
  case terminate u =>
    split at h <;> simp at h <;> obtain ⟨rfl, rfl, rfl⟩ := h
    · exact Store.aloof_note rfl (Termination.aside_of_turn ‹_›)
    all_goals exact Store.aloof rfl
  case announce | announceWorkers | announceEnd =>
    obtain ⟨rfl, rfl, rfl⟩ := h
    exact Store.aloof_note rfl fun _ => rfl
  case signalBoss =>
    obtain ⟨rfl, rfl, rfl⟩ := h
    exact Store.aloof rfl

/-- **Every step deals with a loop in one of these ways.** -/
theorem Control.deals_of_act (hc : c.Stacked) (h : c.move s t = .act g c' ns) :
    c.Deals id s (g s) c' ns := by
  obtain ⟨fr, below, rfl, hm⟩ := moves_of_act h
  have hgoes := goes_of_running h
  -- procedures that are not about a loop have nothing to do with any
  have haloof (ha : s.Aloof (g s) ns) (hfr : ∀ m p, fr ≠ .serve id m p) :
      (Control.running (fr :: below)).Deals id s (g s) c' ns :=
    .aside (ha id).1 (ha id).2 (hgoes.serving? hc hfr)
  cases hm with
  | start found hp => exact StartPoint.deals found hp (hgoes.serving? hc nofun)
  | submit found hp => exact SubmitPoint.deals found hp (hgoes.serving? hc nofun)
  | signal found hp => exact SignalPoint.deals found hp (hgoes.serving? hc nofun)
  | @serve id' l m p found hp =>
    by_cases hid : id' = id
    · -- nothing stands below a loop that is run
      subst hid
      obtain rfl := hc.eq_nil rfl
      obtain ⟨l', hl', turn⟩ := ServePoint.turns found hp
      exact .turns found hl' rfl turn
    · refine ServePoint.deals hid hp (hgoes.serving? hc fun m' p' heq => ?_)
      exact hid (Frame.serve.inj heq).1
  | attempt _ hp => exact haloof (AttemptPoint.aloof hp) nofun
  | registration _ hp => exact haloof (RegistrationPoint.aloof hp) nofun
  | drop _ hp => exact haloof (DropPoint.aloof hp) nofun
  | create _ hp => exact haloof (CreatePoint.aloof hp) nofun
  | connect _ hp => exact haloof (ConnectPoint.aloof hp) nofun
  | close _ hp => exact haloof (ClosePoint.aloof hp) nofun
  | release _ hp => exact haloof (ReleasePoint.aloof hp) nofun

/-- **A job is appended by whoever submits it**, and nobody else. -/
theorem Control.append_of_pushed {j : Job} (hc : c.Stacked) (h : c.move s t = .act g c' ns)
    (hn : .pushed id j ∈ ns) :
    ∃ mo below, c = .running (.submit id j (.append mo) :: below) := by
  have hdeals : c.Deals id s (g s) c' ns := deals_of_act hc h
  have hself : (Note.pushed id j).concerns id = true := decide_eq_true rfl
  cases hdeals with
  | aside _ hns => exact absurd (hself.symm.trans (hns _ hn)) nofun
  | pushes =>
    obtain ⟨-, rfl⟩ := Note.pushed.inj (List.mem_singleton.mp hn)
    exact ⟨_, _, rfl⟩
  | turns _ _ _ turn =>
    cases turn with
    | passes _ hns => exact absurd (hself.symm.trans (hns _ hn)) nofun
    | begins | reports | drops | ends => exact absurd (List.mem_singleton.mp hn) nofun
    | takes | takesRest | exits => exact absurd hn List.not_mem_nil
  | fills | marks | raises => exact absurd hn List.not_mem_nil

/-- **An answer leaves a loop that is run where it is**, unless the loop has waited. -/
theorem Control.serving?_of_ask {q : Request} {after : q.Reply → Control} (reply : q.Reply)
    (h : c.move s t = .ask q after) : (after reply).serving? id = c.serving? id
      ∨ ∃ m r below, c = .running (.serve id m .wait :: below)
        ∧ after reply = .running (.serve id m (.waited r) :: below) := by
  obtain ⟨fr, below, rfl, ha⟩ := asks h
  cases ha with
  | openNew | wakeSubmit | wakeSignal => cases reply <;> exact .inl rfl
  | @wait id' m =>
    by_cases hid : id' = id
    · subst hid
      exact .inr ⟨m, reply, below, rfl, rfl⟩
    · simp [Frame.serving?, hid]
  | _ => exact .inl rfl

end Procedures

end EndpointControl
