import EndpointControl.Proofs.Flags
import EndpointControl.Proofs.Ledger
import EndpointControl.Proofs.Stacks

/-!
# Taking turns

Threads may be interleaved at every point. Here they are not: in an *uninterrupted*
history a thread moves only while all others rest, so operations are atomic but
for pauses in a wake. In an *orderly* one executors keep their word besides.

If nobody comes in between, a job is appended in the same turn in which the
submitter has seen that the loop goes on, so nothing comes into the queue of a loop
that has been told to end, and a loop that has ended leaves an empty queue
(`Machine.Uninterrupted.queue_of_exited`).
-/

namespace EndpointControl

/-! ## Executors -/

/-- Somebody shuts the executor down. -/
def Incident.quits (x : ExecutorId) : Incident → Bool
  | .stepped _ (.answered (.shutDown x') _) => x' = x
  | _ => false

/-- **The executor has been shut down.** -/
def Quit (is : List Incident) (x : ExecutorId) : Prop := ∃ i ∈ is, i.quits x = true

instance (is : List Incident) (x : ExecutorId) : Decidable (Quit is x) :=
  inferInstanceAs (Decidable (∃ i ∈ is, _))

theorem Quit.append {is is' : List Incident} {x : ExecutorId} (h : Quit is x) :
    Quit (is ++ is') x := by
  obtain ⟨i, hi, hx⟩ := h
  exact ⟨i, List.mem_append_left _ hi, hx⟩

/-- The thread has ended. -/
def Control.isOver : Control → Bool
  | .finished _ => true
  | .running _ => false

namespace Machine

/-- The executor that runs the thread, if one does. -/
def home? (m : Machine) (t : ThreadId) : Option ExecutorId := m.threads[t]?.bind Thread.home

/-- **All the threads of the executor have ended.** -/
def Deserted (m : Machine) (x : ExecutorId) : Prop :=
  ∀ th ∈ m.threads, th.home = some x → th.control.isOver = true

instance (m : Machine) (x : ExecutorId) : Decidable (m.Deserted x) :=
  inferInstanceAs (Decidable (∀ th ∈ m.threads, _))

/-- **All threads rest but this one.** -/
def Alone (m : Machine) (t : ThreadId) : Prop :=
  ∀ t' (_ : t' < m.threads.size), t' ≠ t → m.threads[t'].control.isResting = true

instance (m : Machine) (t : ThreadId) : Decidable (m.Alone t) :=
  inferInstanceAs (Decidable (∀ t' (_ : t' < m.threads.size), _))

/-- **Executors keep their word.** They take no work after they have been shut
down, know their threads, and have terminated only when they have been shut down
and all their threads have ended. -/
def Keeps (m : Machine) (is : List Incident) (t : ThreadId) : Happening → Prop
  | .answered (.execute x _ _) true => ¬ Quit is x
  | .answered (.isMember x) own => own = decide (m.home? t = some x)
  | .answered (.await x) true => Quit is x ∧ m.Deserted x
  | _ => True

/-- Whoever moves is alone, and executors keep their word. -/
def Mannered (m : Machine) (is : List Incident) : Incident → Prop
  | .stepped t h => m.Alone t ∧ m.Keeps is t h
  | _ => True

/-- **A history in which nobody comes in between**: a thread moves only while all others
rest. -/
inductive Uninterrupted : List Incident → Machine → Prop where
  /-- In the beginning there is nothing. -/
  | empty : Uninterrupted [] .empty
  /-- One thing more happens, and whoever moves is alone. -/
  | advance {is : List Incident} {m m' : Machine} {i : Incident} (r : Uninterrupted is m)
    (a : m.Advance i m') (alone : ∀ t h, i = .stepped t h → m.Alone t) :
    Uninterrupted (is ++ [i]) m'

/-- **A history in which everybody takes turns**, and executors keep their word. -/
inductive Orderly : List Incident → Machine → Prop where
  /-- In the beginning there is nothing. -/
  | empty : Orderly [] .empty
  /-- One thing more happens. -/
  | advance {is : List Incident} {m m' : Machine} {i : Incident} (r : Orderly is m)
    (a : m.Advance i m') (h : m.Mannered is i) : Orderly (is ++ [i]) m'

variable {m m' : Machine} {is : List Incident}

theorem Uninterrupted.run (r : Uninterrupted is m) : Run is m := by
  induction r with
  | empty => exact .empty
  | advance _ a _ ih => exact a.run ih

/-- **If everybody takes turns, nobody comes in between.** -/
theorem Orderly.uninterrupted (r : Orderly is m) : Uninterrupted is m := by
  induction r with
  | empty => exact .empty
  | @advance is m m' i r a hman ih =>
    refine ih.advance a ?_
    rintro t h rfl
    exact hman.1

theorem Orderly.run (r : Orderly is m) : Run is m := r.uninterrupted.run

theorem Alone.isResting {t t' : ThreadId} {c : Control} (h : m.Alone t) (hne : t' ≠ t)
    (hc : m.control? t' = some c) : c.isResting = true := by
  obtain ⟨th, hth, rfl⟩ := Option.map_eq_some_iff.mp hc
  obtain ⟨hlt, rfl⟩ := Array.getElem?_eq_some_iff.mp hth
  exact h t' hlt hne

end Machine

/-! ## What nobody can have changed meanwhile -/

/-- **What a thread has seen in its turn.** Whoever is about to append has seen
that the loop goes on, and a loop that is about to end that its queue is empty. -/
def Frame.Certain (s : Store) : Frame → Prop
  | .submit l _ p =>
    match p with
    | .takeSlot | .readSlot | .serialize _ | .takeQueue _ | .append _ => ¬ s.ShutDown l
    | _ => True
  | .serve l _ p =>
    match p with
    | .discard .. | .markExited _ | .announceExit _ => s.queue l = []
    | _ => True
  | _ => True

/-- The thread is certain of all it has seen. -/
def Control.Certain (s : Store) : Control → Prop
  | .running stack => ∀ fr ∈ stack, fr.Certain s
  | .finished _ => True

section Procedures

variable {s s' : Store} {t : ThreadId} {fr : Frame} {below : List Frame} {g : Store → Store}
  {c c' : Control} {ns : List Note}

/-- Others change nothing that one is certain of. -/
theorem Frame.Certain.of_flags (hfr : fr.Certain s) (h : Flags s c s')
    (hraise : ∀ id below, c ≠ .running (.signal id .raise :: below))
    (happend : ∀ id j m below, c ≠ .running (.submit id j (.append m) :: below)) :
    fr.Certain s' := by
  cases fr with
  | submit l j p => cases p <;> first | trivial | exact h.not_shutDown (hraise l) hfr
  | serve l m p => cases p <;> first | trivial | exact h.queue_eq_nil (happend l) hfr
  | _ => trivial

/-- Nothing has to be certain below a procedure, unless it drops a job. -/
theorem Frame.Below.certain (hb : fr.Below s below) (hfr : ∀ e p, fr ≠ .drop e p) :
    ∀ fr' ∈ below, fr'.Certain s' := by
  induction below generalizing fr with
  | nil => exact fun fr' h => absurd h List.not_mem_nil
  | cons caller rest ih =>
    obtain ⟨hcall, -, hrest⟩ := hb
    refine List.forall_mem_cons.mpr ⟨?_, ih hrest ?_⟩
    · -- a caller stands where it has called, and only a drop is called by one that must be certain
      cases hcall with
      | dropSubmit | dropAttempt | dropServe => exact absurd rfl (hfr _ _)
      | _ => trivial
    · rintro e p rfl
      cases hcall

/-- **A thread at rest has nothing to be certain of.** -/
theorem Control.certain_of_resting (hc : c.Sound s) (h : c.isResting = true) : c.Certain s' := by
  match c, hc with
  | .finished _, _ => trivial
  | .running (fr :: below), ⟨_, _, hb⟩ =>
    have hfr : ∀ e p, fr ≠ .drop e p := by
      rintro e p rfl
      exact absurd h nofun
    refine List.forall_mem_cons.mpr ⟨?_, hb.certain hfr⟩
    cases fr with
    | submit l j p => cases p <;> trivial
    | serve l m p => cases p <;> trivial
    | _ => trivial

theorem Frame.certain_resume (r : Except Failure Unit) (h : fr.Certain s) :
    (fr.resume r).Certain s := by
  unfold resume
  split
  · split <;> trivial
  · split <;> trivial
  · split <;> trivial
  · split <;> trivial
  · split <;> trivial
  · exact h

theorem Control.certain_back {r : Except Failure Unit} (h : ∀ fr ∈ below, fr.Certain s) :
    (back below r).Certain s := by
  cases below with
  | nil => trivial
  | cons caller rest =>
    obtain ⟨hcaller, hrest⟩ := List.forall_mem_cons.mp h
    exact List.forall_mem_cons.mpr ⟨Frame.certain_resume r hcaller, hrest⟩

/-- A procedure that is just beginning has seen nothing. -/
theorem Frame.certain_of_isNew (h : fr.isNew = true) : fr.Certain s := by
  cases fr with
  | submit l j p => cases p <;> trivial
  | serve => exact absurd h nofun
  | _ => trivial

theorem Control.Goes.certain (h : c.Goes fr below)
    (hfr : ∀ fr', fr.SameCall fr' → fr'.Certain s) (hbelow : ∀ fr' ∈ below, fr'.Certain s) :
    c.Certain s := by
  cases h with
  | within hsame => exact List.forall_mem_cons.mpr ⟨hfr _ hsame, hbelow⟩
  | calls hsame hnew =>
    exact List.forall_mem_cons.mpr ⟨Frame.certain_of_isNew hnew,
      List.forall_mem_cons.mpr ⟨hfr _ hsame, hbelow⟩⟩
  | returns => exact certain_back hbelow
  | ends => trivial

/-- Whoever submits sees that the loop goes on, or does not append. -/
theorem SubmitPoint.certain_of_act {id : LoopId} {l : Loop} {j : Job} {p : SubmitPoint}
    (found : s.loop? id = some l) (hc : (Frame.submit id j p).Certain s)
    (hbelow : ∀ fr ∈ below, fr.Certain (g s)) (h : p.move s t below id l j = .act g c' ns) :
    c'.Certain (g s) := by
  have hgoes := goes h
  -- a submission raises no flag
  have hfalse : ¬ s.ShutDown id → ¬ (g s).ShutDown id := (flags h).not_shutDown nofun
  cases p <;> simp [SubmitPoint.move] at h
  case readShutDown =>
    obtain ⟨rfl, rfl, -⟩ := h
    refine List.forall_mem_cons.mpr ⟨?_, hbelow⟩
    split
    · trivial
    · rename_i hd
      -- what it has just read stands
      rintro ⟨l', hl', hup⟩
      exact hd (Option.some.inj (found.symm.trans hl') ▸ hup)
  case takeSlot => exact h.2.2.1 ▸ List.forall_mem_cons.mpr ⟨hfalse hc, hbelow⟩
  case readSlot => exact h.2.1 ▸ List.forall_mem_cons.mpr ⟨hfalse hc, hbelow⟩
  case takeQueue m => exact h.2.2.1 ▸ List.forall_mem_cons.mpr ⟨hfalse hc, hbelow⟩
  case serialize m =>
    split at h <;> simp at h
    · exact h.2.2.1 ▸ List.forall_mem_cons.mpr ⟨hfalse hc, hbelow⟩
    · exact h.2.1 ▸ List.forall_mem_cons.mpr ⟨hfalse hc, hbelow⟩
  case append m =>
    rw [h.2.1]
    refine List.forall_mem_cons.mpr ⟨?_, hbelow⟩
    cases m <;> trivial
  case start =>
    rw [h.2.1]
    exact List.forall_mem_cons.mpr ⟨trivial, List.forall_mem_cons.mpr ⟨trivial, hbelow⟩⟩
  case refuse e =>
    rw [h.2.1]
    exact List.forall_mem_cons.mpr ⟨trivial, List.forall_mem_cons.mpr ⟨trivial, hbelow⟩⟩
  case wakeFailed cause => exact h.2.1 ▸ List.forall_mem_cons.mpr ⟨trivial, hbelow⟩
  case leave =>
    split at h <;> simp at h <;> rw [h.2.1] <;> exact Control.certain_back hbelow
  case refused e => exact h.2.1 ▸ Control.certain_back hbelow

/-- A loop that is about to end has taken what was queued. -/
theorem ServePoint.certain_of_act {id : LoopId} {l : Loop} {m : Multiplexer} {p : ServePoint}
    (found : s.loop? id = some l) (hc : (Frame.serve id m p).Certain s)
    (h : p.move s t [] id l m = .act g c' ns) : c'.Certain (g s) := by
  -- a loop appends nothing
  have hempty : s.queue id = [] → (g s).queue id = [] := (flags h).queue_eq_nil nofun
  cases p
  case run batch n =>
    cases batch with
    | nil => simp [ServePoint.move] at h; exact h.2.1 ▸ List.forall_mem_singleton.mpr trivial
    | cons j rest =>
      simp [ServePoint.move] at h
      rw [h.2.1]
      refine List.forall_mem_cons.mpr ⟨?_, List.forall_mem_singleton.mpr trivial⟩
      cases j <;> trivial
  case report n =>
    cases n <;> simp [ServePoint.move] at h <;> exact h.2.1 ▸ List.forall_mem_singleton.mpr trivial
  case discard rest n =>
    cases rest with
    | nil =>
      simp [ServePoint.move] at h
      exact h.2.1 ▸ List.forall_mem_singleton.mpr (hempty hc)
    | cons j rest =>
      simp [ServePoint.move] at h
      rw [h.2.1]
      exact List.forall_mem_cons.mpr ⟨trivial, List.forall_mem_singleton.mpr (hempty hc)⟩
  all_goals simp [ServePoint.move] at h
  case takeRest =>
    obtain ⟨rfl, rfl, -⟩ := h
    refine List.forall_mem_singleton.mpr ?_
    show (s.modifyLoop id _).queue id = []
    rw [Store.queue_eq (Store.loop?_modifyLoop_self found _)]
  case markExited n => exact h.2.1 ▸ List.forall_mem_singleton.mpr (hempty hc)
  case announceExit n => exact h.2.1 ▸ trivial
  case serialize =>
    split at h <;> simp at h
    · exact h.2.2.1 ▸ List.forall_mem_singleton.mpr trivial
    · exact h.2.1 ▸ List.forall_mem_singleton.mpr trivial
  case takeQueue => exact h.2.2.1 ▸ List.forall_mem_singleton.mpr trivial
  case takeQueueLast => exact h.2.2.1 ▸ List.forall_mem_singleton.mpr trivial
  case endTurn n =>
    split at h <;> simp at h <;> exact h.2.1 ▸ List.forall_mem_singleton.mpr trivial
  case readShutDown =>
    rw [h.2.1]
    refine List.forall_mem_singleton.mpr ?_
    split <;> trivial
  all_goals exact h.2.1 ▸ List.forall_mem_singleton.mpr trivial

/-- **A step of a thread leaves it certain.** -/
theorem Control.certain_of_act (hc : c.Sound s) (hcertain : c.Certain s)
    (h : c.move s t = .act g c' ns) : c'.Certain (g s) := by
  have hflags := flags_of_act h
  obtain ⟨fr, below, rfl, hgoes⟩ := goes_of_act h
  obtain ⟨hfr, hbelow⟩ := List.forall_mem_cons.mp hcertain
  have hb := hc.2.2
  cases moves_of_running h with
  | submit found hp => exact SubmitPoint.certain_of_act found hfr (hb.certain nofun) hp
  | serve found hp =>
    obtain rfl := hb.eq_nil rfl
    exact ServePoint.certain_of_act found hfr hp
  | drop =>
    -- below a drop stands one that is certain, and a drop touches neither flag nor queue
    refine hgoes.certain (fun fr' h => by cases h; trivial) fun fr' hfr' => ?_
    exact (hbelow fr' hfr').of_flags hflags nofun nofun
  | _ => exact hgoes.certain (fun fr' h => by cases h; trivial) (hb.certain nofun)

/-- An answer leaves it certain as well: only loops that are being started, woken
or waited for ask, and releases. -/
theorem Control.certain_of_ask {q : Request} {after : q.Reply → Control} (reply : q.Reply)
    (hc : c.Sound s) (h : c.move s t = .ask q after) : (after reply).Certain s := by
  obtain ⟨fr, below, rfl, ha⟩ := asks h
  have hb := hc.2.2
  cases ha with
  | openNew found =>
    cases reply <;> exact List.forall_mem_cons.mpr ⟨trivial, hb.certain nofun⟩
  | wakeSubmit =>
    cases reply <;> exact List.forall_mem_cons.mpr ⟨trivial, hb.certain nofun⟩
  | wakeSignal =>
    cases reply <;> exact List.forall_mem_cons.mpr ⟨trivial, hb.certain nofun⟩
  | _ => exact List.forall_mem_cons.mpr ⟨trivial, hb.certain nofun⟩

end Procedures

namespace Machine

variable {m m' : Machine} {is : List Incident}

/-- Whoever does not move stays certain: either it rests, or nothing happens to
what it has seen. -/
theorem Advance.certain_of_kept {i : Incident} (a : m.Advance i m')
    (alone : ∀ t h, i = .stepped t h → m.Alone t) {t : ThreadId} {d : Control}
    (hd : m.control? t = some d) (hne : ∀ h, i ≠ .stepped t h) (hsound : d.Sound m.store)
    (h : d.Certain m.store) : d.Certain m'.store := by
  cases a with
  | @act t' =>
    have ht : t ≠ t' := by
      rintro rfl
      exact hne _ rfl
    exact Control.certain_of_resting hsound ((alone _ _ rfl).isResting ht hd)
  | answer => rwa [store_answer]
  | call => exact h
  | build b =>
    have hflags : Flags m.store (.finished .served) (m.store.build b) := .build b
    match d, h with
    | .finished _, _ => trivial
    | .running stack, h => exact fun fr hfr => (h fr hfr).of_flags hflags nofun nofun

/-- **A loop that has ended has been told to, and has nothing in its queue**: its
thread has seen so, and nobody appends who has not seen it go on. -/
theorem Advance.ended_of_certain {i : Incident} (a : m.Advance i m') {id : LoopId}
    (hended : m.store.Exited id → m.store.queue id = [] ∧ m.store.ShutDown id)
    (hsound : ∀ t c, m.control? t = some c → c.Sound m.store)
    (hcertain : ∀ t c, m.control? t = some c → c.Certain m.store) (h : m'.store.Exited id) :
    m'.store.queue id = [] ∧ m'.store.ShutDown id := by
  cases a with
  | @act t c c' g ns hc hmove =>
    have hflags := Control.flags_of_act hmove
    -- it had ended before, and who appends would not be certain, or it ends here
    obtain ⟨hq, hd, happend⟩ : m.store.queue id = [] ∧ m.store.ShutDown id
        ∧ ∀ j x below, c ≠ .running (.submit id j (.append x) :: below) := by
      rcases hflags.exited id h with h | ⟨x, n, below, rfl⟩
      · obtain ⟨hq, hd⟩ := hended h
        refine ⟨hq, hd, ?_⟩
        rintro j x below rfl
        exact hcertain t _ hc _ List.mem_cons_self hd
      · exact ⟨hcertain t _ hc _ List.mem_cons_self, (hsound t _ hc).1, nofun⟩
    exact ⟨hflags.queue_eq_nil happend hq, (Control.grows_of_move hmove).shutDown hd⟩
  | answer =>
    rw [store_answer] at h ⊢
    exact hended h
  | call => exact hended h
  | build b =>
    have hflags : Flags m.store (.finished .served) (m.store.build b) := .build b
    obtain ⟨hq, hd⟩ := hended ((hflags.exited id h).resolve_right nofun)
    exact ⟨hflags.queue_eq_nil nofun hq, (m.store.grows_build b).shutDown hd⟩

/-- **Everybody is certain**, and a loop that has ended has been told to and has
nothing in its queue. -/
theorem Uninterrupted.certain (r : Uninterrupted is m) :
    (∀ id, m.store.Exited id → m.store.queue id = [] ∧ m.store.ShutDown id)
      ∧ ∀ t c, m.control? t = some c → c.Certain m.store := by
  induction r with
  | empty =>
    refine ⟨?_, fun t c h => by simp [control?, Machine.empty] at h⟩
    rintro id ⟨l, hl, -⟩
    simp [Machine.empty, Store.empty, Store.loop?] at hl
  | @advance is m m' i r a alone ih =>
    obtain ⟨hended, hcertain⟩ := ih
    obtain ⟨-, hsound⟩ := r.run.reachable.sound
    refine ⟨fun id => a.ended_of_certain (hended id) hsound hcertain, fun t d hd => ?_⟩
    cases a.places hd with
    | kept hc hne => exact a.certain_of_kept alone hc hne (hsound t d hc) (hcertain t d hc)
    | acted hc hmove hm =>
      rw [hm]
      exact Control.certain_of_act (hsound t _ hc) (hcertain t _ hc) hmove
    | answered reply hc hmove hafter hm =>
      rw [hm, store_answer, hafter]
      exact Control.certain_of_ask reply (hsound t _ hc) hmove
    | @called _ o ht hd =>
      rw [hd]
      cases o <;> exact List.forall_mem_singleton.mpr trivial
    | served ht hc hmove hd =>
      rw [hd]
      exact List.forall_mem_singleton.mpr trivial

/-- **A loop that has ended leaves nothing in its queue.** -/
theorem Uninterrupted.queue_of_exited (r : Uninterrupted is m) {id : LoopId}
    (h : m.store.Exited id) : m.store.queue id = [] :=
  (r.certain.1 id h).1

/-- An attempt that saw the boss go on, and queued its job after the boss had
ended. -/
def stranded : Machine :=
  let made := ((empty.build .small).spawn none (Operation.create 0).control).play 0 30
  let seen := (made.spawn none (Operation.connect 0 "127.0.0.1:9").control).play 2 20
  (((seen.spawn none (Operation.release 0).control).play 4 14).play 3 40).play 2 20

/-- **This cannot be done without**: who looks and appends while the loop ends in
between is told that all is well, and the endpoint stays connecting. -/
theorem exists_stranded :
    stranded.Reachable ∧ stranded.store.Exited ⟨0, .boss⟩
      ∧ stranded.control? 2 = some (.finished (.connected (.ok ())))
      ∧ stranded.store.queue ⟨0, .boss⟩ = [.attempt 0 "127.0.0.1:9"]
      ∧ stranded.store.state? 0 = some .connecting := by
  refine ⟨?_, ?_, by decide +kernel, by decide +kernel, by decide +kernel⟩
  · have made := ((reachable_empty.build .small).call none (.create 0)).play 0 30
    have seen := (made.call none (.connect 0 "127.0.0.1:9")).play 2 20
    exact (((seen.call none (.release 0)).play 4 14).play 3 40).play 2 20
  · have hended : (stranded.store.loop? ⟨0, .boss⟩).map (·.exited) = some true := by decide +kernel
    obtain ⟨l, hl, hup⟩ := Option.map_eq_some_iff.mp hended
    exact ⟨l, hl, hup⟩

end Machine

end EndpointControl
