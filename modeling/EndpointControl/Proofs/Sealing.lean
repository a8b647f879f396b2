import EndpointControl.Proofs.Once

/-!
# Nothing starts after the end

A start looks at the flag of the loop a second time when it has the lock of the slot,
and what it does for the loop it does under that lock. Telling the loop to end
raises the flag first and takes the lock afterwards. So when the first call that
tells a loop to end has had the lock, nobody is behind the second look any more, and
nobody gets there again (`Machine.Sealed`): whatever the loop had come to by then, no
multiplexer is opened for it and no executor is asked to take it from then on.

A start or a submission that begins later is turned away without touching any loop
(`Machine.TurnedAway`). And since a release tells all its loops to end before it
shuts an executor down, everything that a factory has executors do lies before that
(`Machine.Traffic.sealedForGood`).
-/

namespace EndpointControl

/-! ## Behind the second look -/

/-- Somebody asks for a multiplexer for the loop or offers the loop to an executor,
whatever the answer. -/
def Incident.asksToLaunch (l : LoopId) : Incident → Bool
  | .stepped _ (.answered (.openMultiplexer l' _) _)
  | .stepped _ (.answered (.execute _ l' _) _) => l' = l
  | _ => false

/-- **The start has looked at the flag under the lock** and goes on to open the loop
and to have it taken. -/
def StartPoint.isLaunching : StartPoint → Bool
  | .rereadStarted | .inspectSlot | .openNew | .fillSlot _ | .execute _ => true
  | _ => false

/-- **The thread goes on to start the loop**, whatever the flag says by now. -/
def Control.isLaunching (l : LoopId) : Control → Bool
  | .running (.start l' p :: _) => l' = l && p.isLaunching
  | _ => false

section Procedures

variable {s : Store} {t : ThreadId} {l : LoopId} {g : Store → Store} {c c' : Control}
  {ns : List Note}

theorem Control.isLaunching_iff : c.isLaunching l = true
    ↔ ∃ p below, c = .running (.start l p :: below) ∧ p.isLaunching = true := by
  constructor
  · intro h
    unfold isLaunching at h
    split at h
    · obtain ⟨hl, hp⟩ := Bool.and_eq_true_iff.mp h
      obtain rfl := of_decide_eq_true hl
      exact ⟨_, _, rfl, hp⟩
    · exact absurd h nofun
  · rintro ⟨p, below, rfl, hp⟩
    simp [isLaunching, hp]

/-- Whoever is behind the second look has the lock of the slot. -/
theorem Control.grip_of_isLaunching (h : c.isLaunching l = true) : c.grip = some (.slot l) := by
  obtain ⟨p, below, rfl, hp⟩ := isLaunching_iff.mp h
  cases p <;> first | rfl | exact absurd hp nofun

/-- **Nobody gets behind the second look** once the loop has been told to end. -/
theorem Control.isLaunching_of_act (hc : c.Stacked) (h : c.move s t = .act g c' ns)
    (told : s.ShutDown l) (hidle : c.isLaunching l = false) : c'.isLaunching l = false := by
  by_contra hlaunching
  have hlaunching := Bool.eq_true_of_not_eq_false hlaunching
  have hgrip := grip_of_isLaunching hlaunching
  obtain ⟨p, below, rfl, hp⟩ := isLaunching_iff.mp hlaunching
  -- it has come from another point of the start, and from before the second look
  obtain ⟨p₀, lp, rfl, found, hmove⟩ := start_of_act hc h (by rw [← grip_running, hgrip]; rintro ⟨⟩)
  obtain ⟨lp', found', hd⟩ := told
  obtain rfl := Option.some.inj (found.symm.trans found')
  cases p₀ <;> simp [StartPoint.move, hd] at hmove
  case readStarted =>
    obtain ⟨-, hback, -⟩ := hmove
    split at hback
    · exact absurd hback.symm (back_ne _ _ _)
    · simp at hback
      cases hback ▸ hp
  case takeSlot => cases hmove.2.2.1 ▸ hp
  case rereadShutDown | mark | announce => cases hmove.2.1 ▸ hp
  case readShutDown | leave => exact absurd hmove.2.1.symm (back_ne _ _ _)
  all_goals simp [isLaunching, StartPoint.isLaunching] at hidle

/-- Nobody asks for anything for the loop but those behind the second look. -/
theorem Control.isLaunching_of_ask {q : Request} {after : q.Reply → Control} (reply : q.Reply)
    (h : c.move s t = .ask q after) (hidle : c.isLaunching l = false) :
    (after reply).isLaunching l = false
      ∧ (Incident.stepped t (.answered q reply)).asksToLaunch l = false := by
  obtain ⟨fr, below, rfl, hask⟩ := asks h
  cases hask with
  | @openNew id | @execute id =>
    have hne : id ≠ l := by simpa [isLaunching, StartPoint.isLaunching] using hidle
    cases reply <;> simp [isLaunching, Incident.asksToLaunch, hne]
  | wakeSubmit | wakeSignal => cases reply <;> exact ⟨rfl, rfl⟩
  | _ => exact ⟨rfl, rfl⟩

end Procedures

namespace Machine

variable {m m' m'' : Machine} {i : Incident} {is is' js : List Incident} {l : LoopId}
  {t : ThreadId} {c : Control} {fr : Frame} {below : List Frame}

/-- **The loop is sealed**: it has been told to end, and nobody is behind the second
look. -/
structure Sealed (m : Machine) (l : LoopId) : Prop where
  told : m.store.ShutDown l
  idle : ∀ t c, m.control? t = some c → c.isLaunching l = false

/-- **A sealed loop stays sealed**, and nobody asks for anything for it. -/
theorem Sealed.advance (hs : m.Sealed l) (h : Traffic is m) (a : m.Advance i m') :
    m'.Sealed l ∧ i.asksToLaunch l = false := by
  refine ⟨⟨a.grows.shutDown hs.told, fun t d hd => ?_⟩, ?_⟩
  · cases a.places hd with
    | kept hc => exact hs.idle t d hc
    | acted hc hmove =>
      exact Control.isLaunching_of_act (h.stacked t _ hc) hmove hs.told (hs.idle t _ hc)
    | answered reply hc hmove hafter =>
      exact hafter ▸ (Control.isLaunching_of_ask reply hmove (hs.idle t _ hc)).1
    | @called _ o _ hd => rw [hd]; cases o <;> rfl
    | served _ _ _ hd => rw [hd]; rfl
  · cases a with
    | answer hc hmove reply => exact (Control.isLaunching_of_ask reply hmove (hs.idle _ _ hc)).2
    | _ => rfl

theorem Sealed.use (hs : m.Sealed l) (home : Option ExecutorId) (hnew : fr.isNew = true) :
    (m.spawn home (.running [fr])).Sealed l := by
  refine ⟨hs.told, fun t d hd => ?_⟩
  rw [control?_spawn] at hd
  split at hd
  · obtain rfl := Option.some.inj hd
    by_contra hlaunching
    have hgrip := Control.grip_of_isLaunching (Bool.eq_true_of_not_eq_false hlaunching)
    exact absurd ((Control.grip_of_isNew hnew).symm.trans hgrip) nofun
  · exact hs.idle t d hd

theorem Unfolds.sealed (h' : m.Unfolds is' m') (h : Traffic is m) (hs : m.Sealed l) :
    m'.Sealed l := by
  induction h' with
  | refl => exact hs
  | advance h' a ih => exact (ih.advance (h.unfolds h') a).1
  | use _ home hnew ih => exact ih.use home hnew

/-- **Nobody ever asks for anything again** for a loop that is sealed. -/
theorem Sealed.not_asksToLaunch (hs : m.Sealed l) (h : Traffic is m) (h' : m.Unfolds is' m')
    (hi : i ∈ is') : i.asksToLaunch l = false := by
  obtain ⟨is₁, is₂, rfl⟩ := List.append_of_mem hi
  obtain ⟨m₁, m₂, h₁, a, -⟩ := h'.split
  exact ((h₁.sealed h hs).advance (h.unfolds h₁) a).2

/-! ## Telling a loop to end -/

/-- **Whoever has the lock of the slot** and does not start the loop itself, keeps
everybody else from behind the second look. -/
theorem Traffic.sealed_of_grip (h : Traffic is m) (told : m.store.ShutDown l)
    (hc : m.control? t = some c) (hgrip : c.grip = some (.slot l))
    (hidle : c.isLaunching l = false) : m.Sealed l := by
  refine ⟨told, fun t' d hd => ?_⟩
  by_contra hlaunching
  have hlaunching := Bool.eq_true_of_not_eq_false hlaunching
  obtain rfl := h.eq_of_grip rfl hc hd hgrip (Control.grip_of_isLaunching hlaunching)
  obtain rfl := Option.some.inj (hc.symm.trans hd)
  exact absurd (hidle.symm.trans hlaunching) nofun

/-- **The call that has raised the flag seals the loop** when it takes the lock. -/
theorem Traffic.sealed_of_takeSlot (h : Traffic is m) (told : m.store.ShutDown l)
    (hc : m.control? t = some (.running (.signal l .takeSlot :: below))) (a : m.Advance i m') :
    m'.control? t = some (.running (.signal l .takeSlot :: below)) ∨ m'.Sealed l := by
  by_cases hi : ∃ h, i = .stepped t h
  · obtain ⟨hap, rfl⟩ := hi
    have ht' := h.advance a
    have told' := a.grows.shutDown told
    cases a with
    | act hc' hmove =>
      obtain rfl := Option.some.inj (hc.symm.trans hc')
      cases Control.moves_of_running hmove with
      | signal found hp =>
        simp [SignalPoint.move] at hp
        obtain ⟨-, rfl, rfl, -⟩ := hp
        exact .inr (ht'.sealed_of_grip told' (control?_act_self hc) rfl rfl)
    | answer hc' hmove =>
      obtain rfl := Option.some.inj (hc.symm.trans hc')
      obtain ⟨fr, rest, heq, hask⟩ := Control.asks hmove
      obtain ⟨rfl, -⟩ := List.cons.inj (Control.running.inj heq)
      cases hask
  · have hne (h : Happening) : i ≠ .stepped t h := fun heq => hi ⟨h, heq⟩
    exact .inl ((a.control?_of_ne (lt_size_of_control? hc) hne).trans hc)

/-- **Whoever raises the flag of a loop that was down** goes on to take the lock. -/
theorem Advance.exists_takeSlot (a : m.Advance i m') (hup : ¬ m.store.ShutDown l)
    (told : m'.store.ShutDown l) :
    ∃ t hap below, i = .stepped t hap ∧ m.control? t = some (.running (.signal l .raise :: below))
      ∧ m'.control? t = some (.running (.signal l .takeSlot :: below)) := by
  cases a with
  | @act t c c' g ns hc hmove =>
    obtain ⟨below, rfl⟩ := ((Control.flags_of_act hmove).shutDown l told).resolve_left hup
    cases Control.moves_of_running hmove with
    | @signal _ lp _ found hp =>
      simp [SignalPoint.move] at hp
      obtain ⟨rfl, rfl, -⟩ := hp
      refine ⟨t, _, below, rfl, hc, (control?_act_self hc).trans ?_⟩
      rw [if_neg fun hd => hup ⟨lp, found, hd⟩]
  | answer => exact absurd (by rwa [store_answer] at told) hup
  | call => exact absurd told hup
  | build b =>
    have hflags : Flags m.store (.finished .served) (m.store.build b) := .build b
    exact absurd ((hflags.shutDown l told).resolve_right (by rintro ⟨_, ⟨⟩⟩)) hup

/-- **A loop that has been told to end is sealed**, or whoever has told it is about to
take the lock. -/
theorem Traffic.sealed_or (h : Traffic is m) : m.store.ShutDown l → m.Sealed l
    ∨ ∃ t below, m.control? t = some (.running (.signal l .takeSlot :: below)) := by
  refine h.induction (motive := fun _ m => m.store.ShutDown l → m.Sealed l
    ∨ ∃ t below, m.control? t = some (.running (.signal l .takeSlot :: below)))
    ?empty (fun {is m i m'} h ih a told => ?advance) (fun home _ ih hnew told => ?use)
  case empty =>
    rintro ⟨lp, found, -⟩
    simp [Store.loop?, Machine.empty, Store.empty] at found
  case advance =>
    by_cases hup : m.store.ShutDown l
    · rcases ih hup with hs | ⟨t, below, hc⟩
      · exact .inl (hs.advance h a).1
      · rcases h.sealed_of_takeSlot hup hc a with hc' | hs
        · exact .inr ⟨t, below, hc'⟩
        · exact .inl hs
    · obtain ⟨t, -, below, -, -, hc⟩ := a.exists_takeSlot hup told
      exact .inr ⟨t, below, hc⟩
  case use =>
    rcases ih told with hs | ⟨t, below, hc⟩
    · exact .inl (hs.use home hnew)
    · exact .inr ⟨t, below, control?_spawn_of_eq_some hc ..⟩

/-- **The thread tells the loop to end**, and is the first to do so: it finds the flag
down when it raises it, and has not returned before the last of these incidents. -/
structure Telling (m : Machine) (t : ThreadId) (l : LoopId) (below : List Frame)
    (js : List Incident) (m' : Machine) : Prop where
  begins : m.control? t = some (.running (.signal l .raise :: below))
  first : ¬ m.store.ShutDown l
  raises : ∃ hap m₁ js', js = .stepped t hap :: js' ∧ m.Advance (.stepped t hap) m₁
    ∧ m₁.During t below js' m'

/-- **The first call that tells the loop to end**, from its beginning to its return. -/
structure Tells (m : Machine) (t : ThreadId) (l : LoopId) (below : List Frame)
    (js : List Incident) (m' : Machine) : Prop extends m.Telling t l below js m' where
  left : ¬ m'.InCall t below

theorem Telling.unfolds (h : m.Telling t l below js m') : m.Unfolds js m' := by
  obtain ⟨hap, m₁, js', rfl, a, hduring⟩ := h.raises
  exact Unfolds.trans (Unfolds.advance .refl a) hduring.unfolds

/-- **When the first call that tells a loop to end has returned, the loop is
sealed.** -/
theorem Tells.sealed (h : m.Tells t l below js m') (ht : Traffic is m) : m'.Sealed l := by
  obtain ⟨hap, m₁, js, -, a, hduring⟩ := h.raises
  have ht₁ := ht.advance a
  have hraised : m₁.store.ShutDown l
      ∧ m₁.control? t = some (.running (.signal l .takeSlot :: below)) := by
    cases a with
    | act hc hmove =>
      obtain rfl := Option.some.inj (h.begins.symm.trans hc)
      cases Control.moves_of_running hmove with
      | @signal _ lp _ found hp =>
        simp [SignalPoint.move] at hp
        obtain ⟨rfl, rfl, -⟩ := hp
        refine ⟨⟨_, Store.loop?_modifyLoop_self found _, rfl⟩, (control?_act_self hc).trans ?_⟩
        rw [if_neg fun hd => h.first ⟨lp, found, hd⟩]
    | answer hc hmove =>
      obtain rfl := Option.some.inj (h.begins.symm.trans hc)
      obtain ⟨fr, rest, heq, hask⟩ := Control.asks hmove
      obtain ⟨rfl, -⟩ := List.cons.inj (Control.running.inj heq)
      cases hask
  -- from there on it is about to take the lock, or has had it
  have hsealed {js : List Incident} {m₂ : Machine} (h₂ : m₁.Unfolds js m₂) :
      m₂.control? t = some (.running (.signal l .takeSlot :: below)) ∨ m₂.Sealed l := by
    induction h₂ with
    | refl => exact .inl hraised.2
    | advance h₂ a ih =>
      rcases ih with hc | hs
      · exact (ht₁.unfolds h₂).sealed_of_takeSlot (h₂.grows.shutDown hraised.1) hc a
      · exact .inr (hs.advance (ht₁.unfolds h₂) a).1
    | use _ home hnew ih =>
      exact ih.imp (control?_spawn_of_eq_some · ..) fun hs => hs.use home hnew
  exact (hsealed hduring.unfolds).resolve_left fun hc => h.left ⟨_, [], hc⟩

end Machine

/-! ## Turned away -/

/-- **Where a call can be that wants a loop which had been told to end** before the call
began. -/
inductive Control.Declined (l : LoopId) (below : List Frame) : Control → Prop where
  /-- A start has not looked at the flag yet. -/
  | start : Declined l below (.running (.start l .readShutDown :: below))
  /-- A submission is about to have the loop started. -/
  | submit {j : Job} : Declined l below (.running (.submit l j .start :: below))
  /-- Its start has not looked at the flag yet. -/
  | starting {j : Job} :
    Declined l below (.running (.start l .readShutDown :: .submit l j .starting :: below))
  /-- It is about to drop its job. -/
  | refuse {j : Job} : Declined l below (.running (.submit l j (.refuse .released) :: below))
  /-- It is dropping its job. -/
  | dropping {j : Job} {p : DropPoint} :
    Declined l below (.running (.drop j.endpoint p :: .submit l j (.refused .released) :: below))
  /-- It has dropped its job. -/
  | refused {j : Job} : Declined l below (.running (.submit l j (.refused .released) :: below))
  /-- The call has returned. -/
  | returned : Declined l below (.back below (.error .released))

section Procedures

variable {s : Store} {t : ThreadId} {l : LoopId} {below above : List Frame} {fr : Frame}
  {g : Store → Store} {c' : Control} {ns : List Note}

/-- **A step of a call that is turned away** goes on with it, and touches no factory. -/
theorem Control.Declined.act (h : (Control.running (fr :: (above ++ below))).Declined l below)
    (told : s.ShutDown l)
    (hmove : (Control.running (fr :: (above ++ below))).move s t = .act g c' ns) :
    c'.Declined l below ∧ (g s).factories = s.factories := by
  obtain ⟨lp, hl, hd⟩ := told
  generalize hc : Control.running (fr :: (above ++ below)) = c at h hmove
  cases h with
  | start =>
    cases moves_of_running hmove with
    | start found hp =>
      obtain rfl := Option.some.inj (hl.symm.trans found)
      simp [StartPoint.move, hd] at hp
      obtain ⟨rfl, rfl, -⟩ := hp
      exact ⟨.returned, rfl⟩
  | starting =>
    cases moves_of_running hmove with
    | start found hp =>
      obtain rfl := Option.some.inj (hl.symm.trans found)
      simp [StartPoint.move, hd] at hp
      obtain ⟨rfl, rfl, -⟩ := hp
      exact ⟨.refuse, rfl⟩
  | submit =>
    cases moves_of_running hmove with
    | submit found hp =>
      simp [SubmitPoint.move] at hp
      obtain ⟨rfl, rfl, -⟩ := hp
      exact ⟨.starting, rfl⟩
  | refuse =>
    cases moves_of_running hmove with
    | submit found hp =>
      simp [SubmitPoint.move] at hp
      obtain ⟨rfl, rfl, -⟩ := hp
      exact ⟨.dropping, rfl⟩
  | @dropping j p =>
    cases moves_of_running hmove with
    | drop found hp =>
      cases p <;> simp [DropPoint.move] at hp
      · obtain ⟨-, rfl, rfl, -⟩ := hp
        exact ⟨.dropping, rfl⟩
      · obtain ⟨rfl, rfl, -⟩ := hp
        exact ⟨.refused, rfl⟩
  | refused =>
    cases moves_of_running hmove with
    | submit found hp =>
      simp [SubmitPoint.move] at hp
      obtain ⟨rfl, rfl, -⟩ := hp
      exact ⟨.returned, rfl⟩
  | returned => exact absurd hc.symm (back_ne_busy fr above)

/-- It asks nobody for anything. -/
theorem Control.Declined.not_ask (h : (Control.running (fr :: (above ++ below))).Declined l below)
    {q : Request} {after : q.Reply → Control} :
    (Control.running (fr :: (above ++ below))).move s t ≠ .ask q after := by
  intro hmove
  generalize hc : Control.running (fr :: (above ++ below)) = c at h hmove
  obtain ⟨fr', rest, heq, hask⟩ := asks hmove
  cases h with
  | returned => exact absurd hc.symm (back_ne_busy fr above)
  | _ =>
    obtain ⟨rfl, -⟩ := List.cons.inj (Control.running.inj heq)
    cases hask

end Procedures

namespace Machine

variable {m m' m'' : Machine} {i : Incident} {is is' is₀ js : List Incident} {l : LoopId}
  {t : ThreadId} {c : Control} {fr : Frame} {below : List Frame}

/-- **A call in which the thread is turned away.** -/
structure TurnedAway (m : Machine) (t : ThreadId) (below : List Frame) (js : List Incident)
    (m' : Machine) : Prop where
  /-- It returns, and says that the factory has let go. -/
  place : m'.control? t = some (.back below (.error .released))
  /-- It has asked nobody for anything. -/
  silent : answersTo t js = []
  /-- None of its steps has touched a loop, or any other part of a factory. -/
  leaves : ∀ {js₁ m₁ hap m₂}, m.During t below js₁ m₁ → m₁.InCall t below →
    m₁.Advance (.stepped t hap) m₂ → m₂.store.factories = m₁.store.factories

theorem During.declined (h : m.During t below js m') (ht : Traffic is₀ m)
    (hc : m.control? t = some c) (hdeclined : c.Declined l below) (told : m.store.ShutDown l) :
    ∃ c', m'.control? t = some c' ∧ m'.store.ShutDown l ∧ c'.Declined l below
      ∧ answersTo t js = [] :=
  h.invariant (P := fun s c as _ => s.ShutDown l ∧ c.Declined l below ∧ as = [])
    (fun hs hP => ⟨hs.shutDown hP.1, hP.2⟩)
    (fun hP _ _ hmove => ⟨(Control.grows_of_move hmove).shutDown hP.1,
      (hP.2.1.act hP.1 hmove).1, hP.2.2⟩)
    (fun _ hP hmove => absurd hmove hP.2.1.not_ask) ht hc ⟨told, hdeclined, rfl⟩

/-- **Whoever wants a loop that has been told to end is turned away.** -/
theorem Course.turnedAway (h : m.Course t fr below js m') (ht : Traffic is₀ m)
    (hdeclined : (Control.running (fr :: below)).Declined l below) (told : m.store.ShutDown l) :
    m.TurnedAway t below js m' := by
  obtain ⟨c', hc', -, hend, hsilent⟩ := h.during.declined ht h.begins hdeclined told
  refine ⟨?_, hsilent, fun {js₁ m₁ hap m₂} h₁ busy a => ?_⟩
  · cases hend with
    | returned => exact hc'
    | starting => exact absurd ⟨_, [.submit l _ .starting], hc'⟩ h.left
    | dropping => exact absurd ⟨_, [.submit l _ (.refused _)], hc'⟩ h.left
    | _ => exact absurd ⟨_, [], hc'⟩ h.left
  · obtain ⟨c₁, hc₁, told₁, hdeclined₁, -⟩ := h₁.declined ht h.begins hdeclined told
    obtain ⟨fr, above, hbusy⟩ := busy
    obtain rfl := Option.some.inj (hbusy.symm.trans hc₁)
    cases a with
    | act hc hmove =>
      obtain rfl := Option.some.inj (hc₁.symm.trans hc)
      exact (hdeclined₁.act told₁ hmove).2
    | answer hc hmove =>
      obtain rfl := Option.some.inj (hc₁.symm.trans hc)
      exact absurd hmove hdeclined₁.not_ask

/-- A start that finds the loop told to end returns at its first step. -/
theorem acts_start {s : Store} (told : s.ShutDown l) (t : ThreadId) (below : List Frame) :
    (Control.running (.start l .readShutDown :: below)).Acts t s s
      (.back below (.error .released)) := by
  obtain ⟨lp, hl, hd⟩ := told
  have hmove : (Control.running (.start l .readShutDown :: below)).move s t
      = .go (.back below (.error .released)) := by
    simp [Control.move, Frame.move, hl, StartPoint.move, hd]
  exact .act hmove (.refl _ _)

/-- **What a loop is to others** that has been told to end. -/
structure Declines (m : Machine) (l : LoopId) : Prop where
  /-- Whoever calls to start it is turned away, -/
  start : ∀ {t below js m'}, m.Course t (.start l .readShutDown) below js m' →
    m.TurnedAway t below js m'
  /-- and so is whoever submits to it. -/
  submit : ∀ {t j below js m'}, m.Course t (.submit l j .start) below js m' →
    m.TurnedAway t below js m'
  /-- A start is turned away at its first step, -/
  startAlone : ∀ t below, (Control.running (.start l .readShutDown :: below)).Acts t m.store m.store
    (.back below (.error .released))
  /-- and a submission as soon as it can have the lock of the endpoint that its job
  carries. -/
  submitAlone : ∀ t below j r, m.store.endpoints[j.endpoint]? = some r →
    m.store.locks.holder? (.status j.endpoint) = none →
    ∃ s', (Control.running (.submit l j .start :: below)).Acts t m.store s'
      (.back below (.error .released)) ∧ s'.factories = m.store.factories

theorem Traffic.declines (h : Traffic is m) (told : m.store.ShutDown l) : m.Declines l where
  start hcourse := hcourse.turnedAway h .start told
  submit hcourse := hcourse.turnedAway h .submit told
  startAlone := acts_start told
  submitAlone t below j r found free := by
    obtain ⟨s', hacts, hfactories, -⟩ := Control.acts_submit (t := t) below told found free
    exact ⟨s', hacts, hfactories⟩

/-- **A loop that is over**, and stays so. -/
structure Over (m : Machine) (l : LoopId) : Prop where
  /-- No multiplexer is opened for it and no executor is asked to take it. -/
  still : ∀ {is' m'}, m.Unfolds is' m' → ∀ i ∈ is', i.asksToLaunch l = false
  /-- Whoever wants it is turned away. -/
  declines : ∀ {is' m'}, m.Unfolds is' m' → m'.Declines l

theorem Sealed.over (hs : m.Sealed l) (h : Traffic is m) : m.Over l where
  still h' _ hi := hs.not_asksToLaunch h h' hi
  declines h' := (h.unfolds h').declines (h'.sealed h hs).told

end Machine

/-! ## Letting go of a factory -/

/-- A multiplexer is opened for a loop of the factory. -/
def Incident.opensFor (f : FactoryId) : Incident → Bool
  | .stepped _ (.answered (.openMultiplexer l _) (.ok _)) => l.factory = f
  | _ => false

/-- **How many multiplexers a factory has opened.** -/
def openings (is : List Incident) (f : FactoryId) : Nat := is.countP (Incident.opensFor f)

/-- Whoever opens a multiplexer for a factory has asked to for one of its loops. -/
theorem Incident.asksToLaunch_of_opensFor {i : Incident} {f : FactoryId}
    (h : i.opensFor f = true) : ∃ st, i.asksToLaunch ⟨f, st⟩ = true := by
  unfold opensFor at h
  split at h
  · rename_i l _ _
    obtain rfl := of_decide_eq_true h
    exact ⟨l.seat, decide_eq_true rfl⟩
  · exact absurd h nofun

/-- **The release has told all loops to end** and goes on to let the executors go. -/
def ReleasePoint.hasSignalled : ReleasePoint → Bool
  | .announceWorkers | .terminate _ | .announceEnd => true
  | _ => false

/-- Of those that release the factory and have moved one was the first. -/
theorem exists_first {is : List Incident} {f : FactoryId} {t : ThreadId} {h : Happening}
    (hi : .stepped t h ∈ is) (ho : CarriesOut is t (.release f)) : ∃ t', First is f t' := by
  have hsome : (is.find? (Incident.releases is f)).isSome :=
    List.find?_isSome.mpr ⟨_, hi, decide_eq_true ho⟩
  obtain ⟨i, hfind⟩ := Option.isSome_iff_exists.mp hsome
  have hreleases := List.find?_some hfind
  cases i with
  | stepped t' h' => exact ⟨t', first_iff.mpr (by rw [hfind]; rfl)⟩
  | _ => exact absurd hreleases nofun

namespace Machine

variable {m m' m'' : Machine} {i : Incident} {is is' js : List Incident} {f : FactoryId}
  {t t' : ThreadId} {c c' : Control} {below : List Frame}

/-- The thread is in the midst of a release that does anything. -/
def Releases (m : Machine) (is : List Incident) (f : FactoryId) (t : ThreadId) : Prop :=
  CarriesOut is t (.release f) ∧ ∃ stack, m.control? t = some (.running stack)
    ∧ Control.running stack ≠ (Operation.release f).control

/-- **Only one release of a factory does anything.** -/
theorem Run.first_of_releases (r : Run is m) (h : m.Releases is f t) : First is f t := by
  obtain ⟨ho, stack, hc, hne⟩ := h
  by_cases hmoved : ∃ hap, .stepped t hap ∈ is
  · obtain ⟨hap, hi⟩ := hmoved
    obtain ⟨t₀, hfirst⟩ := exists_first hi ho
    by_cases ht : t = t₀
    · exact ht ▸ hfirst
    · -- all others have not moved, or are at their end
      rcases (((r.first f).2 t₀ hfirst).2 t ht ho).place with hplace | hplace
      · exact absurd (Option.some.inj (hc.symm.trans hplace)) hne
      · exact absurd (Option.some.inj (hc.symm.trans hplace)) nofun
  · have hplace := r.control?_of_unmoved ho fun hap hi => hmoved ⟨hap, hi⟩
    exact absurd (Option.some.inj (hc.symm.trans hplace)) hne

theorem Run.eq_of_releases (r : Run is m) (h : m.Releases is f t) (h' : m.Releases is f t') :
    t = t' := by
  have hfirst := first_iff.mp (r.first_of_releases h)
  exact Option.some.inj (hfirst.symm.trans (first_iff.mp (r.first_of_releases h')))

/-- Loops are told to end in the course of a release, and by nobody else. -/
theorem Run.releases_of_signal (r : Run is m) {st : Seat} {p : SignalPoint}
    (hc : m.control? t = some (.running (.signal ⟨f, st⟩ p :: below))) : m.Releases is f t := by
  obtain ⟨caller, rest, rfl, hcall, -⟩ := (r.reachable.sound.2 t _ hc).2.2.exists_caller rfl
  cases hcall
  obtain ⟨o, ho, hfrom⟩ := r.originates.2 t _ hc
  refine ⟨?_, _, hc, nofun⟩
  rw [CarriesOut, ho, ← show some (Operation.release f) = o from hfrom]

/-- **A loop is told to end only when its factory is let go of.** -/
theorem Run.letGoOf_of_shutDown (r : Run is m) : m.store.ShutDown l → m.LetGoOf l.factory := by
  refine r.induction (motive := fun _ m => m.store.ShutDown l → m.LetGoOf l.factory) ?empty ?advance
  case empty =>
    rintro ⟨lp, found, -⟩
    simp [Store.loop?, Machine.empty, Store.empty] at found
  case advance =>
    intro is m i m' r ih a told
    by_cases hup : m.store.ShutDown l
    · exact a.letGoOf (ih hup)
    · -- the releasing thread has just told it so
      obtain ⟨t, -, below, -, hc, -⟩ := a.exists_takeSlot hup told
      have hfirst := r.first_of_releases (r.releases_of_signal hc)
      exact a.letGoOf ((r.first l.factory).2 t hfirst).1

/-- **A release that has told all loops to end has sealed them.** -/
theorem Run.sealed_of_hasSignalled (r : Run is m) {p : ReleasePoint}
    (hc : m.control? t = some (.running (.release f p :: below))) (hp : p.hasSignalled = true)
    {st : Seat} {lp : Loop} (found : m.store.loop? ⟨f, st⟩ = some lp) : m.Sealed ⟨f, st⟩ := by
  have htold : m.store.AllTold f := by
    have hknows := (r.reachable.sound.2 t _ hc).1
    cases p <;> first | exact hknows | exact absurd hp nofun
  have hshut : m.store.ShutDown ⟨f, st⟩ :=
    ⟨lp, found, (htold (st.rank + 1)).2 st st.rank.lt_succ_self lp found⟩
  refine (r.traffic.sealed_or hshut).resolve_right ?_
  rintro ⟨t', below', hc'⟩
  -- whoever is about to take the lock would be the same thread at another place
  have hreleases : m.Releases is f t :=
    ⟨r.carriesOut_release hc, _, hc, fun heq => by cases heq; exact absurd hp nofun⟩
  obtain rfl := r.eq_of_releases hreleases (r.releases_of_signal hc')
  exact absurd (Option.some.inj (hc.symm.trans hc')) nofun

/-- A loop for which somebody asks for something is there. -/
theorem Advance.loop_of_asksToLaunch (a : m.Advance i m') {l : LoopId}
    (hi : i.asksToLaunch l = true) : ∃ lp, m.store.loop? l = some lp := by
  cases a with
  | answer hc hmove reply =>
    obtain ⟨fr, rest, rfl, hask⟩ := Control.asks hmove
    cases hask with
    | openNew found | execute found =>
      obtain rfl := of_decide_eq_true hi
      exact ⟨_, found⟩
    | _ => exact absurd hi nofun
  | _ => exact absurd hi nofun

/-- **Nothing is opened for a factory and no executor is asked to take a loop of it**
once its release has told all loops to end. -/
theorem Run.not_asksToLaunch (r : Run is m) {p : ReleasePoint}
    (hc : m.control? t = some (.running (.release f p :: below))) (hp : p.hasSignalled = true)
    (h' : m.Unfolds is' m') (hi : i ∈ is') (st : Seat) : i.asksToLaunch ⟨f, st⟩ = false := by
  by_contra hasks
  have hasks := Bool.eq_true_of_not_eq_false hasks
  obtain ⟨is₁, is₂, rfl⟩ := List.append_of_mem hi
  obtain ⟨m₁, m₂, h₁, a, -⟩ := h'.split
  obtain ⟨lp₁, found₁⟩ := a.loop_of_asksToLaunch hasks
  -- no factory gets a loop that it did not have, so the loop was there and has been sealed
  have hsome : m.store.factories[f]?.isSome := by
    have hknows := (r.reachable.sound.2 t _ hc).1
    cases p <;> first | exact (hknows 0).1 | exact absurd hp nofun
  obtain ⟨lp, found, -⟩ : ∃ lp, m.store.loop? ⟨f, st⟩ = some lp ∧ lp.Grows lp₁ :=
    h₁.grows.loop_back hsome found₁
  have hsealed := r.sealed_of_hasSignalled hc hp found
  exact absurd ((hsealed.not_asksToLaunch r.traffic h' hi).symm.trans hasks) nofun

theorem openings_append_of_not_asksToLaunch
    (h : ∀ i ∈ is', ∀ st, i.asksToLaunch ⟨f, st⟩ = false) :
    openings (is ++ is') f = openings is f := by
  have hzero : is'.countP (Incident.opensFor f) = 0 := by
    refine List.countP_eq_zero.mpr fun i hi hopens => ?_
    obtain ⟨st, hasks⟩ := Incident.asksToLaunch_of_opensFor hopens
    exact absurd ((h i hi st).symm.trans hasks) nofun
  rw [openings, List.countP_append, hzero, Nat.add_zero, openings]

/-- **All that a factory has executors do comes before its release shuts one down.** -/
theorem Run.not_asksToLaunch_of_shutDown {x : ExecutorId} {u : Unit}
    (r : Run (is ++ .stepped t (.answered (.shutDown x) u) :: is') m)
    (ho : CarriesOut (is ++ .stepped t (.answered (.shutDown x) u) :: is') t (.release f))
    (hi : i ∈ is') (st : Seat) : i.asksToLaunch ⟨f, st⟩ = false := by
  obtain ⟨m₁, m₂, r₁, a, h₂⟩ := r.split
  have hrest : m₁.Unfolds (.stepped t (.answered (.shutDown x) u) :: is') m :=
    Unfolds.trans (Unfolds.advance .refl a) h₂.unfolds
  cases a with
  | answer hc hmove =>
    obtain ⟨fr, below, rfl, hask⟩ := Control.asks hmove
    cases hask with
    | shutDown =>
      have hsame : some (some (Operation.release _)) = some (some (.release f)) :=
        (CarriesOut.append (r₁.carriesOut_release hc)).symm.trans ho
      obtain rfl := Operation.release.inj (Option.some.inj (Option.some.inj hsame))
      exact r₁.not_asksToLaunch hc rfl hrest (List.mem_cons_of_mem _ hi) st

/-- **Nothing starts on a loop once it has been told to end**, in all traffic: however
far the loop has come, and whoever is starting it, submitting to it or running it.

The loop is over when the first call that tells it to end has returned, and whenever
it has been told and nobody is in the midst of telling it. In a history, all that a
factory has executors do comes before its release shuts one of them down, and it
opens no multiplexer any more when the release has told all its loops to end. -/
theorem Traffic.sealedForGood (h : Traffic is m) :
    (∀ {l t below js m'}, m.Tells t l below js m' → m'.Over l)
      ∧ (∀ l, m.store.ShutDown l → (∀ t p below,
          m.control? t = some (.running (.signal l p :: below)) → p = .raise) → m.Over l)
      ∧ (Run is m → ∀ f t, CarriesOut is t (.release f) →
        (∀ is₁ x u is₂, is = is₁ ++ .stepped t (.answered (.shutDown x) u) :: is₂ →
          ∀ i ∈ is₂, ∀ st, i.asksToLaunch ⟨f, st⟩ = false)
        ∧ ∀ {p below is' m'}, m.control? t = some (.running (.release f p :: below)) →
          p.hasSignalled = true → m.Unfolds is' m' →
          openings (is ++ is') f = openings is f) := by
  refine ⟨fun htells => ?_, fun l told hnobody => ?_, fun r f t ho => ⟨?_, ?_⟩⟩
  · exact (htells.sealed h).over (h.unfolds htells.unfolds)
  · refine ((h.sealed_or told).resolve_right ?_).over h
    rintro ⟨t, below, hc⟩
    exact absurd (hnobody t _ below hc) nofun
  · rintro is₁ x u is₂ rfl i hi st
    exact r.not_asksToLaunch_of_shutDown ho hi st
  · intro p below is' m' hc hp h'
    exact openings_append_of_not_asksToLaunch fun i hi st => r.not_asksToLaunch hc hp h' hi st

end Machine

/-- A start of the boss has found it neither told to end nor started, and is about to
take the lock, when somebody tells the boss to end. -/
def Scene.overtaken : Scene :=
  let b : LoopId := ⟨0, .boss⟩
  let made := ((empty.build .small).call (.create 0)).turn 0 Machine.granted 40
  ((made.use (.start b .readShutDown) rfl).turn 2 Machine.granted 2).use (.signal b .raise) rfl

/-- A release has told both loops of its factory to end and has shut down the first of
its executors. -/
def History.parting : History :=
  let made := ((empty.build .small).call none (.create 0)).turn 0 40
  (made.call none (.release 0)).turn 2 18

/-- The start that was overtaken gives up under the lock, and a submission that comes now
is turned away. The release that has told its loops to end opens nothing any more. -/
theorem sealedForGood_overtaken :
    let b : LoopId := ⟨0, .boss⟩
    let m := Scene.overtaken.machine
    let m' := (m.perform Machine.granted 3 1).perform Machine.granted 3 4
    let m₀ := m'.spawn none (.running [.submit b (.attempt 0 "127.0.0.1:9") .start])
    let is := History.parting.incidents
    m.control? 2 = some (.running [.start b .takeSlot]) ∧ (∃ js, m.Tells 3 b [] js m') ∧ m'.Over b
      ∧ (m'.perform Machine.granted 2 3).control? 2
        = some (.finished (.returned (.error .released)))
      ∧ (∃ js, m₀.TurnedAway 4 [] js (m₀.perform Machine.granted 4 6))
      ∧ (∃ is₁ u is₂, is = is₁ ++ .stepped 2 (.answered (.shutDown 0) u) :: is₂
        ∧ ∀ i ∈ is₂, ∀ st, i.asksToLaunch ⟨0, st⟩ = false)
      ∧ ∀ {is' m'}, History.parting.machine.Unfolds is' m' → openings (is ++ is') 0 = 1 := by
  intro b m m' m₀ is
  obtain ⟨hfirst, -⟩ := Scene.overtaken.traffic.sealedForGood
  -- the call that tells the boss to end, from its first step on
  let m₁ := m.perform Machine.granted 3 1
  have hraises : ∃ hap, m.Advance (.stepped 3 hap) m₁ :=
    Machine.exists_advance_of_perform (by decide +kernel)
  have hgoes : ∃ js, m₁.Course 3 (.signal b .takeSlot) [] js m' :=
    Machine.exists_course (by decide +kernel) 4 (by decide +kernel) (by decide +kernel)
  obtain ⟨hap, a⟩ := hraises
  obtain ⟨js, hcourse⟩ := hgoes
  have hdown : (m.store.loop? b).any (·.shutDown) = false := by decide +kernel
  have htells : m.Tells 3 b [] (.stepped 3 hap :: js) m' := by
    refine ⟨⟨by decide +kernel, ?_, ⟨hap, m₁, js, rfl, a, hcourse.during⟩⟩, hcourse.left⟩
    rintro ⟨lp, found, hup⟩
    rw [found, Option.any_some, hup] at hdown
    exact absurd hdown nofun
  have hover := hfirst htells
  have hsubmits : ∃ js, m₀.Course 4 (.submit b (.attempt 0 "127.0.0.1:9") .start) [] js
      (m₀.perform Machine.granted 4 6) :=
    Machine.exists_course (by decide +kernel) 6 (by decide +kernel) (by decide +kernel)
  obtain ⟨js', hsubmit⟩ := hsubmits
  -- the release that has shut down one executor
  obtain ⟨-, -, hrelease⟩ := History.parting.orderly.run.traffic.sealedForGood
  obtain ⟨hexecutes, hopens⟩ := hrelease History.parting.orderly.run 0 2 (by decide +kernel)
  have hplace : History.parting.machine.control? 2
      = some (.running [.release 0 (.terminate (.shuttingDown [0, 1] [1]))]) := by decide +kernel
  have hshut : is.any (Incident.quitsBy 2 0) = true := by decide +kernel
  refine ⟨by decide +kernel, ⟨_, htells⟩, hover, by decide +kernel,
    ⟨js', (hover.declines (.use .refl none rfl)).submit hsubmit⟩, ?_, fun h' => ?_⟩
  · obtain ⟨i, hi, hquits⟩ := List.any_eq_true.mp hshut
    obtain ⟨is₁, is₂, his⟩ := List.append_of_mem hi
    unfold Incident.quitsBy at hquits
    split at hquits
    · rename_i u
      obtain ⟨rfl, rfl⟩ := of_decide_eq_true hquits
      exact ⟨is₁, u, is₂, his, hexecutes is₁ 0 u is₂ his⟩
    · exact absurd hquits nofun
  · rw [hopens hplace rfl h']
    decide +kernel

end EndpointControl
