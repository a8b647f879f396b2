import EndpointControl.Proofs.Serving

/-!
# Who lets go of a factory

Of all that call `release` for a factory, the first to move raises the mark of
the factory and does everything; the others find the mark raised and return
(`Machine.Run.first`). If the first is on a thread of none of the factory's
executors, it shuts each of them down once and waits for it to have terminated
(`Machine.Orderly.letsGo`).
-/

namespace EndpointControl

/-! ## The first to release -/

/-- Nobody who releases the factory has moved yet. -/
def Unmoved (is : List Incident) (f : FactoryId) : Prop :=
  ∀ t h, .stepped t h ∈ is → ¬ CarriesOut is t (.release f)

/-- **The thread that makes the first release call**: it has moved, and before it
nobody else who releases the factory has. -/
def First (is : List Incident) (f : FactoryId) (t : ThreadId) : Prop :=
  CarriesOut is t (.release f) ∧ ∃ is₀ h is₁, is = is₀ ++ .stepped t h :: is₁
    ∧ ∀ t' h', .stepped t' h' ∈ is₀ → ¬ CarriesOut is t' (.release f)

instance (is : List Incident) (t : ThreadId) (o : Operation) : Decidable (CarriesOut is t o) :=
  inferInstanceAs (Decidable (_ = _))

/-- The thread that moves. -/
def Incident.mover? : Incident → Option ThreadId
  | .stepped t _ => some t
  | _ => none

/-- Somebody moves who releases the factory. -/
def Incident.releases (is : List Incident) (f : FactoryId) : Incident → Bool
  | .stepped t _ => CarriesOut is t (.release f)
  | _ => false

theorem first_iff {is : List Incident} {f : FactoryId} {t : ThreadId} :
    First is f t ↔ (is.find? (Incident.releases is f)).bind Incident.mover? = some t := by
  rw [Option.bind_eq_some_iff]
  constructor
  · rintro ⟨ho, is₀, h, is₁, heq, hbefore⟩
    refine ⟨.stepped t h, List.find?_eq_some_iff_append.mpr ?_, rfl⟩
    refine ⟨decide_eq_true ho, is₀, is₁, heq, ?_⟩
    intro i hi
    cases i with
    | stepped t' h' => simpa [Incident.releases] using hbefore t' h' hi
    | _ => rfl
  · rintro ⟨i, hi, ht⟩
    obtain ⟨ho, is₀, is₁, heq, hbefore⟩ := List.find?_eq_some_iff_append.mp hi
    cases i with
    | stepped t' h =>
      obtain rfl := Option.some.inj ht
      refine ⟨of_decide_eq_true ho, is₀, h, is₁, heq, fun t' h' hi ho' => ?_⟩
      simpa [Incident.releases, ho'] using hbefore _ hi
    | _ => exact absurd ht nofun

instance (is : List Incident) (f : FactoryId) (t : ThreadId) : Decidable (First is f t) :=
  decidable_of_iff _ first_iff.symm

theorem lt_length_of_carriesOut {is : List Incident} {t : ThreadId} {o : Operation}
    (h : CarriesOut is t o) : t < (origins is).length :=
  (List.getElem?_eq_some_iff.mp h).1

theorem CarriesOut.of_append {is is' : List Incident} {t : ThreadId} {o : Operation}
    (h : CarriesOut (is ++ is') t o) (hlt : t < (origins is).length) : CarriesOut is t o := by
  rwa [CarriesOut, origins_append, List.getElem?_append_left hlt] at h

/-- What a thread was started for, somebody has called. -/
theorem Incident.called_of_spawns {i : Incident} {n : Nat} {o : Operation}
    (h : i.spawns[n]? = some (some o)) : n = 0 ∧ ∃ home, i = .called home o := by
  unfold spawns at h
  split at h
  · rw [List.getElem?_singleton] at h
    split at h
    · obtain rfl := Option.some.inj (Option.some.inj h)
      exact ⟨‹_›, _, rfl⟩
    · exact absurd h nofun
  · rw [List.getElem?_singleton] at h
    split at h <;> exact absurd h nofun
  · exact absurd h nofun

namespace Machine

variable {m m' : Machine} {i : Incident} {is : List Incident} {f : FactoryId} {t : ThreadId}

/-- Whoever moves is there. -/
theorem Advance.lt_size {h : Happening} (a : m.Advance (.stepped t h) m') : t < m.threads.size := by
  cases a with
  | act hc => exact lt_size_of_control? hc
  | answer hc => exact lt_size_of_control? hc

theorem Run.lt_size_of_stepped (r : Run is m) {h : Happening} (hi : .stepped t h ∈ is) :
    t < (origins is).length := by
  revert hi
  refine r.induction (motive := fun is _ => .stepped t h ∈ is → t < (origins is).length)
    ?empty ?advance
  case empty => exact fun hi => absurd hi List.not_mem_nil
  case advance =>
    intro is m i m' r ih a hi
    rw [origins_append, List.length_append]
    rcases List.mem_append.mp hi with hi | hi
    · exact Nat.lt_add_right _ (ih hi)
    · obtain rfl := List.mem_singleton.mp hi
      exact Nat.lt_add_right _ (r.originates.1 ▸ a.lt_size)

/-- **The first to move is found when it moves.** -/
theorem First.snoc (r : Run is m) (a : m.Advance i m') (h : First (is ++ [i]) f t) :
    First is f t ∨ (∃ h, i = .stepped t h) ∧ CarriesOut is t (.release f) ∧ Unmoved is f := by
  obtain ⟨ho, is₀, h, is₁, heq, hbefore⟩ := h
  have hback {t' : ThreadId} {h' : Happening} (hi : .stepped t' h' ∈ is)
      (hno : ¬ CarriesOut (is ++ [i]) t' (.release f)) : ¬ CarriesOut is t' (.release f) :=
    fun ho => hno (CarriesOut.append ho)
  -- its first step is the last thing that happened, or was before that
  rcases List.eq_nil_or_concat is₁ with rfl | ⟨is₂, j, rfl⟩
  · obtain ⟨rfl, hi⟩ := List.append_inj' heq rfl
    obtain rfl : i = .stepped t h := (List.cons.inj hi).1
    refine .inr ⟨⟨h, rfl⟩, ho.of_append (r.originates.1 ▸ a.lt_size), fun t' h' hi => ?_⟩
    exact hback hi (hbefore t' h' hi)
  · rw [List.concat_eq_append, ← List.cons_append, ← List.append_assoc] at heq
    obtain ⟨rfl, hi⟩ := List.append_inj' heq rfl
    have hmem : .stepped t h ∈ is₀ ++ .stepped t h :: is₂ :=
      List.mem_append_right _ List.mem_cons_self
    refine .inl ⟨ho.of_append (r.lt_size_of_stepped hmem), is₀, h, is₂, rfl, fun t' h' hi => ?_⟩
    exact hback (List.mem_append_left _ hi) (hbefore t' h' hi)

/-- **Whoever has not moved is where it began.** -/
theorem Run.control?_of_unmoved (r : Run is m) {o : Operation} (ho : CarriesOut is t o)
    (h : ∀ h, .stepped t h ∉ is) : m.control? t = some o.control := by
  revert ho h
  refine r.induction (motive := fun is m => CarriesOut is t o → (∀ h, .stepped t h ∉ is) →
    m.control? t = some o.control) ?empty ?advance
  case empty => exact fun ho => absurd ho nofun
  case advance =>
    intro is m i m' r ih a ho h
    -- the thread was there, or is the one that has just been called
    by_cases hlt : t < (origins is).length
    · have hold := ih (CarriesOut.of_append ho hlt) fun h' hi => h h' (List.mem_append_left _ hi)
      rw [a.control?_of_ne (r.originates.1 ▸ hlt), hold]
      rintro h' rfl
      exact h h' (List.mem_append_right _ (List.mem_singleton.mpr rfl))
    · rw [CarriesOut, origins_append, List.getElem?_append_right (Nat.not_lt.mp hlt),
        origins_singleton] at ho
      obtain ⟨hn, home, rfl⟩ := Incident.called_of_spawns ho
      cases a with
      | call =>
        have ht : t = m.threads.size :=
          (Nat.le_antisymm (Nat.sub_eq_zero_iff_le.mp hn) (Nat.not_lt.mp hlt)).trans r.originates.1
        rw [control?_spawn, if_pos ht]

/-- Whoever stands in a release carries one out. -/
theorem Run.carriesOut_release (r : Run is m) {p : ReleasePoint} {below : List Frame}
    (hc : m.control? t = some (.running (.release f p :: below))) :
    CarriesOut is t (.release f) := by
  obtain ⟨o, ho, hfrom⟩ := r.originates.2 t _ hc
  rw [CarriesOut, ho, ← show some (Operation.release f) = o from hfrom]

/-! ## The others -/

/-- **A release that finds the factory released**: it has not begun or has
returned, and it has asked nobody for anything. -/
structure Yields (m : Machine) (is : List Incident) (f : FactoryId) (t : ThreadId) : Prop where
  place : m.control? t = some (Operation.release f).control
    ∨ m.control? t = some (.finished .released)
  silent : ∀ q reply, .stepped t (.answered q reply) ∉ is

/-- The factory has been released. -/
def LetGoOf (m : Machine) (f : FactoryId) : Prop :=
  ∃ fac, m.store.factories[f]? = some fac ∧ fac.released = true

theorem Advance.letGoOf (a : m.Advance i m') (h : m.LetGoOf f) : m'.LetGoOf f := by
  obtain ⟨fac, hfac, hup⟩ := h
  obtain ⟨fac', hfac', hg⟩ := a.grows.factory hfac
  exact ⟨fac', hfac', hg.released hup⟩

/-- **A release begins by raising the mark**, and ends there if it was raised. -/
theorem Advance.raise {h : Happening} (a : m.Advance (.stepped t h) m')
    (hc : m.control? t = some (Operation.release f).control) :
    ∃ fac, m.store.factories[f]? = some fac ∧ (∃ ns, h = .acted ns) ∧ m'.LetGoOf f
      ∧ m'.control? t = some (if fac.released then .finished .released
          else .running [.release f .announce]) := by
  cases a with
  | @act _ c c' g ns hc' hmove =>
    obtain rfl := Option.some.inj (hc.symm.trans hc')
    cases Control.moves_of_running hmove with
    | @release _ fac _ found hp =>
      simp [ReleasePoint.move] at hp
      obtain ⟨rfl, rfl, -⟩ := hp
      refine ⟨fac, found, ⟨ns, rfl⟩, ⟨{ fac with released := true }, ?_, rfl⟩, ?_⟩
      · rw [store_act, Store.modifyFactory, Array.getElem?_modify, if_pos rfl, found,
          Option.map_some]
      · exact control?_act_self hc
  | answer hc' hmove =>
    obtain rfl := Option.some.inj (hc.symm.trans hc')
    obtain ⟨fr, below, heq, ha⟩ := Control.asks hmove
    obtain ⟨rfl, -⟩ := List.cons.inj (Control.running.inj heq)
    cases ha

theorem Yields.advance (h : m.Yields is f t) (hup : m.LetGoOf f) (a : m.Advance i m') :
    m'.Yields (is ++ [i]) f t := by
  obtain ⟨hplace, hsilent⟩ := h
  have hsnoc (hi : ∀ q reply, i ≠ .stepped t (.answered q reply)) :
      ∀ q reply, .stepped t (.answered q reply) ∉ is ++ [i] := by
    intro q reply hmem
    rcases List.mem_append.mp hmem with hmem | hmem
    · exact hsilent q reply hmem
    · exact hi q reply (List.mem_singleton.mp hmem).symm
  have hlt : t < m.threads.size := by
    rcases hplace with hc | hc <;> exact lt_size_of_control? hc
  by_cases hi : ∃ h, i = .stepped t h
  · obtain ⟨h, rfl⟩ := hi
    rcases hplace with hc | hc
    · -- it finds the mark raised, and returns at once
      obtain ⟨fac, hfac, ⟨ns, rfl⟩, -, hc'⟩ := a.raise hc
      obtain ⟨fac', hfac', hr⟩ := hup
      obtain rfl := Option.some.inj (hfac.symm.trans hfac')
      rw [if_pos hr] at hc'
      exact ⟨.inr hc', hsnoc (by simp)⟩
    · exact absurd hc a.not_finished
  · have hne (h : Happening) : i ≠ .stepped t h := fun heq => hi ⟨h, heq⟩
    rw [← a.control?_of_ne hlt hne] at hplace
    exact ⟨hplace, hsnoc fun q reply => hne _⟩

theorem Yields.spawned (r : Run is m) (home : Option ExecutorId) :
    (m.spawn home (Operation.release f).control).Yields (is ++ [.called home (.release f)]) f
      m.threads.size := by
  refine ⟨.inl ?_, fun q reply hmem => ?_⟩
  · rw [control?_spawn, if_pos rfl]
  · rcases List.mem_append.mp hmem with hmem | hmem
    · exact absurd (r.lt_size_of_stepped hmem) (by rw [r.originates.1]; exact Nat.lt_irrefl _)
    · exact absurd (List.mem_singleton.mp hmem) nofun

/-- Who has just been called to release has done nothing yet. -/
theorem Advance.yields_of_new (a : m.Advance i m') (r : Run is m)
    (ho : CarriesOut (is ++ [i]) t (.release f)) (hlt : ¬ t < (origins is).length) :
    m'.Yields (is ++ [i]) f t := by
  rw [CarriesOut, origins_append, List.getElem?_append_right (Nat.not_lt.mp hlt),
    origins_singleton] at ho
  obtain ⟨hn, home, rfl⟩ := Incident.called_of_spawns ho
  obtain rfl : t = m.threads.size :=
    (Nat.le_antisymm (Nat.sub_eq_zero_iff_le.mp hn) (Nat.not_lt.mp hlt)).trans r.originates.1
  cases a with
  | call => exact .spawned r home

/-- **Only the first release of a factory does anything**: before it the factory
has not been released, and from then on all others yield. -/
theorem Run.first (r : Run is m) (f : FactoryId) :
    (Unmoved is f → ¬ m.LetGoOf f) ∧ ∀ t, First is f t →
      m.LetGoOf f ∧ ∀ t', t' ≠ t → CarriesOut is t' (.release f) → m.Yields is f t' := by
  refine r.induction (motive := fun is m => (Unmoved is f → ¬ m.LetGoOf f) ∧ ∀ t, First is f t →
    m.LetGoOf f ∧ ∀ t', t' ≠ t → CarriesOut is t' (.release f) → m.Yields is f t')
    ?empty ?advance
  case empty =>
    refine ⟨fun _ h => ?_, fun t h => by cases h.1⟩
    obtain ⟨fac, hfac, -⟩ := h
    simp [Machine.empty, Store.empty] at hfac
  case advance =>
    intro is m i m' r ih a
    refine ⟨fun hun hup => ?_, fun t hfirst => ?_⟩
    · -- whoever raised the mark carries out a release, and has moved
      have hold : ¬ m.LetGoOf f :=
        ih.1 fun t h hi ho => hun t h (List.mem_append_left _ hi) (CarriesOut.append ho)
      obtain ⟨fac, hfac, hr⟩ := hup
      cases a with
      | @act t c c' g ns hc hmove =>
        rcases (Control.flags_of_act hmove).released f fac hfac hr with h | ⟨below, rfl⟩
        · exact hold h
        · exact hun t _ (List.mem_append_right _ (List.mem_singleton.mpr rfl))
            (CarriesOut.append (r.carriesOut_release hc))
      | answer => exact hold ⟨fac, by rwa [store_answer] at hfac, hr⟩
      | call => exact hold ⟨fac, hfac, hr⟩
      | build b =>
        have hflags : Flags m.store (.finished .served) (m.store.build b) := .build b
        exact hold ((hflags.released f fac hfac hr).resolve_right (by rintro ⟨_, ⟨⟩⟩))
    · rcases First.snoc r a hfirst with hold | ⟨⟨h, rfl⟩, ho, hun⟩
      · obtain ⟨hup, hothers⟩ := ih.2 t hold
        refine ⟨a.letGoOf hup, fun t' hne ho' => ?_⟩
        by_cases hlt : t' < (origins is).length
        · exact (hothers t' hne (ho'.of_append hlt)).advance hup a
        · exact a.yields_of_new r ho' hlt
      · have hc := r.control?_of_unmoved ho fun h hi => hun t h hi ho
        obtain ⟨fac, hfac, -, hup, -⟩ := a.raise hc
        refine ⟨hup, fun t' hne ho' => ?_⟩
        by_cases hlt : t' < (origins is).length
        · have hnot (h : Happening) : .stepped t' h ∉ is :=
            fun hi => hun t' h hi (ho'.of_append hlt)
          have hc := r.control?_of_unmoved (ho'.of_append hlt) hnot
          refine ⟨.inl ?_, fun q reply hmem => ?_⟩
          · rw [a.control?_of_ne (lt_size_of_control? hc), hc]
            exact fun h' heq => hne (Incident.stepped.inj heq).1.symm
          · rcases List.mem_append.mp hmem with hmem | hmem
            · exact hnot _ hmem
            · exact hne (Incident.stepped.inj (List.mem_singleton.mp hmem)).1
        · exact a.yields_of_new r ho' hlt

end Machine

end EndpointControl
