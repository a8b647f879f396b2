import EndpointControl.Proofs.Lifecycle
import EndpointControl.Proofs.Wakes

/-!
# The wakes of a factory

Whoever has seen a factory at work can tell from the outside how often its loops have
been woken. Once for each attempt that its boss has accepted, once for each registration
that one of its workers has, and, when the release has told its loops to end, once for
each of them that had been opened, were it only for an executor that refused it
(`Machine.Run.wakeAccount`).

All of these wakes are for something that has been done before: the job had been
appended, or the flag was up. What comes to nothing wakes nobody, neither a channel nor
an attempt that fails, and a release after the first does nothing at all.
-/

open Finset

namespace EndpointControl

/-- Somebody wakes a multiplexer of the factory, whatever comes of it. -/
def Incident.wakesFor (f : FactoryId) : Incident → Bool
  | .stepped _ (.answered (.wake l _) _) => l.factory = f
  | _ => false

/-- **How many wakes have been made for the factory**, whether they got through or not. -/
def wakesOf (is : List Incident) (f : FactoryId) : Nat := is.countP (Incident.wakesFor f)

/-- The thread wakes a multiplexer. -/
def Incident.wakesBy (t : ThreadId) : Incident → Bool
  | .stepped t' (.answered (.wake ..) _) => t' = t
  | _ => false

/-- **How many wakes the thread has made.** -/
def wakesMadeBy (is : List Incident) (t : ThreadId) : Nat := is.countP (Incident.wakesBy t)

/-- **How many attempts the boss of the factory has accepted.** -/
def connectsTaken (is : List Incident) (f : FactoryId) : Nat := (pushed is ⟨f, .boss⟩).length

/-- How many workers the factory has. -/
def Store.width (s : Store) (f : FactoryId) : Nat := (s.factories[f]?.map (·.workers.size)).getD 0

/-- **How many registrations the workers of the factory have accepted.** -/
def Machine.registrationsTaken (m : Machine) (is : List Incident) (f : FactoryId) : Nat :=
  ∑ w ∈ range (m.store.width f), (pushed is ⟨f, .worker w⟩).length

/-! ## Counting part by part -/

/-- **What is counted as a whole is counted in its parts**, if each thing belongs to one
of them. -/
theorem countP_eq_sum {α β : Type} {S : Finset β} {p : α → Bool} {q : β → α → Bool}
    {l : List α} (h : ∀ a ∈ l, (if p a then 1 else 0) = ∑ b ∈ S, if q b a then 1 else 0) :
    l.countP p = ∑ b ∈ S, l.countP (q b) := by
  induction l with
  | nil => simp
  | cons a l ih =>
    simp only [List.countP_cons, sum_add_distrib]
    rw [ih fun b hb => h b (List.mem_cons_of_mem a hb), h a List.mem_cons_self]

/-- What yields one thing at most is counted by what it yields. -/
theorem length_flatMap_eq_countP {α β : Type} {f : α → List β} (h : ∀ a, (f a).length ≤ 1)
    (l : List α) : (l.flatMap f).length = l.countP fun a => !(f a).isEmpty := by
  induction l with
  | nil => rfl
  | cons a l ih =>
    rw [List.flatMap_cons, List.length_append, ih, List.countP_cons, Nat.add_comm]
    have hle := h a
    cases hfa : f a with
    | nil => rfl
    | cons b bs =>
      rw [hfa] at hle
      obtain rfl := List.eq_nil_of_length_eq_zero (Nat.le_zero.mp (Nat.le_of_succ_le_succ hle))
      rfl

namespace Store

variable {s : Store} {f : FactoryId} {l : LoopId}

/-- **The loops of a factory.** -/
def loopsOf (s : Store) (f : FactoryId) : Finset LoopId :=
  (insert ⟨f, .boss⟩ ((range (s.width f)).image fun w => ⟨f, .worker w⟩)).filter
    fun l => (s.loop? l).isSome

theorem mem_loopsOf : l ∈ s.loopsOf f ↔ l.factory = f ∧ (s.loop? l).isSome := by
  rw [loopsOf, mem_filter]
  refine and_congr_left fun hsome => ?_
  rw [mem_insert, mem_image]
  constructor
  · rintro (rfl | ⟨w, -, rfl⟩) <;> rfl
  · rintro rfl
    obtain ⟨f, st⟩ := l
    cases st with
    | boss => exact .inl rfl
    | worker w =>
      refine .inr ⟨w, mem_range.mpr ?_, rfl⟩
      obtain ⟨lp, hlp⟩ := Option.isSome_iff_exists.mp hsome
      obtain ⟨fac, hfac, hseat⟩ := Option.bind_eq_some_iff.mp hlp
      obtain ⟨wk, hwk, -⟩ := Option.map_eq_some_iff.mp hseat
      rw [width, hfac]
      exact (Array.getElem?_eq_some_iff.mp hwk).1

/-- What there is only for loops is summed over the boss and the workers. -/
theorem sum_loopsOf {v : LoopId → Nat} (hv : ∀ l, s.loop? l = none → v l = 0) :
    ∑ l ∈ s.loopsOf f, v l = v ⟨f, .boss⟩ + ∑ w ∈ range (s.width f), v ⟨f, .worker w⟩ := by
  rw [loopsOf, sum_filter_of_ne, sum_insert, sum_image]
  · intro w _ w' _ heq
    exact Seat.worker.inj (LoopId.mk.inj heq).2
  · intro hmem
    obtain ⟨w, -, heq⟩ := mem_image.mp hmem
    exact absurd heq nofun
  · intro l _ hne
    exact Option.isSome_iff_ne_none.mpr fun hnone => hne (hv l hnone)

end Store

namespace Machine

variable {m m' : Machine} {i : Incident} {is : List Incident} {l : LoopId} {f : FactoryId}
  {t : ThreadId} {c : Control} {below : List Frame}

/-! ## What has been done, loop by loop -/

/-- **The loops that have been woken because they have been told to end**: the flag is up,
there is a multiplexer, and whoever has raised the flag has nothing to wake any more. -/
def rung (m : Machine) (f : FactoryId) : Finset LoopId :=
  (m.store.loopsOf f).filter fun l =>
    m.store.isTold l = true ∧ (m.store.slot? l).isSome = true ∧ m.ringing l = 0

theorem Traffic.wakesAt_eq (h : Traffic is m) (l : LoopId) : wakesAt is l + m.owing l
    = (pushed is l).length
      + if m.store.isTold l = true ∧ (m.store.slot? l).isSome = true ∧ m.ringing l = 0 then 1
        else 0 := by
  obtain ⟨hsingle, hshut, heven⟩ := h.tolled l
  cases hslot : m.store.slot? l with
  | none =>
    rw [hshut hslot, h.wakesAt_eq_zero hslot, h.owing_eq_zero hslot]
    simp
  | some mux =>
    have heven := heven mux hslot
    cases htold : m.store.isTold l with
    | false =>
      rw [htold, Bool.toNat_false] at hsingle heven
      rw [if_neg (fun h => absurd h.1 nofun)]
      omega
    | true =>
      rw [htold, Bool.toNat_true] at hsingle heven
      by_cases hringing : m.ringing l = 0
      · rw [if_pos ⟨rfl, rfl, hringing⟩]
        omega
      · rw [if_neg fun h => hringing h.2.2]
        omega

/-- Whoever wakes a loop of the factory wakes one that there is. -/
theorem Traffic.wakesOf_eq_sum (h : Traffic is m) (f : FactoryId) :
    wakesOf is f = ∑ l ∈ m.store.loopsOf f, wakesAt is l := by
  refine countP_eq_sum fun i hi => ?_
  unfold Incident.wakesFor Incident.isWake
  split
  · rename_i l mux reply
    have hslot := h.slot_of_names _ hi mux
      (List.mem_ite_nil_right.mpr ⟨rfl, List.mem_singleton_self _⟩)
    have hsome : (m.store.loop? l).isSome := by
      obtain ⟨lp, hlp, -⟩ := Option.bind_eq_some_iff.mp hslot
      exact Option.isSome_iff_exists.mpr ⟨lp, hlp⟩
    simp [sum_ite_eq, Store.mem_loopsOf, hsome]
  · simp

/-- **The wakes there have been and those that are to come** are for what has been
accepted and for the loops that have been told. -/
theorem Traffic.wakesOf_add (h : Traffic is m) (f : FactoryId) :
    wakesOf is f + ∑ l ∈ m.store.loopsOf f, m.owing l
      = connectsTaken is f + m.registrationsTaken is f + #(m.rung f) := by
  have hpushed (l : LoopId) (hnone : m.store.loop? l = none) : (pushed is l).length = 0 := by
    rw [(h.tolled l).shut (by rw [Store.slot?, hnone]; rfl), List.length_nil]
  rw [h.wakesOf_eq_sum, ← sum_add_distrib, sum_congr rfl fun l _ => h.wakesAt_eq l,
    sum_add_distrib, Store.sum_loopsOf hpushed, ← card_filter]
  rfl

/-! ## What has been accepted -/

/-- **The boss has accepted the attempts at the endpoints of its factory**, and nothing
else. -/
theorem Run.connectsTaken_eq (r : Run is m) (f : FactoryId) :
    connectsTaken is f = ∑ e ∈ m.store.ofFactory f, accepted is e := by
  have hle (n : Note) : (n.pushes ⟨f, .boss⟩).length ≤ 1 := by
    cases n with
    | pushed l j => by_cases h : l = ⟨f, .boss⟩ <;> simp [h]
    | _ => exact Nat.zero_le _
  rw [connectsTaken, pushed, length_flatMap_eq_countP hle]
  refine countP_eq_sum fun n hn => ?_
  cases n with
  | pushed l j =>
    have hplaced := (r.placed_of_pushed (mem_pushed.mpr hn)).1
    cases j with
    | attempt e a =>
      obtain ⟨q, hq, rfl⟩ := hplaced
      have hmem : e ∈ m.store.ofFactory f ↔ q.boss = ⟨f, .boss⟩ := by
        simp only [Store.ofFactory, Store.mem_endpointsOf, hq, Endpoint.home, Endpoint.boss,
          Option.some.injEq, exists_eq_left', LoopId.mk.injEq, and_true]
        exact decide_eq_true_iff
      by_cases h : q.boss = ⟨f, .boss⟩
      · simp [Note.accepts, h, hmem.mpr h]
      · simp [Note.accepts, h, mt hmem.mp h]
    | registration e =>
      obtain ⟨q, hq, rfl⟩ := hplaced
      simp [Note.accepts, Endpoint.home]
  | _ => simp [Note.accepts]

/-- **While nobody connects** those are the attempts that the boss has counted. -/
theorem Run.connectsTaken_of_noConnect (r : Run is m) (h : m.NoConnect) (f : FactoryId) :
    connectsTaken is f = m.store.attempts f := by
  rw [r.connectsTaken_eq, r.attempts_eq]
  refine sum_congr rfl fun e _ => ?_
  rw [← r.total_settled, r.reachable.acknowledging_eq_zero h, Nat.add_zero]

/-- **Whose job it is** that a thread appends: an attempt is its client's, and a
registration is handed over by a boss or belongs to a channel that is being made. -/
def Appends (m : Machine) (is : List Incident) (t : ThreadId) : Job → Prop
  | .attempt e a => CarriesOut is t (.connect e a)
  | .registration e => (∃ f, CarriesOut is t (.create f))
    ∨ ∃ l j p a below,
      m.control? t = some (.running (.submit l j p :: .attempt e a .submitting :: below))

/-- **Jobs come from clients that connect, from a boss, or with a channel.** -/
theorem Run.appends (r : Run is m) {j : Job} {p : SubmitPoint}
    (hc : m.control? t = some (.running (.submit l j p :: below))) : m.Appends is t j := by
  obtain ⟨caller, rest, rfl, hcall, -, hrest⟩ := (r.reachable.sound.2 t _ hc).2.2.exists_caller rfl
  cases hcall with
  | submitConnect =>
    obtain rfl := hrest.eq_nil rfl
    exact r.carriesOut hc rfl
  | submitCreate =>
    obtain rfl := hrest.eq_nil rfl
    exact .inl ⟨_, r.carriesOut hc rfl⟩
  | submitAttempt => exact .inr ⟨_, _, _, _, _, hc⟩

end Machine

/-! ## When the release has told its loops to end -/

/-- **The release of the factory has told all loops to end**, and may have returned. -/
def Control.hasSignalled (f : FactoryId) : Control → Bool
  | .running (.release f' p :: _) => f' = f && p.hasSignalled
  | .finished .released => true
  | _ => false

section Procedures

variable {s : Store} {t : ThreadId} {f : FactoryId} {g : Store → Store} {c c' : Control}
  {ns : List Note}

/-- **Nobody comes to where an operation begins.** -/
theorem Control.Sound.ne_control_of_act (hc : c.Sound s) (h : c.move s t = .act g c' ns)
    (o : Operation) : c' ≠ o.control := by
  intro hc'
  subst hc'
  obtain ⟨fr, below, rfl, hgoes⟩ := goes_of_act h
  have htop {fr₁ : Frame} (hfr₁ : o.control = .running [fr₁]) (hroot : fr₁.isRoot = true)
      (hfirst : ∀ caller : Frame, ∀ r, Frame.Calls fr caller → fr₁ ≠ caller.resume r) :
      fr.SameCall fr₁ := by
    rcases hgoes.top hc.2.2 hfr₁ with ⟨hsame, -⟩ | hnew | ⟨caller, r, hcall, heq⟩
    · exact hsame
    · rw [Frame.isRoot_of_isNew hnew] at hroot
      cases hroot
    · exact absurd heq (hfirst caller r hcall)
  cases o with
  | create f =>
    have hsame := htop rfl rfl fun caller r hcall heq => by cases hcall <;> cases r <;> cases heq
    cases hsame with | @create _ p =>
    cases moves_of_running h with | create found hp =>
    cases p <;> simp [CreatePoint.move, Operation.control] at hp
    all_goals split at hp <;> simp at hp
  | connect e a =>
    have hsame := htop rfl rfl fun caller r hcall heq => by cases hcall <;> cases r <;> cases heq
    cases hsame with | @connect _ _ p =>
    cases moves_of_running h with | connect found hp =>
    cases p <;> simp [ConnectPoint.move, Operation.control] at hp
    all_goals split at hp <;> simp at hp
  | close e =>
    have hsame := htop rfl rfl fun caller r hcall heq => by cases hcall <;> cases r <;> cases heq
    cases hsame with | @close _ p =>
    cases moves_of_running h with | close found hp =>
    cases p <;> simp [ClosePoint.move, Operation.control] at hp
  | release f =>
    have hsame := htop rfl rfl fun caller r hcall heq => by cases hcall <;> cases r <;> cases heq
    cases hsame with | @release _ p =>
    cases moves_of_running h with | release found hp =>
    cases p <;> simp [ReleasePoint.move, Operation.control] at hp
    all_goals split at hp <;> simp at hp

/-- **A release returns where it has told all loops to end**, or finds the factory
released. -/
theorem Control.Sound.release_of_returned (hc : c.Sound s)
    (h : c.move s t = .act g (.finished .released) ns) :
    ∃ f p, c = .running [.release f p] ∧ (p = .raise ∨ s.AllTold f) := by
  obtain ⟨fr, below, rfl, hgoes⟩ := goes_of_act h
  generalize hd : Control.finished .released = d at hgoes
  cases hgoes with
  | within | calls => exact absurd hd nofun
  | returns hroot =>
    obtain ⟨caller, rest, rfl, -⟩ := hc.2.2.exists_caller hroot
    exact absurd hd nofun
  | ends hroot ho =>
    obtain rfl := Control.finished.inj hd
    obtain rfl := hc.2.2.eq_nil hroot
    cases fr <;> simp [Frame.operation?, Outcome.endsFor] at ho
    rename_i f p
    refine ⟨f, p, rfl, ?_⟩
    cases moves_of_running h with
    | release found hp =>
      cases p <;> simp [ReleasePoint.move] at hp
      case raise => exact .inl rfl
      case announceEnd => exact .inr hc.1
      all_goals split at hp <;> simp at hp

end Procedures

namespace Machine

variable {m m' : Machine} {i : Incident} {is : List Incident} {l : LoopId} {f : FactoryId}
  {t : ThreadId} {c : Control} {below : List Frame}

/-- **The first release of the factory has told all its loops to end.** -/
def HasSignalled (m : Machine) (is : List Incident) (f : FactoryId) : Prop :=
  ∃ t, First is f t ∧ (m.control? t).any (Control.hasSignalled f) = true

/-- **The first release of a factory goes on to its end**, and tells all loops on its
way. -/
theorem Run.told_of_first (r : Run is m) : First is f t → ∃ c, m.control? t = some c
    ∧ c ≠ (Operation.release f).control ∧ (c = .finished .released → m.store.AllTold f) := by
  refine r.induction (motive := fun is m => First is f t → ∃ c, m.control? t = some c
    ∧ c ≠ (Operation.release f).control ∧ (c = .finished .released → m.store.AllTold f))
    (fun h => by cases h.1) ?_
  intro is m i m' r ih a hfirst
  rcases First.snoc r a hfirst with hold | ⟨⟨h, rfl⟩, ho, hun⟩
  · obtain ⟨c, hc, hne, htold⟩ := ih hold
    obtain ⟨d, hd⟩ := a.exists_place hc
    refine ⟨d, hd, ?_⟩
    cases a.places hd with
    | kept hc' =>
      obtain rfl := Option.some.inj (hc.symm.trans hc')
      exact ⟨hne, fun hend => a.grows.allTold (htold hend)⟩
    | acted hc' hmove =>
      obtain rfl := Option.some.inj (hc.symm.trans hc')
      have hsound := r.reachable.sound.2 t c hc
      refine ⟨hsound.ne_control_of_act hmove _, ?_⟩
      rintro rfl
      obtain ⟨f', p, rfl, hp⟩ := hsound.release_of_returned hmove
      have hsame := (r.carriesOut_release hc).symm.trans hold.1
      obtain rfl := Operation.release.inj (Option.some.inj (Option.some.inj hsame))
      exact a.grows.allTold (hp.resolve_left fun hp => hne (hp ▸ rfl))
    | answered reply hc' hmove hafter =>
      obtain ⟨fr, fr', rest, -, -, hreply⟩ := Control.goes_of_ask reply hmove
      obtain ⟨fr, rest, rfl, hask⟩ := Control.asks hmove
      refine ⟨?_, fun hend => by cases hreply.symm.trans (hafter.symm.trans hend)⟩
      rw [hafter]
      cases hask <;> cases reply <;> simp [Operation.control]
    | called ht | served ht => exact absurd ht (Nat.ne_of_lt (lt_size_of_control? hc))
  · -- it begins here, and finds the mark lowered as nobody was before it
    have hnot (h : Happening) : .stepped t h ∉ is := fun hi => hun t h hi ho
    obtain ⟨fac, hfac, -, -, hc⟩ := a.raise (r.control?_of_unmoved ho hnot)
    have hup : fac.released = false :=
      Bool.eq_false_iff.mpr fun h => (r.first f).1 hun ⟨fac, hfac, h⟩
    rw [if_neg (by simp [hup])] at hc
    exact ⟨_, hc, by rintro ⟨⟩, by rintro ⟨⟩⟩

theorem HasSignalled.allTold (h : m.HasSignalled is f) (r : Run is m) : m.store.AllTold f := by
  obtain ⟨t, hfirst, hsignalled⟩ := h
  obtain ⟨c, hc, -, htold⟩ := r.told_of_first hfirst
  rw [hc, Option.any_some] at hsignalled
  unfold Control.hasSignalled at hsignalled
  split at hsignalled
  · rename_i f' p below
    obtain ⟨hf, hp⟩ := Bool.and_eq_true_iff.mp hsignalled
    obtain rfl := of_decide_eq_true hf
    have hknows := (r.reachable.sound.2 t _ hc).1
    cases p <;> first | exact hknows | exact absurd hp nofun
  · exact htold rfl
  · exact absurd hsignalled nofun

/-- By then nobody is in the midst of telling one of them. -/
theorem HasSignalled.not_signal (h : m.HasSignalled is f) (r : Run is m) {st : Seat}
    {p : SignalPoint} : m.control? t ≠ some (.running (.signal ⟨f, st⟩ p :: below)) := by
  intro hc
  obtain ⟨t', hfirst, hsignalled⟩ := h
  have hfirst' := first_iff.mp (r.first_of_releases (r.releases_of_signal hc))
  obtain rfl := Option.some.inj (hfirst'.symm.trans (first_iff.mp hfirst))
  rw [hc] at hsignalled
  exact absurd hsignalled nofun

theorem HasSignalled.sealed (h : m.HasSignalled is f) (r : Run is m) {lp : Loop} {st : Seat}
    (found : m.store.loop? ⟨f, st⟩ = some lp) : m.Sealed ⟨f, st⟩ := by
  have hup : m.store.ShutDown ⟨f, st⟩ :=
    ⟨lp, found, (h.allTold r (st.rank + 1)).2 st st.rank.lt_succ_self lp found⟩
  refine (r.traffic.sealed_or hup).resolve_right ?_
  rintro ⟨t, below, hc⟩
  exact h.not_signal r hc

/-- **What has been opened for a sealed loop** is in its slot. -/
theorem Sealed.opened_eq (hs : m.Sealed l) (h : Traffic is m) :
    opened is l = (m.store.slot? l).toList := by
  by_cases hidle : ∀ t c, m.control? t = some c → c.isUnsettled l = false
  · exact ((h.launch l).settled hidle).1
  · push Not at hidle
    obtain ⟨t, c, hc, hu⟩ := hidle
    unfold Control.isUnsettled at hu
    split at hu
    case h_2 => exact absurd rfl hu
    case h_1 l' p below =>
      obtain ⟨hl, hp⟩ := Bool.and_eq_true_iff.mp (Bool.eq_true_of_not_eq_false hu)
      obtain rfl := of_decide_eq_true hl
      cases p <;> simp [StartPoint.isUnsettled] at hp
      case fillSlot mux =>
        have hlaunching := hs.idle t _ hc
        simp [Control.isLaunching, StartPoint.isLaunching] at hlaunching
      case mark => exact ((h.launch l').fits hc).2.2.1

/-- Whoever opens a multiplexer for the factory opens it for a loop that there is. -/
theorem Run.openings_eq_sum (r : Run is m) (f : FactoryId) :
    openings is f = ∑ l ∈ m.store.loopsOf f, (opened is l).length := by
  have hle (l : LoopId) (i : Incident) : (i.opened l).length ≤ 1 := by
    unfold Incident.opened
    split
    · split <;> simp
    · exact Nat.zero_le _
  simp only [opened, length_flatMap_eq_countP (hle _)]
  refine countP_eq_sum fun i hi => ?_
  unfold Incident.opensFor Incident.opened
  split
  · rename_i t l pr mux
    have hsome : (m.store.loop? l).isSome := by
      obtain ⟨is₁, is₂, rfl⟩ := List.append_of_mem hi
      obtain ⟨m₁, m₂, -, a, h⟩ := r.split
      obtain ⟨lp, hlp⟩ := a.loop_of_asksToLaunch (l := l) (decide_eq_true rfl)
      obtain ⟨lp', hlp', -⟩ := (a.grows.trans h.grows).loop hlp
      exact Option.isSome_iff_exists.mpr ⟨lp', hlp'⟩
    have hpart (l' : LoopId) : (if !(if l = l' then [mux] else []).isEmpty then 1 else 0)
        = if l = l' then 1 else 0 := by split <;> rfl
    simp only [hpart]
    simp [Store.mem_loopsOf, hsome]
  · simp

/-- **When its release has told all loops to end**, each that has been opened has been
woken for it. -/
theorem HasSignalled.card_rung (h : m.HasSignalled is f) (r : Run is m) :
    #(m.rung f) = openings is f := by
  rw [r.openings_eq_sum, rung, card_filter]
  refine sum_congr rfl fun l hl => ?_
  obtain ⟨rfl, hsome⟩ := Store.mem_loopsOf.mp hl
  obtain ⟨lp, found⟩ := Option.isSome_iff_exists.mp hsome
  have hs : m.Sealed l := h.sealed r found
  have hringing : m.ringing l = 0 := by
    refine total_eq_zero_iff.mpr fun t c hc => ?_
    unfold Control.rings
    split
    · refine if_neg fun hw => ?_
      exact h.not_signal r (hw.1 ▸ hc)
    · rfl
  rw [hs.opened_eq r.traffic]
  cases m.store.slot? l <;> simp [Store.isTold_iff.mpr hs.told, hringing]

/-- **Before the factory is released** none of its loops has been woken for its end. -/
theorem Run.rung_eq_empty (r : Run is m) (h : ¬ m.LetGoOf f) : m.rung f = ∅ := by
  refine filter_eq_empty_iff.mpr fun l hl htold => h ?_
  obtain ⟨rfl, -⟩ := Store.mem_loopsOf.mp hl
  exact r.letGoOf_of_shutDown (Store.isTold_iff.mp htold.1)

end Machine

/-! ## What comes to nothing -/

/-- **The operation can no longer fail**: its job is queued, or there was none to queue. -/
def Control.isCommitted : Control → Bool
  | .running (.submit _ _ (.wake _) :: _) | .running (.submit _ _ (.wakeFailed _) :: _)
  | .running (.submit _ _ .leave :: _) => true
  | .running (.connect _ _ .count :: _) | .running (.create _ (.announce _) :: _) => true
  | .finished (.connected (.ok _)) | .finished (.created (.ok _)) => true
  | _ => false

/-- The operation is to make a channel or to connect an endpoint. -/
def Operation.isRequest : Operation → Bool
  | .create _ | .connect .. => true
  | _ => false

/-- The outcome is a failure of such an operation. -/
def Outcome.isFailure : Outcome → Bool
  | .created (.error _) | .connected (.error _) => true
  | _ => false

/-- Only requests fail. -/
theorem Outcome.request_of_isFailure {out : Outcome} {o : Option Operation}
    (hends : out.endsFor o = true) (hfailure : out.isFailure = true) :
    ∃ op, o = some op ∧ op.isRequest = true := by
  unfold endsFor at hends
  split at hends
  case h_1 | h_2 => exact ⟨_, rfl, rfl⟩
  case h_3 | h_4 | h_5 => exact absurd hfailure nofun
  case h_6 => exact absurd hends nofun

section Procedures

variable {s : Store} {t : ThreadId} {g : Store → Store} {c c' : Control} {ns : List Note}
  {o : Operation}

/-- **What can no longer fail goes on to succeed.** -/
theorem Control.isCommitted_of_act (hc : c.Sound s) (hfrom : c.From (some o))
    (h : c.move s t = .act g c' ns) (hcommitted : c.isCommitted = true) :
    c'.isCommitted = true := by
  unfold isCommitted at hcommitted
  split at hcommitted
  · cases moves_of_running h with
    | submit found hp => simp [SubmitPoint.move] at hp
  · cases moves_of_running h with
    | submit found hp =>
      simp [SubmitPoint.move] at hp
      exact hp.2.1 ▸ rfl
  · rename_i l j below
    obtain ⟨caller, rest, rfl, hcall, -, hrest⟩ := hc.2.2.exists_caller rfl
    have hback : c' = .back (caller :: rest) (.ok ()) := by
      cases moves_of_running h with
      | submit found hp =>
        simp only [SubmitPoint.move] at hp
        split at hp <;> simp at hp <;> exact hp.2.1
    rw [hback]
    cases hcall with
    | submitConnect | submitCreate => rfl
    | submitAttempt =>
      -- a hand-over is the boss's, and no client's
      obtain ⟨caller, rest, rfl, hcall, -, hrest⟩ := hrest.exists_caller rfl
      cases hcall
      obtain rfl := hrest.eq_nil rfl
      cases hfrom
  · cases moves_of_running h with
    | connect found hp =>
      simp [ConnectPoint.move] at hp
      exact hp.2.1 ▸ rfl
  · cases moves_of_running h with
    | create found hp =>
      simp only [CreatePoint.move] at hp
      split at hp <;> simp at hp
      exact hp.2.1 ▸ rfl
  · cases h
  · cases h
  · cases hcommitted

/-- **A client wakes a loop only for what can no longer fail.** -/
theorem Control.isCommitted_of_ask {q : Request} {after : q.Reply → Control} (reply : q.Reply)
    (hc : c.Sound s) (hfrom : c.From (some o)) (ho : o.isRequest = true)
    (h : c.move s t = .ask q after)
    (hw : c.isCommitted = true ∨ (Incident.stepped t (.answered q reply)).wakesBy t = true) :
    (after reply).isCommitted = true := by
  obtain ⟨fr, below, rfl, hask⟩ := asks h
  cases hask with
  | wakeSubmit => cases reply <;> rfl
  | wakeSignal =>
    -- loops are told to end by a release
    obtain ⟨caller, rest, rfl, hcall, -, hrest⟩ := hc.2.2.exists_caller rfl
    cases hcall
    obtain rfl := Option.some.inj hfrom
    exact absurd ho nofun
  | _ => rcases hw with hw | hw <;> exact absurd hw nofun

end Procedures

namespace Machine

variable {m m' : Machine} {i : Incident} {is : List Incident} {f : FactoryId} {t : ThreadId}
  {c : Control} {o : Operation}

theorem wakesMadeBy_concat (is : List Incident) (i : Incident) (t : ThreadId) :
    wakesMadeBy (is ++ [i]) t = wakesMadeBy is t + if i.wakesBy t then 1 else 0 := by
  rw [wakesMadeBy, List.countP_append, List.countP_singleton, wakesMadeBy]

theorem wakesMadeBy_concat_of_ne (h : ∀ hap, i ≠ .stepped t hap) :
    wakesMadeBy (is ++ [i]) t = wakesMadeBy is t := by
  rw [wakesMadeBy_concat, if_neg, Nat.add_zero]
  intro hw
  unfold Incident.wakesBy at hw
  split at hw
  · obtain rfl := of_decide_eq_true hw
    exact h _ rfl
  · exact absurd hw nofun

/-- Whoever has woken a loop has asked for it. -/
theorem exists_of_wakesMadeBy (h : 0 < wakesMadeBy is t) :
    ∃ q reply, .stepped t (.answered q reply) ∈ is := by
  obtain ⟨i, hi, hw⟩ := List.countP_pos_iff.mp h
  unfold Incident.wakesBy at hw
  split at hw
  · obtain rfl := of_decide_eq_true hw
    exact ⟨_, _, hi⟩
  · exact absurd hw nofun

/-- **Whoever has woken a loop for a client** has seen to it that the operation
succeeds. -/
theorem Run.isCommitted (r : Run is m) (ho : o.isRequest = true) : CarriesOut is t o →
    m.control? t = some c → 0 < wakesMadeBy is t → c.isCommitted = true := by
  revert c
  refine r.induction (motive := fun is m => ∀ {c}, CarriesOut is t o → m.control? t = some c →
    0 < wakesMadeBy is t → c.isCommitted = true) (fun h => absurd h nofun) ?_
  intro is m i m' r ih a d hcarries hd hpos
  by_cases hi : ∃ hap, i = .stepped t hap
  · obtain ⟨hap, rfl⟩ := hi
    have hstarted := hcarries.of_append (r.originates.1 ▸ a.lt_size)
    cases a with
    | @act _ c c' g ns hc hmove =>
      obtain rfl := Option.some.inj (hd.symm.trans (control?_act_self hc))
      rw [wakesMadeBy_concat, if_neg nofun, Nat.add_zero] at hpos
      exact Control.isCommitted_of_act (r.reachable.sound.2 t c hc)
        (r.from_of_carriesOut hstarted hc) hmove (ih hstarted hc hpos)
    | @answer _ c q after hc hmove reply =>
      obtain rfl := Option.some.inj (hd.symm.trans (control?_answer_self reply hc))
      refine Control.isCommitted_of_ask reply (r.reachable.sound.2 t c hc)
        (r.from_of_carriesOut hstarted hc) ho hmove ?_
      rw [wakesMadeBy_concat] at hpos
      -- it had woken a loop before, or does so now
      by_cases hold : 0 < wakesMadeBy is t
      · exact .inl (ih hstarted hc hold)
      · refine .inr ?_
        by_contra hno
        rw [if_neg hno] at hpos
        exact hold hpos
  · have hne (hap : Happening) : i ≠ .stepped t hap := fun heq => hi ⟨hap, heq⟩
    rw [wakesMadeBy_concat_of_ne hne] at hpos
    obtain ⟨q, reply, hmem⟩ := exists_of_wakesMadeBy hpos
    have hlt := r.lt_size_of_stepped hmem
    rw [a.control?_of_ne (r.originates.1 ▸ hlt) hne] at hd
    exact ih (hcarries.of_append hlt) hd hpos

/-- **A release that is not the first** wakes nobody. -/
theorem Run.wakesMadeBy_of_not_first (r : Run is m) (ho : CarriesOut is t (.release f))
    (h : ¬ First is f t) : wakesMadeBy is t = 0 := by
  by_contra hne
  obtain ⟨q, reply, hmem⟩ := exists_of_wakesMadeBy (Nat.pos_of_ne_zero hne)
  obtain ⟨t', hfirst⟩ := exists_first hmem ho
  have hyields := ((r.first f).2 t' hfirst).2 t (fun heq => h (heq ▸ hfirst)) ho
  exact hyields.silent q reply hmem

/-! ## The account -/

end Machine

/-- The thread is in the midst of waking a loop of the factory. -/
def Control.isWaking (f : FactoryId) : Control → Bool
  | .running (.submit l _ (.wake _) :: _) | .running (.signal l (.wake _) :: _) => l.factory = f
  | _ => false

namespace Machine

variable {m : Machine} {is : List Incident} {f : FactoryId} {t : ThreadId}

/-- **What a wake is for**: the thread has just appended a job to the queue of the loop, or
it is the release of the factory, and the flag of the loop is up. -/
def HasReason (m : Machine) (is : List Incident) (t : ThreadId) (l : LoopId) : Prop :=
  (∃ j, HasAppended is t l j ∧ m.Appends is t j)
    ∨ CarriesOut is t (.release l.factory) ∧ m.store.ShutDown l

/-- **The account of wakes** after a history. -/
structure WakeAccount (m : Machine) (is : List Incident) : Prop where
  /-- While nobody is in the midst of waking a loop of the factory, there has been one wake
  for each attempt that has been accepted, one for each registration, and one for each
  loop that has been told to end. -/
  exact : ∀ f, (∀ t c, m.control? t = some c → c.isWaking f = false) →
    wakesOf is f = connectsTaken is f + m.registrationsTaken is f + #(m.rung f)
  /-- The attempts that have been accepted are those of clients who have been told so or
  are about to be. -/
  connects : ∀ f, connectsTaken is f = ∑ e ∈ m.store.ofFactory f, EndpointControl.accepted is e
  /-- While nobody connects they are those that the boss has counted. -/
  attempts : m.NoConnect → ∀ f, connectsTaken is f = m.store.attempts f
  /-- The registrations are of endpoints bound to the worker. -/
  registrations : ∀ f w, ∀ j ∈ pushed is ⟨f, .worker w⟩,
    ∃ e ∈ m.store.boundTo f w, j = .registration e
  /-- Each of all these has been accepted from a client that connects, from a boss that hands
  an endpoint over, or with a channel. -/
  accepted : ∀ {is₁ t l j is₂}, is = is₁ ++ .stepped t (.acted [.pushed l j]) :: is₂ →
    ∃ m₁, Run is₁ m₁ ∧ m₁.Appends is₁ t j
  /-- Before the factory is released no loop has been told, -/
  before : ∀ f, ¬ m.LetGoOf f → m.rung f = ∅
  /-- and when its release has told them all, those have been woken that had been
  opened. -/
  told : ∀ f, m.HasSignalled is f → #(m.rung f) = openings is f
  /-- Each wake is made on the one multiplexer of the loop, and for something that has been
  done. -/
  target : ∀ {is₁ t l mux r is₂}, is = is₁ ++ .stepped t (.answered (.wake l mux) r) :: is₂ →
    ∃ m₁, Run is₁ m₁ ∧ m₁.store.slot? l = some mux ∧ opened is₁ l = [mux] ∧ m₁.HasReason is₁ t l
  /-- Whoever fails to make a channel or to connect has woken nobody, whatever the failure
  was, -/
  failed : ∀ t out, m.control? t = some (.finished out) → out.isFailure = true →
    wakesMadeBy is t = 0
  /-- and neither has a release after the first. -/
  repeated : ∀ f t, CarriesOut is t (.release f) → ¬ First is f t → wakesMadeBy is t = 0

/-- **A worker accepts registrations of its own endpoints.** -/
theorem Run.registration_of_pushed (r : Run is m) {w : Nat} {j : Job}
    (hj : j ∈ pushed is ⟨f, .worker w⟩) : ∃ e ∈ m.store.boundTo f w, j = .registration e := by
  have hplaced := (r.placed_of_pushed hj).1
  cases j with
  | attempt e a =>
    obtain ⟨q, -, hboss⟩ := hplaced
    exact absurd hboss nofun
  | registration e =>
    obtain ⟨q, hq, hhome⟩ := hplaced
    exact ⟨e, Store.mem_endpointsOf.mpr ⟨q, hq, decide_eq_true hhome⟩, rfl⟩

theorem Run.hasAppender {is' : List Incident} {l : LoopId} {j : Job}
    (r : Run (is ++ .stepped t (.acted [.pushed l j]) :: is') m) :
    ∃ m₁, Run is m₁ ∧ m₁.Appends is t j := by
  obtain ⟨m₁, m₂, r₁, a, -⟩ := r.split
  cases a with
  | act hc hmove =>
    obtain ⟨mo, below, rfl⟩ := Control.append_of_pushed (r₁.traffic.stacked t _ hc) hmove
      (List.mem_singleton_self _)
    exact ⟨m₁, r₁, r₁.appends hc⟩

theorem Run.hasReason {is' : List Incident} {l : LoopId} {mux : Multiplexer}
    {r' : Except String Unit}
    (r : Run (is ++ .stepped t (.answered (.wake l mux) r') :: is') m) :
    ∃ m₁, Run is m₁ ∧ m₁.store.slot? l = some mux ∧ opened is l = [mux]
      ∧ m₁.HasReason is t l := by
  obtain ⟨m₁, m₂, r₁, a, -⟩ := r.split
  cases a with
  | answer hc hmove =>
    have hslot := Control.slot_of_ask (l := l) (r₁.traffic.aware t _ hc) hmove
      (List.mem_ite_nil_right.mpr ⟨rfl, List.mem_singleton_self mux⟩)
    refine ⟨m₁, r₁, hslot, r₁.traffic.opened_of_slot hslot, ?_⟩
    obtain ⟨fr, below, rfl, hask⟩ := Control.asks hmove
    cases hask with
    | wakeSubmit => exact .inl ⟨_, r₁.traffic.hasAppended hc, r₁.appends hc⟩
    | wakeSignal =>
      exact .inr ⟨(r₁.releases_of_signal hc).1, (r₁.reachable.sound.2 t _ hc).1.2⟩

/-- **What fails has woken nobody.** -/
theorem Run.wakesMadeBy_of_failure (r : Run is m) {out : Outcome}
    (hc : m.control? t = some (.finished out)) (hfailure : out.isFailure = true) :
    wakesMadeBy is t = 0 := by
  obtain ⟨o, ho, hends⟩ := r.originates.2 t _ hc
  obtain ⟨op, rfl, hop⟩ := Outcome.request_of_isFailure hends hfailure
  by_contra hne
  have hcommitted := r.isCommitted hop ho hc (Nat.pos_of_ne_zero hne)
  -- what has succeeded is no failure
  unfold Outcome.isFailure at hfailure
  split at hfailure
  · exact absurd hcommitted nofun
  · exact absurd hcommitted nofun
  · exact absurd hfailure nofun

/-- **The wakes of a factory are accounted for**, in every history. -/
theorem Run.wakeAccount (r : Run is m) : m.WakeAccount is where
  exact f h := by
    rw [← r.traffic.wakesOf_add, sum_eq_zero, Nat.add_zero]
    intro l hl
    obtain ⟨rfl, -⟩ := Store.mem_loopsOf.mp hl
    refine total_eq_zero_iff.mpr fun t c hc => ?_
    by_contra hne
    have hidle := h t c hc
    unfold Control.owes at hne
    split at hne
    · rename_i l' _ _ _
      by_cases hl : l' = l
      · exact absurd (hidle.symm.trans (decide_eq_true (congrArg LoopId.factory hl))) nofun
      · exact hne (if_neg hl)
    · exact hne rfl
  connects := r.connectsTaken_eq
  attempts h := r.connectsTaken_of_noConnect h
  registrations f w j := r.registration_of_pushed
  accepted h := Run.hasAppender (h ▸ r)
  before f := r.rung_eq_empty
  told f h := h.card_rung r
  target h := Run.hasReason (h ▸ r)
  failed t out := r.wakesMadeBy_of_failure
  repeated f t := r.wakesMadeBy_of_not_first

end Machine

/-- A worker is opened and refused, and another makes the endpoint that is connected, handed
over, and connected once more in vain; then the factory is released twice. -/
def History.roused : History :=
  let two : Blueprint := ⟨.client 0 1, ⟨2, Nat.two_pos, ⟨0, ⟨"fake", none⟩⟩, .unconstrained⟩⟩
  let refused := ((((empty.build two).call none (.create 0)).turn 0 12).deny 0).turn 0 5
  let made := (refused.call none (.create 0)).turn 1 40
  let tried := (made.call none (.connect 0 "127.0.0.1:9")).turn 3 40
  let again := ((tried.turn 4 23).call none (.connect 0 "127.0.0.1:10")).turn 5 10
  let told := (again.call none (.release 0)).turn 6 31
  (told.call none (.release 0)).turn 7 5

/-- There has been one wake for the attempt, one for the registration, and three for the
loops that were told, one of which nobody has ever run. -/
theorem wakeAccount_roused :
    let w : LoopId := ⟨0, .worker 0⟩
    let m := History.roused.machine
    let is := History.roused.incidents
    m.WakeAccount is ∧ (∀ t c, m.control? t = some c → c.isWaking 0 = false)
      ∧ wakesOf is 0 = 5 ∧ connectsTaken is 0 = 1 ∧ m.registrationsTaken is 0 = 1
      ∧ m.HasSignalled is 0 ∧ openings is 0 = 3 ∧ opened is w = [⟨0, 0⟩] ∧ taken is w = 0
      ∧ m.control? 0 = some (.finished (.created (.error (.refused .worker))))
      ∧ m.control? 5 = some (.finished (.connected (.error (.wrongState 1 .connecting))))
      ∧ CarriesOut is 7 (.release 0) ∧ ¬ First is 0 7
      ∧ m.control? 7 = some (.finished .released) := by
  intro w m is
  have hthreads : ∀ t < 8, (m.control? t).any (Control.isWaking 0) = false := by decide +kernel
  have hwaking : ∀ t c, m.control? t = some c → c.isWaking 0 = false := by
    intro t c hc
    have hlt : t < 8 := Machine.lt_size_of_control? hc
    simpa [hc] using hthreads t hlt
  have hsignalled : m.HasSignalled is 0 := ⟨6, by decide +kernel⟩
  refine ⟨History.roused.orderly.run.wakeAccount, hwaking, ?_⟩
  -- each look at the history goes through all of it, so a few are made to do
  have hcounts : wakesOf is 0 = 5 ∧ connectsTaken is 0 = 1 ∧ m.registrationsTaken is 0 = 1 := by
    decide +kernel
  have hrest : openings is 0 = 3 ∧ opened is w = [⟨0, 0⟩] ∧ taken is w = 0
      ∧ m.control? 0 = some (.finished (.created (.error (.refused .worker))))
      ∧ m.control? 5 = some (.finished (.connected (.error (.wrongState 1 .connecting))))
      ∧ CarriesOut is 7 (.release 0) ∧ ¬ First is 0 7
      ∧ m.control? 7 = some (.finished .released) := by decide +kernel
  exact ⟨hcounts.1, hcounts.2.1, hcounts.2.2, hsignalled, hrest⟩

end EndpointControl
