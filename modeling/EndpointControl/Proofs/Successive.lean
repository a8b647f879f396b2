import EndpointControl.Proofs.Levels
import EndpointControl.Proofs.Waiting

/-!
# One thing after the other

Nobody waits for a turn while all others rest and nobody is in a wake
(`Machine.Run.not_waiting`): whoever rests has none, and nobody waits for
themselves. In a history in which operations and loops take place one after the
other, turns are therefore never in anybody's way, and whatever the levels are, they
make no difference (`Machine.Run.refinement`).
-/

namespace EndpointControl

/-! ## Who waits for a turn -/

/-- **The thread rests, and not in a wake.** -/
def Control.isQuiet : Control → Bool
  | .running (.submit _ _ (.wake _) :: _) | .running (.signal _ (.wake _) :: _) => false
  | c => c.isResting

/-- Whoever is quiet has no turn. -/
theorem Control.turns_of_isQuiet {c : Control} (hst : c.Stacked) (h : c.isQuiet = true) :
    c.turns = [] := by
  match c, hst with
  | .finished _, _ => rfl
  | .running [], _ => cases h
  | .running (fr :: below), hst =>
    have hroot : fr.isRoot = true ∧ fr.turn? = none := by
      cases fr with
      | submit l j p => cases p <;> cases h
      | signal l p => cases p <;> cases h
      | serve l m p => cases p <;> first | exact ⟨rfl, rfl⟩ | cases h
      | create | connect | close | release => exact ⟨rfl, rfl⟩
      | _ => cases h
    obtain rfl := Frame.Stacked.eq_nil hst hroot.1
    rw [turns_cons, hroot.2]
    rfl

namespace Machine

variable {m m' : Machine} {is : List Incident} {i : Incident} {t : ThreadId} {c : Control}
  {l : LoopId}

/-- **All others are quiet.** -/
def Undisturbed (m : Machine) (t : ThreadId) : Prop :=
  ∀ t' (_ : t' < m.threads.size), t' ≠ t → m.threads[t'].control.isQuiet = true

instance (m : Machine) (t : ThreadId) : Decidable (m.Undisturbed t) :=
  inferInstanceAs (Decidable (∀ t' (_ : t' < m.threads.size), _))

theorem Undisturbed.isQuiet {t' : ThreadId} (h : m.Undisturbed t) (hne : t' ≠ t)
    (hc : m.control? t' = some c) : c.isQuiet = true := by
  obtain ⟨th, hth, rfl⟩ := Option.map_eq_some_iff.mp hc
  obtain ⟨hlt, rfl⟩ := Array.getElem?_eq_some_iff.mp hth
  exact h t' hlt hne

theorem Undisturbed.congr {n : Machine} (h : m.Undisturbed t) (hthreads : n.threads = m.threads) :
    n.Undisturbed t := by
  unfold Undisturbed at h ⊢
  rwa [hthreads]

/-- **Nobody waits for a turn while all others are quiet.** -/
theorem Run.not_waiting (r : Run is m) (h : m.Undisturbed t) (hc : m.control? t = some c) :
    c.move m.store t ≠ .blocked (.registration l) := by
  intro hblocked
  have hmove := (move_eq hc).trans hblocked
  obtain ⟨-, -, -, -, u, hu⟩ := wants_of_blocked hmove
  have hut : u ≠ t := by
    rintro rfl
    exact Nat.lt_irrefl _ (r.rank_lt hmove hu)
  refine r.traffic.turned.holder?_ne ?_ hu
  -- whoever has the turn is quiet
  cases hd : m.control? u with
  | none => rw [turns, hd]; rfl
  | some d =>
    rw [turns_eq hd, Control.turns_of_isQuiet (r.traffic.stacked u d hd) (h.isQuiet hut hd)]

/-! ## One after the other -/

/-- **A history in which operations and loops take place one after the other**: a thread moves
only while all others are quiet. -/
inductive Successive : List Incident → Machine → Prop where
  /-- In the beginning there is nothing. -/
  | empty : Successive [] .empty
  /-- One thing more happens. -/
  | advance {is : List Incident} {m m' : Machine} {i : Incident} (r : Successive is m)
    (a : m.Advance i m') (h : ∀ t hap, i = .stepped t hap → m.Undisturbed t) :
    Successive (is ++ [i]) m'

theorem Successive.run (h : Successive is m) : Run is m := by
  induction h with
  | empty => exact .empty
  | advance _ a _ ih => exact a.run ih

/-- **What happens at some levels happens at any**, if nobody is disturbed. -/
theorem Run.follows {n : Machine} {js : List Incident} (r : Run js n)
    (hsame : n.eased everywhere = m.eased everywhere) {hap : Happening}
    (a : m.Advance (.stepped t hap) m') (h : n.Undisturbed t) :
    ∃ hap' n', n.Advance (.stepped t hap') n' ∧ ∀ f,
      (Incident.stepped t hap').eased everywhere f
        = (Incident.stepped t hap).eased everywhere f := by
  have hthreads : n.threads = m.threads := (congrArg Machine.threads hsame :)
  have hstore : n.store.eased everywhere = m.store.eased everywhere :=
    (congrArg Machine.store hsame :)
  -- both do, in their own store, what they would do in the eased one
  have both (c : Control) : ∃ mv, Move.Eases everywhere m.store (c.move m.store t) mv
      ∧ Move.Eases everywhere n.store (c.move n.store t) mv :=
    ⟨_, c.eases, hstore ▸ c.eases⟩
  cases a with
  | @act _ c d g ns hc hmove =>
    have hc' : n.control? t = some c := by rw [control?, hthreads]; exact hc
    obtain ⟨mv, hm, hn⟩ := both c
    rw [hmove] at hm
    cases hm with
    | act =>
      generalize hmove' : c.move n.store t = mv' at hn
      generalize hns : ns.map (Note.eased everywhere) = ns' at hn
      cases hn with
      | act =>
        refine ⟨_, _, .act hc' hmove', fun f => ?_⟩
        rw [Incident.eased, Incident.eased, hns]
      | waits => exact absurd hmove' (r.not_waiting h hc')
  | @answer _ c q after hc hmove reply =>
    have hc' : n.control? t = some c := by rw [control?, hthreads]; exact hc
    obtain ⟨mv, hm, hn⟩ := both c
    rw [hmove] at hm
    cases hm with
    | ask =>
      generalize hmove' : c.move n.store t = mv' at hn
      cases hn with
      | ask => exact ⟨_, _, .answer hc' hmove' reply, fun f => rfl⟩
      | waits => exact absurd hmove' (r.not_waiting h hc')

/-- **A history of things that happen one after the other can take place at any levels.** -/
theorem Successive.atLevels (h : Successive is m) {bs : List Blueprint}
    (hbs : bs.map (Blueprint.eased true) = (blueprints is).map (Blueprint.eased true)) :
    ∃ is' m', Successive is' m' ∧ blueprints is' = bs
      ∧ easedFrom everywhere 0 is' = easedFrom everywhere 0 is := by
  induction h generalizing bs with
  | empty =>
    obtain rfl := List.map_eq_nil_iff.mp hbs
    exact ⟨[], _, .empty, rfl, rfl⟩
  | @advance is m m₁ i h a hquiet ih =>
    rw [blueprints_concat, List.map_append] at hbs
    obtain ⟨bs, last, rfl, hbefore, hlast⟩ := List.map_eq_append_iff.mp hbs
    obtain ⟨is', n, h', hbs', his⟩ := ih hbefore
    have hlength : (blueprints is').length = (blueprints is).length := by
      rw [hbs', ← List.length_map (Blueprint.eased true), hbefore, List.length_map]
    have hsame : n.eased everywhere = m.eased everywhere :=
      (h'.run.eased everywhere).unique (his ▸ h.run.eased everywhere)
    -- whatever happens next, the same happens next in the other
    have next {i' : Incident} {n' : Machine} (a' : n.Advance i' n') (hlast' : i'.blueprints = last)
        (hi : ∀ f, i'.eased everywhere f = i.eased everywhere f)
        (hquiet' : ∀ t hap, i' = .stepped t hap → n.Undisturbed t) :
        ∃ is' m', Successive is' m' ∧ blueprints is' = bs ++ last
          ∧ easedFrom everywhere 0 is' = easedFrom everywhere 0 (is ++ [i]) := by
      refine ⟨is' ++ [i'], n', h'.advance a' hquiet', ?_, ?_⟩
      · rw [blueprints_concat, hbs', hlast']
      · rw [easedFrom_concat, easedFrom_concat, his, hlength, hi]
    match i, a with
    | .stepped t hap, a =>
      obtain rfl : last = [] := List.map_eq_nil_iff.mp hlast
      have hn := (hquiet t hap rfl).congr (congrArg Machine.threads hsame :)
      obtain ⟨hap', n', a', hi⟩ := h'.run.follows hsame a hn
      exact next a' rfl hi fun t' _ heq => (Incident.stepped.inj heq).1 ▸ hn
    | .called home o, a =>
      obtain rfl : last = [] := List.map_eq_nil_iff.mp hlast
      exact next (.call home o) rfl (fun _ => rfl) nofun
    | .built b, a =>
      obtain ⟨b', rfl, hb⟩ := List.map_eq_singleton_iff.mp hlast
      exact next (.build b') rfl (fun f => congrArg Incident.built hb) nofun

/-! ## What the levels come to -/

/-- **The levels make no difference** but for the turns that are taken. -/
structure Refinement (m : Machine) (is : List Incident) : Prop where
  /-- Where some factories have been eased, the same can happen, -/
  eased : ∀ R, Run (easedFrom R 0 is) (m.eased R)
  /-- these factories being built at the lowest level, and all others as they were, -/
  built : ∀ R, blueprints (easedFrom R 0 is) = (blueprints is).mapIdx fun f b => b.eased (R f)
  /-- and it leads to the same but for the levels, -/
  unchanged : ∀ R, SameButLevels is m (easedFrom R 0 is) (m.eased R)
  /-- as does every history in which the same happens at other levels. -/
  same : ∀ {is' m'}, Run is' m' → (easedFrom everywhere 0 is').map Incident.plain
    = (easedFrom everywhere 0 is).map Incident.plain → SameButLevels is m is' m'
  /-- If things have happened one after the other, the same can happen at all other levels. -/
  anyLevels : Successive is m → ∀ bs : List Blueprint,
    bs.map (Blueprint.eased true) = (blueprints is).map (Blueprint.eased true) →
      ∃ is' m', Run is' m' ∧ blueprints is' = bs ∧ SameButLevels is m is' m'

/-- **The disciplines of turns refine the one without**, in every history. -/
theorem Run.refinement (r : Run is m) : m.Refinement is where
  eased R := r.eased R
  built R := by simp only [blueprints_easedFrom, Nat.zero_add]
  unchanged R := sameButLevels_eased R is m
  same r' h := r.sameButLevels r' h
  anyLevels h bs hbs := by
    obtain ⟨is', m', h', hbs', his⟩ := h.atLevels hbs
    exact ⟨is', m', h'.run, hbs', r.sameButLevels h'.run (congrArg _ his)⟩

end Machine

/-- **A history of things that happen one after the other**, with the machine that it leads
to. -/
structure Succession where
  incidents : List Incident
  machine : Machine
  successive : machine.Successive incidents

namespace Succession

/-- Nothing has happened. -/
def empty : Succession := ⟨[], .empty, .empty⟩

/-- Somebody calls an operation. -/
def call (su : Succession) (o : Operation) : Succession :=
  ⟨_, _, su.successive.advance (.call none o) nofun⟩

/-- Somebody builds a factory. -/
def build (su : Succession) (b : Blueprint) : Succession :=
  ⟨_, _, su.successive.advance (.build b) nofun⟩

/-- **A thread makes so many steps** while nobody disturbs it, and is granted what it asks
for. -/
def turn (su : Succession) (t : ThreadId) : Nat → Succession
  | 0 => su
  | n + 1 =>
    if quiet : su.machine.Undisturbed t then
      match hmove : su.machine.move t with
      | .act _ _ _ =>
        turn ⟨_, _, su.successive.advance (Machine.Step.act hmove).advance
          fun _ _ heq => (Incident.stepped.inj heq).1 ▸ quiet⟩ t n
      | .ask q _ =>
        turn ⟨_, _, su.successive.advance (Machine.Step.answer hmove (Machine.granted q)).advance
          fun _ _ heq => (Incident.stepped.inj heq).1 ▸ quiet⟩ t n
      | .blocked _ | .stuck => su
    else su

/-- An endpoint is connected and registered by loops that take turns. -/
def careful : Succession :=
  let made := ((empty.build .careful).call (.create 0)).turn 0 40
  let tried := (made.call (.connect 0 "127.0.0.1:9")).turn 2 40
  (tried.turn 3 40).turn 1 40

end Succession

/-- The same happens where nobody takes turns. -/
theorem refinement_careful :
    let su := Succession.careful
    su.machine.Refinement su.incidents
      ∧ su.machine.control? 2 = some (.finished (.connected (.ok ())))
      ∧ ∃ is' m', Machine.Run is' m' ∧ blueprints is' = [.small]
        ∧ m'.control? 2 = some (.finished (.connected (.ok ()))) := by
  intro su
  have hproof := su.successive.run.refinement
  have hconnected : su.machine.control? 2 = some (.finished (.connected (.ok ()))) := by
    decide +kernel
  obtain ⟨is', m', r', hbs, hsame⟩ :=
    hproof.anyLevels su.successive [.small] (by decide +kernel)
  refine ⟨hproof, hconnected, is', m', r', hbs, ?_⟩
  rw [Machine.control?, hsame.threads]
  exact hconnected

end EndpointControl
