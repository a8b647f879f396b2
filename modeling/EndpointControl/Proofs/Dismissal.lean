import EndpointControl.Proofs.Closing
import EndpointControl.Proofs.Releasing

/-!
# Letting executors go

The release that finds the factory unreleased shuts each distinct executor down
once, is told by each that it is none of its threads, and waits for each until it
has terminated. What it has done at each point is `Control.LetsGo`; when it
returns, every loop of the factory has been told to end, every executor has been
shut down exactly once, and none of them runs a loop (`Machine.Orderly.dismissed`).
-/

namespace EndpointControl

/-! ## Shutting down, asking and waiting -/

/-- Each executor of the list has been counted once, and no other. -/
def Once (d : List ExecutorId) (q : ExecutorId → Nat) : Prop :=
  ∀ x, q x = if x ∈ d then 1 else 0

theorem Once.snoc {d : List ExecutorId} {q q' : ExecutorId → Nat} {x : ExecutorId} (h : Once d q)
    (hx : x ∉ d) (hq : ∀ y, q' y = q y + if y = x then 1 else 0) : Once (d ++ [x]) q' := by
  intro y
  rw [hq, h y]
  by_cases hy : y = x
  · subst hy
    simp [hx]
  · simp [hy]

section Executors

variable {d : List ExecutorId} {q q' : ExecutorId → Nat} {v v' : ExecutorId → Prop}

namespace Termination

variable {u u' : Termination} {x : ExecutorId} {k : Bool → Termination} {n : Notice}

/-- **How far the executors `d` have been let go**, if `q` counts how often each
has been shut down and `v` holds of those that have terminated. Whoever gets
anywhere is none of their threads. -/
def Stands (d : List ExecutorId) (q : ExecutorId → Nat) (v : ExecutorId → Prop) :
    Termination → Prop
  | .shuttingDown d' left => d' = d ∧ ∃ shut, d = shut ++ left ∧ Once shut q
  | .asking d' left => d' = d ∧ (∀ x ∈ left, x ∈ d) ∧ Once d q
  | .ownThread => False
  | .waiting left => Once d q ∧ ∀ x ∈ d, x ∈ left ∨ v x
  | .overdue y later => Once d q ∧ ∀ x ∈ d, x ∈ y :: later ∨ v x
  | .done => Once d q ∧ ∀ x ∈ d, v x

theorem Stands.begin (handles : List ExecutorId) (hq : ∀ x, q x = 0) :
    (begin handles).Stands (distinct handles) q v :=
  ⟨rfl, [], rfl, fun x => by rw [hq, if_neg List.not_mem_nil]⟩

/-- Nobody is shut down a second time. -/
theorem Stands.shutDown (h : u.Stands d q v) (nodup : d.Nodup) (hu : u.turn = .shutDown x u')
    (hq : ∀ y, q' y = q y + if y = x then 1 else 0) : u'.Stands d q' v := by
  unfold turn at hu
  split at hu <;> simp at hu
  rename_i d' y left
  obtain ⟨rfl, rfl⟩ := hu
  obtain ⟨rfl, shut, rfl, honce⟩ := h
  have hy : y ∉ shut := fun hmem =>
    (List.nodup_append.mp nodup).2.2 y hmem y List.mem_cons_self rfl
  exact ⟨rfl, shut ++ [y], by rw [List.append_assoc, List.singleton_append], honce.snoc hy hq⟩

theorem Stands.isMember (h : u.Stands d q v) (hu : u.turn = .isMember x k) :
    x ∈ d ∧ (k false).Stands d q v := by
  unfold turn at hu
  split at hu <;> simp at hu
  obtain ⟨rfl, rfl⟩ := hu
  obtain ⟨rfl, hsub, honce⟩ := h
  obtain ⟨hx, hsub⟩ := List.forall_mem_cons.mp hsub
  exact ⟨hx, rfl, hsub, honce⟩

theorem Stands.await (h : u.Stands d q v) (hu : u.turn = .await x k) (ended : Bool)
    (hv : ended = true → v x) : (k ended).Stands d q v := by
  unfold turn at hu
  split at hu <;> simp at hu
  obtain ⟨rfl, rfl⟩ := hu
  obtain ⟨honce, hleft⟩ := h
  cases ended with
  | true =>
    refine ⟨honce, fun y hy => ?_⟩
    rcases hleft y hy with hmem | hgone
    · rcases List.mem_cons.mp hmem with rfl | hmem
      · exact .inr (hv rfl)
      · exact .inl hmem
    · exact .inr hgone
  | false => exact ⟨honce, hleft⟩

theorem Stands.note (h : u.Stands d q v) (hu : u.turn = .note n u') : u'.Stands d q v := by
  unfold turn at hu
  split at hu <;> simp at hu
  · exact absurd h id
  · obtain ⟨-, rfl⟩ := hu
    exact h

theorem Stands.go (h : u.Stands d q v) (hu : u.turn = .go u') : u'.Stands d q v := by
  unfold turn at hu
  split at hu <;> simp at hu <;> subst hu
  · obtain ⟨rfl, shut, hd, honce⟩ := h
    rw [List.append_nil] at hd
    exact ⟨rfl, fun x hx => hx, hd ▸ honce⟩
  · obtain ⟨rfl, -, honce⟩ := h
    exact ⟨honce, fun x hx => .inl hx⟩
  · exact ⟨h.1, fun x hx => (h.2 x hx).resolve_left List.not_mem_nil⟩

theorem Stands.stop (h : u.Stands d q v) (hu : u.turn = .stop) : Once d q ∧ ∀ x ∈ d, v x := by
  unfold turn at hu
  split at hu <;> simp at hu
  exact h

theorem Stands.mono (h : u.Stands d q v) (hq : ∀ x, q' x = q x) (hv : ∀ x, v x → v' x) :
    u.Stands d q' v' := by
  obtain rfl : q' = q := funext hq
  cases u with
  | shuttingDown | asking | ownThread => exact h
  | waiting | overdue => exact ⟨h.1, fun x hx => (h.2 x hx).imp_right (hv x)⟩
  | done => exact ⟨h.1, fun x hx => hv x (h.2 x hx)⟩

end Termination

/-! ## The release that does everything -/

/-- What the release has done at its point. -/
def ReleasePoint.Stands (d : List ExecutorId) (q : ExecutorId → Nat) (v : ExecutorId → Prop) :
    ReleasePoint → Prop
  | .raise => False
  | .announce | .signalBoss | .signalWorkers _ | .announceWorkers => ∀ x, q x = 0
  | .terminate u => u.Stands d q v
  | .announceEnd => Once d q ∧ ∀ x ∈ d, v x

/-- **How far the release of the factory has got.** -/
inductive Control.LetsGo (s : Store) (f : FactoryId) (d : List ExecutorId) (q : ExecutorId → Nat)
    (v : ExecutorId → Prop) : Control → Prop
  /-- It has raised the mark. -/
  | within {p : ReleasePoint} (h : p.Stands d q v) : LetsGo s f d q v (.running [.release f p])
  /-- It tells a loop to end. -/
  | signals {l : LoopId} {p : SignalPoint} {p' : ReleasePoint} (h : p'.Stands d q v) :
    LetsGo s f d q v (.running [.signal l p, .release f p'])
  /-- It has returned. -/
  | ended (once : Once d q) (gone : ∀ x ∈ d, v x) (told : s.AllTold f) :
    LetsGo s f d q v (.finished .released)

namespace Control.LetsGo

variable {s s' : Store} {f : FactoryId} {fac : Factory} {t : ThreadId} {c c' : Control}
  {g : Store → Store} {ns : List Note}

theorem mono (h : c.LetsGo s f d q v) (hg : s.Grows s') (hq : ∀ x, q' x = q x)
    (hv : ∀ x, v x → v' x) : c.LetsGo s' f d q' v' := by
  have hpoint {p : ReleasePoint} (hp : p.Stands d q v) : p.Stands d q' v' := by
    cases p with
    | raise => exact hp
    | terminate u => exact Termination.Stands.mono hp hq hv
    | announceEnd => exact Termination.Stands.mono (u := .done) hp hq hv
    | _ => exact fun x => (hq x).trans (hp x)
  cases h with
  | within hp => exact .within (hpoint hp)
  | signals hp => exact .signals (hpoint hp)
  | ended honce hgone htold =>
    exact .ended (fun x => (hq x).trans (honce x)) (fun x hx => hv x (hgone x hx))
      (hg.allTold htold)

/-- Telling a loop to end leads back to the release. -/
theorem act_signal {l : LoopId} {lp : Loop} {p : SignalPoint} {p' : ReleasePoint}
    (hp' : p'.Stands d q v) (h : p.move s t [.release f p'] l lp = .act g c' ns) :
    c'.LetsGo (g s) f d q v := by
  cases p <;> simp [SignalPoint.move] at h
  case raise =>
    rw [h.2.1]
    split
    · exact .within hp'
    · exact .signals hp'
  case takeSlot => exact h.2.2.1 ▸ .signals hp'
  case announce => exact h.2.1 ▸ .within hp'
  all_goals exact h.2.1 ▸ .signals hp'

theorem act_release {p : ReleasePoint} (hp : p.Stands d q v)
    (knows : (Frame.release f p).Knows s) (hd : d = Termination.distinct fac.executors)
    (h : p.move [] f fac = .act g c' ns) : c'.LetsGo (g s) f d q v := by
  cases p
  case raise => exact absurd hp id
  case terminate u =>
    simp only [ReleasePoint.move] at h
    split at h <;> simp at h <;> obtain ⟨rfl, rfl, -⟩ := h
    · exact .within (hp.note ‹_›)
    · exact .within (hp.go ‹_›)
    · exact .within (hp.stop ‹_›)
  all_goals simp [ReleasePoint.move] at h
  case announce =>
    rw [h.2.1]
    refine .within ?_
    split <;> exact hp
  case signalBoss => exact h.2.1 ▸ .signals hp
  case signalWorkers i =>
    split at h <;> simp at h <;> rw [h.2.1]
    · exact .signals hp
    · exact .within hp
  case announceWorkers =>
    rw [h.2.1, hd]
    exact .within (Termination.Stands.begin (v := v) fac.executors hp)
  case announceEnd =>
    obtain ⟨rfl, rfl, -⟩ := h
    exact .ended hp.1 hp.2 knows

/-- **The release goes on** when it acts. -/
theorem act (h : c.LetsGo s f d q v) (hc : c.Sound s) (found : s.factories[f]? = some fac)
    (hd : d = Termination.distinct fac.executors) (hmove : c.move s t = .act g c' ns) :
    c'.LetsGo (g s) f d q v := by
  cases h with
  | within hp =>
    cases Control.moves_of_running hmove with
    | release found' hm =>
      obtain rfl := Option.some.inj (found.symm.trans found')
      exact act_release hp hc.1 hd hm
  | signals hp =>
    cases Control.moves_of_running hmove with
    | signal found' hm => exact act_signal hp hm
  | ended => exact absurd hmove nofun

end Control.LetsGo

end Executors

/-- The thread shuts the executor down. -/
def Incident.quitsBy (t : ThreadId) (x : ExecutorId) : Incident → Bool
  | .stepped t' (.answered (.shutDown x') _) => t' = t ∧ x' = x
  | _ => false

/-- **How often the thread shuts the executor down.** -/
def shutDownsBy (is : List Incident) (t : ThreadId) (x : ExecutorId) : Nat :=
  is.countP (Incident.quitsBy t x)

theorem shutDownsBy_snoc (is : List Incident) (i : Incident) (t : ThreadId) (x : ExecutorId) :
    shutDownsBy (is ++ [i]) t x = shutDownsBy is t x + if i.quitsBy t x then 1 else 0 := by
  rw [shutDownsBy, List.countP_append, List.countP_singleton, shutDownsBy]

theorem shutDownsBy_snoc_of_not {is : List Incident} {i : Incident} {t : ThreadId} {x : ExecutorId}
    (h : i.quitsBy t x = false) : shutDownsBy (is ++ [i]) t x = shutDownsBy is t x := by
  rw [shutDownsBy_snoc, h, if_neg nofun, Nat.add_zero]

theorem Incident.quitsBy_of_ne {i : Incident} {t : ThreadId} (h : ∀ h, i ≠ .stepped t h)
    (x : ExecutorId) : i.quitsBy t x = false := by
  unfold quitsBy
  split
  · refine decide_eq_false ?_
    rintro ⟨rfl, -⟩
    exact h _ rfl
  · rfl

theorem shutDownsBy_eq_zero {is : List Incident} {t : ThreadId} (h : ∀ h, .stepped t h ∉ is)
    (x : ExecutorId) : shutDownsBy is t x = 0 := by
  refine List.countP_eq_zero.mpr fun i hi hquits => ?_
  unfold Incident.quitsBy at hquits
  split at hquits
  · obtain ⟨rfl, -⟩ := of_decide_eq_true hquits
    exact h _ hi
  · exact absurd hquits nofun

namespace Machine

variable {m m' : Machine} {i : Incident} {is : List Incident} {f : FactoryId} {t : ThreadId}

/-- The executor has been shut down and runs no loop. -/
def Gone (m : Machine) (is : List Incident) (x : ExecutorId) : Prop := Quit is x ∧ m.Vacant x

theorem Advance.gone (a : m.Advance i m') (hman : m.Mannered is i) (hm : m.Reachable)
    {x : ExecutorId} (h : m.Gone is x) : m'.Gone (is ++ [i]) x :=
  ⟨h.1.append, a.vacant hman hm h.1 h.2⟩

/-- **The release goes on** when it is answered. -/
theorem answer_letsGo {c : Control} {d : List ExecutorId} {q : Request} {after : q.Reply → Control}
    (h : c.LetsGo m.store f d (shutDownsBy is t) (m.Gone is)) (nodup : d.Nodup)
    (outside : ∀ x ∈ d, m.home? t ≠ some x) (hmove : c.move m.store t = .ask q after)
    (reply : q.Reply) (hkeeps : m.Keeps is t (.answered q reply)) :
    (after reply).LetsGo m.store f d (shutDownsBy (is ++ [.stepped t (.answered q reply)]) t)
      (m.Gone is) := by
  obtain ⟨fr, below, rfl, ha⟩ := Control.asks hmove
  cases h with
  | within hp =>
    cases ha with
    | shutDown hu =>
      refine .within (Termination.Stands.shutDown hp nodup hu fun y => ?_)
      simp [shutDownsBy_snoc, Incident.quitsBy, eq_comm]
    | isMember hu =>
      obtain ⟨hx, hstands⟩ := Termination.Stands.isMember hp hu
      -- the release runs outside, and the executor says so
      rw [show reply = false from hkeeps.trans (decide_eq_false (outside _ hx))]
      exact .within
        (Termination.Stands.mono hstands (fun y => shutDownsBy_snoc_of_not rfl) fun _ => id)
    | await hu =>
      -- an executor that has terminated was shut down and has no thread left
      have hstands := Termination.Stands.await hp hu reply fun hended => by
        subst hended
        exact ⟨hkeeps.1, hkeeps.2.vacant⟩
      exact .within
        (Termination.Stands.mono hstands (fun y => shutDownsBy_snoc_of_not rfl) fun _ => id)
  | signals hp =>
    cases ha with
    | wakeSignal =>
      refine Control.LetsGo.mono (q := shutDownsBy is t) (v := m.Gone is) ?_ (.refl _)
        (fun y => shutDownsBy_snoc_of_not rfl) fun _ => id
      cases reply <;> exact .signals hp

/-- **In every orderly history the first release lets go of everything**, if no
executor of the factory runs it. -/
theorem Orderly.letsGo (r : Orderly is m) : ∀ {fac : Factory}, First is f t →
    m.store.factories[f]? = some fac → (∀ x ∈ fac.executors, m.home? t ≠ some x) →
    ∃ c, m.control? t = some c ∧ c.LetsGo m.store f (Termination.distinct fac.executors)
      (shutDownsBy is t) (m.Gone is) := by
  induction r with
  | empty => exact fun h => absurd h.1 nofun
  | @advance is m m' i r a hman ih =>
    intro fac' hfirst hfac' houtside
    have hm := r.run.reachable
    have hgone {x : ExecutorId} : m.Gone is x → m'.Gone (is ++ [i]) x := a.gone hman hm
    rcases First.snoc r.run a hfirst with hold | ⟨⟨h, rfl⟩, ho, hun⟩
    · -- it had begun: it acts, is answered, or somebody else moves
      have hlt : t < m.threads.size := r.run.originates.1 ▸ lt_length_of_carriesOut hold.1
      obtain ⟨⟨fac, hfac, -⟩, -⟩ := (r.run.first f).2 t hold
      obtain ⟨fac'', hfac'', hg⟩ := a.grows.factory hfac
      obtain rfl := Option.some.inj (hfac''.symm.trans hfac')
      rw [hg.executors] at houtside ⊢
      have hstranger (x : ExecutorId) (hx : x ∈ fac.executors) : m.home? t ≠ some x :=
        a.home?_eq hlt ▸ houtside x hx
      obtain ⟨c, hc, hlets⟩ := ih hold hfac hstranger
      by_cases hi : ∃ h, i = .stepped t h
      · obtain ⟨h, rfl⟩ := hi
        cases a with
        | @act _ c₀ c' g ns hc' hmove =>
          obtain rfl := Option.some.inj (hc.symm.trans hc')
          have hnext := hlets.act (hm.sound.2 t c hc) hfac rfl hmove
          refine ⟨c', control?_act_self hc, ?_⟩
          exact hnext.mono (.refl _) (fun x => shutDownsBy_snoc_of_not rfl) fun x => hgone
        | @answer _ c₀ q after hc' hmove reply =>
          obtain rfl := Option.some.inj (hc.symm.trans hc')
          have hnext := answer_letsGo hlets (Termination.nodup_distinct _)
            (fun x hx => hstranger x (Termination.mem_distinct.mp hx)) hmove reply hman.2
          refine ⟨after reply, control?_answer_self reply hc, ?_⟩
          rw [store_answer]
          exact hnext.mono (.refl _) (fun x => rfl) fun x => hgone
      · have hne (h : Happening) : i ≠ .stepped t h := fun heq => hi ⟨h, heq⟩
        refine ⟨c, by rw [a.control?_of_ne hlt hne, hc], ?_⟩
        exact hlets.mono a.grows (fun x => shutDownsBy_snoc_of_not (Incident.quitsBy_of_ne hne x))
          fun x => hgone
    · -- it begins here, and finds the mark lowered as nobody was before it
      have hnot (h : Happening) : .stepped t h ∉ is := fun hi => hun t h hi ho
      obtain ⟨fac, hfac, ⟨ns, rfl⟩, -, hc⟩ := a.raise (r.run.control?_of_unmoved ho hnot)
      have hup : fac.released = false :=
        Bool.eq_false_iff.mpr fun h => (r.run.first f).1 hun ⟨fac, hfac, h⟩
      rw [if_neg (by rw [hup]; exact nofun)] at hc
      refine ⟨_, hc, .within (p := .announce) fun x => ?_⟩
      rw [shutDownsBy_snoc_of_not rfl, shutDownsBy_eq_zero hnot]

/-- **When the first release has returned**, all loops of the factory have been
told to end, and its executors have been shut down once each and run no loop. -/
theorem Orderly.dismissed (r : Orderly is m) {fac : Factory} (first : First is f t)
    (found : m.store.factories[f]? = some fac) (outside : ∀ x ∈ fac.executors, m.home? t ≠ some x)
    (returned : m.control? t = some (.finished .released)) :
    m.store.AllTold f ∧ (∀ x ∈ fac.executors, m.Gone is x)
      ∧ ∀ x, shutDownsBy is t x = if x ∈ fac.executors then 1 else 0 := by
  obtain ⟨c, hc, hlets⟩ := r.letsGo first found outside
  obtain rfl := Option.some.inj (returned.symm.trans hc)
  cases hlets with
  | ended honce hgone htold =>
    refine ⟨htold, fun x hx => hgone x (Termination.mem_distinct.mpr hx), fun x => ?_⟩
    rw [honce x]
    simp only [Termination.mem_distinct]

end Machine

end EndpointControl
