import EndpointControl.Proofs.Soundness

/-!
# Histories

A history is a list of incidents, and a machine is reachable when a history leads
to it from the empty machine. Here histories are cut at any point: `Machine.Leads`
says that incidents lead from one machine to another, and `Machine.Advance` is
the case of a single one, taken apart as far as every induction needs it.

What a history tells beside the machine it leads to is how many attempts at an
endpoint have been queued with a boss (`accepted`), and how often a worker has
counted the endpoint (`counted`).
-/

namespace EndpointControl

/-! ## What a history tells -/

/-- An attempt at the endpoint went to the end of a queue. -/
def Note.accepts (e : EndpointId) : Note → Bool
  | .pushed _ (.attempt e' _) => e' = e
  | _ => false

/-- The notes that an incident leaves. -/
def Incident.notes : Incident → List Note
  | .stepped _ (.acted ns) => ns
  | _ => []

/-- **How many attempts at the endpoint have been queued.** -/
def accepted (is : List Incident) (e : EndpointId) : Nat :=
  (is.flatMap Incident.notes).countP (Note.accepts e)

/-- **How often the endpoint has been counted.** -/
def counted (is : List Incident) (e : EndpointId) : Nat :=
  (is.flatMap Incident.notes).count (.counted e)

@[simp] theorem accepted_nil (e : EndpointId) : accepted [] e = 0 := rfl

@[simp] theorem counted_nil (e : EndpointId) : counted [] e = 0 := rfl

@[simp] theorem accepted_append (is is' : List Incident) (e : EndpointId) :
    accepted (is ++ is') e = accepted is e + accepted is' e := by
  rw [accepted, List.flatMap_append, List.countP_append, accepted, accepted]

@[simp] theorem counted_append (is is' : List Incident) (e : EndpointId) :
    counted (is ++ is') e = counted is e + counted is' e := by
  rw [counted, List.flatMap_append, List.count_append, counted, counted]

@[simp] theorem accepted_singleton (i : Incident) (e : EndpointId) :
    accepted [i] e = i.notes.countP (Note.accepts e) := by
  rw [accepted, List.flatMap_cons, List.flatMap_nil, List.append_nil]

@[simp] theorem counted_singleton (i : Incident) (e : EndpointId) :
    counted [i] e = i.notes.count (.counted e) := by
  rw [counted, List.flatMap_cons, List.flatMap_nil, List.append_nil]

/-- A client factory with an executor for its boss and one for its single worker. -/
def Blueprint.small : Blueprint :=
  ⟨.client 0 1, ⟨1, Nat.one_pos, ⟨0, ⟨"fake", none⟩⟩, .unconstrained⟩⟩

namespace Machine

/-! ## One incident -/

/-- **One thing happens to a machine.** -/
inductive Advance (m : Machine) : Incident → Machine → Prop where
  /-- A thread acts. -/
  | act {t : ThreadId} {c c' : Control} {g : Store → Store} {ns : List Note}
    (hc : m.control? t = some c) (h : c.move m.store t = .act g c' ns) :
    Advance m (.stepped t (.acted ns)) (m.act t g c')
  /-- A thread asks and is answered. -/
  | answer {t : ThreadId} {c : Control} {r : Request} {after : r.Reply → Control}
    (hc : m.control? t = some c) (h : c.move m.store t = .ask r after) (reply : r.Reply) :
    Advance m (.stepped t (.answered r reply)) (m.answer t r after reply)
  /-- Somebody calls an operation. -/
  | call (home : Option ExecutorId) (o : Operation) :
    Advance m (.called home o) (m.spawn home o.control)
  /-- Somebody builds a factory. -/
  | build (b : Blueprint) : Advance m (.built b) (m.build b)

variable {m m' m'' : Machine} {i : Incident} {is is' js : List Incident}

theorem Step.advance {t : ThreadId} {h : Happening} (s : Step m t h m') :
    m.Advance (.stepped t h) m' := by
  cases s with
  | act h =>
    obtain ⟨c, hc, hmove⟩ := control?_of_move_ne_stuck (m := m) (t := t) (by rw [h]; nofun)
    exact .act hc (hmove ▸ h)
  | answer h reply =>
    obtain ⟨c, hc, hmove⟩ := control?_of_move_ne_stuck (m := m) (t := t) (by rw [h]; nofun)
    exact .answer hc (hmove ▸ h) reply

theorem Advance.run (a : m.Advance i m') (r : Run is m) : Run (is ++ [i]) m' := by
  have hmove {t : ThreadId} {c : Control} (hc : m.control? t = some c) :
      m.move t = c.move m.store t := by rw [move, hc]
  cases a with
  | act hc h => exact r.step (.act (hmove hc ▸ h))
  | answer hc h reply => exact r.step (.answer (hmove hc ▸ h) reply)
  | call home o => exact r.call home o
  | build b => exact r.build b

theorem Advance.grows (a : m.Advance i m') : m.store.Grows m'.store := by
  cases a with
  | act hc h => exact Control.grows_of_move h
  | answer => exact store_answer .. ▸ .refl _
  | call => exact .refl _
  | build b => exact m.store.grows_build b

/-- **How a thread has come to be where it is** when something has happened. -/
inductive Places (m : Machine) (i : Incident) (m' : Machine) (t : ThreadId) (d : Control) :
    Prop where
  /-- It has not moved. -/
  | kept (hd : m.control? t = some d) (hne : ∀ h, i ≠ .stepped t h)
  /-- It has acted. -/
  | acted {c : Control} {g : Store → Store} {ns : List Note} (hc : m.control? t = some c)
    (h : c.move m.store t = .act g d ns) (hm : m' = m.act t g d) (hi : i = .stepped t (.acted ns))
  /-- It has been answered. -/
  | answered {c : Control} {q : Request} {after : q.Reply → Control} (reply : q.Reply)
    (hc : m.control? t = some c) (h : c.move m.store t = .ask q after) (hd : d = after reply)
    (hm : m' = m.answer t q after reply)
  /-- Somebody has just called it. -/
  | called {home : Option ExecutorId} {o : Operation} (ht : t = m.threads.size)
    (hd : d = o.control) (hi : i = .called home o)
  /-- It is a loop, and an executor has just taken it. -/
  | served {t' : ThreadId} {c : Control} {x : ExecutorId} {l : LoopId} {mux : Multiplexer}
    {after : Bool → Control} (ht : t = m.threads.size) (hc : m.control? t' = some c)
    (h : c.move m.store t' = .ask (.execute x l mux) after)
    (hd : d = .running [.serve l mux .announce])
    (hi : i = .stepped t' (.answered (.execute x l mux) true))
    (hm : m' = (m.setControl t' (after true)).spawn (some x) d)

theorem size_setControl (m : Machine) (t : ThreadId) (c : Control) :
    (m.setControl t c).threads.size = m.threads.size := by
  simp [setControl]

theorem answer_execute (m : Machine) (t : ThreadId) (x : ExecutorId) (l : LoopId)
    (mux : Multiplexer) (after : Bool → Control) :
    m.answer t (.execute x l mux) after true
      = (m.setControl t (after true)).spawn (some x) (.running [.serve l mux .announce]) :=
  rfl

theorem Advance.places (a : m.Advance i m') {t : ThreadId} {d : Control}
    (hd : m'.control? t = some d) : Places m i m' t d := by
  cases a with
  | @act t' c c' g ns hc hmove =>
    rw [control?_act] at hd
    split at hd
    · rename_i ht
      subst ht
      obtain ⟨-, -, rfl⟩ := Option.map_eq_some_iff.mp hd
      exact .acted hc hmove rfl rfl
    · rename_i ht
      exact .kept hd fun h heq => ht (Incident.stepped.inj heq).1
  | @answer t' c q after hc hmove reply =>
    -- the thread that asked goes on, all others stay
    have hset (hd : (m.setControl t' (after reply)).control? t = some d) :
        Places m (.stepped t' (.answered q reply)) (m.answer t' q after reply) t d := by
      rw [control?_setControl] at hd
      split at hd
      · rename_i ht
        subst ht
        obtain ⟨-, -, rfl⟩ := Option.map_eq_some_iff.mp hd
        exact .answered reply hc hmove rfl rfl
      · rename_i ht
        exact .kept hd fun h heq => ht (Incident.stepped.inj heq).1
    cases q with
    | execute x l mux =>
      cases reply with
      | true =>
        rw [answer_execute, control?_spawn, size_setControl] at hd
        split at hd
        · obtain rfl := Option.some.inj hd
          exact .served ‹_› hc hmove rfl rfl rfl
        · exact hset hd
      | false => exact hset hd
    | _ => exact hset hd
  | call home o =>
    rw [control?_spawn] at hd
    split at hd
    · exact .called ‹_› (Option.some.inj hd).symm rfl
    · exact .kept hd nofun
  | build b => exact .kept hd nofun

/-- **Induction over a history**, incident by incident. -/
theorem Run.induction {motive : List Incident → Machine → Prop} (empty : motive [] .empty)
    (advance : ∀ {is m i m'}, Run is m → motive is m → m.Advance i m' → motive (is ++ [i]) m')
    (r : Run is m) : motive is m := by
  induction r with
  | empty => exact empty
  | step r s ih => exact advance r ih s.advance
  | call r home o ih => exact advance r ih (.call home o)
  | build r b ih => exact advance r ih (.build b)

theorem Run.reachable (r : Run is m) : m.Reachable := ⟨is, r⟩

/-- **What happened tells what became of the machine.** -/
theorem Advance.unique {m₁ m₂ : Machine} (a : m.Advance i m₁) (b : m.Advance i m₂) : m₁ = m₂ := by
  cases a with
  | act hc h =>
    cases b with
    | act hc' h' =>
      obtain rfl := Option.some.inj (hc.symm.trans hc')
      obtain ⟨rfl, rfl, -⟩ := Move.act.inj (h.symm.trans h')
      rfl
  | answer hc h reply =>
    cases b with
    | answer hc' h' =>
      obtain rfl := Option.some.inj (hc.symm.trans hc')
      obtain ⟨-, hafter⟩ := Move.ask.inj (h.symm.trans h')
      obtain rfl := eq_of_heq hafter
      rfl
  | call => cases b; rfl
  | build => cases b; rfl

/-! ## Many incidents -/

/-- **Incidents lead from one machine to another.** -/
inductive Leads (m : Machine) : List Incident → Machine → Prop where
  /-- Nothing happens. -/
  | refl : Leads m [] m
  /-- One thing more happens. -/
  | advance {is : List Incident} {m' m'' : Machine} {i : Incident} (h : Leads m is m')
    (a : m'.Advance i m'') : Leads m (is ++ [i]) m''

theorem Run.leads (r : Run is m) (h : m.Leads is' m') : Run (is ++ is') m' := by
  -- by induction on what happens afterwards, from the machine that the history led to
  induction h with
  | refl => rwa [List.append_nil]
  | advance h a ih =>
    rw [← List.append_assoc]
    exact a.run ih

theorem Leads.trans (h : m.Leads is m') (h' : m'.Leads is' m'') : m.Leads (is ++ is') m'' := by
  induction h' with
  | refl => rwa [List.append_nil]
  | advance _ a ih =>
    rw [← List.append_assoc]
    exact ih.advance a

theorem Leads.grows (h : m.Leads is m') : m.store.Grows m'.store := by
  induction h with
  | refl => exact .refl _
  | advance h a ih => exact ih.trans a.grows

theorem Leads.reachable (h : m.Leads is m') (r : m.Reachable) : m'.Reachable :=
  r.elim fun _ r => (r.leads h).reachable

/-- A history can be cut around any incident. -/
theorem Run.split (r : Run (is ++ i :: is') m'') :
    ∃ m m', Run is m ∧ m.Advance i m' ∧ m'.Leads is' m'' := by
  generalize heq : is ++ i :: is' = js at r
  revert is'
  refine r.induction (motive := fun js m'' => ∀ {is'}, is ++ i :: is' = js →
    ∃ m m', Run is m ∧ m.Advance i m' ∧ m'.Leads is' m'') (fun h => absurd h (by simp)) ?_
  intro js m₁ i' m₂ r ih a' is' heq
  rcases List.eq_nil_or_concat is' with rfl | ⟨is', i'', rfl⟩
  · obtain ⟨rfl, hi⟩ := List.append_inj' heq rfl
    obtain rfl := List.singleton_inj.mp hi
    exact ⟨m₁, m₂, r, a', .refl⟩
  · rw [List.concat_eq_append, ← List.cons_append, ← List.append_assoc] at heq
    obtain ⟨rfl, hi⟩ := List.append_inj' heq rfl
    obtain rfl := List.singleton_inj.mp hi
    obtain ⟨m', m'', r', a, h⟩ := ih rfl
    exact ⟨m', m'', r', a, by rw [List.concat_eq_append]; exact h.advance a'⟩

theorem Leads.eq_of_nil (h : m.Leads [] m') : m' = m := by
  generalize hnil : ([] : List Incident) = is at h
  cases h with
  | refl => rfl
  | advance => simp at hnil

/-- **A history leads to one machine.** -/
theorem Run.unique {m₁ m₂ : Machine} (r₁ : Run is m₁) (r₂ : Run is m₂) : m₁ = m₂ := by
  refine r₁.induction (motive := fun is m₁ => ∀ m₂, Run is m₂ → m₁ = m₂) ?empty ?advance m₂ r₂
  case empty =>
    intro m₂ r₂
    generalize hnil : ([] : List Incident) = js at r₂
    cases r₂ with
    | empty => rfl
    | step | call | build => simp at hnil
  case advance =>
    intro is m i m' r ih a m₂ r₂
    -- the other history ends with the same incident, after the same history
    obtain ⟨m₀, m₁, r₀, a₀, h⟩ := r₂.split
    obtain rfl := ih m₀ r₀
    rw [h.eq_of_nil]
    exact a.unique a₀

/-! ## Playing a history -/

/-- **What everybody hopes to hear**: that it worked, that nothing is left to wait
for, and that the caller is somebody else. -/
def granted : (r : Request) → r.Reply
  | .openMultiplexer _ p => .ok ⟨p.key, 0⟩
  | .execute .. => true
  | .wake .. => .ok ()
  | .wait .. => .ok 0
  | .shutDown _ => ()
  | .isMember _ => false
  | .await _ => true

/-- **A thread makes so many steps**, and is granted what it asks for. -/
def play (m : Machine) (t : ThreadId) : Nat → Machine
  | 0 => m
  | n + 1 =>
    match m.move t with
    | .act g c _ => (m.act t g c).play t n
    | .ask r after => (m.answer t r after (granted r)).play t n
    | .blocked _ | .stuck => m

theorem Reachable.play (h : m.Reachable) (t : ThreadId) (n : Nat) : (m.play t n).Reachable := by
  induction n generalizing m with
  | zero => exact h
  | succ n ih =>
    unfold Machine.play
    split
    · rename_i hmove
      exact ih (h.step (.act hmove))
    · rename_i hmove
      exact ih (h.step (.answer hmove _))
    · exact h
    · exact h

end Machine

end EndpointControl
