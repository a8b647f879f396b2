import EndpointControl.Proofs.Handing

/-!
# What a worker registers

A worker takes one registration after the other, in the order in which they have
come. It marks the endpoint as registered and counts it, or finds it closed and
passes it over; nothing else can come of a registration that has begun. So the
endpoints that a worker has counted are some of those it has begun with, in the
same order, and each that is left out was closed when its turn came
(`Machine.Run.inTurn`).
-/

namespace EndpointControl

/-- The endpoint that a note says has been counted. -/
def Note.counts : Note → List EndpointId
  | .counted e => [e]
  | _ => []

/-- **The endpoints that the worker has registered**, in the order in which it has counted
them. -/
def Machine.registered (m : Machine) (is : List Incident) (l : LoopId) : List EndpointId :=
  ((is.flatMap Incident.notes).flatMap Note.counts).filter (m.store.bound? · = some l)

/-- **The endpoint that the thread is registering**, and whether it has been marked
already. -/
def Control.registering? : Control → Option (EndpointId × Bool)
  | .running (.registration e .takeStatus :: _) | .running (.registration e .mark :: _) =>
    some (e, false)
  | .running (.registration e .count :: _) => some (e, true)
  | _ => none

/-- The note is about a worker that begins with an endpoint, or counts one. -/
def Note.registers : Note → Bool
  | .started ⟨_, .worker _⟩ _ | .counted _ => true
  | _ => false

/-- **What a step is for the registration of endpoints.** -/
inductive Control.Registers (s s' : Store) (c c' : Control) : List Note → Prop where
  /-- Nothing. -/
  | aside {ns : List Note} (hreg : c'.registering? = c.registering?)
    (hns : ∀ n ∈ ns, n.registers = false) : Registers s s' c c' ns
  /-- A worker begins with an endpoint. -/
  | begins {l : LoopId} {e : EndpointId} (hc : c.registering? = none)
    (hc' : c'.registering? = some (e, false)) (hbound : s.bound? e = some l)
    (hserves : (c'.serving? l).isSome) : Registers s s' c c' [.started l (.registration e)]
  /-- It marks the endpoint. -/
  | marks {e : EndpointId} (hc : c.registering? = some (e, false))
    (hc' : c'.registering? = some (e, true)) (hstate : s'.state? e = some .registered) :
    Registers s s' c c' []
  /-- It finds the endpoint closed. -/
  | passes {e : EndpointId} {below : List Frame}
    (hc : c = .running (.registration e .mark :: below)) (hc' : c'.registering? = none)
    (hstate : s.state? e = some .closed) : Registers s s' c c' []
  /-- It counts the endpoint. -/
  | counts {e : EndpointId} (hc : c.registering? = some (e, true)) (hc' : c'.registering? = none) :
    Registers s s' c c' [.counted e]

section Procedures

variable {s : Store} {t : ThreadId} {fr caller : Frame} {below : List Frame} {g : Store → Store}
  {c c' : Control} {ns : List Note} {l : LoopId}

/-- **A job is begun by whoever runs the loop**, and nobody else. -/
theorem Control.serve_of_started {j : Job} (hc : c.Stacked) (h : c.move s t = .act g c' ns)
    (hn : .started l j ∈ ns) :
    ∃ m rest n, c = .running [.serve l m (.run (j :: rest) n)] := by
  have hdeals : c.Deals l s (g s) c' ns := deals_of_act hc h
  cases hdeals with
  | aside _ hns => exact absurd (hns _ hn) (by simp [Note.concerns])
  | @turns _ _ mux p _ _ _ _ _ _ turn =>
    cases turn with
    | passes _ hns => exact absurd (hns _ hn) (by simp [Note.concerns])
    | @begins j' rest n =>
      obtain rfl : j = j' := by simpa using hn
      exact ⟨mux, rest, n, rfl⟩
    | _ => simp at hn
  | _ => simp at hn

/-- Whoever returns is not registering anything then. -/
theorem Frame.Below.registering?_back (hb : fr.Below s below) (hroot : fr.isRoot = false)
    (r : Except Failure Unit) : (Control.back below r).registering? = none := by
  obtain ⟨caller, rest, rfl, hcalls, -, -⟩ := hb.exists_caller hroot
  cases hcalls <;> cases r <;> rfl

/-- Nobody but a registration registers anything. -/
theorem Control.registering?_of_ne (h : ∀ e p, fr ≠ .registration e p) :
    (Control.running (fr :: below)).registering? = none := by
  cases fr <;> first | rfl | exact absurd rfl (h _ _)

theorem Status.register_of_ne {st : Status} (h : st.state ≠ .closed) :
    st.register.1.state = .registered := by
  unfold register
  split
  · exact absurd ‹_› h
  · rfl

theorem RegistrationPoint.registers {e : EndpointId} {r : Endpoint} {p : RegistrationPoint}
    (hb : (Frame.registration e p).Below s below) (found : s.endpoints[e]? = some r)
    (h : p.move s t below e r = .act g c ns) :
    (Control.running (.registration e p :: below)).Registers s (g s) c ns := by
  cases p <;> simp [RegistrationPoint.move] at h
  case takeStatus =>
    obtain ⟨-, rfl, rfl, rfl⟩ := h
    exact .aside rfl (List.forall_mem_nil _)
  case mark =>
    obtain ⟨rfl, rfl, rfl⟩ := h
    split
    · rename_i hclosed
      refine .passes rfl (hb.registering?_back rfl _) ?_
      rw [Store.state?, found, Option.map_some, hclosed]
    · rename_i hclosed
      refine .marks (e := e) rfl rfl ?_
      show (s.setStatus e r.status.register.1).state? e = _
      rw [Store.state?_setStatus, if_pos rfl, Store.state?, found, Option.map_some,
        Option.map_some, Status.register_of_ne hclosed]
  case count =>
    obtain ⟨rfl, rfl, rfl⟩ := h
    exact .counts (e := e) rfl rfl
  case announce =>
    obtain ⟨rfl, rfl, rfl⟩ := h
    exact .aside (hb.registering?_back rfl _) (by simp [Note.registers])

/-- **A loop that begins a job** begins with an endpoint, if it is a worker. -/
theorem Control.registers_of_started {j : Job} (hc : c.Sound s) (hst : c.Stacked)
    (h : c.move s t = .act g c' ns) (hn : .started l j ∈ ns) : c.Registers s (g s) c' ns := by
  obtain ⟨m, rest, n, rfl⟩ := serve_of_started hst h hn
  have hplaced := hc.1 j List.mem_cons_self
  cases moves_of_running h with
  | serve _ hp =>
    simp [ServePoint.move] at hp
    obtain ⟨rfl, rfl, rfl⟩ := hp
    cases j with
    | attempt e a =>
      obtain ⟨r, -, rfl⟩ := hplaced
      exact .aside rfl (by simp [Note.registers, Endpoint.boss])
    | registration e =>
      exact .begins rfl rfl (Store.bound?_eq_some_iff.mpr hplaced) (by simp [Frame.serving?])

/-- Only who runs a loop awaits a registration. -/
theorem Frame.Awaits.exists_run {e : EndpointId} {p : RegistrationPoint}
    (h : caller.Awaits (.registration e p)) :
    ∃ l m batch n, caller = .serve l m (.run batch n) := by
  unfold Awaits at h
  split at h
  case h_8 => exact ⟨_, _, _, _, rfl⟩
  case h_4 | h_5 | h_6 | h_9 | h_10 =>
    obtain ⟨_, hsame⟩ := h
    cases hsame
  case h_11 => exact h.elim
  all_goals cases h

/-- Who runs a loop says that it begins a job when it does. -/
theorem ServePoint.started_of_registration {lp : Loop} {mux : Multiplexer} {p : ServePoint}
    {e : EndpointId} {q : RegistrationPoint} {rest : List Frame}
    (h : p.move s t below l lp mux = .act g (.running (.registration e q :: rest)) ns) :
    ∃ j, .started l j ∈ ns := by
  cases p with
  | run batch n =>
    cases batch with
    | nil => simp [move] at h
    | cons j batch =>
      obtain ⟨-, -, rfl⟩ := Move.act.inj h
      exact ⟨j, List.mem_cons_self⟩
  | discard batch n => cases batch <;> simp [move, Frame.ofDropped] at h
  | report n => cases n <;> simp [move] at h
  | serialize | endTurn =>
    simp only [move] at h
    split at h <;> simp at h
  | _ => simp [move] at h

/-- **Nobody comes to register an endpoint** but a worker that begins a job. -/
theorem Control.registering?_of_act
    (h : (Control.running (fr :: below)).move s t = .act g c' ns)
    (hc : (Control.running (fr :: below)).Sound s) (hfr : ∀ e p, fr ≠ .registration e p)
    (hstarted : ∀ l j, .started l j ∉ ns) : c'.registering? = none := by
  have hgoes := goes_of_running h
  cases hgoes with
  | within hsame => exact registering?_of_ne fun e p heq => by cases heq ▸ hsame; exact hfr _ _ rfl
  | @calls callee fr' hsame hnew =>
    refine registering?_of_ne fun e p heq => ?_
    subst heq
    -- only who runs a loop calls a registration, and notes that it has begun the job
    obtain ⟨l, m, batch, n, rfl⟩ := (awaits_of_calls h).exists_run
    cases hsame with
    | serve =>
      cases moves_of_running h with
      | serve _ hp =>
        obtain ⟨j, hj⟩ := ServePoint.started_of_registration hp
        exact hstarted _ _ hj
  | returns hroot => exact hc.2.2.registering?_back hroot _
  | ends => rfl

/-- **Every step is one of these for the registration of endpoints.** -/
theorem Control.registers_of_act (hs : s.Sound) (hc : c.Sound s) (hst : c.Stacked)
    (h : c.move s t = .act g c' ns) : c.Registers s (g s) c' ns := by
  by_cases hstarted : ∃ l j, .started l j ∈ ns
  · obtain ⟨l, j, hn⟩ := hstarted
    exact registers_of_started hc hst h hn
  · have hnone (l : LoopId) (j : Job) : .started l j ∉ ns := fun hn => hstarted ⟨l, j, hn⟩
    obtain ⟨fr, below, rfl, -⟩ := goes_of_act h
    by_cases hfr : ∃ e p, fr = .registration e p
    · obtain ⟨e, p, rfl⟩ := hfr
      cases moves_of_running h with
      | registration found hp => exact RegistrationPoint.registers hc.2.2 found hp
    · have hfr (e : EndpointId) (p : RegistrationPoint) : fr ≠ .registration e p :=
        fun heq => hfr ⟨e, p, heq⟩
      refine .aside ?_ fun n hn => ?_
      · rw [registering?_of_act h hc hfr hnone, registering?_of_ne hfr]
      · cases n with
        | started l j => exact absurd hn (hnone l j)
        | counted e =>
          obtain ⟨below, heq⟩ :=
            registration_of_counted hs hc h (List.count_pos_iff.mpr hn).ne'
          exact absurd (List.cons.inj (Control.running.inj heq)).1 (hfr _ _)
        | _ => rfl

/-- Whoever registers an endpoint is in the midst of it. -/
theorem Control.exists_registration {e : EndpointId} {x : Bool}
    (h : c.registering? = some (e, x)) :
    ∃ p below, c = .running (.registration e p :: below) := by
  unfold registering? at h
  split at h
  case h_4 => cases h
  all_goals
    obtain ⟨rfl, -⟩ := Prod.mk.inj (Option.some.inj h)
    exact ⟨_, _, rfl⟩

/-- Whoever asks anything is not registering an endpoint. -/
theorem Control.registering?_of_ask {q : Request} {after : q.Reply → Control} (reply : q.Reply)
    (h : c.move s t = .ask q after) :
    (after reply).registering? = none ∧ c.registering? = none := by
  obtain ⟨fr, below, rfl, hask⟩ := asks h
  cases hask with
  | openNew | wakeSubmit | wakeSignal => cases reply <;> exact ⟨rfl, rfl⟩
  | _ => exact ⟨rfl, rfl⟩

theorem Control.Sound.has_of_registering? {e : EndpointId} {x : Bool} (hc : c.Sound s)
    (h : c.registering? = some (e, x)) : s.Has e := by
  obtain ⟨p, below, rfl⟩ := exists_registration h
  exact hc.1

end Procedures

/-- **Being about to register an endpoint.** -/
def Engagement.registering : Engagement Bool where
  of? := Control.registering?
  has := Control.Sound.has_of_registering?
  answered reply h := by
    obtain ⟨hafter, hc⟩ := Control.registering?_of_ask reply h
    rw [hafter, hc]
  called o := by cases o <;> rfl
  served _ _ := rfl

namespace Machine

variable {m m' : Machine} {is : List Incident} {i : Incident} {l : LoopId} {t t' : ThreadId}
  {c c' : Control} {e e' : EndpointId} {x x' : Bool}

/-- **A thread is registering an endpoint of this worker**, and has marked it already or
not. -/
abbrev Registering (m : Machine) (l : LoopId) (t : ThreadId) (e : EndpointId) (x : Bool) : Prop :=
  Engagement.registering.At m l t e x

/-- **Whoever registers an endpoint runs its worker.** -/
theorem Run.serving_of_registering (r : Run is m) : ∀ {t c e x l}, m.control? t = some c →
    c.registering? = some (e, x) → m.store.bound? e = some l → (c.serving? l).isSome := by
  refine r.induction (motive := fun _ m => ∀ {t c e x l}, m.control? t = some c →
    c.registering? = some (e, x) → m.store.bound? e = some l → (c.serving? l).isSome)
    (fun hc => by cases hc) ?_
  intro is m i m' r ih a t d e x l hd hreg hbound
  obtain ⟨hs, hsound⟩ := r.reachable.sound
  cases a.places hd with
  | kept hd =>
    rw [a.grows.bound?_eq ((hsound t d hd).has_of_registering? hreg)] at hbound
    exact ih hd hreg hbound
  | @acted c g ns hc hmove hm =>
    subst hm
    have hst := r.traffic.stacked _ _ hc
    -- who has been registering it runs the loop as before
    have hkeep {y : Bool} (hold : c.registering? = some (e, y)) : (d.serving? l).isSome := by
      rw [store_act, (Control.grows_of_move hmove).bound?_eq
        ((hsound t c hc).has_of_registering? hold)] at hbound
      obtain ⟨p, below, rfl⟩ := Control.exists_registration hold
      rw [(Control.goes_of_running hmove).serving? hst (by rintro _ _ ⟨⟩)]
      exact ih hc hold hbound
    cases Control.registers_of_act hs (hsound t c hc) hst hmove with
    | aside heq => exact hkeep (heq ▸ hreg)
    | begins _ hc' hbound' hserves =>
      obtain ⟨rfl, -⟩ := Prod.mk.inj (Option.some.inj (hreg.symm.trans hc'))
      obtain rfl := Option.some.inj
        (((Control.grows_of_move hmove).bound? hbound').symm.trans hbound)
      exact hserves
    | marks hold hc' =>
      obtain ⟨rfl, -⟩ := Prod.mk.inj (Option.some.inj (hreg.symm.trans hc'))
      exact hkeep hold
    | passes _ hc' => cases hreg.symm.trans hc'
    | counts _ hc' => cases hreg.symm.trans hc'
  | answered reply hc hmove hd' =>
    rw [hd', (Control.registering?_of_ask reply hmove).1] at hreg
    cases hreg
  | @called _ o _ hd' => subst hd'; cases o <;> cases hreg
  | served _ _ _ hd' => subst hd'; cases hreg

/-- **A worker registers one endpoint at a time.** -/
theorem Run.registering_sole (r : Run is m) (h : m.Registering l t e x)
    (h' : m.Registering l t' e' x') : t = t' := by
  obtain ⟨c, hc, he, hl⟩ := h
  obtain ⟨c', hc', he', hl'⟩ := h'
  exact (r.traffic.serving hc hc' (r.serving_of_registering hc he hl)
    (r.serving_of_registering hc' he' hl')).1

/-! ## Taking one up after the other -/

/-- **A worker has found the endpoint closed** when it was about to mark it. -/
def FoundClosed (m : Machine) (is : List Incident) (e : EndpointId) : Prop :=
  ∃ is₁ t is₂ m₁ below, is = is₁ ++ .stepped t (.acted []) :: is₂ ∧ Run is₁ m₁
    ∧ m₁.Leads (.stepped t (.acted []) :: is₂) m
    ∧ m₁.control? t = some (.running (.registration e .mark :: below))
    ∧ m₁.store.state? e = some .closed

theorem FoundClosed.advance (h : m.FoundClosed is e) (a : m.Advance i m') :
    m'.FoundClosed (is ++ [i]) e := by
  obtain ⟨is₁, t, is₂, m₁, below, rfl, r, hleads, hc, hclosed⟩ := h
  exact ⟨is₁, t, is₂ ++ [i], m₁, below, by simp, r, hleads.advance a, hc, hclosed⟩

/-- **What an incident is for the registrations of a worker**: which it begins, and which
it counts. -/
inductive TakesUp (m m' : Machine) (is' : List Incident) (l : LoopId) :
    List EndpointId → List EndpointId → Prop where
  /-- Nothing. -/
  | aside (hsame : ∀ t e x, m'.Registering l t e x ↔ m.Registering l t e x) :
    TakesUp m m' is' l [] []
  /-- It begins with an endpoint. -/
  | begins {t : ThreadId} {e : EndpointId} (hnone : ∀ t e x, ¬ m.Registering l t e x)
    (hnew : m'.Registering l t e false) : TakesUp m m' is' l [e] []
  /-- It marks the endpoint. -/
  | marks {t : ThreadId} {e : EndpointId} (hold : m.Registering l t e false)
    (hnew : m'.Registering l t e true) (hstate : m'.store.state? e = some .registered) :
    TakesUp m m' is' l [] []
  /-- It finds the endpoint closed. -/
  | passes {t : ThreadId} {e : EndpointId} (hold : m.Registering l t e false)
    (hnone : ∀ t e x, ¬ m'.Registering l t e x) (hclosed : m.store.state? e = some .closed)
    (hfound : m'.FoundClosed is' e) : TakesUp m m' is' l [] []
  /-- It counts the endpoint. -/
  | counts {t : ThreadId} {e : EndpointId} (hold : m.Registering l t e true)
    (hnone : ∀ t e x, ¬ m'.Registering l t e x) : TakesUp m m' is' l [] [e]

/-- Notes that are not about registrations begin nothing with a worker, and count nothing. -/
theorem flatMap_of_not_registers {ns : List Note} (hns : ∀ n ∈ ns, n.registers = false)
    (f : FactoryId) (w : Nat) : ns.flatMap (Note.begins ⟨f, .worker w⟩) = []
      ∧ ns.flatMap Note.counts = [] := by
  constructor <;> refine List.flatMap_eq_nil_iff.mpr fun n hn => ?_
  all_goals
    have hn := hns n hn
    cases n with
    | started l j =>
      obtain ⟨f', seat⟩ := l
      cases seat <;> simp_all [Note.registers, Note.counts]
    | counted e => simp [Note.registers] at hn
    | _ => rfl

/-- **Every step is one of these for a worker.** -/
theorem Run.takesUp_act {g : Store → Store} {ns : List Note} (r : Run is m)
    (hc : m.control? t = some c) (hmove : c.move m.store t = .act g c' ns) (f : FactoryId)
    (w : Nat) :
    m.TakesUp (m.act t g c') (is ++ [.stepped t (.acted ns)]) ⟨f, .worker w⟩
      ((ns.flatMap (Note.begins ⟨f, .worker w⟩)).map Job.endpoint)
      ((ns.flatMap Note.counts).filter ((g m.store).bound? · = some ⟨f, .worker w⟩)) := by
  obtain ⟨hs, hsound⟩ := r.reachable.sound
  generalize hl : (⟨f, .worker w⟩ : LoopId) = l
  have hg := Control.grows_of_move hmove
  -- a step that is about another worker
  have haway (h : Engagement.registering.Away m.store l c)
      (h' : Engagement.registering.Away (g m.store) l c') :
      m.TakesUp (m.act t g c') (is ++ [.stepped t (.acted ns)]) l [] [] :=
    .aside fun _ _ _ => Engagement.at_act_iff_of_away r.reachable hc hmove h h'
  -- whoever has done with an endpoint was the only one to register any
  have hdone {e : EndpointId} {x : Bool} (hold : m.Registering l t e x)
      (hce' : c'.registering? = none) (t' : ThreadId) (e' : EndpointId) (x' : Bool) :
      ¬ (m.act t g c').Registering l t' e' x' := by
    intro he'
    by_cases ht : t = t'
    · subst ht
      exact (Engagement.Away.of_none (k := .registering) hce').not_at_act hc he'
    · exact ht (r.registering_sole hold
        ((Engagement.at_act_iff_of_ne r.reachable hmove ht).mp he'))
  -- which worker an endpoint is bound to that is registered
  have hworker {e : EndpointId} {x : Bool} (hce : c.registering? = some (e, x)) :
      ∃ l₀, m.store.bound? e = some l₀ := by
    obtain ⟨q, hq⟩ := (hsound t c hc).has_of_registering? hce
    exact ⟨q.home, Store.bound?_eq_some_iff.mpr ⟨q, hq, rfl⟩⟩
  cases Control.registers_of_act hs (hsound t c hc) (r.traffic.stacked t c hc) hmove with
  | aside hreg hns =>
    rw [← hl, (flatMap_of_not_registers hns f w).1, (flatMap_of_not_registers hns f w).2]
    exact .aside fun _ _ _ => Engagement.at_act_iff_of_eq r.reachable hc hmove hreg
  | @begins l₀ e hce hce' hbound =>
    rw [List.flatMap_singleton, List.flatMap_singleton, Note.begins]
    by_cases hl₀ : l₀ = l
    · subst hl₀
      have hnew : (m.act t g c').Registering l₀ t e false :=
        Engagement.at_act hc hmove hbound hce'
      rw [if_pos rfl]
      refine .begins (fun t' e' x' he' => ?_) hnew
      by_cases ht : t = t'
      · subst ht
        exact (Engagement.Away.of_none (k := .registering) hce).not_at hc he'
      · exact ht (((Advance.act hc hmove).run r).registering_sole hnew
          ((Engagement.at_act_iff_of_ne r.reachable hmove ht).mpr he'))
    · rw [if_neg hl₀]
      exact haway (.of_none hce) (.of_ne hce' (hg.bound? hbound) hl₀)
  | @marks e hce hce' hstate =>
    obtain ⟨l₀, hbound⟩ := hworker hce
    by_cases hl₀ : l₀ = l
    · subst hl₀
      exact .marks ((Engagement.at_iff hc).mpr ⟨hce, hbound⟩)
        (Engagement.at_act hc hmove hbound hce') hstate
    · exact haway (.of_ne hce hbound hl₀) (.of_ne hce' (hg.bound? hbound) hl₀)
  | @passes e below hcm hce' hclosed =>
    have hce : c.registering? = some (e, false) := hcm ▸ rfl
    obtain ⟨l₀, hbound⟩ := hworker hce
    by_cases hl₀ : l₀ = l
    · subst hl₀
      have hold : m.Registering l₀ t e false := (Engagement.at_iff hc).mpr ⟨hce, hbound⟩
      exact .passes hold (hdone hold hce') hclosed
        ⟨is, t, [], m, below, rfl, r, .advance .refl (.act hc hmove), hcm ▸ hc, hclosed⟩
    · exact haway (.of_ne hce hbound hl₀) (.of_none hce')
  | @counts e hce hce' =>
    obtain ⟨l₀, hbound⟩ := hworker hce
    rw [List.flatMap_singleton, List.flatMap_singleton, Note.counts, List.filter_singleton,
      hg.bound? hbound]
    by_cases hl₀ : l₀ = l
    · subst hl₀
      have hold : m.Registering l₀ t e true := (Engagement.at_iff hc).mpr ⟨hce, hbound⟩
      rw [decide_eq_true rfl]
      exact .counts hold (hdone hold hce')
    · rw [decide_eq_false fun h => hl₀ (Option.some.inj h)]
      exact haway (.of_ne hce hbound hl₀) (.of_none hce')

/-- **Every incident is one of these for a worker.** -/
theorem Run.takesUp (r : Run is m) (a : m.Advance i m') (f : FactoryId) (w : Nat) :
    m.TakesUp m' (is ++ [i]) ⟨f, .worker w⟩
      ((i.notes.flatMap (Note.begins ⟨f, .worker w⟩)).map Job.endpoint)
      ((i.notes.flatMap Note.counts).filter (m'.store.bound? · = some ⟨f, .worker w⟩)) := by
  cases a with
  | act hc hmove => exact r.takesUp_act hc hmove f w
  | answer hc hmove reply =>
    exact .aside fun t e x =>
      Engagement.at_iff_of_not_acted (.answer hc hmove reply) r.reachable (by simp)
  | call home o =>
    exact .aside fun t e x => Engagement.at_iff_of_not_acted (.call home o) r.reachable (by simp)
  | build b =>
    exact .aside fun t e x => Engagement.at_iff_of_not_acted (.build b) r.reachable (by simp)

end Machine

/-- **The endpoint is registered, or has been closed.** -/
def Store.Past (s : Store) (e : EndpointId) : Prop :=
  s.state? e = some .registered ∨ s.state? e = some .closed

/-- **What is registered or closed never opens again.** -/
theorem Leg.Turns.past {leg : Leg} {before after : Option State} (h : leg.Turns before after)
    (hb : before = some .registered ∨ before = some .closed) :
    after = some .registered ∨ after = some .closed := by
  rcases hb with rfl | rfl <;> cases leg <;> simp_all [Leg.Turns]

namespace Machine

variable {m m' : Machine} {is : List Incident} {i : Incident} {l : LoopId} {t t' : ThreadId}
  {e e' : EndpointId}

theorem Advance.past (hm : m.Reachable) (a : m.Advance i m') (h : m.store.Past e) :
    m'.store.Past e := by
  obtain ⟨leg, b⟩ := a.booked hm [] e
  exact Leg.Turns.past b.state h

/-- **The worker has done with the endpoint**: it has been counted, or found closed. -/
def DealtWith (m : Machine) (is : List Incident) (registered : List EndpointId) (e : EndpointId) :
    Prop := m.store.Past e ∧ (e ∈ registered ∨ m.FoundClosed is e)

theorem DealtWith.advance {registered : List EndpointId} (h : m.DealtWith is registered e)
    (hm : m.Reachable) (a : m.Advance i m') : m'.DealtWith (is ++ [i]) registered e :=
  ⟨a.past hm h.1, h.2.imp_right (·.advance a)⟩

theorem DealtWith.append {registered : List EndpointId} (h : m.DealtWith is registered e)
    (registered' : List EndpointId) : m.DealtWith is (registered ++ registered') e :=
  ⟨h.1, h.2.imp_left (List.mem_append_left _)⟩

/-- **How a worker deals with the registrations it has begun**: with one after the other,
and all but the last are done. -/
inductive InTurn (m : Machine) (is : List Incident) (l : LoopId)
    (begun registered : List EndpointId) : Prop where
  /-- It is still at the last. -/
  | busy {t : ThreadId} {e : EndpointId} {x : Bool} {before : List EndpointId}
    (he : m.Registering l t e x) (hbegun : begun = before ++ [e]) (hsub : registered.Sublist before)
    (hdealt : ∀ e ∈ before, m.DealtWith is registered e) (hmarked : x = true → m.store.Past e)
  /-- It has done with all. -/
  | idle (hnone : ∀ t e x, ¬ m.Registering l t e x) (hsub : registered.Sublist begun)
    (hdealt : ∀ e ∈ begun, m.DealtWith is registered e)

namespace InTurn

variable {begun registered begun' registered' : List EndpointId}

/-- **The endpoints that a worker has counted are some of those it has begun with**, in the
same order. -/
theorem sublist (h : m.InTurn is l begun registered) : registered.Sublist begun := by
  cases h with
  | busy _ hbegun hsub => exact hbegun ▸ hsub.trans (List.sublist_append_left ..)
  | idle _ hsub => exact hsub

/-- **With what it has begun before another, a worker has done.** -/
theorem dealt (h : m.InTurn is l begun registered) (hbefore : [e, e'].Sublist begun) :
    m.DealtWith is registered e := by
  cases h with
  | busy _ hbegun _ hdealt =>
    -- something comes after it, so it is not the last
    subst hbegun
    obtain ⟨xs, ys, heq, hxs, hys⟩ := List.sublist_append_iff.mp hbefore
    refine hdealt e (hxs.subset ?_)
    have hle : ys.length ≤ 1 := hys.length_le
    have hlength := congrArg List.length heq
    cases xs with
    | nil =>
      rw [List.length_cons, List.length_singleton, List.nil_append] at hlength
      omega
    | cons x xs =>
      obtain rfl := (List.cons.inj heq).1
      exact List.mem_cons_self
  | idle _ _ hdealt => exact hdealt e (hbefore.subset List.mem_cons_self)

/-- **A worker takes up one registration after the other.** -/
theorem takesUp (h : m.InTurn is l begun registered) (r : Run is m) (a : m.Advance i m')
    (hstep : m.TakesUp m' (is ++ [i]) l begun' registered') :
    m'.InTurn (is ++ [i]) l (begun ++ begun') (registered ++ registered') := by
  have hm := r.reachable
  cases hstep with
  | aside hsame =>
    rw [List.append_nil, List.append_nil]
    cases h with
    | busy he hbegun hsub hdealt hmarked =>
      refine .busy ((hsame ..).mpr he) hbegun hsub (fun e he => ?_) fun hx => a.past hm (hmarked hx)
      exact (hdealt e he).advance hm a
    | idle hnone hsub hdealt =>
      refine .idle (fun t e x he => hnone t e x ((hsame ..).mp he)) hsub fun e he => ?_
      exact (hdealt e he).advance hm a
  | begins hnone hnew =>
    cases h with
    | busy he => exact absurd he (hnone _ _ _)
    | idle _ hsub hdealt =>
      rw [List.append_nil]
      refine .busy hnew rfl hsub (fun e he => ?_) (by simp)
      exact (hdealt e he).advance hm a
  | marks hold hnew hstate =>
    cases h with
    | busy he hbegun hsub hdealt =>
      obtain rfl := r.registering_sole hold he
      obtain ⟨rfl, -⟩ := he.eq hold
      rw [List.append_nil, List.append_nil]
      refine .busy hnew hbegun hsub (fun e he => ?_) fun _ => .inl hstate
      exact (hdealt e he).advance hm a
    | idle hnone => exact absurd hold (hnone _ _ _)
  | passes hold hnone' hclosed hfound =>
    cases h with
    | @busy t₀ e₀ _ before he hbegun hsub hdealt =>
      obtain rfl := r.registering_sole hold he
      obtain ⟨rfl, -⟩ := he.eq hold
      rw [List.append_nil, List.append_nil]
      refine .idle hnone' (hbegun ▸ hsub.trans (List.sublist_append_left ..)) fun e he => ?_
      rw [hbegun, List.mem_append, List.mem_singleton] at he
      rcases he with he | rfl
      · exact (hdealt e he).advance hm a
      · exact ⟨a.past hm (.inr hclosed), .inr hfound⟩
    | idle hnone => exact absurd hold (hnone _ _ _)
  | counts hold hnone' =>
    cases h with
    | busy he hbegun hsub hdealt hmarked =>
      obtain rfl := r.registering_sole hold he
      obtain ⟨rfl, rfl⟩ := he.eq hold
      rw [List.append_nil]
      refine .idle hnone' (hbegun ▸ hsub.append (List.Sublist.refl _)) fun e he => ?_
      rw [hbegun, List.mem_append, List.mem_singleton] at he
      rcases he with he | rfl
      · exact ((hdealt e he).advance hm a).append _
      · exact ⟨a.past hm (hmarked rfl), .inl (by simp)⟩
    | idle hnone => exact absurd hold (hnone _ _ _)

end InTurn

/-- Only an endpoint that there is has been counted. -/
theorem Run.has_of_counted (r : Run is m)
    (h : e ∈ (is.flatMap Incident.notes).flatMap Note.counts) : m.store.Has e := by
  by_contra hno
  have hnone : m.store.endpoints[e]? = none :=
    Option.eq_none_iff_forall_ne_some.mpr fun q hq => hno ⟨q, hq⟩
  obtain ⟨n, hn, he⟩ := List.mem_flatMap.mp h
  refine absurd (r.unborn hnone).2 (List.count_pos_iff.mpr ?_).ne'
  cases n with
  | counted e' =>
    obtain rfl := List.mem_singleton.mp he
    exact hn
  | _ => cases he

theorem Run.registered_concat (r : Run is m) (a : m.Advance i m') (l : LoopId) :
    m'.registered (is ++ [i]) l = m.registered is l
      ++ (i.notes.flatMap Note.counts).filter (m'.store.bound? · = some l) := by
  rw [registered, registered, List.flatMap_append, List.flatMap_singleton, List.flatMap_append,
    List.filter_append]
  congr 1
  refine List.filter_congr fun e he => ?_
  rw [a.grows.bound?_eq (r.has_of_counted he)]

/-- **In every history every worker deals with one registration after the other.** -/
theorem Run.inTurn (r : Run is m) (f : FactoryId) (w : Nat) :
    m.InTurn is ⟨f, .worker w⟩ ((begun is ⟨f, .worker w⟩).map Job.endpoint)
      (m.registered is ⟨f, .worker w⟩) := by
  refine r.induction (motive := fun is m =>
    m.InTurn is ⟨f, .worker w⟩ ((begun is ⟨f, .worker w⟩).map Job.endpoint)
      (m.registered is ⟨f, .worker w⟩)) ?_ ?_
  · refine .idle ?_ (List.Sublist.refl _) (by simp [begun])
    rintro t e x ⟨c, hc, -⟩
    cases hc
  · intro is m i m' r ih a
    rw [begun_concat, List.map_append, r.registered_concat a]
    exact ih.takesUp r a (r.takesUp a f w)

/-- A worker that is registering an endpoint has begun with it. -/
theorem InTurn.mem_begun {begun registered : List EndpointId} {x : Bool} (r : Run is m)
    (h : m.InTurn is l begun registered) (he : m.Registering l t e x) : e ∈ begun := by
  cases h with
  | busy he' hbegun =>
    obtain rfl := r.registering_sole he he'
    obtain ⟨rfl, -⟩ := he'.eq he
    simp [hbegun]
  | idle hnone => exact absurd he (hnone _ _ _)

/-- Who is about to count an endpoint is registering it. -/
theorem Reachable.registering_of_counting (hm : m.Reachable) (hl : m.store.bound? e = some l)
    (h : m.tokens e .counting ≠ 0) : ∃ t, m.Registering l t e true := by
  have hqueued : m.store.queued e .counting = 0 := by
    rw [Store.queued, count_cargo, if_neg (by decide)]
  rw [tokens, hqueued, Nat.add_zero] at h
  obtain ⟨t, c, hc, hpos⟩ := exists_of_total_pos (Nat.pos_of_ne_zero h)
  have hmem := List.count_pos_iff.mp hpos
  have hsound := hm.sound.2 t c hc
  obtain (_ | ⟨fr, below⟩) | o := c
  · cases hmem
  · refine ⟨t, _, hc, ?_, hl⟩
    obtain ⟨fr', hfr', hcargo⟩ := List.mem_flatMap.mp hmem
    obtain rfl := Frame.eq_of_counting hcargo
    -- nothing stands on a registration
    rcases List.mem_cons.mp hfr' with rfl | hbelow
    · rfl
    · exact absurd hbelow hsound.2.2.notMem_registration
  · cases hmem

/-- **A registered endpoint is one that its worker has begun with.** -/
theorem Run.mem_begun_of_registered {f : FactoryId} {w : Nat} (r : Run is m)
    (h : m.store.state? e = some .registered)
    (hl : m.store.bound? e = some ⟨f, .worker w⟩) :
    e ∈ (begun is ⟨f, .worker w⟩).map Job.endpoint := by
  by_cases hz : m.tokens e .counting = 0
  · have hcounted : counted is e = 1 := (r.inOrder e).counted_of_registered h hz
    refine (r.inTurn f w).sublist.subset (List.mem_filter.mpr ⟨?_, decide_eq_true hl⟩)
    refine List.mem_flatMap.mpr ⟨.counted e, List.count_pos_iff.mp ?_, List.mem_singleton_self e⟩
    exact hcounted.ge
  · obtain ⟨t, ht⟩ := r.reachable.registering_of_counting hl hz
    exact (r.inTurn f w).mem_begun r ht

end Machine

end EndpointControl
