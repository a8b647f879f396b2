import EndpointControl.Proofs.Handing

/-!
# What arrives at a worker

A boss has one errand at a time, so what it takes to a worker arrives in the order
in which it has begun the attempts: what has been appended to the queue of the
worker is the first part of that, and all of it while the worker goes on
(`Machine.Run.handsOver`). A worker that has been told to end gets nothing more, so
nothing is skipped in between.

A worker of a datagram factory is served by whoever makes a channel. If channels
are made one after the other, their endpoints arrive in the order in which they
have come about (`Machine.Run.handsOver_enrolled`), and also if nobody comes in
between whoever makes one, be it that others are held up in a wake meanwhile
(`Machine.Uninterrupted.handsOver_enrolled`). In any case each arrives once
(`Machine.Run.arrivesOnce`).
-/

namespace EndpointControl

/-! ## Who has an errand -/

/-- **Whose errand an endpoint is**: a stream endpoint is the errand of its boss, and a
datagram endpoint of whoever makes it. -/
structure Control.Charged (s : Store) (e : EndpointId) (c : Control) : Prop where
  client : ∀ l, s.bound? e = some l → s.flavor? e = some .client →
    (c.serving? ⟨l.factory, .boss⟩).isSome
  datagram : ∀ l, s.bound? e = some l → s.flavor? e = some .datagram →
    c.operation? = some (.create l.factory)

namespace Control.Charged

variable {s s' : Store} {t : ThreadId} {e : EndpointId} {c c' : Control}

theorem mono (h : c.Charged s e) (hs : s.Sound) (hg : s.Grows s') (he : s.Has e) :
    c.Charged s' e := by
  obtain ⟨r, hr⟩ := he
  have hbound := hg.bound?_eq ⟨r, hr⟩
  have hflavor := hs.flavor?_eq_of_some hg hr
  exact ⟨fun l hl hf => h.client l (hbound ▸ hl) (hflavor ▸ hf),
    fun l hl hf => h.datagram l (hbound ▸ hl) (hflavor ▸ hf)⟩

/-- Whoever goes on with what they were doing is charged with the same. -/
theorem keep (h : c.Charged s e) (hserving : ∀ l, c'.serving? l = c.serving? l)
    (hoperation : c'.operation? = c.operation?) : c'.Charged s e :=
  ⟨fun l hl hf => hserving _ ▸ h.client l hl hf,
    fun l hl hf => hoperation ▸ h.datagram l hl hf⟩

/-- **Whoever has an errand after a step** has had it, or it has been given to them. -/
theorem of_act {g : Store → Store} {ns : List Note} {x : Handing} (hs : s.Sound)
    (hc : c.Sound s) (hst : c.Stacked) (hmove : c.move s t = .act g c' ns)
    (h : ∀ x, c.errand? = some (e, x) → c.Charged s e) (he : c'.errand? = some (e, x)) :
    c'.Charged (g s) e := by
  have hg := grows_of_move hmove
  have hkeep {y : Handing} (hold : c.errand? = some (e, y)) : c'.Charged (g s) e := by
    obtain ⟨hserving, hoperation⟩ :=
      keeps_of_errand? hc hst hmove (by rw [hold]; rintro ⟨⟩) (by rw [he]; rintro ⟨⟩)
    exact ((h y hold).keep hserving hoperation).mono hs hg (hc.has_of_errand? hold)
  cases hands_of_act hc hmove with
  | aside herrand => exact hkeep (herrand ▸ he)
  | @departs l _ _ found _ hc' placed hserves =>
    obtain ⟨rfl, -⟩ := Prod.mk.inj (Option.some.inj (he.symm.trans hc'))
    obtain ⟨r, hr, rfl⟩ := placed
    refine mono ⟨fun l hl _ => ?_, fun l hl hf => ?_⟩ hs hg ⟨r, hr⟩
    · obtain rfl := Option.some.inj ((Store.bound?_eq_some_iff.mpr ⟨r, hr, rfl⟩).symm.trans hl)
      exact hserves
    · -- a factory with a boss makes no datagram endpoints
      have hclient := Store.flavor?_of_boss (Store.bound?_eq_some_iff.mpr ⟨r, hr, rfl⟩) found
      cases hf.symm.trans hclient
  | @comes f fac w n found hfl hc hc' hs' =>
    rw [hs', hc']
    rw [hc'] at he
    obtain ⟨rfl, -⟩ := Prod.mk.inj (Option.some.inj he)
    have hbound := s.bound?_enroll f w n
    refine ⟨fun l hl hf => ?_, fun l hl _ => ?_⟩
    · rw [Store.flavor?_of_bound? hbound, Store.enroll, found, Option.map_some, hfl] at hf
      cases hf
    · obtain rfl := Option.some.inj (hbound.symm.trans hl)
      rfl
  | enters hold hc' =>
    obtain ⟨rfl, -⟩ := Prod.mk.inj (Option.some.inj (he.symm.trans hc'))
    exact hkeep hold
  | refused _ hc' => cases he.symm.trans hc'
  | hands _ hc' => cases he.symm.trans hc'

end Control.Charged

namespace Machine

variable {m m' : Machine} {is : List Incident} {i : Incident} {l : LoopId} {t t' : ThreadId}
  {c c' : Control} {e e' : EndpointId} {x x' : Handing}

/-- **In every history whoever has an errand is charged with it.** -/
theorem Run.charged (r : Run is m) : ∀ {t c e x}, m.control? t = some c →
    c.errand? = some (e, x) → c.Charged m.store e := by
  refine r.induction (motive := fun _ m => ∀ {t c e x}, m.control? t = some c →
    c.errand? = some (e, x) → c.Charged m.store e) (fun hc => by cases hc) ?_
  intro is m i m' r ih a t d e x hd he
  obtain ⟨hs, hsound⟩ := r.reachable.sound
  cases a.places hd with
  | kept hd => exact (ih hd he).mono hs a.grows ((hsound t d hd).has_of_errand? he)
  | acted hc hmove hm =>
    subst hm
    exact .of_act hs (hsound _ _ hc) (r.traffic.stacked _ _ hc) hmove (fun x hold => ih hc hold) he
  | @answered c q after reply hc hmove hd' hm =>
    subst hm hd'
    have hold := (Control.errand?_of_ask reply hmove).symm.trans he
    rw [store_answer]
    obtain ⟨fr, fr', below, rfl, hsame, hafter⟩ := Control.goes_of_ask reply hmove
    refine (ih hc hold).keep (fun l => ?_) ?_
    · rcases (Control.serving?_of_ask reply hmove : _ = _ ∨ _) with heq | ⟨mux, r, rest, heq, -⟩
      · exact heq
      · -- a loop that waits has no errand
        obtain ⟨rfl, rfl⟩ := List.cons.inj (Control.running.inj heq)
        obtain rfl := (hsound _ _ hc).2.2.eq_nil rfl
        cases hold
    · rw [hafter, Control.operation?, Control.operation?, List.findSome?_cons,
        List.findSome?_cons, hsame.operation?]
  | @called _ o _ hd' => subst hd'; cases o <;> cases he
  | served _ _ _ hd' => subst hd'; cases he

/-- **A thread is to hand the endpoint to this worker.** -/
abbrev Errand (m : Machine) (l : LoopId) (t : ThreadId) (e : EndpointId) (x : Handing) : Prop :=
  Engagement.errand.At m l t e x

/-- **There is one errand to this worker at a time.** -/
def Sole (m : Machine) (l : LoopId) : Prop :=
  ∀ ⦃t t' e e' x x'⦄, m.Errand l t e x → m.Errand l t' e' x' → t = t'

/-- An endpoint with a worker of a factory has its flavor. -/
theorem Reachable.flavor?_of_bound? {fl : Flavor} (hm : m.Reachable)
    (hfl : ∀ fac, m.store.factories[l.factory]? = some fac → fac.flavor = fl)
    (hl : m.store.bound? e = some l) : m.store.flavor? e = some fl := by
  obtain ⟨r, hr, rfl⟩ := Store.bound?_eq_some_iff.mp hl
  obtain ⟨fac, hfac⟩ := hm.sound.1.factory hr
  rw [Store.flavor?_of_bound? hl, Option.map_eq_some_iff]
  exact ⟨fac, hfac, hfl fac hfac⟩

/-- **A worker of a stream factory is served by its boss alone.** -/
theorem Run.sole (r : Run is m)
    (hfl : ∀ fac, m.store.factories[l.factory]? = some fac → fac.flavor = .client) : m.Sole l := by
  rintro t t' e e' x x' ⟨c, hc, he, hl⟩ ⟨c', hc', he', hl'⟩
  have hboss := (r.charged hc he).client l hl (r.reachable.flavor?_of_bound? hfl hl)
  have hboss' := (r.charged hc' he').client l hl' (r.reachable.flavor?_of_bound? hfl hl')
  exact (r.traffic.serving hc hc' hboss hboss').1

/-! ## What arrives at a worker -/

/-- **What an incident is for the errands to a worker**: who sets out, and who arrives. -/
inductive Forwards (m m' : Machine) (l : LoopId) : List EndpointId → List EndpointId → Prop where
  /-- Nothing. -/
  | aside (hsame : ∀ t e x, m'.Errand l t e x ↔ m.Errand l t e x) : Forwards m m' l [] []
  /-- Somebody sets out. -/
  | sets {t : ThreadId} {e : EndpointId} (hfree : ∀ e x, ¬ m.Errand l t e x)
    (hnew : m'.Errand l t e .asking)
    (hothers : ∀ t' e x, t ≠ t' → (m'.Errand l t' e x ↔ m.Errand l t' e x)) :
    Forwards m m' l [e] []
  /-- Somebody finds that the worker has not been told to end. -/
  | enters {t : ThreadId} {e : EndpointId} (hold : m.Errand l t e .asking)
    (hnew : m'.Errand l t e .admitted)
    (hothers : ∀ t' e x, t ≠ t' → (m'.Errand l t' e x ↔ m.Errand l t' e x))
    (hup : ¬ m.store.ShutDown l) : Forwards m m' l [] []
  /-- Somebody finds that it has. -/
  | refused {t : ThreadId} {e : EndpointId} (hold : m.Errand l t e .asking)
    (hdone : ∀ e x, ¬ m'.Errand l t e x)
    (hothers : ∀ t' e x, t ≠ t' → (m'.Errand l t' e x ↔ m.Errand l t' e x))
    (told : m.store.ShutDown l) : Forwards m m' l [] []
  /-- Somebody arrives. -/
  | hands {t : ThreadId} {e : EndpointId} (hold : m.Errand l t e .admitted)
    (hdone : ∀ e x, ¬ m'.Errand l t e x)
    (hothers : ∀ t' e x, t ≠ t' → (m'.Errand l t' e x ↔ m.Errand l t' e x)) :
    Forwards m m' l [] [e]

/-- **How a worker is served**: which endpoints have set out for it, and whose
registrations have arrived, both in order. -/
inductive HandsOver (m : Machine) (l : LoopId) (out arrived : List EndpointId) : Prop where
  /-- Somebody is on the way to it, with the last that has set out. -/
  | underway {t : ThreadId} {e : EndpointId} {x : Handing} {before : List EndpointId}
    (he : m.Errand l t e x) (hout : out = before ++ [e]) (hfirst : arrived <+: before)
    (hall : x = .admitted ∨ ¬ m.store.ShutDown l → arrived = before)
  /-- Nobody is. -/
  | idle (hnone : ∀ t e x, ¬ m.Errand l t e x) (hfirst : arrived <+: out)
    (hall : ¬ m.store.ShutDown l → arrived = out)

namespace HandsOver

variable {out arrived out' arrived' : List EndpointId}

/-- What has arrived is the first part of what has set out. -/
theorem isPrefix (h : m.HandsOver l out arrived) : arrived <+: out := by
  cases h with
  | underway _ hout hfirst => exact hout ▸ hfirst.trans (List.prefix_append ..)
  | idle _ hfirst => exact hfirst

/-- **With one errand at a time, what sets out last arrives last**, or nothing arrives any
more. -/
theorem forwards (h : m.HandsOver l out arrived) (hg : m.store.Grows m'.store) (sole : m.Sole l)
    (sole' : m'.Sole l) (hstep : m.Forwards m' l out' arrived') :
    m'.HandsOver l (out ++ out') (arrived ++ arrived') := by
  have hdown (hup : ¬ m'.store.ShutDown l) : ¬ m.store.ShutDown l := mt hg.shutDown hup
  cases hstep with
  | aside hsame =>
    rw [List.append_nil, List.append_nil]
    cases h with
    | underway he hout hfirst hall =>
      exact .underway ((hsame ..).mpr he) hout hfirst fun hx => hall (hx.imp_right hdown)
    | idle hnone hfirst hall =>
      exact .idle (fun t e x he => hnone t e x ((hsame ..).mp he)) hfirst
        fun hup => hall (hdown hup)
  | @sets t e hfree hnew hothers =>
    rw [List.append_nil]
    cases h with
    | @underway t₀ _ _ _ he =>
      -- nobody else can be on the way
      have hne : t ≠ t₀ := by
        rintro rfl
        exact hfree _ _ he
      exact absurd (sole' hnew ((hothers _ _ _ hne).mpr he)) hne
    | idle hnone hfirst hall =>
      refine .underway hnew rfl hfirst fun hx => hall (hdown (hx.resolve_left ?_))
      rintro ⟨⟩
  | enters hold hnew _ hup =>
    rw [List.append_nil, List.append_nil]
    cases h with
    | underway he hout hfirst hall =>
      obtain rfl := sole hold he
      obtain ⟨rfl, rfl⟩ := he.eq hold
      exact .underway hnew hout hfirst fun _ => hall (.inr hup)
    | idle hnone => exact absurd hold (hnone _ _ _)
  | @refused t e hold hdone hothers told =>
    rw [List.append_nil, List.append_nil]
    refine .idle (fun t' e' x he' => ?_) h.isPrefix fun hup => absurd told (hdown hup)
    by_cases ht : t = t'
    · subst ht
      exact hdone _ _ he'
    · exact ht (sole hold ((hothers _ _ _ ht).mp he'))
  | @hands t e hold hdone hothers =>
    rw [List.append_nil]
    cases h with
    | underway he hout hfirst hall =>
      obtain rfl := sole hold he
      obtain ⟨rfl, rfl⟩ := he.eq hold
      have heq := hout.trans (congrArg (· ++ [_]) (hall (.inl rfl)).symm)
      refine .idle (fun t' e' x he' => ?_) (heq ▸ List.prefix_rfl) fun _ => heq.symm
      by_cases ht : t = t'
      · subst ht
        exact hdone _ _ he'
      · exact ht (sole hold ((hothers _ _ _ ht).mp he'))
    | idle hnone => exact absurd hold (hnone _ _ _)

end HandsOver

/-- **Every step of a thread is one of these for a worker.** -/
theorem Reachable.forwards_act (hm : m.Reachable) {g : Store → Store} {ns : List Note}
    (hc : m.control? t = some c) (hmove : c.move m.store t = .act g c' ns) (f : FactoryId)
    (w : Nat) : m.Forwards (m.act t g c') ⟨f, .worker w⟩ (c.setsOut ⟨f, .worker w⟩ (g m.store) c')
      ((ns.flatMap (Note.pushes ⟨f, .worker w⟩)).map Job.endpoint) := by
  generalize hl : (⟨f, .worker w⟩ : LoopId) = l
  have hg := Control.grows_of_move hmove
  have hothers (t' : ThreadId) (e : EndpointId) (x : Handing) (hne : t ≠ t') :
      (m.act t g c').Errand l t' e x ↔ m.Errand l t' e x := Engagement.at_act_iff_of_ne hm hmove hne
  -- a step that is about another worker
  have haway (h : Engagement.errand.Away m.store l c)
      (h' : Engagement.errand.Away (g m.store) l c') : m.Forwards (m.act t g c') l [] [] :=
    .aside fun _ _ _ => Engagement.at_act_iff_of_away hm hc hmove h h'
  -- somebody who had no errand has one
  have hsets {e : EndpointId} (hce : c.errand? = none) (hce' : c'.errand? = some (e, .asking)) :
      m.Forwards (m.act t g c') l (c.setsOut l (g m.store) c') [] := by
    have hnone : Engagement.errand.Away m.store l c := .of_none hce
    rw [Control.setsOut_of_none hce hce']
    split
    · rename_i hbound
      exact .sets (fun _ _ => hnone.not_at hc) ((Engagement.at_act_iff hc).mpr ⟨hce', hbound⟩)
        hothers
    · rename_i hbound
      refine haway hnone fun e x he => ?_
      obtain ⟨rfl, -⟩ := Prod.mk.inj (Option.some.inj (hce'.symm.trans he))
      exact hbound
  cases Control.hands_of_act (hm.sound.2 t c hc) hmove with
  | aside herrand hns =>
    rw [Control.setsOut_of_eq herrand, ← hl, (flatMap_of_not_hands hns f w).1]
    exact .aside fun _ _ _ => Engagement.at_act_iff_of_eq hm hc hmove herrand
  | departs _ hce hce' => exact hsets hce hce'
  | comes _ _ hce hce' => exact hsets (e := m.store.endpoints.size) (hce ▸ rfl) (hce' ▸ rfl)
  | @enters e l₀ hce hce' hbound hup =>
    rw [Control.setsOut_of_some hce]
    by_cases hl₀ : l₀ = l
    · subst hl₀
      exact .enters ((Engagement.at_iff hc).mpr ⟨hce, hbound⟩)
        (Engagement.at_act hc hmove hbound hce') hothers hup
    · exact haway (.of_ne hce hbound hl₀) (.of_ne hce' (hg.bound? hbound) hl₀)
  | @refused e l₀ hce hce' hbound told =>
    have hdone : Engagement.errand.Away (g m.store) l c' := .of_none hce'
    rw [Control.setsOut_of_some hce]
    by_cases hl₀ : l₀ = l
    · subst hl₀
      exact .refused ((Engagement.at_iff hc).mpr ⟨hce, hbound⟩) (fun _ _ => hdone.not_at_act hc)
        hothers told
    · exact haway (.of_ne hce hbound hl₀) hdone
  | @hands e l₀ hce hce' hbound =>
    have hdone : Engagement.errand.Away (g m.store) l c' := .of_none hce'
    rw [Control.setsOut_of_some hce, List.flatMap_singleton, Note.pushes]
    by_cases hl₀ : l₀ = l
    · subst hl₀
      rw [if_pos rfl]
      exact .hands ((Engagement.at_iff hc).mpr ⟨hce, hbound⟩) (fun _ _ => hdone.not_at_act hc)
        hothers
    · rw [if_neg hl₀]
      exact haway (.of_ne hce hbound hl₀) hdone

/-- **Every incident is one of these for a worker**, and who sets out for it is with whom
its boss begins, or who comes about. -/
theorem Run.forwards (r : Run is m) (a : m.Advance i m') (f : FactoryId) (w : Nat) :
    ∃ out, m.Forwards m' ⟨f, .worker w⟩ out
        ((i.notes.flatMap (Note.pushes ⟨f, .worker w⟩)).map Job.endpoint)
      ∧ ((∀ fac, m.store.factories[f]? = some fac → fac.flavor = .client) →
        out = ((i.notes.flatMap (Note.begins ⟨f, .boss⟩)).map Job.endpoint).filter
          (m'.store.bound? · = some ⟨f, .worker w⟩))
      ∧ ((∀ fac, m.store.factories[f]? = some fac → fac.flavor = .datagram) →
        m'.store.enrolled ⟨f, .worker w⟩ = m.store.enrolled ⟨f, .worker w⟩ ++ out) := by
  obtain ⟨hs, hsound⟩ := r.reachable.sound
  cases a with
  | act hc hmove =>
    exact ⟨_, r.reachable.forwards_act hc hmove f w,
      (hsound _ _ hc).setsOut_of_client hmove, (hsound _ _ hc).setsOut_of_datagram hs hmove⟩
  | answer hc hmove reply =>
    refine ⟨[], .aside fun t e x => ?_, fun _ => rfl, fun _ => ?_⟩
    · exact Engagement.at_iff_of_not_acted (.answer hc hmove reply) r.reachable (by simp)
    · rw [store_answer, List.append_nil]
  | call home o =>
    refine ⟨[], .aside fun t e x => ?_, fun _ => rfl, fun _ => (List.append_nil _).symm⟩
    exact Engagement.at_iff_of_not_acted (.call home o) r.reachable (by simp)
  | build b =>
    refine ⟨[], .aside fun t e x => ?_, fun _ => rfl, fun _ => (List.append_nil _).symm⟩
    exact Engagement.at_iff_of_not_acted (.build b) r.reachable (by simp)

/-- A factory has had its flavor from the beginning. -/
theorem Advance.flavor_back {f : FactoryId} {fl : Flavor} (a : m.Advance i m')
    (hfl : ∀ fac, m'.store.factories[f]? = some fac → fac.flavor = fl) :
    ∀ fac, m.store.factories[f]? = some fac → fac.flavor = fl := by
  intro fac hfac
  obtain ⟨fac', hfac', hgrows⟩ := a.grows.factory hfac
  rw [← hgrows.flavor]
  exact hfl fac' hfac'

/-- What a loop has begun had been appended to its queue. -/
theorem Traffic.mem_pushed_of_begun (h : Traffic is m) {j : Job} (hj : j ∈ begun is l) :
    j ∈ pushed is l := by
  rw [(h.delivers l).order]
  simp only [List.append_assoc]
  exact List.mem_append_left _ hj

/-- In the beginning nobody has set out and nothing has arrived. -/
theorem handsOver_empty (l : LoopId) : Machine.empty.HandsOver l [] [] := by
  refine .idle ?_ List.prefix_rfl fun _ => rfl
  rintro t e x ⟨c, hc, -⟩
  cases hc

/-- **The boss of a stream factory serves its workers in order**: what has arrived at one
is the first part of what the boss has begun for it, and all of it but for the last while
the worker goes on. -/
theorem Run.handsOver (r : Run is m) (f : FactoryId) (w : Nat)
    (hfl : ∀ fac, m.store.factories[f]? = some fac → fac.flavor = .client) :
    m.HandsOver ⟨f, .worker w⟩
      (((begun is ⟨f, .boss⟩).map Job.endpoint).filter
        (m.store.bound? · = some ⟨f, .worker w⟩))
      ((pushed is ⟨f, .worker w⟩).map Job.endpoint) := by
  revert hfl
  refine r.induction (motive := fun is m =>
    (∀ fac, m.store.factories[f]? = some fac → fac.flavor = .client) → m.HandsOver ⟨f, .worker w⟩
      (((begun is ⟨f, .boss⟩).map Job.endpoint).filter
        (m.store.bound? · = some ⟨f, .worker w⟩))
      ((pushed is ⟨f, .worker w⟩).map Job.endpoint)) (fun _ => handsOver_empty _) ?_
  intro is m i m' r ih a hfl
  have hfl₀ := a.flavor_back hfl
  obtain ⟨out, hstep, hclient, -⟩ := r.forwards a f w
  have h := (ih hfl₀).forwards a.grows (r.sole hfl₀) ((a.run r).sole hfl) hstep
  -- the endpoints that the boss has begun with have their workers already
  have hsame : ((begun is ⟨f, .boss⟩).map Job.endpoint).filter
      (m'.store.bound? · = some ⟨f, .worker w⟩)
      = ((begun is ⟨f, .boss⟩).map Job.endpoint).filter
        (m.store.bound? · = some ⟨f, .worker w⟩) := by
    refine List.filter_congr fun e he => ?_
    obtain ⟨j, hj, rfl⟩ := List.mem_map.mp he
    rw [a.grows.bound?_eq (r.placed_of_pushed (r.traffic.mem_pushed_of_begun hj)).1.has]
  rw [begun_concat, List.map_append, List.filter_append, pushed_concat, List.map_append, hsame,
    ← hclient hfl₀]
  exact h

/-! ## Datagram endpoints -/

/-- **Channels of the factory have been made one after the other**: at no time have two
threads been making one. -/
def CreatesInTurn (f : FactoryId) (is : List Incident) : Prop :=
  ∀ ⦃is₁ m₁⦄, is₁ <+: is → Run is₁ m₁ → ∀ ⦃t t' c c'⦄, m₁.control? t = some c →
    m₁.control? t' = some c' → c.operation? = some (.create f) →
    c'.operation? = some (.create f) → t = t'

theorem CreatesInTurn.sole {f : FactoryId} {w : Nat} (h : CreatesInTurn f is) (r : Run is m)
    (hfl : ∀ fac, m.store.factories[f]? = some fac → fac.flavor = .datagram) :
    m.Sole ⟨f, .worker w⟩ := by
  rintro t t' e e' x x' ⟨c, hc, he, hl⟩ ⟨c', hc', he', hl'⟩
  exact h List.prefix_rfl r hc hc'
    ((r.charged hc he).datagram _ hl (r.reachable.flavor?_of_bound? hfl hl))
    ((r.charged hc' he').datagram _ hl' (r.reachable.flavor?_of_bound? hfl hl'))

/-- **If nobody comes in between, there is one errand to a worker at a time**, as all rest but
the thread that has it. -/
theorem Uninterrupted.sole (r : Uninterrupted is m) (l : LoopId) : m.Sole l := by
  induction r with
  | empty =>
    rintro t t' e e' x x' ⟨c, hc, -⟩
    cases hc
  | @advance is m m' i r a alone ih =>
    by_cases hi : ∃ u ns, i = .stepped u (.acted ns)
    · obtain ⟨u, ns, rfl⟩ := hi
      cases a with
      | @act _ c c' g _ hc hmove =>
        -- whoever has an errand and does not move has had it, but rests
        have hself {t : ThreadId} {e : EndpointId} {x : Handing}
            (he : (m.act u g c').Errand l t e x) : u = t := by
          by_contra hne
          obtain ⟨d, hd, hde, -⟩ :=
            (Engagement.at_act_iff_of_ne r.run.reachable hmove hne).mp he
          have hresting := (alone u _ rfl).isResting (Ne.symm hne) hd
          cases hde.symm.trans
            (Control.errand?_of_resting (r.run.reachable.sound.2 t d hd) hresting)
        exact fun t t' e e' x x' he he' => (hself he).symm.trans (hself he')
    · have hsame (t : ThreadId) (e : EndpointId) (x : Handing) :
          m'.Errand l t e x ↔ m.Errand l t e x :=
        Engagement.at_iff_of_not_acted a r.run.reachable fun u ns h => hi ⟨u, ns, h⟩
      exact fun t t' e e' x x' he he' => ih ((hsame t e x).mp he) ((hsame t' e' x').mp he')

/-- **After one more thing the endpoints arrive in the order in which they have come about**, if
there is one errand to their worker at a time. -/
theorem HandsOver.enrolled {f : FactoryId} {w : Nat}
    (h : m.HandsOver ⟨f, .worker w⟩ (m.store.enrolled ⟨f, .worker w⟩)
      ((pushed is ⟨f, .worker w⟩).map Job.endpoint)) (r : Run is m) (a : m.Advance i m')
    (hfl : ∀ fac, m.store.factories[f]? = some fac → fac.flavor = .datagram)
    (hsole : m.Sole ⟨f, .worker w⟩) (hsole' : m'.Sole ⟨f, .worker w⟩) :
    m'.HandsOver ⟨f, .worker w⟩ (m'.store.enrolled ⟨f, .worker w⟩)
      ((pushed (is ++ [i]) ⟨f, .worker w⟩).map Job.endpoint) := by
  obtain ⟨out, hstep, -, hdatagram⟩ := r.forwards a f w
  rw [hdatagram hfl, pushed_concat, List.map_append]
  exact h.forwards a.grows hsole hsole' hstep

/-- **Datagram endpoints that are made one after the other** arrive in this order, -/
theorem Run.handsOver_enrolled (r : Run is m) (f : FactoryId) (w : Nat)
    (hfl : ∀ fac, m.store.factories[f]? = some fac → fac.flavor = .datagram)
    (hturn : CreatesInTurn f is) :
    m.HandsOver ⟨f, .worker w⟩ (m.store.enrolled ⟨f, .worker w⟩)
      ((pushed is ⟨f, .worker w⟩).map Job.endpoint) := by
  revert hfl hturn
  refine r.induction (motive := fun is m =>
    (∀ fac, m.store.factories[f]? = some fac → fac.flavor = .datagram) → CreatesInTurn f is →
    m.HandsOver ⟨f, .worker w⟩ (m.store.enrolled ⟨f, .worker w⟩)
      ((pushed is ⟨f, .worker w⟩).map Job.endpoint)) (fun _ _ => handsOver_empty _) ?_
  intro is m i m' r ih a hfl hturn
  have hfl₀ := a.flavor_back hfl
  have hturn₀ : CreatesInTurn f is := fun is₁ m₁ h =>
    hturn (h.trans (List.prefix_append ..))
  exact (ih hfl₀ hturn₀).enrolled r a hfl₀ (hturn₀.sole r hfl₀) (hturn.sole (a.run r) hfl)

/-- and so do those that are made with nobody coming in between, be others held up in a wake
meanwhile. -/
theorem Uninterrupted.handsOver_enrolled (r : Uninterrupted is m) (f : FactoryId) (w : Nat)
    (hfl : ∀ fac, m.store.factories[f]? = some fac → fac.flavor = .datagram) :
    m.HandsOver ⟨f, .worker w⟩ (m.store.enrolled ⟨f, .worker w⟩)
      ((pushed is ⟨f, .worker w⟩).map Job.endpoint) := by
  induction r with
  | empty => exact handsOver_empty _
  | @advance is m m' i r a alone ih =>
    have hfl₀ := a.flavor_back hfl
    exact (ih hfl₀).enrolled r.run a hfl₀ (r.sole _) ((r.advance a alone).sole _)

/-- **Each registration is on its way once**, and not any more when it has arrived. -/
structure ArrivesOnce (m : Machine) (l : LoopId) (arrived : List EndpointId) : Prop where
  nodup : arrived.Nodup
  once : ∀ ⦃t t' e x x'⦄, m.Errand l t e x → m.Errand l t' e x' → t = t'
  away : ∀ ⦃t e x⦄, m.Errand l t e x → e ∉ arrived

theorem ArrivesOnce.forwards {out arrived arrived' : List EndpointId} (h : m.ArrivesOnce l arrived)
    (hstep : m.Forwards m' l out arrived')
    (hfresh : ∀ e ∈ out, e ∉ arrived ∧ ∀ t x, ¬ m.Errand l t e x) :
    m'.ArrivesOnce l (arrived ++ arrived') := by
  -- the thread that moves has one errand, or none, and the others have theirs
  have hcongr {t₀ : ThreadId} {arrived' : List EndpointId} (hnodup : (arrived ++ arrived').Nodup)
      (hothers : ∀ t' e x, t₀ ≠ t' → (m'.Errand l t' e x ↔ m.Errand l t' e x))
      (hself : ∀ e x, m'.Errand l t₀ e x →
        e ∉ arrived ++ arrived' ∧ ∀ t' x', t₀ ≠ t' → ¬ m.Errand l t' e x')
      (haway : ∀ t' e x, t₀ ≠ t' → m.Errand l t' e x → e ∉ arrived') :
      m'.ArrivesOnce l (arrived ++ arrived') := by
    refine ⟨hnodup, fun t t' e x x' he he' => ?_, fun t e x he => ?_⟩
    · by_cases ht : t₀ = t
      · by_contra hne
        subst ht
        exact (hself e x he).2 t' x' hne ((hothers _ _ _ hne).mp he')
      · by_cases ht' : t₀ = t'
        · subst ht'
          exact absurd ((hothers _ _ _ ht).mp he) ((hself e x' he').2 t x ht)
        · exact h.once ((hothers _ _ _ ht).mp he) ((hothers _ _ _ ht').mp he')
    · by_cases ht : t₀ = t
      · exact (hself e x (ht ▸ he)).1
      · have hold := (hothers _ _ _ ht).mp he
        rw [List.mem_append, not_or]
        exact ⟨h.away hold, haway t e x ht hold⟩
  cases hstep with
  | aside hsame =>
    rw [List.append_nil]
    exact ⟨h.nodup, fun t t' e x x' he he' => h.once ((hsame ..).mp he) ((hsame ..).mp he'),
      fun t e x he => h.away ((hsame ..).mp he)⟩
  | @sets t e hfree hnew hothers =>
    obtain ⟨hnotMem, hnobody⟩ := hfresh e (List.mem_singleton.mpr rfl)
    refine hcongr (by rw [List.append_nil]; exact h.nodup) hothers (fun e' x he => ?_) (by simp)
    obtain ⟨rfl, -⟩ := he.eq hnew
    exact ⟨by rwa [List.append_nil], fun t' x' _ => hnobody t' x'⟩
  | @enters t e hold hnew hothers =>
    refine hcongr (by rw [List.append_nil]; exact h.nodup) hothers (fun e' x he => ?_) (by simp)
    obtain ⟨rfl, -⟩ := he.eq hnew
    exact ⟨by rw [List.append_nil]; exact h.away hold,
      fun t' x' hne he' => hne (h.once hold he')⟩
  | @refused t e hold hdone hothers =>
    exact hcongr (by rw [List.append_nil]; exact h.nodup) hothers
      (fun e' x he => absurd he (hdone e' x)) (by simp)
  | @hands t e hold hdone hothers =>
    refine hcongr ?_ hothers (fun e' x he => absurd he (hdone e' x)) fun t' e' x hne he => ?_
    · rw [← List.concat_eq_append]
      exact h.nodup.concat (h.away hold)
    · rw [List.mem_singleton]
      rintro rfl
      exact hne (h.once hold he)

/-- What has arrived at a worker is bound to it. -/
theorem Run.bound?_of_pushed (r : Run is m) {f : FactoryId} {w : Nat} {j : Job}
    (hj : j ∈ pushed is ⟨f, .worker w⟩) :
    m.store.bound? j.endpoint = some ⟨f, .worker w⟩ := by
  have hplaced := (r.placed_of_pushed hj).1
  cases j with
  | attempt e b =>
    obtain ⟨q, -, hq⟩ := hplaced
    cases hq
  | registration e => exact Store.bound?_eq_some_iff.mpr hplaced

/-- **No registration of a datagram endpoint arrives twice.** -/
theorem Run.arrivesOnce (r : Run is m) (f : FactoryId) (w : Nat)
    (hfl : ∀ fac, m.store.factories[f]? = some fac → fac.flavor = .datagram) :
    m.ArrivesOnce ⟨f, .worker w⟩ ((pushed is ⟨f, .worker w⟩).map Job.endpoint) := by
  revert hfl
  refine r.induction (motive := fun is m =>
    (∀ fac, m.store.factories[f]? = some fac → fac.flavor = .datagram) →
    m.ArrivesOnce ⟨f, .worker w⟩ ((pushed is ⟨f, .worker w⟩).map Job.endpoint)) (fun _ => ?_) ?_
  · refine ⟨List.nodup_nil, ?_, fun _ _ _ _ => List.not_mem_nil⟩
    rintro t t' e x x' ⟨c, hc, -⟩
    cases hc
  · intro is m i m' r ih a hfl
    have hfl₀ := a.flavor_back hfl
    obtain ⟨out, hstep, -, hdatagram⟩ := r.forwards a f w
    rw [pushed_concat, List.map_append]
    refine (ih hfl₀).forwards hstep fun e he => ?_
    -- what comes about was not there before
    have hnotMem : e ∉ m.store.enrolled ⟨f, .worker w⟩ := by
      have hnodup : (m'.store.enrolled ⟨f, .worker w⟩).Nodup := List.nodup_range.filter _
      rw [hdatagram hfl₀, List.nodup_append] at hnodup
      exact fun hmem => hnodup.2.2 e hmem e he rfl
    rw [Store.mem_enrolled_iff] at hnotMem
    refine ⟨fun hmem => ?_, fun t x herrand => ?_⟩
    · obtain ⟨j, hj, rfl⟩ := List.mem_map.mp hmem
      exact hnotMem (r.bound?_of_pushed hj)
    · obtain ⟨c, -, -, hbound⟩ := herrand
      exact hnotMem hbound

end Machine

end EndpointControl
