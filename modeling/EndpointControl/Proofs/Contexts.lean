import EndpointControl.Context
import EndpointControl.Proofs.Levels
import EndpointControl.Proofs.Successive

/-!
# One context for each factory

When a factory is built it gives its provider and its level to its boss and to each of its
workers, and an endpoint has those of the worker that it is bound to. So the pair is kept in
many places. None of them is ever changed, whatever else is built, refused or released, so
they agree for good: whatever belongs to a factory stands in the context in which the factory
was built (`Machine.Run.context?_eq`). Copies of a factory are handles of one and the same
factory, and descriptions of factories are values that a factory has no part in once it is
built; neither can make a difference.

So two things share their context exactly if their factories were built with one provider
instance and at one level. That two providers describe themselves alike does not suffice.
-/

namespace EndpointControl

/-! ## Factories and their blueprints -/

/-- **The context in which a factory is built.** -/
def Blueprint.context (b : Blueprint) : Context := ⟨b.terms.provider, b.terms.level⟩

/-- **The factory has such a seat**: there is a boss if it makes stream endpoints, and so many
workers. -/
def Blueprint.hasSeat (b : Blueprint) : Seat → Bool
  | .boss => b.staffing.flavor = .client
  | .worker i => i < b.terms.workerCount

namespace Factory

/-- **The factory works in the context of the blueprint**, and so do all its loops. -/
structure WorksIn (fac : Factory) (b : Blueprint) : Prop where
  terms : fac.terms = b.terms
  loop : ∀ st, (fac.loop? st).map Loop.context = if b.hasSeat st then some b.context else none

theorem worksIn_ofBlueprint (b : Blueprint) : (ofBlueprint b).WorksIn b where
  terms := rfl
  loop st := by
    obtain ⟨staffing, terms⟩ := b
    cases st with
    | boss => cases staffing <;> rfl
    | worker i =>
      by_cases hi : i < terms.workerCount
      · simp [ofBlueprint, loop?, Blueprint.hasSeat, hi, Loop.idle, Loop.context,
          Blueprint.context]
      · simp [ofBlueprint, loop?, Blueprint.hasSeat, hi]

/-- **A loop never changes its context**, and no loop comes or goes. -/
theorem Grows.map_context {fac fac' : Factory} (h : fac.Grows fac') (st : Seat) :
    (fac'.loop? st).map Loop.context = (fac.loop? st).map Loop.context := by
  cases hl : fac'.loop? st with
  | none =>
    cases hl' : fac.loop? st with
    | none => rfl
    | some l =>
      obtain ⟨l', heq, -⟩ := h.loop hl'
      cases hl.symm.trans heq
  | some l' =>
    obtain ⟨l, heq, hg⟩ := h.loop_back hl
    rw [heq, Option.map_some, Option.map_some, Loop.context, Loop.context, hg.provider, hg.level]

theorem WorksIn.mono {fac fac' : Factory} {b : Blueprint} (h : fac.WorksIn b)
    (hg : fac.Grows fac') : fac'.WorksIn b where
  terms := hg.terms.trans h.terms
  loop st := (hg.map_context st).trans (h.loop st)

theorem WorksIn.context_eq {fac : Factory} {b : Blueprint} (h : fac.WorksIn b) {st : Seat}
    {l : Loop} (hl : fac.loop? st = some l) : l.context = b.context := by
  have hst := h.loop st
  rw [hl, Option.map_some] at hst
  split at hst
  · exact Option.some.inj hst
  · cases hst

end Factory

/-! ## What belongs to a factory -/

namespace Store

/-- **The factory that a thing belongs to**, if there is such a thing. -/
def owner? (s : Store) : Entity → Option FactoryId
  | .factory f => s.factories[f]?.map fun _ => f
  | .loop l => (s.loop? l).map fun _ => l.factory
  | .endpoint e => s.endpoints[e]?.map (·.factory)

/-- **The two things are there and share their context.** -/
def Shares (s : Store) (x y : Entity) : Prop :=
  ∃ c d, s.context? x = some c ∧ s.context? y = some d ∧ c.shares d = true

theorem shares_iff {s : Store} {x y : Entity} : s.Shares x y
    ↔ ((s.context? x).bind fun c => (s.context? y).map c.shares) = some true := by
  simp only [Shares, Option.bind_eq_some_iff, Option.map_eq_some_iff]
  exact ⟨fun ⟨c, d, hc, hd, h⟩ => ⟨c, hc, d, hd, h⟩, fun ⟨c, hc, d, hd, h⟩ => ⟨c, d, hc, hd, h⟩⟩

instance (s : Store) (x y : Entity) : Decidable (s.Shares x y) :=
  decidable_of_iff _ shares_iff.symm

/-- What is there belongs to the same factory for good. -/
theorem Grows.owner? {s s' : Store} (h : s.Grows s') {x : Entity} {f : FactoryId}
    (hx : s.owner? x = some f) : s'.owner? x = some f := by
  cases x with
  | factory g =>
    obtain ⟨fac, hfac, rfl⟩ := Option.map_eq_some_iff.mp hx
    obtain ⟨fac', hfac', -⟩ := h.factory hfac
    exact Option.map_eq_some_iff.mpr ⟨fac', hfac', rfl⟩
  | loop l =>
    obtain ⟨lp, hlp, rfl⟩ := Option.map_eq_some_iff.mp hx
    obtain ⟨lp', hlp', -⟩ := h.loop hlp
    exact Option.map_eq_some_iff.mpr ⟨lp', hlp', rfl⟩
  | endpoint e =>
    obtain ⟨r, hr, rfl⟩ := Option.map_eq_some_iff.mp hx
    obtain ⟨st, hr'⟩ := h.endpoint hr
    exact Option.map_eq_some_iff.mpr ⟨_, hr', rfl⟩

end Store

theorem Context.shares_iff {c d : Context} :
    c.shares d = true ↔ c.provider.key = d.provider.key ∧ c.level = d.level := by
  simp [Context.shares, Provider.same]

namespace Machine

variable {m m' : Machine} {is js : List Incident} {i : Incident} {f : FactoryId} {b : Blueprint}
  {x y : Entity} {c d : Context}

/-- **In every history each factory works in the context in which it was built.** -/
theorem Run.worksIn (r : Run is m) : (blueprints is)[f]? = some b →
    ∃ fac, m.store.factories[f]? = some fac ∧ fac.WorksIn b := by
  refine r.induction (motive := fun is m => (blueprints is)[f]? = some b →
    ∃ fac, m.store.factories[f]? = some fac ∧ fac.WorksIn b) nofun ?_
  intro is m i m' r ih a hb
  rw [blueprints_concat] at hb
  by_cases hf : f < (blueprints is).length
  · -- what has been built before only grows
    rw [List.getElem?_append_left hf] at hb
    obtain ⟨fac, hfac, hworks⟩ := ih hb
    obtain ⟨fac', hfac', hg⟩ := a.grows.factory hfac
    exact ⟨fac', hfac', hworks.mono hg⟩
  · rw [List.getElem?_append_right (Nat.le_of_not_lt hf)] at hb
    cases a with
    | build b' =>
      -- and what is built now is the next
      change [b'][_]? = some b at hb
      rw [List.getElem?_singleton] at hb
      split at hb
      · rename_i hzero
        obtain rfl := Option.some.inj hb
        have hlast : f = m.store.factories.size := by
          rw [r.size_factories]
          exact Nat.le_antisymm (Nat.sub_eq_zero_iff_le.mp hzero) (Nat.le_of_not_lt hf)
        exact ⟨_, by rw [hlast]; exact Array.getElem?_push_size, Factory.worksIn_ofBlueprint b'⟩
      · cases hb
    | act | answer | call => cases hb

/-- Every factory has been built. -/
theorem Run.exists_blueprint (r : Run is m) {fac : Factory}
    (hfac : m.store.factories[f]? = some fac) :
    ∃ b, (blueprints is)[f]? = some b ∧ fac.WorksIn b := by
  have hlt : f < (blueprints is).length := by
    rw [← r.size_factories]
    exact (Array.getElem?_eq_some_iff.mp hfac).1
  obtain ⟨fac', hfac', hworks⟩ := r.worksIn (List.getElem?_eq_getElem hlt)
  obtain rfl := Option.some.inj (hfac.symm.trans hfac')
  exact ⟨_, List.getElem?_eq_getElem hlt, hworks⟩

theorem Run.context_of_loop (r : Run is m) {l : LoopId} {lp : Loop}
    (hlp : m.store.loop? l = some lp) :
    ∃ b, (blueprints is)[l.factory]? = some b ∧ lp.context = b.context := by
  obtain ⟨fac, hfac, hlp⟩ := Option.bind_eq_some_iff.mp hlp
  obtain ⟨b, hb, hworks⟩ := r.exists_blueprint hfac
  exact ⟨b, hb, hworks.context_eq hlp⟩

/-- **Whatever belongs to a factory stands in the context in which the factory was built.** -/
theorem Run.context?_eq (r : Run is m) (x : Entity) : m.store.context? x
    = (m.store.owner? x).bind fun f => (blueprints is)[f]?.map Blueprint.context := by
  cases x with
  | factory f =>
    rw [Store.context?, Store.owner?]
    cases hfac : m.store.factories[f]? with
    | none => rfl
    | some fac =>
      obtain ⟨b, hb, hworks⟩ := r.exists_blueprint hfac
      rw [Option.map_some, Option.map_some, Option.bind_some, hb, Option.map_some, hworks.terms]
      rfl
  | loop l =>
    rw [Store.context?, Store.owner?]
    cases hlp : m.store.loop? l with
    | none => rfl
    | some lp =>
      obtain ⟨b, hb, hcontext⟩ := r.context_of_loop hlp
      rw [Option.map_some, Option.map_some, Option.bind_some, hb, Option.map_some, hcontext]
  | endpoint e =>
    rw [Store.context?, Store.owner?]
    cases hr : m.store.endpoints[e]? with
    | none => rfl
    | some q =>
      -- the worker that it is bound to is there
      obtain ⟨lp, hlp, -⟩ := r.reachable.sound.1.bound hr
      obtain ⟨b, hb, hcontext⟩ := r.context_of_loop hlp
      rw [Option.bind_some, hlp, Option.map_some, Option.map_some, Option.bind_some, hcontext]
      exact (congrArg (Option.map Blueprint.context) hb).symm

theorem Run.exists_context (r : Run is m) (hx : m.store.owner? x = some f) :
    ∃ b, (blueprints is)[f]? = some b ∧ m.store.context? x = some b.context := by
  obtain ⟨fac, hfac⟩ : ∃ fac, m.store.factories[f]? = some fac := by
    cases x with
    | factory g =>
      obtain ⟨fac, hfac, rfl⟩ := Option.map_eq_some_iff.mp hx
      exact ⟨fac, hfac⟩
    | loop l =>
      obtain ⟨lp, hlp, rfl⟩ := Option.map_eq_some_iff.mp hx
      obtain ⟨fac, hfac, -⟩ := Option.bind_eq_some_iff.mp hlp
      exact ⟨fac, hfac⟩
    | endpoint e =>
      obtain ⟨q, hq, rfl⟩ := Option.map_eq_some_iff.mp hx
      exact r.reachable.sound.1.factory hq
  obtain ⟨b, hb, -⟩ := r.exists_blueprint hfac
  exact ⟨b, hb, by rw [r.context?_eq, hx, Option.bind_some, hb, Option.map_some]⟩

/-- **Two things share their context** exactly if those of their factories are shared. -/
theorem Run.shares_iff (r : Run is m) {g : FactoryId} {b' : Blueprint}
    (hx : m.store.owner? x = some f) (hy : m.store.owner? y = some g)
    (hb : (blueprints is)[f]? = some b) (hb' : (blueprints is)[g]? = some b') :
    m.store.Shares x y
      ↔ b.terms.provider.key = b'.terms.provider.key ∧ b.terms.level = b'.terms.level := by
  obtain ⟨_, heq, hc⟩ := r.exists_context hx
  obtain rfl := Option.some.inj (hb.symm.trans heq)
  obtain ⟨_, heq, hd⟩ := r.exists_context hy
  obtain rfl := Option.some.inj (hb'.symm.trans heq)
  constructor
  · rintro ⟨c, d, hc', hd', hshares⟩
    obtain rfl := Option.some.inj (hc.symm.trans hc')
    obtain rfl := Option.some.inj (hd.symm.trans hd')
    exact Context.shares_iff.mp hshares
  · intro h
    exact ⟨_, _, hc, hd, Context.shares_iff.mpr h⟩

/-- **Each factory has one context**, which all that belongs to it stands in. -/
structure OneContext (m : Machine) (is : List Incident) : Prop where
  /-- Whatever there is stands in the context in which the factory that it belongs to was
  built: the same provider instance, and the same level. -/
  built : ∀ x, m.store.context? x
    = (m.store.owner? x).bind fun f => (blueprints is)[f]?.map Blueprint.context
  /-- Every factory that was built is there, with its boss and its workers. -/
  staff : ∀ f b, (blueprints is)[f]? = some b → m.store.owner? (.factory f) = some f
    ∧ ∀ st, m.store.owner? (.loop ⟨f, st⟩) = if b.hasSeat st then some f else none
  /-- Two things share their context exactly if their factories were built with one provider
  instance and at one level. -/
  shared : ∀ {x y f g b b'}, m.store.owner? x = some f → m.store.owner? y = some g →
    (blueprints is)[f]? = some b → (blueprints is)[g]? = some b' →
    (m.store.Shares x y
      ↔ b.terms.provider.key = b'.terms.provider.key ∧ b.terms.level = b'.terms.level)
  /-- So sharing a context divides all there is into classes, -/
  equivalence : Equivalence fun x y : { x : Entity // (m.store.owner? x).isSome } =>
    m.store.Shares x y
  /-- and does not divide a factory. -/
  whole : ∀ {x y f}, m.store.owner? x = some f → m.store.owner? y = some f → m.store.Shares x y
  /-- Whatever happens later, everything keeps its factory and its context. -/
  kept : ∀ {js m'}, m.Leads js m' → ∀ {x f}, m.store.owner? x = some f →
    m'.store.owner? x = some f ∧ m'.store.context? x = m.store.context? x

/-- **In every history each factory has one context.** -/
theorem Run.oneContext (r : Run is m) : m.OneContext is where
  built := r.context?_eq
  staff f b hb := by
    obtain ⟨fac, hfac, hworks⟩ := r.worksIn hb
    refine ⟨by rw [Store.owner?, hfac, Option.map_some], fun st => ?_⟩
    have hst := hworks.loop st
    have hloop : m.store.loop? ⟨f, st⟩ = fac.loop? st := by
      rw [Store.loop?, hfac, Option.bind_some]
    rw [Store.owner?, hloop]
    cases hl : fac.loop? st with
    | none =>
      rw [hl] at hst
      split at hst
      · cases hst
      · rename_i hseat
        rw [if_neg hseat, Option.map_none]
    | some l =>
      rw [hl] at hst
      split at hst
      · rename_i hseat
        rw [if_pos hseat, Option.map_some]
      · cases hst
  shared hx hy hb hb' := r.shares_iff hx hy hb hb'
  equivalence := by
    have hblueprint (x : { x : Entity // (m.store.owner? x).isSome }) :
        ∃ f b, m.store.owner? x = some f ∧ (blueprints is)[f]? = some b := by
      obtain ⟨f, hf⟩ := Option.isSome_iff_exists.mp x.2
      obtain ⟨b, hb, -⟩ := r.exists_context hf
      exact ⟨f, b, hf, hb⟩
    refine ⟨fun x => ?refl, fun {x y} h => ?symm, fun {x y z} h h' => ?trans⟩
    case refl =>
      obtain ⟨f, b, hf, hb⟩ := hblueprint x
      exact (r.shares_iff hf hf hb hb).mpr ⟨rfl, rfl⟩
    case symm =>
      obtain ⟨f, b, hf, hb⟩ := hblueprint x
      obtain ⟨g, b', hg, hb'⟩ := hblueprint y
      obtain ⟨hkey, hlevel⟩ := (r.shares_iff hf hg hb hb').mp h
      exact (r.shares_iff hg hf hb' hb).mpr ⟨hkey.symm, hlevel.symm⟩
    case trans =>
      obtain ⟨f, b, hf, hb⟩ := hblueprint x
      obtain ⟨g, b', hg, hb'⟩ := hblueprint y
      obtain ⟨k, b'', hk, hb''⟩ := hblueprint z
      obtain ⟨hkey, hlevel⟩ := (r.shares_iff hf hg hb hb').mp h
      obtain ⟨hkey', hlevel'⟩ := (r.shares_iff hg hk hb' hb'').mp h'
      exact (r.shares_iff hf hk hb hb'').mpr ⟨hkey.trans hkey', hlevel.trans hlevel'⟩
  whole hx hy := by
    obtain ⟨b, hb, -⟩ := r.exists_context hx
    exact (r.shares_iff hx hy hb hb).mpr ⟨rfl, rfl⟩
  kept {js m'} h x f hx := by
    have hx' := h.grows.owner? hx
    obtain ⟨b, hb, hcontext⟩ := r.exists_context hx
    obtain ⟨b', hb', hcontext'⟩ := (r.leads h).exists_context hx'
    refine ⟨hx', ?_⟩
    -- the blueprint is the one in the history so far
    have hlt := (List.getElem?_eq_some_iff.mp hb).1
    rw [blueprints, List.flatMap_append, ← blueprints, List.getElem?_append_left hlt, hb] at hb'
    obtain rfl := Option.some.inj hb'
    rw [hcontext, hcontext']

end Machine

/-- Four factories. The second has a provider that looks like that of the first but is another,
the third has the provider and the level of the first, and the last, which is built when the
first has been released, has its provider but not its level. -/
def Succession.lookalikes : Succession :=
  let terms (key : Nat) (level : Level) : Terms := ⟨1, Nat.one_pos, ⟨key, ⟨"fake", none⟩⟩, level⟩
  let built := ((empty.build ⟨.client 0 1, terms 0 .careful⟩).build
    ⟨.datagram 1, terms 1 .careful⟩).build ⟨.datagram 1, terms 0 .careful⟩
  let made := (((built.call (.create 0)).turn 0 40).call (.create 2)).turn 2 40
  ((made.call (.release 0)).turn 4 60).build ⟨.client 0 1, terms 0 .unconstrained⟩

/-- Endpoints of the first and the third share their context, and nothing else does. -/
theorem oneContext_lookalikes :
    let m := Succession.lookalikes.machine
    m.OneContext Succession.lookalikes.incidents
      ∧ m.control? 4 = some (.finished .released)
      ∧ m.store.owner? (.endpoint 0) = some 0 ∧ m.store.owner? (.endpoint 1) = some 2
      ∧ m.store.Shares (.endpoint 0) (.endpoint 1)
      ∧ m.store.Shares (.loop ⟨0, .boss⟩) (.loop ⟨2, .worker 0⟩)
      ∧ ¬ m.store.Shares (.endpoint 0) (.factory 1)
      ∧ ¬ m.store.Shares (.endpoint 0) (.loop ⟨3, .boss⟩) := by
  intro m
  exact ⟨Succession.lookalikes.successive.run.oneContext, by decide +kernel, by decide +kernel,
    by decide +kernel, by decide +kernel, by decide +kernel, by decide +kernel,
    by decide +kernel⟩

end EndpointControl
