import Mathlib.Logic.Relation
import EndpointControl.Provider.Counting

/-!
# Where handles lead

Several handles may lead to one provider, and nothing in a handle says which others do. It
can be told from how the handles came about. A copy leads where the handle leads that it was
copied from. A handle that came about otherwise brought a new provider with it, and that
provider is nobody else's but of those copied from it. So the copying goes back from any
handle to one that was not copied, which tells the provider (`Lineage.exists_origin`), and two
handles lead to one provider exactly if both come from one handle by copying alone
(`Lineage.shared_iff`).

None of this can be lost, because no use takes a handle away or turns it elsewhere
(`Does.keeps`), and a use adds one handle at most (`Does.begets`).
-/

namespace EndpointControl

/-! ## The record -/

/-- **One use of the handles, and what came of it.** -/
structure HandleEntry where
  /-- What was done. -/
  use : HandleUse
  /-- What was answered. -/
  result : HandleResult
  deriving DecidableEq, Repr

/-- **How a handle came about.** -/
inductive Birth where
  /-- It was there in the beginning, with a provider of its own. -/
  | first (identity : Identity) (failing : Bool)
  /-- It was copied from another one. -/
  | copied (parent : Nat)
  /-- It came of attaching a version to what another one leads to. -/
  | attached (parent : Nat) (version : String)
  deriving DecidableEq, Repr

/-- The handle was not copied. -/
def Birth.isOrigin : Birth → Bool
  | .copied _ => false
  | _ => true

/-- The handle that came about. -/
def HandleEntry.birth? : HandleEntry → Option Birth
  | ⟨.copy k, .done⟩ => some (.copied k)
  | ⟨.attach k v, .done⟩ => some (.attached k v)
  | _ => none

/-- **How all handles came about**, in their order. -/
def births (fs : List (Identity × Bool)) (es : List HandleEntry) : List Birth :=
  fs.map (fun f => .first f.1 f.2) ++ es.filterMap HandleEntry.birth?

section Births

variable {fs : List (Identity × Bool)} {es : List HandleEntry} {e : HandleEntry}
  {bs : List Birth} {o : Option Birth} {x : Birth} {b : Nat}

theorem births_concat : births fs (es ++ [e]) = births fs es ++ e.birth?.toList := by
  rw [births, births, List.filterMap_append, List.append_assoc]
  cases h : e.birth? <;> simp [h]

theorem getElem?_append_toList :
    (bs ++ o.toList)[b]? = some x ↔ bs[b]? = some x ∨ b = bs.length ∧ o = some x := by
  cases o with
  | none => simp
  | some y =>
    rw [Option.toList_some, List.getElem?_append]
    split
    · rename_i hb
      simp [Nat.ne_of_lt hb]
    · rename_i hb
      rw [List.getElem?_eq_none (Nat.le_of_not_lt hb), List.getElem?_singleton]
      have : b - bs.length = 0 ↔ b = bs.length := by omega
      simp [this]

end Births

namespace Handles

/-- **Handles to new providers**, one to each. -/
def founded (fs : List (Identity × Bool)) : Handles where
  providers := (fs.map fun f => .fresh f.1 f.2).toArray
  handles := Array.range fs.length
  muxes := #[]

/-- **What becomes of the handles** by all these uses, one after the other. -/
def afterAll (h : Handles) (us : List HandleUse) : Handles := us.foldl (fun h u => (h.use u).1) h

/-- **The record** of all these uses. -/
def record (h : Handles) : List HandleUse → List HandleEntry
  | [] => []
  | u :: us => ⟨u, (h.use u).2⟩ :: (h.use u).1.record us

/-- There is what the use is about. -/
def Has (h : Handles) : HandleUse → Prop
  | .copy k | .attach k _ | .openThrough k => (h.provider? k).isSome
  | .wake m | .wait m _ => m < h.muxes.size

/-- What the provider of a multiplexer says about it. -/
def flag (h : Handles) (x : Nat × Nat) : Bool :=
  (h.providers[x.1]?.map (·.isPending x.2)).getD false

/-- **What one use does**, and what is answered. -/
inductive Does (h : Handles) : HandleEntry → Handles → Prop where
  | copied {k g : Nat} {p : CountingProvider} (hk : h.provider? k = some (g, p)) :
    h.Does ⟨.copy k, .done⟩ { h with handles := h.handles.push g }
  | attached {k g : Nat} {p : CountingProvider} (version : String)
    (hk : h.provider? k = some (g, p)) : h.Does ⟨.attach k version, .done⟩
      { h with
        providers := h.providers.push (p.withVersion version)
        handles := h.handles.push h.providers.size }
  | opened {k g : Nat} {p : CountingProvider} (hk : h.provider? k = some (g, p))
    (hp : p.failing = false) : h.Does ⟨.openThrough k, .opened h.muxes.size⟩
      { h.modify g fun _ => p.openNext.1 with muxes := h.muxes.push (g, p.pending.size) }
  | failed {k g : Nat} {p : CountingProvider} (hk : h.provider? k = some (g, p))
    (hp : p.failing = true) :
    h.Does ⟨.openThrough k, .failed p.failureText⟩ (h.modify g fun _ => p.openNext.1)
  | woken {m g n : Nat} (hm : h.muxes[m]? = some (g, n)) :
    h.Does ⟨.wake m, .done⟩ (h.modify g (·.wake n))
  | waited {m g n : Nat} {limited : Bool} (hm : h.muxes[m]? = some (g, n))
    (hl : limited = true ∨ h.pending[m]? = some true) :
    h.Does ⟨.wait m limited, .events 0⟩ (h.modify g (·.wait n))
  | held {m : Nat} (hm : h.pending[m]? = some false) : h.Does ⟨.wait m false, .wouldBlock⟩ h
  | missed {u : HandleUse} (hu : ¬ h.Has u) : h.Does ⟨u, .noSuch⟩ h

variable {h h' : Handles} {u : HandleUse} {us : List HandleUse} {e : HandleEntry}
  {g k m n : Nat} {p q : CountingProvider} {f : CountingProvider → CountingProvider}

@[simp] theorem afterAll_nil (h : Handles) : h.afterAll [] = h := rfl

theorem afterAll_cons (h : Handles) (u : HandleUse) (us : List HandleUse) :
    h.afterAll (u :: us) = (h.use u).1.afterAll us := rfl

theorem provider?_eq_some_iff : h.provider? k = some (g, p)
    ↔ h.handles[k]? = some g ∧ h.providers[g]? = some p := by
  simp only [provider?, Option.bind_eq_some_iff, Option.map_eq_some_iff, Prod.mk.injEq]
  constructor
  · rintro ⟨g, hk, p, hp, rfl, rfl⟩
    exact ⟨hk, hp⟩
  · rintro ⟨hk, hp⟩
    exact ⟨g, hk, p, hp, rfl, rfl⟩

theorem getElem?_pending (h : Handles) (m : Nat) : h.pending[m]? = h.muxes[m]?.map h.flag := by
  simp only [pending, List.getElem?_map, Array.getElem?_toList]
  rfl

@[simp] theorem handles_modify : (h.modify g f).handles = h.handles := rfl

@[simp] theorem muxes_modify : (h.modify g f).muxes = h.muxes := rfl

@[simp] theorem size_providers_modify : (h.modify g f).providers.size = h.providers.size :=
  Array.size_modify

/-! ## What one use does -/

/-- **Every use does one of these things.** -/
theorem does_use (h : Handles) (u : HandleUse) : h.Does ⟨u, (h.use u).2⟩ (h.use u).1 := by
  cases u with
  | copy k =>
    simp only [use]
    cases hk : h.provider? k with
    | none => exact .missed (by simp [Has, hk])
    | some x => exact .copied hk
  | attach k v =>
    simp only [use]
    cases hk : h.provider? k with
    | none => exact .missed (by simp [Has, hk])
    | some x => exact .attached v hk
  | openThrough k =>
    simp only [use]
    cases hk : h.provider? k with
    | none => exact .missed (by simp [Has, hk])
    | some x =>
      obtain ⟨g, p⟩ := x
      cases hp : p.failing with
      | false =>
        have hopen := Does.opened hk hp
        simpa [CountingProvider.openNext, hp] using hopen
      | true =>
        have hopen := Does.failed hk hp
        simpa [CountingProvider.openNext, hp] using hopen
  | wake m =>
    simp only [use]
    cases hm : h.muxes[m]? with
    | none => exact .missed (by simpa [Has] using hm)
    | some x => exact .woken hm
  | wait m limited =>
    simp only [use]
    cases hm : h.muxes[m]? with
    | none => exact .missed (by simpa [Has] using hm)
    | some x =>
      have hflag : h.pending[m]? = some (h.flag x) := by rw [getElem?_pending, hm, Option.map_some]
      show h.Does ⟨_, (ite _ _ _ : Handles × HandleResult).2⟩ (ite _ _ _ : Handles × HandleResult).1
      split
      · rename_i hl
        refine .waited hm ((Bool.or_eq_true_iff.mp hl).imp_right fun hp => ?_)
        rw [hflag]
        exact congrArg some hp
      · rename_i hl
        obtain ⟨rfl, hp⟩ := Bool.or_eq_false_iff.mp (Bool.eq_false_iff.mpr hl)
        refine .held ?_
        rw [hflag]
        exact congrArg some hp

/-- **Induction over uses**: what one use keeps is so after all of them. -/
theorem afterAll_induction {motive : List HandleEntry → Handles → Prop} {es : List HandleEntry}
    (start : motive es h)
    (step : ∀ {es h e h'}, motive es h → h.Does e h' → motive (es ++ [e]) h')
    (us : List HandleUse) : motive (es ++ h.record us) (h.afterAll us) := by
  induction us generalizing es h with
  | nil => simpa [record] using start
  | cons u us ih =>
    have hu := ih (step start (h.does_use u))
    rwa [List.append_assoc] at hu

/-- **Nothing is lost.** Handles lead where they have led, multiplexers stay what they are,
and providers say of themselves what they have said. -/
structure Keeps (h h' : Handles) : Prop where
  handle : ∀ {k g : Nat}, h.handles[k]? = some g → h'.handles[k]? = some g
  mux : ∀ {m : Nat} {x : Nat × Nat}, h.muxes[m]? = some x → h'.muxes[m]? = some x
  provider : ∀ {g : Nat} {p : CountingProvider}, h.providers[g]? = some p →
    ∃ p', h'.providers[g]? = some p' ∧ p'.identity = p.identity ∧ p'.failing = p.failing
      ∧ p.pending.size ≤ p'.pending.size

theorem Keeps.refl (h : Handles) : h.Keeps h :=
  ⟨id, id, fun hp => ⟨_, hp, rfl, rfl, Nat.le_refl _⟩⟩

theorem Keeps.provider? (K : h.Keeps h') (hk : h.provider? k = some (g, p)) :
    ∃ p', h'.provider? k = some (g, p') ∧ p'.identity = p.identity ∧ p'.failing = p.failing := by
  obtain ⟨hk, hg⟩ := provider?_eq_some_iff.mp hk
  obtain ⟨p', hp', hi, hf, -⟩ := K.provider hg
  exact ⟨p', provider?_eq_some_iff.mpr ⟨K.handle hk, hp'⟩, hi, hf⟩

/-- Changing a provider loses nothing if the provider stays what it says of itself. -/
theorem keeps_modify (hf : ∀ p, h.providers[g]? = some p → (f p).identity = p.identity
    ∧ (f p).failing = p.failing ∧ p.pending.size ≤ (f p).pending.size) :
    h.Keeps (h.modify g f) where
  handle := id
  mux := id
  provider := fun {k q} hq => by
    rw [modify, Array.getElem?_modify]
    split
    · rename_i hk
      subst hk
      exact ⟨f q, by rw [hq, Option.map_some], hf q hq⟩
    · exact ⟨q, hq, rfl, rfl, Nat.le_refl _⟩

theorem getElem?_push_of_some {α : Type} {xs : Array α} {x y : α} {i : Nat}
    (hx : xs[i]? = some x) : (xs.push y)[i]? = some x := by
  obtain ⟨hi, -⟩ := Array.getElem?_eq_some_iff.mp hx
  rw [Array.getElem?_push, if_neg (Nat.ne_of_lt hi), hx]

theorem keeps_openNext (hg : h.providers[g]? = some p) :
    h.Keeps (h.modify g fun _ => p.openNext.1) :=
  keeps_modify fun q hq => by
    obtain rfl := Option.some.inj (hg.symm.trans hq)
    exact ⟨p.identity_openNext, p.failing_openNext, p.size_pending_openNext⟩

/-- **No use loses anything.** -/
theorem Does.keeps (d : h.Does e h') : h.Keeps h' := by
  cases d with
  | copied hk => exact ⟨getElem?_push_of_some, id, (Keeps.refl h).provider⟩
  | attached v hk =>
    exact ⟨getElem?_push_of_some, id,
      fun hp => ⟨_, getElem?_push_of_some hp, rfl, rfl, Nat.le_refl _⟩⟩
  | opened hk hp =>
    exact ⟨id, getElem?_push_of_some, (keeps_openNext (provider?_eq_some_iff.mp hk).2).provider⟩
  | failed hk hp => exact keeps_openNext (provider?_eq_some_iff.mp hk).2
  | woken hm =>
    exact keeps_modify fun p _ => ⟨rfl, rfl, Nat.le_of_eq (p.size_pending_wake _).symm⟩
  | waited hm hl =>
    exact keeps_modify fun p _ => ⟨rfl, rfl, Nat.le_of_eq (p.size_pending_wait _).symm⟩
  | held hm => exact .refl h
  | missed hu => exact .refl h

/-! ## Families of handles -/

/-- The second handle is a copy of the first one. -/
def Copied (bs : List Birth) (a b : Nat) : Prop := bs[b]? = some (.copied a)

/-- **Two handles of one family**: both come from one handle by copying alone. -/
def Kin (bs : List Birth) (a b : Nat) : Prop :=
  ∃ c, Relation.ReflTransGen (Copied bs) c a ∧ Relation.ReflTransGen (Copied bs) c b

/-- Two handles lead to one provider. -/
def Shared (h : Handles) (a b : Nat) : Prop :=
  ∃ g p, h.provider? a = some (g, p) ∧ h.provider? b = some (g, p)

/-- **What a use does to the handles**: none is added, or a copy that leads where another one
leads, or one that leads to a new provider. -/
inductive Begets (h : Handles) : Option Birth → Handles → Prop where
  | none {h' : Handles} (handles : h'.handles = h.handles)
    (size : h'.providers.size = h.providers.size) : h.Begets none h'
  | copy {h' : Handles} {k g : Nat} (hk : h.handles[k]? = some g)
    (handles : h'.handles = h.handles.push g) (size : h'.providers.size = h.providers.size) :
    h.Begets (some (.copied k)) h'
  | attach {h' : Handles} {k g : Nat} {p : CountingProvider} {version : String}
    (hk : h.provider? k = some (g, p)) (handles : h'.handles = h.handles.push h.providers.size)
    (providers : h'.providers = h.providers.push (p.withVersion version)) :
    h.Begets (some (.attached k version)) h'

theorem Does.begets (d : h.Does e h') : h.Begets e.birth? h' := by
  cases d with
  | copied hk => exact .copy (provider?_eq_some_iff.mp hk).1 rfl rfl
  | attached v hk => exact .attach hk rfl rfl
  | @missed u hu => cases u <;> exact .none rfl rfl
  | held hm => exact .none rfl rfl
  | opened | failed | woken | waited => exact .none rfl size_providers_modify

/-- **Where handles lead is told by how they came about.** -/
structure Lineage (bs : List Birth) (h : Handles) : Prop where
  /-- There is a handle for each birth. -/
  size : h.handles.size = bs.length
  /-- Each handle leads to a provider. -/
  within : ∀ {k g : Nat}, h.handles[k]? = some g → g < h.providers.size
  /-- A copy leads where the handle leads that it was copied from. -/
  copied : ∀ {a b : Nat}, Copied bs a b → a < b ∧ h.handles[b]? = h.handles[a]?
  /-- Handles that were not copied lead to different providers. -/
  apart : ∀ {a b : Nat} {x y : Birth}, bs[a]? = some x → bs[b]? = some y → x.isOrigin = true →
    y.isOrigin = true → h.handles[a]? = h.handles[b]? → a = b
  /-- Those of the beginning lead to what they led to, -/
  first : ∀ {a : Nat} {i : Identity} {f : Bool}, bs[a]? = some (.first i f) →
    ∃ g p, h.provider? a = some (g, p) ∧ p.identity = i ∧ p.failing = f
  /-- and attaching a version leads to another provider that is the same but for the version. -/
  attached : ∀ {a b : Nat} {v : String}, bs[b]? = some (.attached a v) →
    ∃ g p g' p', h.provider? a = some (g, p) ∧ h.provider? b = some (g', p') ∧ g ≠ g'
      ∧ p'.identity = { p.identity with version := some v } ∧ p'.failing = p.failing

variable {fs : List (Identity × Bool)} {es : List HandleEntry} {bs : List Birth}
  {o : Option Birth} {a b : Nat}

theorem Begets.handle_of_lt (b : h.Begets o h') (hk : k < h.handles.size) :
    h'.handles[k]? = h.handles[k]? := by
  cases b with
  | none handles size => rw [handles]
  | copy _ handles _ | attach _ handles _ =>
    rw [handles, Array.getElem?_push, if_neg (Nat.ne_of_lt hk)]

theorem Lineage.lt_size (L : Lineage bs h) {x : Birth} (hx : bs[k]? = some x) :
    k < h.handles.size := by
  rw [L.size]
  exact (List.getElem?_eq_some_iff.mp hx).1

theorem Lineage.exists_provider (L : Lineage bs h) (hk : k < h.handles.size) :
    ∃ g p, h.provider? k = some (g, p) := by
  have hg := L.within (Array.getElem?_eq_getElem hk)
  exact ⟨_, _, provider?_eq_some_iff.mpr
    ⟨Array.getElem?_eq_getElem hk, Array.getElem?_eq_getElem hg⟩⟩

/-- There is a handle for each birth, and it leads to a provider. -/
theorem Lineage.isSome_provider?_iff (L : Lineage bs h) (k : Nat) :
    (h.provider? k).isSome ↔ k < bs.length := by
  rw [← L.size]
  constructor
  · intro hk
    obtain ⟨⟨g, p⟩, hk⟩ := Option.isSome_iff_exists.mp hk
    exact (Array.getElem?_eq_some_iff.mp (provider?_eq_some_iff.mp hk).1).1
  · intro hk
    obtain ⟨g, p, hk⟩ := L.exists_provider hk
    rw [hk]
    rfl

/-- In the beginning each handle leads to its own provider. -/
theorem lineage_founded (fs : List (Identity × Bool)) : Lineage (births fs []) (founded fs) := by
  have hbirths {a : Nat} {x : Birth} (hx : (births fs [])[a]? = some x) :
      ∃ f, fs[a]? = some f ∧ x = .first f.1 f.2 := by
    simp only [births, List.filterMap_nil, List.append_nil, List.getElem?_map,
      Option.map_eq_some_iff] at hx
    obtain ⟨f, hf, rfl⟩ := hx
    exact ⟨f, hf, rfl⟩
  have hhandle {a : Nat} (ha : a < fs.length) : (founded fs).handles[a]? = some a := by
    simp [founded, ha]
  refine ⟨by simp [founded, births], fun {k g} hk => ?_, fun {a b} hab => ?_,
    fun {a b x y} hx hy _ _ heq => ?_, fun {a i f} ha => ?_, fun {a b v} hb => ?_⟩
  · have hlt : k < fs.length := by simpa [founded] using (Array.getElem?_eq_some_iff.mp hk).1
    obtain rfl := Option.some.inj ((hhandle hlt).symm.trans hk)
    simpa [founded] using hlt
  · obtain ⟨_, _, hcopied⟩ := hbirths hab
    cases hcopied
  · obtain ⟨_, hx, -⟩ := hbirths hx
    obtain ⟨_, hy, -⟩ := hbirths hy
    rw [hhandle (List.getElem?_eq_some_iff.mp hx).1,
      hhandle (List.getElem?_eq_some_iff.mp hy).1] at heq
    exact Option.some.inj heq
  · obtain ⟨f', hf, hfirst⟩ := hbirths ha
    obtain ⟨rfl, rfl⟩ := Birth.first.inj hfirst
    refine ⟨a, .fresh f'.1 f'.2, provider?_eq_some_iff.mpr
      ⟨hhandle (List.getElem?_eq_some_iff.mp hf).1, ?_⟩, rfl, rfl⟩
    simp [founded, hf]
  · obtain ⟨_, _, hattached⟩ := hbirths hb
    cases hattached

/-- **What one use does to the handles leaves it told by the births** where they lead. -/
theorem Lineage.begets (L : Lineage bs h) (K : h.Keeps h') (d : h.Begets o h') :
    Lineage (bs ++ o.toList) h' where
  size := by
    cases d with
    | none handles _ => simp [handles, L.size]
    | copy _ handles _ | attach _ handles _ => simp [handles, L.size]
  within := fun {k g} hk => by
    cases d with
    | none handles size =>
      rw [handles] at hk
      exact size ▸ L.within hk
    | copy hk' handles size =>
      rw [handles, Array.getElem?_push] at hk
      split at hk
      · exact size ▸ Option.some.inj hk ▸ L.within hk'
      · exact size ▸ L.within hk
    | attach hk' handles providers =>
      rw [handles, Array.getElem?_push] at hk
      rw [providers, Array.size_push]
      split at hk
      · obtain rfl := Option.some.inj hk
        exact Nat.lt_succ_self _
      · exact Nat.lt_succ_of_lt (L.within hk)
  copied := fun {a b} hab => by
    rcases getElem?_append_toList.mp hab with hab | ⟨rfl, rfl⟩
    · obtain ⟨hlt, heq⟩ := L.copied hab
      have hb := L.lt_size hab
      exact ⟨hlt, by rw [d.handle_of_lt hb, d.handle_of_lt (Nat.lt_trans hlt hb), heq]⟩
    · cases d with
      | copy hk handles size =>
        have ha := (Array.getElem?_eq_some_iff.mp hk).1
        refine ⟨L.size ▸ ha, ?_⟩
        rw [handles, ← L.size, Array.getElem?_push_size, getElem?_push_of_some hk]
  apart := fun {a b x y} hx hy hxo hyo heq => by
    have hnew {k : Nat} {z : Birth} (hz : bs[k]? = some z) (hb : o.any Birth.isOrigin = true) :
        h'.handles[k]? ≠ h'.handles[bs.length]? := by
      have hk := L.lt_size hz
      rw [d.handle_of_lt hk, Array.getElem?_eq_getElem hk]
      cases d with
      | none _ _ | copy _ _ _ => cases hb
      | attach _ handles _ =>
        rw [handles, ← L.size, Array.getElem?_push_size]
        intro heq
        exact Nat.ne_of_lt (L.within (Array.getElem?_eq_getElem hk)) (Option.some.inj heq)
    rcases getElem?_append_toList.mp hx with hx' | ⟨rfl, rfl⟩
    · rcases getElem?_append_toList.mp hy with hy' | ⟨rfl, rfl⟩
      · rw [d.handle_of_lt (L.lt_size hx'), d.handle_of_lt (L.lt_size hy')] at heq
        exact L.apart hx' hy' hxo hyo heq
      · exact absurd heq (hnew hx' hyo)
    · rcases getElem?_append_toList.mp hy with hy' | ⟨rfl, -⟩
      · exact absurd heq.symm (hnew hy' hxo)
      · rfl
  first := fun {a i f} ha => by
    rcases getElem?_append_toList.mp ha with ha | ⟨-, rfl⟩
    · obtain ⟨g, p, hp, hi, hf⟩ := L.first ha
      obtain ⟨p', hp', hi', hf'⟩ := K.provider? hp
      exact ⟨g, p', hp', hi'.trans hi, hf'.trans hf⟩
    · cases d
  attached := fun {a b v} hb => by
    rcases getElem?_append_toList.mp hb with hb | ⟨rfl, rfl⟩
    · obtain ⟨g, p, g', q, hp, hq, hne, hi, hf⟩ := L.attached hb
      obtain ⟨p', hp', hpi, hpf⟩ := K.provider? hp
      obtain ⟨q', hq', hqi, hqf⟩ := K.provider? hq
      exact ⟨g, p', g', q', hp', hq', hne, by rw [hqi, hi, hpi], by rw [hqf, hf, hpf]⟩
    · cases d with
      | @attach _ _ g p _ hk handles providers =>
        obtain ⟨p', hp', hpi, hpf⟩ := K.provider? hk
        have hg := L.within (provider?_eq_some_iff.mp hk).1
        refine ⟨g, p', h.providers.size, p.withVersion v, hp', provider?_eq_some_iff.mpr ⟨?_, ?_⟩,
          Nat.ne_of_lt hg, by rw [hpi]; rfl, by rw [hpf]; rfl⟩
        · rw [handles, ← L.size, Array.getElem?_push_size]
        · rw [providers, Array.getElem?_push_size]

/-- **Copying goes back to a handle that was not copied**, and this one leads where the copy
leads. -/
theorem Lineage.exists_origin (L : Lineage bs h) (hb : b < bs.length) :
    ∃ c x, Relation.ReflTransGen (Copied bs) c b ∧ bs[c]? = some x ∧ x.isOrigin = true
      ∧ h.handles[c]? = h.handles[b]? := by
  induction b using Nat.strongRecOn with
  | ind b ih =>
    cases hx : bs[b] with
    | copied a =>
      have hab : Copied bs a b := (List.getElem?_eq_getElem hb).trans (congrArg some hx)
      obtain ⟨hlt, heq⟩ := L.copied hab
      obtain ⟨c, x, hca, hc, ho, hcx⟩ := ih a hlt (Nat.lt_trans hlt hb)
      exact ⟨c, x, hca.tail hab, hc, ho, hcx.trans heq.symm⟩
    | first i f =>
      exact ⟨b, _, .refl, (List.getElem?_eq_getElem hb).trans (congrArg some hx), rfl, rfl⟩
    | attached a v =>
      exact ⟨b, _, .refl, (List.getElem?_eq_getElem hb).trans (congrArg some hx), rfl, rfl⟩

/-- What comes from a handle by copying alone leads where it leads. -/
theorem Lineage.handle_of_copies (L : Lineage bs h)
    (hab : Relation.ReflTransGen (Copied bs) a b) : h.handles[b]? = h.handles[a]? := by
  induction hab with
  | refl => rfl
  | tail _ hcopied ih => exact (L.copied hcopied).2.trans ih

/-- **Two handles lead to the same place exactly if they are of one family.** -/
theorem Lineage.handle_eq_iff (L : Lineage bs h) (ha : a < bs.length) (hb : b < bs.length) :
    h.handles[a]? = h.handles[b]? ↔ Kin bs a b := by
  constructor
  · intro heq
    obtain ⟨c, x, hca, hx, hxo, hc⟩ := L.exists_origin ha
    obtain ⟨d, y, hdb, hy, hyo, hd⟩ := L.exists_origin hb
    obtain rfl := L.apart hx hy hxo hyo (hc.trans (heq.trans hd.symm))
    exact ⟨c, hca, hdb⟩
  · rintro ⟨c, hca, hcb⟩
    rw [L.handle_of_copies hca, L.handle_of_copies hcb]

theorem Lineage.shared_iff (L : Lineage bs h) (ha : a < bs.length) (hb : b < bs.length) :
    h.Shared a b ↔ Kin bs a b := by
  rw [← L.handle_eq_iff ha hb]
  obtain ⟨g, p, hp⟩ := L.exists_provider (L.size.symm ▸ ha)
  constructor
  · rintro ⟨g, p, ha, hb⟩
    rw [(provider?_eq_some_iff.mp ha).1, (provider?_eq_some_iff.mp hb).1]
  · intro heq
    exact ⟨g, p, hp, by rw [← hp, provider?, provider?, heq]⟩

end Handles

end EndpointControl
