import EndpointControl.Proofs.Balance
import EndpointControl.Proofs.Channels
import EndpointControl.Proofs.Exclusion
import EndpointControl.Proofs.Overlap

/-!
# Channels that are made one after the other

Here calls for channels of a factory overlap neither each other nor a release of it
(`Machine.OneByOne`); connection attempts, loops and other factories go on in between as they like.
Then the cursor and the counter of the factory stay in step, whatever comes of the calls.

A journal says who has called while the factory had not been released, in order, and what they
have done (`Journal`). The call with `i` calls before it gets the number `i` and the worker with
this number in the circle, and everything else follows from what a call does by itself
(`Machine.Sequential.allotment`).
-/

namespace EndpointControl

/-! ## How far the calls have come -/

namespace Store

/-- **The endpoints of the factory have numbers below this one**, in the order in which they have
come about, and each is bound to the worker that its number tells. -/
structure Numbered (s : Store) (f : FactoryId) (width k : Nat) : Prop where
  below : ∀ {e : EndpointId} {r : Endpoint}, s.endpoints[e]? = some r → r.factory = f →
    r.worker = r.number.toNat % width ∧ r.number.toNat < k
  increasing : ∀ {e e' : EndpointId} {r r' : Endpoint}, e < e' → s.endpoints[e]? = some r →
    s.endpoints[e']? = some r' → r.factory = f → r'.factory = f → r.number < r'.number

/-- **So many calls have returned**, and the one that is under way has done this. -/
structure Standing (s : Store) (f : FactoryId) (width k : Nat) (ds : List Effect) : Prop where
  issued : s.issued f = (.ofNat (k + ds.countP Effect.isPick), .ofNat (k + ds.countP Effect.isDraw))
  numbered : s.Numbered f width (k + ds.countP Effect.isEnrolment)

variable {s s' : Store} {f : FactoryId} {width k k' : Nat} {ds new : List Effect}

/-- What is so of the endpoints stays so while none comes about. -/
theorem Numbered.mono (h : s.Numbered f width k) (hk : k ≤ k')
    (hback : ∀ {e : EndpointId} {r : Endpoint}, s'.endpoints[e]? = some r → r.factory = f →
      ∃ st, s.endpoints[e]? = some { r with status := st }) : s'.Numbered f width k' where
  below := fun found hf => by
    obtain ⟨st, hold⟩ := hback found hf
    exact (h.below hold hf).imp_right (Nat.lt_of_lt_of_le · hk)
  increasing := fun hlt found found' hf hf' => by
    obtain ⟨st, hold⟩ := hback found hf
    obtain ⟨st', hold'⟩ := hback found' hf'
    have hnumbers := h.increasing hlt hold hold' hf hf'
    exact hnumbers

/-- **The next endpoint** has the next number and the next worker. -/
theorem Numbered.push (h : s.Numbered f width k) (hk : k < 2 ^ 64)
    (hendpoints : s'.endpoints = s.endpoints.push ⟨f, k % width, .ofNat k, .initial⟩) :
    s'.Numbered f width (k + 1) := by
  have hnumber : (UInt64.ofNat k).toNat = k := by
    rw [UInt64.toNat_ofNat', Nat.mod_eq_of_lt hk]
  -- an endpoint is the new one, or was there
  have hback {e : EndpointId} {r : Endpoint} (found : s'.endpoints[e]? = some r) :
      s.endpoints[e]? = some r
        ∨ e = s.endpoints.size ∧ r = ⟨f, k % width, .ofNat k, .initial⟩ := by
    rw [hendpoints, Array.getElem?_push] at found
    split at found
    · exact .inr ⟨‹_›, (Option.some.inj found).symm⟩
    · exact .inl found
  refine ⟨fun found hf => ?_, fun hlt found found' hf hf' => ?_⟩
  · rcases hback found with hold | ⟨-, rfl⟩
    · exact (h.below hold hf).imp_right (Nat.lt_succ_of_lt ·)
    · rw [hnumber]
      exact ⟨rfl, k.lt_succ_self⟩
  · rcases hback found with hold | ⟨rfl, rfl⟩ <;> rcases hback found' with hold' | ⟨rfl, rfl⟩
    · exact h.increasing hlt hold hold' hf hf'
    · rw [UInt64.lt_iff_toNat_lt, hnumber]
      exact (h.below hold hf).2
    · obtain ⟨hlt', -⟩ := Array.getElem?_eq_some_iff.mp hold'
      exact absurd hlt' (Nat.lt_asymm hlt)
    · exact absurd hlt (Nat.lt_irrefl _)

/-- What stays while nobody has a channel made. -/
theorem Standing.aside (h : s.Standing f width k ds) (hissued : s'.issued f = s.issued f)
    (hback : ∀ {e : EndpointId} {r : Endpoint}, s'.endpoints[e]? = some r → r.factory = f →
      ∃ st, s.endpoints[e]? = some { r with status := st }) : s'.Standing f width k ds where
  issued := hissued.trans h.issued
  numbered := h.numbered.mono (Nat.le_refl _) hback

theorem issued_modifyFactory_self {fac : Factory} (found : s.factories[f]? = some fac)
    (g : Factory → Factory) :
    (s.modifyFactory f g).issued f = ((g fac).cursor, (g fac).nextNumber) := by
  refine issued_eq ?_
  rw [modifyFactory, Array.getElem?_modify, if_pos rfl, found, Option.map_some]

/-- What a effect leaves of the cursor and the counter, if it is none of theirs. -/
theorem issued_apply {d : Effect} (hpick : d.isPick = false) (hdraw : d.isDraw = false) :
    (d.apply f s).issued f = s.issued f := by
  cases d with
  | picks => cases hpick
  | draws => cases hdraw
  | opens | starts | queues => exact s.issued_modifyLoop ..
  | counts w => exact s.issued_modifyFactory f fun _ => rfl
  | enrolls => rfl

/-- **What the call under way does is counted.** -/
theorem Standing.apply {fac : Factory} {d : Effect} (h : s.Standing f width k ds)
    (found : s.factories[f]? = some fac) (hk : k < 2 ^ 64)
    (henrolls : ∀ e w n, d = .enrolls e w n →
      w = k % width ∧ n = .ofNat k ∧ ds.countP Effect.isEnrolment = 0) :
    (d.apply f s).Standing f width k (ds ++ [d]) := by
  have hissued := (issued_eq found).symm.trans h.issued
  obtain ⟨hcursor, hnumber⟩ := Prod.mk.inj hissued
  have hback {s' : Store} (hendpoints : s'.endpoints = s.endpoints) {e : EndpointId}
      {r : Endpoint} (found : s'.endpoints[e]? = some r) (_ : r.factory = f) :
      ∃ st, s.endpoints[e]? = some { r with status := st } := ⟨r.status, hendpoints ▸ found⟩
  have hsucc (n : Nat) : UInt64.ofNat n + 1 = .ofNat (n + 1) := (UInt64.ofNat_add n 1).symm
  cases d with
  | picks | draws =>
    refine ⟨?_, ?_⟩
    · rw [Effect.apply, issued_modifyFactory_self found, hcursor, hnumber, hsucc]
      simp [Effect.isPick, Effect.isDraw, Nat.add_assoc]
    · exact h.numbered.mono (by simp [Effect.isEnrolment]) (hback rfl)
  | enrolls e w n =>
    obtain ⟨rfl, rfl, hnone⟩ := henrolls e w n rfl
    refine ⟨h.issued.trans (by simp [Effect.isPick, Effect.isDraw]), ?_⟩
    have hnumbered := h.numbered
    rw [hnone] at hnumbered
    have hpush : ((Effect.enrolls e (k % width) (.ofNat k)).apply f s).Numbered f width (k + 1) :=
      hnumbered.push hk rfl
    simpa [hnone, Effect.isEnrolment] using hpush
  | opens | starts | queues | counts =>
    refine ⟨(issued_apply rfl rfl).trans (h.issued.trans ?_), ?_⟩
    · simp [Effect.isPick, Effect.isDraw]
    · exact h.numbered.mono (by simp [Effect.isEnrolment]) (hback rfl)

/-- It is all in what is remembered. -/
theorem Standing.of_memory (h : s.Standing f width k ds) (hm : s'.memory = s.memory) :
    s'.Standing f width k ds := by
  obtain ⟨hfactories, hendpoints⟩ := Prod.mk.inj hm
  refine h.aside (by rw [Store.issued, Store.issued, hfactories]) fun {e r} found _ =>
    ⟨r.status, ?_⟩
  rw [← hendpoints]
  exact found

end Store

/-! ## The journal of a factory -/

/-- **What is known of the calls for channels of a factory.** -/
structure Journal where
  /-- Who has called while the factory had not been released, in order. -/
  callers : List ThreadId
  /-- What each of them has done. -/
  effects : ThreadId → List Effect

namespace Machine

variable {m m' : Machine} {i : Incident} {is : List Incident} {t u : ThreadId} {f : FactoryId}
  {fl : Flavor} {width : Nat} {j : Journal}

/-- Who makes the first step of a call while the factory has not been released. -/
def begins (m : Machine) (f : FactoryId) : Incident → List ThreadId
  | .stepped t _ =>
    if m.control? t = some (Operation.create f).control ∧ ¬ m.LetGoOf f then [t] else []
  | _ => []

/-- What a thread does in an incident, if it is in the midst of a call. -/
def effectsBy (m : Machine) (f : FactoryId) (t : ThreadId) : Incident → List Effect
  | .stepped t' _ =>
    if t' = t ∧ m.UnderWay (.create f) t then
      ((m.control? t).map (·.effects m.store)).getD []
    else []
  | _ => []

/-- The journal after an incident. -/
def record (m : Machine) (f : FactoryId) (i : Incident) (j : Journal) : Journal :=
  ⟨j.callers ++ m.begins f i, fun t => j.effects t ++ m.effectsBy f t i⟩

/-- **A history in which calls for channels of the factory do not overlap**, with its journal. -/
inductive Sequential (f : FactoryId) : Journal → List Incident → Machine → Prop where
  /-- In the beginning there is nothing. -/
  | empty : Sequential f ⟨[], fun _ => []⟩ [] .empty
  /-- One thing more happens. -/
  | advance {j : Journal} {is : List Incident} {m m' : Machine} {i : Incident}
    (h : Sequential f j is m) (a : m.Advance i m') (apart : m'.OneByOne f) :
    Sequential f (m.record f i j) (is ++ [i]) m'

theorem Sequential.run (h : Sequential f j is m) : Run is m := by
  induction h with
  | empty => exact .empty
  | advance h a apart ih => exact a.run ih

/-- **What each call has been given**, what it has done and where it is. -/
structure Allotted (m : Machine) (f : FactoryId) (fl : Flavor) (width : Nat) (j : Journal)
    (is : List Incident) : Prop where
  /-- Each call has the number of the calls before it, and the worker that this tells. -/
  channel : ∀ {k : Nat} {t : ThreadId}, j.callers[k]? = some t → ∃ c, m.control? t = some c
    ∧ c.Channel m.store f fl (k % width) (.ofNat k) (j.effects t) (answersTo t is)
  /-- Nobody calls twice, -/
  nodup : j.callers.Nodup
  /-- and nobody else does anything. -/
  silent : ∀ {t : ThreadId}, t ∉ j.callers → j.effects t = []
  /-- A call that is under way is the last. -/
  busy : ∀ {t : ThreadId}, m.UnderWay (.create f) t → ∃ ts, j.callers = ts ++ [t]
    ∧ ¬ m.LetGoOf f ∧ m.store.Standing f width ts.length (j.effects t)
  /-- Between calls each has been given something. -/
  idle : (∀ t, ¬ m.UnderWay (.create f) t) → m.store.Standing f width j.callers.length []

theorem Allotted.empty : Machine.empty.Allotted f fl width ⟨[], fun _ => []⟩ [] where
  channel := fun h => by cases h
  nodup := List.nodup_nil
  silent := fun _ => rfl
  busy := fun h => by
    obtain ⟨c, hc⟩ := h.exists_control
    cases hc
  idle := fun _ => by
    refine ⟨rfl, fun found => ?_, fun _ found => ?_⟩
    · cases found
    · cases found

/-! ## One step of a history -/

theorem effectsBy_of_ne (hne : ∀ h, i ≠ .stepped t h) : m.effectsBy f t i = [] := by
  cases i with
  | stepped t' h =>
    rw [effectsBy, if_neg]
    rintro ⟨rfl, -⟩
    exact hne h rfl
  | called => rfl
  | built => rfl

theorem effectsBy_of_not_underWay (h : ¬ m.UnderWay (.create f) t) : m.effectsBy f t i = [] := by
  cases i with
  | stepped t' hap => rw [effectsBy, if_neg fun h' => h h'.2]
  | called => rfl
  | built => rfl

theorem effectsBy_self {c : Control} {h : Happening} (hway : m.UnderWay (.create f) t)
    (hc : m.control? t = some c) : m.effectsBy f t (.stepped t h) = c.effects m.store := by
  rw [effectsBy, if_pos ⟨rfl, hway⟩, hc, Option.map_some, Option.getD_some]

theorem answersTo_of_ne (hne : ∀ h, i ≠ .stepped t h) :
    answersTo t (is ++ [i]) = answersTo t is := by
  rw [answersTo_concat, Incident.answersTo_of_ne hne, List.append_nil]

/-- **Whoever has been given something and moves** is in the midst of its call. -/
theorem Allotted.underWay (h : m.Allotted f fl width j is) (ht : t ∈ j.callers) {hap : Happening}
    (a : m.Advance (.stepped t hap) m') : m.UnderWay (.create f) t := by
  obtain ⟨k, hk⟩ := List.mem_iff_getElem?.mp ht
  obtain ⟨c, hc, hchannel⟩ := h.channel hk
  rcases hchannel.underWay with ⟨r, rfl⟩ | ⟨hop, hne⟩
  · exact absurd hc a.not_finished
  · exact ⟨c, hc, hop, hne⟩

/-- **Nobody has a call under way but the last caller.** -/
theorem Allotted.mem_callers (h : m.Allotted f fl width j is) (hway : m.UnderWay (.create f) t) :
    t ∈ j.callers := by
  obtain ⟨ts, hts, -⟩ := h.busy hway
  exact hts ▸ List.mem_append_right _ (List.mem_singleton.mpr rfl)

/-- Whoever is not among the callers does nothing. -/
theorem Allotted.effects_record (h : m.Allotted f fl width j is) (ht : t ∉ j.callers) :
    (m.record f i j).effects t = [] := by
  show j.effects t ++ m.effectsBy f t i = []
  rw [h.silent ht, effectsBy_of_not_underWay fun hway => ht (h.mem_callers hway)]
  rfl

theorem Allotted.alone (h : m.Allotted f fl width j is) (ht : m.UnderWay (.create f) t)
    (hu : m.UnderWay (.create f) u) : t = u := by
  obtain ⟨ts, hts, -⟩ := h.busy ht
  obtain ⟨us, hus, -⟩ := h.busy hu
  exact (List.cons.inj (List.append_inj' (hts.symm.trans hus) rfl).2).1

/-- **A step of the call under way** does what stands at its point, and leads on. It is given
what is next. -/
theorem Allotted.act (h : m.Allotted f fl width j is) (r : Run is m)
    (few : j.callers.length < 2 ^ 64)
    (hfac : ∀ fac, m.store.factories[f]? = some fac →
      fac.flavor = fl ∧ fac.terms.workerCount = width)
    {ts : List ThreadId} (hts : j.callers = ts ++ [t]) (hway : m.UnderWay (.create f) t)
    {c c' : Control} {g : Store → Store} {ns : List Note} (hc : m.control? t = some c)
    (hmove : c.move m.store t = .act g c' ns) :
    c'.Channel (g m.store) f fl (ts.length % width) (.ofNat ts.length)
        (j.effects t ++ c.effects m.store) (answersTo t is)
      ∧ (g m.store).memory = ((c.effects m.store).foldl (Effect.apply f) m.store).memory
      ∧ (g m.store).Standing f width ts.length (j.effects t ++ c.effects m.store) := by
  have hk : j.callers[ts.length]? = some t := by rw [hts, List.getElem?_concat_length]
  obtain ⟨c₀, hc₀, hchannel⟩ := h.channel hk
  obtain rfl := Option.some.inj (hc.symm.trans hc₀)
  obtain ⟨ts', hts', hup, hstanding⟩ := h.busy hway
  obtain rfl : ts = ts' := (List.append_inj' (hts.symm.trans hts') rfl).1
  have hlt : ts.length < 2 ^ 64 := by
    rw [hts, List.length_append] at few
    exact Nat.lt_of_succ_lt few
  have hissued {fac : Factory} (found : m.store.factories[f]? = some fac) :=
    Prod.mk.inj ((Store.issued_eq found).symm.trans hstanding.issued)
  have hact := hchannel.act (fun fac found => (hfac fac found).1) ?pick ?draw ?up
    (fun hs => (r.traffic.slot_of_started hs).1) hmove
  case pick =>
    intro fac found hpoint
    subst hpoint
    have hcursor : fac.cursor = .ofNat ts.length := by
      rw [(hissued found).1, hchannel.effects_of_pick]
      rfl
    rw [Factory.nextWorker, hcursor, (hfac fac found).2, UInt64.toNat_ofNat', Nat.mod_eq_of_lt hlt]
  case draw =>
    intro fac found hpoint
    subst hpoint
    rw [(hissued found).2, hchannel.effects_of_draw]
    rfl
  case up => exact fun hd => hup (r.letGoOf_of_shutDown hd)
  refine ⟨hact.1, hact.2, ?_⟩
  rcases Control.effects_eq_or m.store c with hnone | ⟨d, hone⟩
  · rw [hnone, List.append_nil]
    exact hstanding.of_memory (by rw [hact.2, hnone]; rfl)
  · rw [hone]
    obtain ⟨fac, found⟩ := hchannel.exists_factory hmove
    refine (hstanding.apply found hlt fun e w n hd => ?_).of_memory (by rw [hact.2, hone]; rfl)
    exact hchannel.of_enrolls (hone.trans (by rw [hd]))

/-- **Who is not in the midst of a call leaves what has been given out.** -/
theorem Advance.standing {k : Nat} {ds : List Effect} (a : m.Advance i m')
    (hidle : ∀ t h, i = .stepped t h → ¬ m.UnderWay (.create f) t)
    (h : m.store.Standing f width k ds) : m'.store.Standing f width k ds := by
  cases a with
  | @act t c c' g ns hc hmove =>
    by_cases hop : c.operation? = some (.create f)
    · -- it stands where its call begins, and looks whether the factory has been released
      have hbegin : c = (Operation.create f).control := by
        by_contra hne
        exact hidle t _ rfl ⟨c, hc, hop, hne⟩
      subst hbegin
      cases Control.moves_of_running hmove with | create found hp =>
      simp [CreatePoint.move] at hp
      rw [store_act, hp.1]
      exact h
    · exact h.aside (Control.issued_of_act hop hmove) (Control.endpoints_back hop hmove)
  | answer => rwa [store_answer]
  | call => exact h
  | build b =>
    exact h.aside (m.store.issued_build b f) fun {e r} found _ => ⟨r.status, found⟩

/-- **Whoever is new among the callers** has just begun its call. -/
theorem Advance.begins_eq (a : m.Advance i m') (hnew : m.begins f i ≠ []) :
    ∃ t ns, i = .stepped t (.acted ns) ∧ m.begins f i = [t]
      ∧ m.control? t = some (Operation.create f).control ∧ ¬ m.LetGoOf f ∧ m'.store = m.store
      ∧ m'.control? t = some (.running [.create f .pickWorker]) := by
  cases i with
  | stepped t hap =>
    rw [begins] at hnew ⊢
    split at hnew
    · rename_i hbegin
      obtain ⟨⟨ns, rfl⟩, hstore, hc'⟩ := a.begin hbegin.1
      rw [if_neg hbegin.2] at hc'
      exact ⟨t, ns, rfl, if_pos hbegin, hbegin.1, hbegin.2, hstore, hc'⟩
    · exact absurd rfl hnew
  | called => exact absurd rfl hnew
  | built => exact absurd rfl hnew

/-- Whoever stands where its call begins is not among the callers. -/
theorem Allotted.not_mem_of_control (h : m.Allotted f fl width j is)
    (hc : m.control? t = some (Operation.create f).control) :
    t ∉ j.callers := by
  intro ht
  obtain ⟨k, hk⟩ := List.mem_iff_getElem?.mp ht
  obtain ⟨c, hc', hchannel⟩ := h.channel hk
  obtain rfl := Option.some.inj (hc.symm.trans hc')
  rcases hchannel.underWay with ⟨r, hr⟩ | ⟨-, hne⟩
  · cases hr
  · exact hne rfl

/-- **While a call is under way and goes on, no other begins.** -/
theorem Advance.begins_eq_nil (a : m.Advance i m') (oneByOne : m'.OneByOne f)
    (hway : m.UnderWay (.create f) t) (hway' : m'.UnderWay (.create f) t) :
    m.begins f i = [] := by
  by_contra hnew
  obtain ⟨u, ns, -, -, hc, -, -, hc'⟩ := a.begins_eq hnew
  have hu : m'.UnderWay (.create f) u := ⟨_, hc', rfl, by simp [Operation.control]⟩
  obtain rfl := oneByOne.alone hway' hu
  obtain ⟨c, hc₀, -, hne⟩ := hway
  exact hne (Option.some.inj (hc₀.symm.trans hc))

/-- **When a call begins, no other is under way.** -/
theorem Advance.idle_of_begin {hap : Happening} (a : m.Advance (.stepped t hap) m') (r : Run is m)
    (oneByOne : m'.OneByOne f) (hc : m.control? t = some (Operation.create f).control)
    (hway' : m'.UnderWay (.create f) t) (u : ThreadId) : ¬ m.UnderWay (.create f) u := by
  intro hu
  rcases a.underWay r hu with hu' | ⟨out, hout⟩
  · obtain rfl := oneByOne.alone hway' hu'
    obtain ⟨c, hc₀, -, hne⟩ := hu
    exact hne (Option.some.inj (hc₀.symm.trans hc))
  · -- it would have returned in this step, which is another thread's
    have hne : t ≠ u := fun heq => hway'.ne_finished out (heq ▸ hout)
    rw [a.control?_of_ne hu.lt_size fun hap heq => hne (Incident.stepped.inj heq).1] at hout
    exact hu.ne_finished out hout

section Advance

variable (h : m.Allotted f fl width j is) (r : Run is m) (a : m.Advance i m')
  (few : j.callers.length < 2 ^ 64)
  (hfac : ∀ fac, m.store.factories[f]? = some fac →
    fac.flavor = fl ∧ fac.terms.workerCount = width)

include h r a few hfac

/-- **A step of a call does what stands in the journal**, and nothing else. -/
theorem Allotted.faithful {hap : Happening} (ho : CarriesOut is t (.create f))
    (hi : i = .stepped t hap) :
    m'.store.memory = ((m.effectsBy f t i).foldl (Effect.apply f) m.store).memory := by
  subst hi
  obtain ⟨c, hc⟩ : ∃ c, m.control? t = some c := by
    cases a with
    | act hc => exact ⟨_, hc⟩
    | answer hc => exact ⟨_, hc⟩
  by_cases hway : m.UnderWay (.create f) t
  · obtain ⟨ts, hts, -⟩ := h.busy hway
    rw [effectsBy_self hway hc]
    cases a with
    | act hc' hmove =>
      obtain rfl := Option.some.inj (hc.symm.trans hc')
      exact (h.act r few hfac hts hway hc hmove).2.1
    | answer hc' hmove =>
      obtain rfl := Option.some.inj (hc.symm.trans hc')
      rw [store_answer, Control.effects_of_ask hmove]
      rfl
  · -- it stands where its call begins
    have hbegin : c = (Operation.create f).control := by
      by_contra hne
      cases c with
      | finished out => exact a.not_finished hc
      | running stack => exact hway ⟨_, hc, r.from_of_carriesOut ho hc, hne⟩
    rw [effectsBy_of_not_underWay hway, (a.begin (hbegin ▸ hc)).2.1]
    rfl

/-- **What a caller has been given it keeps**, and what it does is in the journal. -/
theorem Allotted.channel_advance {k : Nat} (hk : j.callers[k]? = some t) :
    ∃ c, m'.control? t = some c ∧ c.Channel m'.store f fl (k % width) (.ofNat k)
      (j.effects t ++ m.effectsBy f t i) (answersTo t (is ++ [i])) := by
  obtain ⟨c, hc, hchannel⟩ := h.channel hk
  by_cases hi : ∃ hap, i = .stepped t hap
  case neg =>
    have hne (hap : Happening) : i ≠ .stepped t hap := fun heq => hi ⟨hap, heq⟩
    rw [effectsBy_of_ne hne, List.append_nil, answersTo_of_ne hne,
      a.control?_of_ne (lt_size_of_control? hc) hne]
    exact ⟨c, hc, hchannel.mono a.grows⟩
  obtain ⟨hap, rfl⟩ := hi
  have hway := h.underWay (List.mem_of_getElem? hk) a
  obtain ⟨ts, hts, -⟩ := h.busy hway
  rw [effectsBy_self hway hc]
  cases a with
  | @act _ _ c' g ns hc' hmove =>
    obtain rfl := Option.some.inj (hc.symm.trans hc')
    have hlast : k = ts.length := by
      refine (List.getElem?_inj (List.getElem?_eq_some_iff.mp hk).1 h.nodup).mp (hk.trans ?_)
      rw [hts, List.getElem?_concat_length]
    subst hlast
    refine ⟨c', control?_act_self hc, ?_⟩
    rw [answersTo_concat]
    refine (List.append_nil (answersTo t is)).symm ▸ ?_
    exact (h.act r few hfac hts hway hc hmove).1
  | @answer _ _ q after hc' hmove reply =>
    obtain rfl := Option.some.inj (hc.symm.trans hc')
    refine ⟨after reply, control?_answer_self reply hc, ?_⟩
    rw [store_answer, Control.effects_of_ask hmove, List.append_nil, answersTo_concat,
      Incident.answersTo, if_pos rfl]
    exact hchannel.ask reply hmove

/-- What the call under way does is counted, and nobody else does anything. -/
theorem Allotted.standing_advance {ts : List ThreadId} (hway : m.UnderWay (.create f) t)
    (hts : j.callers = ts ++ [t]) :
    m'.store.Standing f width ts.length (j.effects t ++ m.effectsBy f t i) := by
  obtain ⟨ts', hts', -, hstanding⟩ := h.busy hway
  obtain rfl : ts = ts' := (List.append_inj' (hts.symm.trans hts') rfl).1
  by_cases hi : ∃ hap, i = .stepped t hap
  case neg =>
    rw [effectsBy_of_ne fun hap heq => hi ⟨hap, heq⟩, List.append_nil]
    exact a.standing (fun u hap heq hu => hi ⟨hap, h.alone hway hu ▸ heq⟩) hstanding
  obtain ⟨hap, rfl⟩ := hi
  cases a with
  | act hc hmove =>
    rw [effectsBy_self hway hc]
    exact (h.act r few hfac hts hway hc hmove).2.2
  | answer hc hmove =>
    rw [effectsBy_self hway hc, Control.effects_of_ask hmove, List.append_nil, store_answer]
    exact hstanding

/-- **When the call under way has returned**, one call more has been given something. -/
theorem Allotted.standing_of_returned {ts : List ThreadId} (hway : m.UnderWay (.create f) t)
    (hts : j.callers = ts ++ [t]) {out : Outcome} (hc' : m'.control? t = some (.finished out)) :
    m'.store.Standing f width j.callers.length [] := by
  have hstanding := h.standing_advance r a few hfac hway hts
  have hk : j.callers[ts.length]? = some t := by rw [hts, List.getElem?_concat_length]
  obtain ⟨c, hc, hchannel⟩ := h.channel_advance r a few hfac hk
  obtain rfl := Option.some.inj (hc'.symm.trans hc)
  obtain ⟨res, hres⟩ : ∃ res, Control.finished out = .finished (.created res) := by
    rcases hchannel.underWay with hres | ⟨hop, -⟩
    · exact hres
    · cases hop
  rw [hres] at hchannel
  obtain ⟨hpicks, hdraws⟩ := hchannel.ends.counts
  have henrols := hchannel.countP_isEnrolment_le
  obtain ⟨hissued, hnumbered⟩ := hstanding
  rw [hpicks, hdraws] at hissued
  have hlength : j.callers.length = ts.length + 1 := by rw [hts, List.length_append]; rfl
  rw [hlength]
  exact ⟨hissued, hnumbered.mono (Nat.add_le_add_left henrols _) fun {_ q} found _ =>
    ⟨q.status, found⟩⟩

/-- **One thing more happens**, and everybody has what they are to have. -/
theorem Allotted.advance (oneByOne : m'.OneByOne f) :
    m'.Allotted f fl width (m.record f i j) (is ++ [i]) := by
  have hquiet (hidle : ∀ t, ¬ m'.UnderWay (.create f) t) : m.begins f i = [] := by
    by_contra hnew
    obtain ⟨u, ns, -, -, -, -, -, hc'⟩ := a.begins_eq hnew
    exact hidle u ⟨_, hc', rfl, by simp [Operation.control]⟩
  refine ⟨?channel, ?nodup, ?silent, ?busy, ?idle⟩
  case channel =>
    intro k t hk
    rw [record, List.getElem?_append] at hk
    split at hk
    · exact h.channel_advance r a few hfac hk
    · -- it has just begun
      obtain ⟨u, ns, rfl, hnew, hc, -, hstore, hc'⟩ := a.begins_eq (List.ne_nil_of_mem
        (List.mem_of_getElem? hk))
      rw [hnew, List.getElem?_singleton] at hk
      split at hk
      case isFalse => cases hk
      obtain rfl := Option.some.inj hk
      refine ⟨_, hc', ?_⟩
      rw [h.effects_record (h.not_mem_of_control hc), answersTo_concat, r.answersTo_of_control hc]
      exact .pick
  case nodup =>
    rw [record]
    by_cases hnew : m.begins f i = []
    · rw [hnew, List.append_nil]
      exact h.nodup
    · obtain ⟨u, ns, -, hnew, hc, -⟩ := a.begins_eq hnew
      rw [hnew]
      refine h.nodup.append (List.nodup_singleton u) fun t ht hu => ?_
      obtain rfl := List.mem_singleton.mp hu
      exact h.not_mem_of_control hc ht
  case silent =>
    intro t ht
    rw [record, List.mem_append, not_or] at ht
    exact h.effects_record ht.1
  case busy =>
    intro t hway'
    rcases a.underWay_of r hway' with hway | ⟨hc, hap, rfl⟩
    · obtain ⟨ts, hts, hup, -⟩ := h.busy hway
      refine ⟨ts, ?_, fun hup' => ?_, h.standing_advance r a few hfac hway hts⟩
      · rw [record, a.begins_eq_nil oneByOne hway hway', List.append_nil, hts]
      · obtain ⟨u, hu⟩ := a.letGoOf_back r hup hup'
        exact oneByOne.up hway' hu
    · -- it has just begun
      obtain ⟨-, hstore, hc'⟩ := a.begin hc
      have hup : ¬ m.LetGoOf f := by
        intro hup
        rw [if_pos hup] at hc'
        exact hway'.ne_finished _ hc'
      have hidle := a.idle_of_begin r oneByOne hc hway'
      refine ⟨j.callers, ?_, ?_, ?_⟩
      · rw [record, begins, if_pos ⟨hc, hup⟩]
      · rw [LetGoOf, hstore]
        exact hup
      · rw [hstore, h.effects_record (h.not_mem_of_control hc)]
        exact h.idle hidle
  case idle =>
    intro hidle'
    rw [record, hquiet hidle', List.append_nil]
    by_cases hway : ∃ u, m.UnderWay (.create f) u
    · obtain ⟨u, hu⟩ := hway
      obtain ⟨ts, hts, -⟩ := h.busy hu
      obtain ⟨out, hout⟩ := (a.underWay r hu).resolve_left (hidle' u)
      exact h.standing_of_returned r a few hfac hu hts hout
    · exact a.standing (fun u _ _ hu => hway ⟨u, hu⟩) (h.idle fun u hu => hway ⟨u, hu⟩)

end Advance

/-- The factory has had the same terms all the time. -/
theorem Sequential.allotted (h : Sequential f j is m) (few : j.callers.length < 2 ^ 64)
    (hfac : ∀ fac, m.store.factories[f]? = some fac →
      fac.flavor = fl ∧ fac.terms.workerCount = width) : m.Allotted f fl width j is := by
  induction h with
  | empty => exact .empty
  | @advance j is m m' i h a oneByOne ih =>
    have few : j.callers.length < 2 ^ 64 :=
      Nat.lt_of_le_of_lt (by rw [record, List.length_append]; exact Nat.le_add_right ..) few
    have hfac : ∀ fac, m.store.factories[f]? = some fac →
        fac.flavor = fl ∧ fac.terms.workerCount = width := by
      intro fac found
      obtain ⟨fac', found', hgrows⟩ := a.grows.factory found
      rw [← hgrows.flavor, ← hgrows.terms]
      exact hfac fac' found'
    exact (ih few hfac).advance h.run a few hfac oneByOne

/-! ## Calls that are given nothing -/

/-- **The callers have called** for channels of the factory. -/
theorem Sequential.carriesOut (h : Sequential f j is m) (ht : t ∈ j.callers) :
    CarriesOut is t (.create f) := by
  induction h with
  | empty => cases ht
  | @advance j is m m' i h a apart ih =>
    rw [record, List.mem_append] at ht
    rcases ht with ht | ht
    · exact CarriesOut.append (ih ht)
    · obtain ⟨u, ns, -, hnew, hc, -⟩ := a.begins_eq (List.ne_nil_of_mem ht)
      rw [hnew, List.mem_singleton] at ht
      subst ht
      exact CarriesOut.append (h.run.carriesOut hc rfl)

/-- **Whoever has called and is not among the callers** has not begun, or has found that the
factory has been released. -/
theorem Sequential.refused (h : Sequential f j is m) (ho : CarriesOut is t (.create f))
    (ht : t ∉ j.callers) : m.control? t = some (Operation.create f).control
      ∨ m.control? t = some (.finished (.created (.error .released))) ∧ m.LetGoOf f := by
  induction h with
  | empty => cases ho
  | @advance j is m m' i h a apart ih =>
    rw [record, List.mem_append, not_or] at ht
    by_cases hlt : t < (origins is).length
    case neg =>
      -- it has just been called
      refine .inl ((a.run h.run).control?_of_unmoved ho fun hap hmem => ?_)
      rcases List.mem_append.mp hmem with hi | hi
      · exact hlt (h.run.lt_size_of_stepped hi)
      · obtain rfl := List.mem_singleton.mp hi
        exact hlt (h.run.originates.1 ▸ a.lt_size)
    have hold := ih (ho.of_append hlt) ht.1
    by_cases hi : ∃ hap, i = .stepped t hap
    case neg =>
      rw [a.control?_of_ne (h.run.originates.1 ▸ hlt) fun hap heq => hi ⟨hap, heq⟩]
      exact hold.imp_right (And.imp_right a.letGoOf)
    obtain ⟨hap, rfl⟩ := hi
    rcases hold with hc | ⟨hc, -⟩
    · obtain ⟨-, -, hc'⟩ := a.begin hc
      have hup : m.LetGoOf f := by
        by_contra hup
        exact ht.2 (by rw [begins, if_pos ⟨hc, hup⟩]; exact List.mem_singleton.mpr rfl)
      rw [if_pos hup] at hc'
      exact .inr ⟨hc', a.letGoOf hup⟩
    · exact absurd hc a.not_finished

/-- **Whoever has returned holds no lock.** -/
theorem Run.holder?_ne_of_finished (r : Run is m) {out : Outcome}
    (hc : m.control? t = some (.finished out)) (k : Lock) : m.store.locks.holder? k ≠ some t := by
  cases hb : k.isBrief with
  | true =>
    rw [Ne, r.traffic.holder?_eq_some_iff hb, grip?_eq hc]
    rintro ⟨⟩
  | false =>
    cases k with
    | registration l => exact r.traffic.turned.holder?_ne (turns_eq hc)
    | _ => cases hb

/-- Between calls nobody is about to let an endpoint of the factory come about. -/
theorem total_binding_eq_zero (hidle : ∀ t, ¬ m.UnderWay (.create f) t) (w : Nat) :
    m.total (fun _ => binding ⟨f, .worker w⟩) = 0 := by
  refine total_eq_zero_iff.mpr fun t c hc => ?_
  by_contra hne
  unfold binding at hne
  split at hne
  · rename_i f' w' n below
    split at hne
    · rename_i heq
      cases heq
      exact hidle t ⟨_, hc, rfl, by simp [Operation.control]⟩
    · exact hne rfl
  · rename_i f' w' n below
    split at hne
    · rename_i heq
      cases heq
      exact hidle t ⟨_, hc, rfl, by simp [Operation.control]⟩
    · exact hne rfl
  · exact hne rfl

/-! ## What the calls are given -/

/-- **Calls for channels of a factory that do not overlap.** The call with `k` calls before it is
given the number `k` and the worker that this tells. -/
structure Allotment (m : Machine) (is : List Incident) (f : FactoryId) (fac : Factory)
    (j : Journal) : Prop where
  /-- Those in the journal have called, -/
  calls : ∀ {t : ThreadId}, t ∈ j.callers → CarriesOut is t (.create f)
  /-- each of them once. -/
  nodup : j.callers.Nodup
  /-- Everybody else who has called has not begun, or has found that the factory has been
  released, and has done nothing. -/
  refused : ∀ {t : ThreadId}, CarriesOut is t (.create f) → t ∉ j.callers → j.effects t = []
    ∧ (m.control? t = some (Operation.create f).control
      ∨ m.control? t = some (.finished (.created (.error .released))) ∧ m.LetGoOf f)
  /-- The cursor and the counter tell how many calls there have been. -/
  issued : (∀ t, ¬ m.UnderWay (.create f) t) →
    m.store.issued f = (.ofNat j.callers.length, .ofNat j.callers.length)
  /-- Whatever comes of it, a call picks its worker first and draws its number next. -/
  taken : ∀ {k : Nat} {t : ThreadId}, j.callers[k]? = some t →
    (j.effects t).take 2 <+: [.picks (k % fac.terms.workerCount), .draws (.ofNat k)]
  /-- What comes of a call, and what it has done when it has returned. -/
  ends : ∀ {k : Nat} {t : ThreadId} {out : Outcome}, j.callers[k]? = some t →
    m.control? t = some (.finished out) → ∃ res, out = .created res
      ∧ ChannelEnds m.store f fac.flavor (k % fac.terms.workerCount) (.ofNat k) res (j.effects t)
        (answersTo t is)
  /-- A step of a call does what stands in the journal and nothing else, -/
  faithful : ∀ {t : ThreadId} {hap : Happening} {m' : Machine}, CarriesOut is t (.create f) →
    m.Advance (.stepped t hap) m' → m'.store.memory
      = ((m.effectsBy f t (.stepped t hap)).foldl (Effect.apply f) m.store).memory
  /-- and when it has returned it holds no lock. -/
  lets : ∀ {t : ThreadId} {out : Outcome}, m.control? t = some (.finished out) →
    ∀ k, m.store.locks.holder? k ≠ some t
  /-- The number of an endpoint tells its worker. -/
  bound : ∀ {e : EndpointId} {q : Endpoint}, m.store.endpoints[e]? = some q → q.factory = f →
    q.worker = q.number.toNat % fac.terms.workerCount ∧ q.number.toNat < j.callers.length
  /-- Numbers increase in the order in which the endpoints have come about. -/
  increasing : ∀ {e e' : EndpointId} {q q' : Endpoint}, e < e' →
    m.store.endpoints[e]? = some q → m.store.endpoints[e']? = some q' → q.factory = f →
    q'.factory = f → q.number < q'.number
  /-- A worker has been assigned the endpoints that are bound to it. -/
  assigned : (∀ t, ¬ m.UnderWay (.create f) t) →
    ∀ w, m.store.assigned f w = (m.store.boundTo f w).card

/-- **Channels that are made one after the other.** Calls for channels of a factory overlap neither
one another nor a release of it, and there have been fewer of them than there are numbers. -/
theorem Sequential.allotment (h : Sequential f j is m) {fac : Factory}
    (found : m.store.factories[f]? = some fac) (few : j.callers.length < 2 ^ 64) :
    m.Allotment is f fac j := by
  have hfac : ∀ fac', m.store.factories[f]? = some fac' →
      fac'.flavor = fac.flavor ∧ fac'.terms.workerCount = fac.terms.workerCount := by
    intro fac' found'
    obtain rfl := Option.some.inj (found.symm.trans found')
    exact ⟨rfl, rfl⟩
  have r := h.run
  have hall := h.allotted few hfac
  have hnumbered : m.store.Numbered f fac.terms.workerCount j.callers.length := by
    by_cases hway : ∃ t, m.UnderWay (.create f) t
    · obtain ⟨t, ht⟩ := hway
      obtain ⟨ts, hts, -, hstanding⟩ := hall.busy ht
      have hk : j.callers[ts.length]? = some t := by rw [hts, List.getElem?_concat_length]
      obtain ⟨c, -, hchannel⟩ := hall.channel hk
      refine hstanding.numbered.mono ?_ fun {_ q} found _ => ⟨q.status, found⟩
      rw [hts, List.length_append]
      exact Nat.add_le_add_left hchannel.countP_isEnrolment_le _
    · exact (hall.idle fun t ht => hway ⟨t, ht⟩).numbered
  refine ⟨h.carriesOut, hall.nodup, fun ho ht => ⟨hall.silent ht, h.refused ho ht⟩,
    fun hidle => (hall.idle hidle).issued, ?taken, ?ends, ?faithful, r.holder?_ne_of_finished,
    hnumbered.below, hnumbered.increasing, ?assigned⟩
  case taken =>
    intro k t hk
    obtain ⟨c, -, hchannel⟩ := hall.channel hk
    exact hchannel.take_effects
  case ends =>
    intro k t out hk hc
    obtain ⟨c, hc', hchannel⟩ := hall.channel hk
    obtain rfl := Option.some.inj (hc.symm.trans hc')
    rcases hchannel.underWay with ⟨res, hres⟩ | ⟨hop, -⟩
    · obtain rfl := Control.finished.inj hres
      exact ⟨res, rfl, hchannel.ends⟩
    · cases hop
  case faithful => exact fun ho a => hall.faithful r a few hfac ho rfl
  case assigned =>
    intro hidle w
    rw [r.assigned_eq, total_binding_eq_zero hidle, Nat.add_zero]

end Machine

/-! ## Playing such a history -/

/-- **Channels are made one after the other**, and what it leads to. -/
structure Series (f : FactoryId) where
  journal : Journal
  incidents : List Incident
  machine : Machine
  sequential : Machine.Sequential f journal incidents machine

namespace Series

variable {f : FactoryId}

/-- Nothing has happened. -/
def empty : Series f := ⟨_, _, _, .empty⟩

/-- One thing more happens, unless calls were to overlap. -/
def advance (se : Series f) {i : Incident} {m : Machine} (a : se.machine.Advance i m) : Series f :=
  if apart : m.OneByOne f then ⟨_, _, _, se.sequential.advance a apart⟩ else se

/-- Somebody builds a factory. -/
def build (se : Series f) (b : Blueprint) : Series f := se.advance (.build b)

/-- Somebody calls an operation. -/
def call (se : Series f) (o : Operation) : Series f := se.advance (.call none o)

/-- **A thread makes so many steps**, and is told this. -/
def turn (se : Series f) (replies : (q : Request) → q.Reply) (t : ThreadId) : Nat → Series f
  | 0 => se
  | n + 1 =>
    match hmove : se.machine.move t with
    | .act _ _ _ => turn (se.advance (Machine.Step.act hmove).advance) replies t n
    | .ask q _ =>
      turn (se.advance (Machine.Step.answer hmove (replies q)).advance) replies t n
    | .blocked _ | .stuck => se

/-- A datagram factory with two workers is asked for three channels. The first worker has no
multiplexer, the second is refused, and then the first is served. The factory is released, and
a fourth channel is not to be had. -/
def faltering : Series 0 :=
  let failed := ((empty.build .pair).call (.create 0)).turn Machine.unserved 0 20
  let refused := (failed.call (.create 0)).turn Machine.unobliged 1 20
  let made := (refused.call (.create 0)).turn Machine.granted 2 40
  let released := (made.call (.release 0)).turn Machine.granted 4 60
  (released.call (.create 0)).turn Machine.granted 5 20

end Series

/-- The first two calls take a number and a worker each, although they fail, and the third call is
given the number two and the first worker again. -/
theorem allotment_faltering :
    let m := Series.faltering.machine
    let j := Series.faltering.journal
    let told (e : Failure) := some (Control.finished (.created (.error e)))
    ∃ fac, m.store.factories[0]? = some fac ∧ fac.flavor = .datagram
      ∧ fac.terms.workerCount = 2 ∧ j.callers = [0, 1, 2]
      ∧ m.control? 0 = told (.unopened ⟨"fake", none⟩ "none left")
      ∧ m.control? 1 = told (.refused .worker)
      ∧ m.store.endpoints.toList.map (fun q => (q.worker, q.number)) = [(0, 2)]
      ∧ m.control? 5 = told .released
      ∧ m.Allotment Series.faltering.incidents 0 fac j := by
  intro m j told
  have hterms : (m.store.factories[0]?).map (fun fac => (fac.flavor, fac.terms.workerCount))
      = some (.datagram, 2) := by decide +kernel
  obtain ⟨fac, hfac, hfac'⟩ := Option.map_eq_some_iff.mp hterms
  obtain ⟨hflavor, hcount⟩ := Prod.mk.inj hfac'
  -- the series is played once for all
  have hplayed : j.callers = [0, 1, 2] ∧ m.control? 0 = told (.unopened ⟨"fake", none⟩ "none left")
      ∧ m.control? 1 = told (.refused .worker)
      ∧ m.store.endpoints.toList.map (fun q => (q.worker, q.number)) = [(0, 2)]
      ∧ m.control? 5 = told .released := by decide +kernel
  obtain ⟨hcallers, hfirst, hsecond, hendpoints, hlast⟩ := hplayed
  refine ⟨fac, hfac, hflavor, hcount, hcallers, hfirst, hsecond, hendpoints, hlast, ?_⟩
  exact Series.faltering.sequential.allotment hfac (by rw [hcallers]; decide)

end EndpointControl
