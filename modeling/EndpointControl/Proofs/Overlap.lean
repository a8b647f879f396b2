import EndpointControl.Proofs.Making
import EndpointControl.Proofs.FactoryWakes

/-!
# Calls that overlap

An operation is under way from its first step to its return (`Machine.UnderWay`). Calls for
channels of a factory that overlap neither one another nor a release of it are made one by one
(`Machine.OneByOne`), whatever else goes on meanwhile.

Nothing else moves the cursor and the counter of the factory (`Control.issued_of_act`) or lets an
endpoint of it come about (`Control.endpoints_back`), and while such a call is under way nobody lets
the factory go (`Machine.Advance.letGoOf_back`).
-/

namespace EndpointControl

/-! ## Operations that are under way -/

/-- Nobody comes to where an operation begins by being answered. -/
theorem Control.ne_control_of_ask {s : Store} {t : ThreadId} {c : Control} {q : Request}
    {after : q.Reply → Control} (reply : q.Reply) (h : c.move s t = .ask q after)
    (o : Operation) : after reply ≠ o.control := by
  obtain ⟨fr, below, rfl, ha⟩ := asks h
  intro heq
  cases ha with
  | openNew => cases o <;> cases reply <;> cases heq
  | wakeSubmit => cases o <;> cases reply <;> cases heq
  | wakeSignal => cases o <;> cases reply <;> cases heq
  | _ => cases o <;> cases heq

/-- **A step of an operation goes on with it**, or returns. -/
theorem Control.operation?_of_act {s : Store} {t : ThreadId} {c c' : Control} {g : Store → Store}
    {ns : List Note} (hc : c.Sound s) (h : c.move s t = .act g c' ns) :
    (∃ r, c' = .finished r) ∨ c'.operation? = c.operation? := by
  obtain ⟨fr, below, rfl, hgoes⟩ := goes_of_act h
  have hfrom : c'.From (Control.running (fr :: below)).operation? := From.of_goes hc.2.2 rfl hgoes
  cases c' with
  | finished r => exact .inl ⟨r, rfl⟩
  | running stack => exact .inr hfrom

/-- An answer goes on with it. -/
theorem Control.operation?_of_ask {s : Store} {t : ThreadId} {c : Control} {q : Request}
    {after : q.Reply → Control} (reply : q.Reply) (h : c.move s t = .ask q after) :
    (after reply).operation? = c.operation? := by
  obtain ⟨fr, fr', below, rfl, hsame, hafter⟩ := goes_of_ask reply h
  rw [hafter, operation?, operation?, List.findSome?_cons, List.findSome?_cons, hsame.operation?]

namespace Machine

variable {m m' : Machine} {i : Incident} {is : List Incident} {t u : ThreadId} {o : Operation}

/-- **The thread is in the midst of the operation**: it has begun it and has not returned. -/
def UnderWay (m : Machine) (o : Operation) (t : ThreadId) : Prop :=
  ∃ c, m.control? t = some c ∧ c.operation? = some o ∧ c ≠ o.control

instance (m : Machine) (o : Operation) (t : ThreadId) : Decidable (m.UnderWay o t) :=
  decidable_of_iff ((m.control? t).any fun c => c.operation? = some o ∧ c ≠ o.control) (by
    simp [Option.any_eq_true, UnderWay])

/-- **Whoever stands where its operation begins** has not moved. -/
theorem Run.unmoved_of_control (r : Run is m) : m.control? t = some o.control →
    ∀ h, .stepped t h ∉ is := by
  refine r.induction (motive := fun is m => m.control? t = some o.control →
    ∀ h, .stepped t h ∉ is) (fun _ h => List.not_mem_nil) ?_
  intro is m i m' r ih a hc h hmem
  have hsound := r.reachable.sound.2
  have hlt (hi : .stepped t h ∈ is) : t < m.threads.size := r.originates.1 ▸ r.lt_size_of_stepped hi
  rcases List.mem_append.mp hmem with hi | hi
  · cases a.places hc with
    | kept hc => exact ih hc h hi
    | acted hc hmove => exact (hsound t _ hc).ne_control_of_act hmove o rfl
    | answered reply _ hmove hafter => exact Control.ne_control_of_ask reply hmove o hafter.symm
    | called ht => exact absurd (hlt hi) (ht ▸ Nat.lt_irrefl _)
    | served ht => exact absurd (hlt hi) (ht ▸ Nat.lt_irrefl _)
  · obtain rfl := List.mem_singleton.mp hi
    cases a.places hc with
    | kept _ hne => exact hne h rfl
    | acted hc hmove => exact (hsound t _ hc).ne_control_of_act hmove o rfl
    | answered reply _ hmove hafter => exact Control.ne_control_of_ask reply hmove o hafter.symm
    | called ht => exact absurd a.lt_size (ht ▸ Nat.lt_irrefl _)
    | served ht => exact absurd a.lt_size (ht ▸ Nat.lt_irrefl _)

/-- Then it has not been told anything. -/
theorem Run.answersTo_of_control (r : Run is m) (hc : m.control? t = some o.control) :
    answersTo t is = [] := by
  refine List.flatMap_eq_nil_iff.mpr fun i hi => ?_
  cases i with
  | stepped t' h =>
    cases h with
    | acted => rfl
    | answered q reply =>
      rw [Incident.answersTo, if_neg]
      rintro rfl
      exact r.unmoved_of_control hc _ hi
  | called => rfl
  | built => rfl

theorem UnderWay.exists_control (h : m.UnderWay o t) : ∃ c, m.control? t = some c :=
  h.imp fun _ h => h.1

/-- Then it has not returned. -/
theorem UnderWay.ne_finished (h : m.UnderWay o t) (out : Outcome) :
    m.control? t ≠ some (.finished out) := by
  obtain ⟨c, hc, hop, -⟩ := h
  rw [hc, Ne, Option.some_inj]
  rintro rfl
  cases hop

theorem UnderWay.lt_size (h : m.UnderWay o t) : t < m.threads.size := by
  obtain ⟨c, hc⟩ := h.exists_control
  exact lt_size_of_control? hc

/-- **Whoever is in the midst of an operation** was before, or has just begun it. -/
theorem Advance.underWay_of (a : m.Advance i m') (r : Run is m) (h : m'.UnderWay o t) :
    m.UnderWay o t ∨ m.control? t = some o.control ∧ ∃ h, i = .stepped t h := by
  obtain ⟨d, hd, hop, hne⟩ := h
  cases a.places hd with
  | kept hc => exact .inl ⟨d, hc, hop, hne⟩
  | @acted c g ns hc hmove hm hi =>
    rcases Control.operation?_of_act (r.reachable.sound.2 t c hc) hmove with ⟨out, rfl⟩ | hsame
    · cases hop
    · by_cases hbegin : c = o.control
      · exact .inr ⟨hbegin ▸ hc, _, hi⟩
      · exact .inl ⟨c, hc, hsame.symm.trans hop, hbegin⟩
  | answered reply hc hmove hafter =>
    subst hafter
    refine .inl ⟨_, hc, (Control.operation?_of_ask reply hmove).symm.trans hop, ?_⟩
    rintro rfl
    cases o <;> obtain ⟨fr, below, heq, ha⟩ := Control.asks hmove <;> cases heq <;> cases ha
  | @called home o' ht hd hi =>
    subst hd
    have hop : o' = o := by cases o' <;> exact Option.some.inj hop
    exact absurd (hop ▸ rfl) hne
  | served _ _ _ hd =>
    subst hd
    cases hop

/-- **Whoever is in the midst of an operation** is there still, or has returned. -/
theorem Advance.underWay (a : m.Advance i m') (r : Run is m) (h : m.UnderWay o t) :
    m'.UnderWay o t ∨ ∃ out, m'.control? t = some (.finished out) := by
  obtain ⟨c, hc, hop, hne⟩ := h
  obtain ⟨d, hd⟩ := a.exists_place hc
  cases a.places hd with
  | kept hc' =>
    obtain rfl := Option.some.inj (hc.symm.trans hc')
    exact .inl ⟨c, hd, hop, hne⟩
  | acted hc' hmove =>
    obtain rfl := Option.some.inj (hc.symm.trans hc')
    have hsound := r.reachable.sound.2 t c hc
    rcases Control.operation?_of_act hsound hmove with ⟨out, rfl⟩ | hsame
    · exact .inr ⟨out, hd⟩
    · exact .inl ⟨d, hd, hsame.trans hop, hsound.ne_control_of_act hmove o⟩
  | answered reply hc' hmove hafter =>
    obtain rfl := Option.some.inj (hc.symm.trans hc')
    subst hafter
    exact .inl ⟨_, hd, (Control.operation?_of_ask reply hmove).trans hop,
      Control.ne_control_of_ask reply hmove o⟩
  | called ht => exact absurd (lt_size_of_control? hc) (ht ▸ Nat.lt_irrefl _)
  | served ht => exact absurd (lt_size_of_control? hc) (ht ▸ Nat.lt_irrefl _)

end Machine

/-! ## What others do to the cursor and the counter -/

section Procedures

variable {s : Store} {t : ThreadId} {f : FactoryId} {below : List Frame} {g : Store → Store}
  {c c' : Control} {ns : List Note}

theorem StartPoint.issued_of_act {id : LoopId} {l : Loop} {p : StartPoint}
    (h : p.move s t below id l = .act g c ns) : (g s).issued f = s.issued f := by
  cases p <;> simp [StartPoint.move] at h
  case takeSlot => exact h.2.1 ▸ rfl
  case fillSlot | mark => exact h.1 ▸ s.issued_modifyLoop ..
  all_goals exact h.1 ▸ rfl

theorem SubmitPoint.issued_of_act {id : LoopId} {l : Loop} {j : Job} {p : SubmitPoint}
    (h : p.move s t below id l j = .act g c ns) : (g s).issued f = s.issued f := by
  cases p <;> simp [SubmitPoint.move] at h
  case takeSlot | takeQueue => exact h.2.1 ▸ rfl
  case append => exact h.1 ▸ s.issued_modifyLoop ..
  case serialize =>
    split at h <;> simp at h
    · exact h.2.1 ▸ rfl
    · exact h.1 ▸ rfl
  case leave => split at h <;> simp at h <;> exact h.1 ▸ rfl
  all_goals exact h.1 ▸ rfl

theorem SignalPoint.issued_of_act {id : LoopId} {l : Loop} {p : SignalPoint}
    (h : p.move s t below id l = .act g c ns) : (g s).issued f = s.issued f := by
  cases p <;> simp [SignalPoint.move] at h
  case raise => exact h.1 ▸ s.issued_modifyLoop ..
  case takeSlot => exact h.2.1 ▸ rfl
  all_goals exact h.1 ▸ rfl

theorem ServePoint.issued_of_act {id : LoopId} {l : Loop} {m : Multiplexer} {p : ServePoint}
    (h : p.move s t below id l m = .act g c ns) : (g s).issued f = s.issued f := by
  cases p
  case run batch n => cases batch <;> simp [ServePoint.move] at h <;> exact h.1 ▸ rfl
  case report n => cases n <;> simp [ServePoint.move] at h <;> exact h.1 ▸ rfl
  case discard rest n => cases rest <;> simp [ServePoint.move] at h <;> exact h.1 ▸ rfl
  all_goals simp [ServePoint.move] at h
  case serialize =>
    split at h <;> simp at h
    · exact h.2.1 ▸ rfl
    · exact h.1 ▸ rfl
  case takeQueue | takeQueueLast => exact h.2.1 ▸ rfl
  case takeBatch | takeRest | markExited => exact h.1 ▸ s.issued_modifyLoop ..
  case endTurn => split at h <;> simp at h <;> exact h.1 ▸ rfl
  all_goals exact h.1 ▸ rfl

theorem AttemptPoint.issued_of_act {id : EndpointId} {r : Endpoint} {a : Address}
    {p : AttemptPoint} (h : p.move below id r a = .act g c ns) :
    (g s).issued f = s.issued f := by
  cases p <;> simp [AttemptPoint.move] at h <;> exact h.1 ▸ rfl

theorem RegistrationPoint.issued_of_act {id : EndpointId} {r : Endpoint} {p : RegistrationPoint}
    (h : p.move s t below id r = .act g c ns) : (g s).issued f = s.issued f := by
  cases p <;> simp [RegistrationPoint.move] at h
  case takeStatus => exact h.2.1 ▸ rfl
  case count => exact h.1 ▸ s.issued_modifyFactory _ fun _ => rfl
  all_goals exact h.1 ▸ rfl

theorem DropPoint.issued_of_act {id : EndpointId} {r : Endpoint} {p : DropPoint}
    (h : p.move s t below id r = .act g c ns) : (g s).issued f = s.issued f := by
  cases p <;> simp [DropPoint.move] at h
  · exact h.2.1 ▸ rfl
  · exact h.1 ▸ rfl

/-- A call for a channel of another factory picks from that, and draws from that. -/
theorem CreatePoint.issued_of_act {id : FactoryId} {fac : Factory} {p : CreatePoint}
    (hne : id ≠ f) (h : p.move s below id fac = .act g c ns) : (g s).issued f = s.issued f := by
  have hother (k : Factory → Factory) : (s.modifyFactory id k).issued f = s.issued f := by
    rw [Store.issued, Store.modifyFactory, Array.getElem?_modify, if_neg hne, Store.issued]
  cases p <;> simp [CreatePoint.move] at h
  case pickWorker | drawNumber | count => exact h.1 ▸ hother _
  case submit | announce => split at h <;> simp at h; exact h.1 ▸ rfl
  all_goals exact h.1 ▸ rfl

theorem ConnectPoint.issued_of_act {id : EndpointId} {r : Endpoint} {a : Address}
    {p : ConnectPoint} (h : p.move s t below id r a = .act g c ns) :
    (g s).issued f = s.issued f := by
  cases p <;> simp [ConnectPoint.move] at h
  case takeStatus => exact h.2.1 ▸ rfl
  case begin => split at h <;> simp at h <;> exact h.1 ▸ rfl
  case count => exact h.1 ▸ s.issued_modifyFactory _ fun _ => rfl
  all_goals exact h.1 ▸ rfl

theorem ClosePoint.issued_of_act {id : EndpointId} {r : Endpoint} {p : ClosePoint}
    (h : p.move s t below id r = .act g c ns) : (g s).issued f = s.issued f := by
  cases p <;> simp [ClosePoint.move] at h
  · exact h.2.1 ▸ rfl
  · exact h.1 ▸ rfl

theorem ReleasePoint.issued_of_act {id : FactoryId} {fac : Factory} {p : ReleasePoint}
    (h : p.move below id fac = .act g c ns) : (g s).issued f = s.issued f := by
  cases p <;> simp [ReleasePoint.move] at h
  case raise => exact h.1 ▸ s.issued_modifyFactory _ fun _ => rfl
  case signalWorkers => split at h <;> simp at h <;> exact h.1 ▸ rfl
  case terminate => split at h <;> simp at h <;> exact h.1 ▸ rfl
  all_goals exact h.1 ▸ rfl

/-- **Nobody but a call for a channel of the factory** moves its cursor or its counter. -/
theorem Control.issued_of_act (hc : c.operation? ≠ some (.create f))
    (h : c.move s t = .act g c' ns) : (g s).issued f = s.issued f := by
  obtain ⟨fr, below, rfl, hm⟩ := moves_of_act h
  cases hm with
  | start found hp => exact StartPoint.issued_of_act hp
  | submit found hp => exact SubmitPoint.issued_of_act hp
  | signal found hp => exact SignalPoint.issued_of_act hp
  | serve found hp => exact ServePoint.issued_of_act hp
  | attempt found hp => exact AttemptPoint.issued_of_act hp
  | registration found hp => exact RegistrationPoint.issued_of_act hp
  | drop found hp => exact DropPoint.issued_of_act hp
  | create found hp =>
    refine CreatePoint.issued_of_act (fun hid => hc ?_) hp
    rw [hid]
    rfl
  | connect found hp => exact ConnectPoint.issued_of_act hp
  | close found hp => exact ClosePoint.issued_of_act hp
  | release found hp => exact ReleasePoint.issued_of_act hp

/-- What others leave of the endpoints of the factory. -/
theorem Control.endpoints_back (hc : c.operation? ≠ some (.create f))
    (h : c.move s t = .act g c' ns) {e : EndpointId} {r : Endpoint}
    (found : (g s).endpoints[e]? = some r) (hf : r.factory = f) :
    ∃ st, s.endpoints[e]? = some { r with status := st } := by
  have hgrows := Control.grows_of_move h
  have hcounts := Control.counts_of_act h
  generalize g s = s' at hgrows hcounts found
  cases hcounts with
  | nothing hsame =>
    have hhome := hsame.bindings e
    rw [found, Option.map_some] at hhome
    obtain ⟨r₀, hr₀, -⟩ := Option.map_eq_some_iff.mp hhome.symm
    obtain ⟨st, hst⟩ := hgrows.endpoint hr₀
    obtain rfl := Option.some.inj (found.symm.trans hst)
    exact ⟨r₀.status, hr₀⟩
  | registered => exact ⟨r.status, found⟩
  | assigned => exact ⟨r.status, found⟩
  | attempts => exact ⟨r.status, found⟩
  | @enrolled f' w n below =>
    have hne : f' ≠ f := fun heq => hc (by rw [heq]; rfl)
    rw [Store.enroll, Array.getElem?_push] at found
    split at found
    · exact absurd ((congrArg Endpoint.factory (Option.some.inj found)).trans hf) hne
    · exact ⟨r.status, found⟩

end Procedures

/-! ## One call after the other -/

namespace Machine

variable {m m' : Machine} {i : Incident} {is : List Incident} {t u : ThreadId} {f : FactoryId}

instance (m : Machine) (f : FactoryId) : Decidable (m.LetGoOf f) :=
  decidable_of_iff ((m.store.factories[f]?).any Factory.released = true) (Option.any_eq_true ..)

/-- **The calls of the factory do not overlap**, neither one another nor a release. -/
structure OneByOne (m : Machine) (f : FactoryId) : Prop where
  alone : ∀ {t u}, m.UnderWay (.create f) t → m.UnderWay (.create f) u → t = u
  up : ∀ {t u}, m.UnderWay (.create f) t → ¬ m.UnderWay (.release f) u

instance (m : Machine) (f : FactoryId) : Decidable (m.OneByOne f) :=
  decidable_of_iff (∀ t < m.threads.size, m.UnderWay (.create f) t →
      (∀ u < m.threads.size, m.UnderWay (.create f) u → t = u)
        ∧ ∀ u < m.threads.size, ¬ m.UnderWay (.release f) u) <| by
    constructor
    · exact fun h => ⟨fun ht hu => (h _ ht.lt_size ht).1 _ hu.lt_size hu,
        fun ht hu => (h _ ht.lt_size ht).2 _ hu.lt_size hu⟩
    · exact fun h t _ ht => ⟨fun u _ => h.alone ht, fun u _ => h.up ht⟩

/-- **A factory is let go by a release that is under way.** -/
theorem Advance.letGoOf_back (a : m.Advance i m') (r : Run is m) (hup : ¬ m.LetGoOf f)
    (h : m'.LetGoOf f) : ∃ u, m'.UnderWay (.release f) u := by
  obtain ⟨fac', hfac', hr⟩ := h
  cases id a with
  | @act u c c' g ns hc hmove =>
    rcases (Control.flags_of_act hmove).released f fac' hfac' hr with h | ⟨below, rfl⟩
    · exact absurd h hup
    · obtain rfl := (r.reachable.sound.2 u _ hc).2.2.eq_nil rfl
      obtain ⟨fac, hfac, -, -, hc'⟩ := a.raise hc
      have hdown : fac.released = false :=
        Bool.eq_false_of_not_eq_true fun hr => hup ⟨fac, hfac, hr⟩
      rw [if_neg (by rw [hdown]; exact Bool.false_ne_true)] at hc'
      exact ⟨u, _, hc', rfl, by simp [Operation.control]⟩
  | answer => exact absurd ⟨fac', by rwa [store_answer] at hfac', hr⟩ hup
  | call => exact absurd ⟨fac', hfac', hr⟩ hup
  | build b =>
    rcases (Flags.build (c := .finished .served) b).released f fac' hfac' hr with h | ⟨_, h⟩
    · exact absurd h hup
    · cases h

/-- **A call begins by looking whether the factory has been released**, and ends there if it
has. -/
theorem Advance.begin {hap : Happening} (a : m.Advance (.stepped t hap) m')
    (hc : m.control? t = some (Operation.create f).control) : (∃ ns, hap = .acted ns)
      ∧ m'.store = m.store ∧ m'.control? t = some (if m.LetGoOf f then
        .finished (.created (.error .released)) else .running [.create f .pickWorker]) := by
  cases a with
  | @act _ c c' g ns hc' hmove =>
    obtain rfl := Option.some.inj (hc.symm.trans hc')
    cases Control.moves_of_running hmove with | @create _ fac _ found hp =>
    simp [CreatePoint.move] at hp
    obtain ⟨rfl, rfl, -⟩ := hp
    have hiff : m.LetGoOf f ↔ fac.released = true := by simp [LetGoOf, found]
    refine ⟨⟨ns, rfl⟩, rfl, (control?_act_self hc).trans ?_⟩
    simp only [hiff]
  | answer hc' hmove =>
    obtain rfl := Option.some.inj (hc.symm.trans hc')
    obtain ⟨fr, below, heq, ha⟩ := Control.asks hmove
    cases heq
    cases ha

end Machine

end EndpointControl
