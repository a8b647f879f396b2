import EndpointControl.Proofs.Describing
import EndpointControl.Proofs.WaitAndWakeOutcomes
import EndpointControl.Scenario.Session

/-!
# What is built

In a session there are many drafts. They are begun, copied and added to in any order, and any of
them may be built any number of times. `Session.Told` follows what has been said about each of them,
a copy inheriting what had been said about the original, and so a draft is known by its history
(`Session.Told.drafts_eq`).

Building one adds the factory that has been described, and touches nothing else: no thread, no
executor, no provider (`Session.Builds`). Drafts and all the rest do not meet but there. A step that
describes something changes drafts only (`perform_of_describes`), and every other step but building
does the same whatever the drafts are (`perform_withDrafts`).
-/

namespace EndpointControl

/-! ## New factories -/

/-- The executor of the loop on a seat. -/
def Staffing.on (s : Staffing) (seat : Seat) : ExecutorId :=
  match s, seat with
  | .client b _, .boss => b
  | .client _ w, .worker _ => w
  | .datagram w, _ => w

/-- **A factory that nobody has used**, built from a blueprint. -/
structure Factory.Fresh (fac : Factory) (b : Blueprint) : Prop where
  terms : fac.terms = b.terms
  flavor : fac.flavor = b.staffing.flavor
  workers : fac.workers.size = b.terms.workerCount
  /-- Every loop is idle: it has not been started, and nothing has been opened for it or queued. -/
  idle : ∀ {st : Seat} {l : Loop}, fac.loop? st = some l →
    l = .idle b.terms.provider b.terms.level (b.staffing.on st)
  cursor : fac.cursor = 0
  nextNumber : fac.nextNumber = 0
  released : fac.released = false

theorem Factory.fresh_ofBlueprint (b : Blueprint) : (ofBlueprint b).Fresh b where
  terms := rfl
  flavor := flavor_ofBlueprint b
  workers := size_workers_ofBlueprint b
  idle := by
    intro st l hl
    obtain ⟨s, t⟩ := b
    cases st with
    | boss =>
      cases s with
      | client => exact (Option.some.inj hl).symm
      | datagram => cases hl
    | worker i =>
      obtain ⟨w, hw, rfl⟩ := Option.map_eq_some_iff.mp hl
      obtain ⟨-, rfl⟩ := Array.getElem?_eq_some_iff.mp hw
      cases s <;> simp [ofBlueprint, Staffing.on, Staffing.workers]
  cursor := rfl
  nextNumber := rfl
  released := rfl

namespace Scenario

/-- **What has been said about a draft**, and of which kind its factory is to be. -/
structure Description where
  flavor : Flavor
  choices : List Choice

/-- The draft of a description. -/
def Description.draft (t : Description) : Draft := (Draft.blank t.flavor).chooseAll t.choices

namespace Session

variable {s s' : Session} {told : Array Description} {ds : Array Draft} {k : Nat}

/-! ## What has been said about each draft -/

/-- **What a step says.** A copy inherits what had been said by then, and what is said about one
draft is not said about another. -/
def hears (s : Session) (told : Array Description) : SessionStep → Array Description
  | .draft fl => told.push ⟨fl, []⟩
  | .copyDraft k =>
    match told[k]? with
    | some t => told.push t
    | none => told
  | .choose k picks =>
    match picks.mapM s.choice? with
    | some cs => told.modify k fun t => ⟨t.flavor, t.choices ++ cs⟩
    | none => told
  | _ => told

/-- **A session, and what has been said in it** about each draft. -/
inductive Told : Session → Array Description → Prop
  | start (xs : List Regime) (ps : List ProviderPlan) (qs : List PlatformPlan) (n : Nat) (h : 0 < n)
      (d : DefectTable) : Told (.start xs ps qs n h d) #[]
  | step {s : Session} {told : Array Description} (h : Told s told) (a : SessionStep) :
      Told (s.step a).1 (s.hears told a)

/-! ## Drafts by themselves -/

/-- **The step says something about a factory** that may be built. -/
def describes : SessionStep → Bool
  | .draft _ | .copyDraft _ | .choose .. => true
  | _ => false

/-- The session with other drafts. -/
def withDrafts (s : Session) (ds : Array Draft) : Session := { s with drafts := ds }

/-- **Describing a factory changes nothing but drafts.** -/
theorem perform_of_describes {a : SessionStep} (h : describes a = true) :
    ∃ ds, (s.perform a).1 = s.withDrafts ds := by
  cases a with
  | draft fl => exact ⟨_, rfl⟩
  | copyDraft k =>
    simp only [perform]
    split
    · exact ⟨_, rfl⟩
    · exact ⟨s.drafts, rfl⟩
  | choose k picks =>
    simp only [perform]
    split
    · exact ⟨_, rfl⟩
    · exact ⟨s.drafts, rfl⟩
  | _ => cases h

/-- A step and its result, with other drafts. -/
def alongside (ds : Array Draft) (r : Session × SessionResult) : Session × SessionResult :=
  (r.1.withDrafts ds, r.2)

/-- A call does the same whatever the drafts are, and so does what follows it. -/
theorem callThen_withDrafts (s : Session) (ds : Array Draft) (o : Operation)
    {f : Session → Outcome → Session × SessionResult}
    (hf : ∀ s out, f (s.withDrafts ds) out = alongside ds (f s out)) :
    (s.withDrafts ds).callThen o f = alongside ds (s.callThen o f) := by
  simp only [callThen, withDrafts]
  cases (s.world.call o).outcome? s.world.machine.threads.size with
  | none => rfl
  | some out => exact hf { s with world := s.world.call o } out

theorem offer_withDrafts (s : Session) (ds : Array Draft) (x : ExecutorId) (c : Option Control) :
    (s.withDrafts ds).offer x c = alongside ds (s.offer x c) := by
  simp only [offer, withDrafts]
  cases s.world.executors[x]? with
  | none => rfl
  | some e =>
    dsimp only
    split <;> rfl

theorem submit_withDrafts (s : Session) (ds : Array Draft) (x : ExecutorId) (a : Action) :
    (s.withDrafts ds).submit x a = alongside ds (s.submit x a) := by
  have hfactory (k : Nat) : (s.withDrafts ds).factoryAt k = s.factoryAt k := rfl
  have hheld (k : Nat) : (s.withDrafts ds).heldAt k = s.heldAt k := rfl
  have hstream (e : EndpointId) : (s.withDrafts ds).isStream e = s.isStream e := rfl
  cases a <;> simp only [submit, hfactory, hheld, hstream, offer_withDrafts] <;> split <;> rfl

theorem advance_withDrafts (s : Session) (ds : Array Draft) (u : ExecutorId × Nat)
    (ready : Except String Nat) :
    (s.withDrafts ds).advance u ready = alongside ds (s.advance u ready) := by
  have hunit : (s.withDrafts ds).steppedUnit? u = s.steppedUnit? u := rfl
  simp only [advance, hunit]
  cases s.steppedUnit? u with
  | none => rfl
  | some v =>
    simp only [withDrafts]
    cases (s.world.advance u ready).finish.unit? u <;> rfl

theorem channel_withDrafts (s : Session) (ds : Array Draft) (k : Nat) (p : String) :
    (s.withDrafts ds).channel k p = alongside ds (s.channel k p) := by
  have hfactory : (s.withDrafts ds).factoryAt k = s.factoryAt k := rfl
  simp only [channel, hfactory]
  cases s.factoryAt k with
  | none => rfl
  | some f =>
    refine callThen_withDrafts s ds _ fun s out => ?_
    split <;> rfl

/-- **Every other step but building does the same whatever the drafts are.** -/
theorem perform_withDrafts (s : Session) (ds : Array Draft) {a : SessionStep}
    (h : describes a = false) (hb : ∀ k, a ≠ .build k) :
    (s.withDrafts ds).perform a = alongside ds (s.perform a) := by
  have hfactory (k : Nat) : (s.withDrafts ds).factoryAt k = s.factoryAt k := rfl
  have hheld (k : Nat) : (s.withDrafts ds).heldAt k = s.heldAt k := rfl
  have hstream (e : EndpointId) : (s.withDrafts ds).isStream e = s.isStream e := rfl
  have hcontext (n : Name) : (s.withDrafts ds).context? n = s.context? n := rfl
  have hworker (e : EndpointId) : (s.withDrafts ds).workerOf? e = s.workerOf? e := rfl
  have hunit (u : ExecutorId × Nat) : (s.withDrafts ds).steppedUnit? u = s.steppedUnit? u := rfl
  cases a with
  | draft | copyDraft | choose => cases h
  | build k => exact absurd rfl (hb k)
  | channel k p => exact channel_withDrafts s ds k p
  | submit x a => exact submit_withDrafts s ds x a
  | advance x u ready => exact advance_withDrafts s ds (x, u) ready
  | connect k a =>
    simp only [perform, hheld, hstream]
    split
    · split
      · refine callThen_withDrafts s ds _ fun s out => ?_
        split <;> rfl
      · rfl
    · rfl
  | close k =>
    simp only [perform, hheld]
    split
    · refine callThen_withDrafts s ds _ fun s out => ?_
      split <;> rfl
    · rfl
  | release k =>
    simp only [perform, hfactory]
    split
    · exact callThen_withDrafts s ds _ fun s out => rfl
    · rfl
  | sweep => rfl
  | copyFactory | context | shares | worker | discard | extend =>
    simp only [perform, hfactory, hheld, hcontext, hworker, hunit]
    split <;> rfl
  | dropFactory | dropEndpoint =>
    simp only [perform, withDrafts]
    split <;> rfl
  | shutDown x =>
    show (if x < s.world.executors.size then _ else _)
      = alongside ds (if x < s.world.executors.size then _ else _)
    split <;> rfl

/-- Drafts stay as they are where nothing is described. -/
theorem drafts_perform (s : Session) {a : SessionStep} (h : describes a = false) :
    (s.perform a).1.drafts = s.drafts := by
  by_cases hb : ∃ k, a = .build k
  · obtain ⟨k, rfl⟩ := hb
    simp only [perform, build]
    split
    · rfl
    · split <;> rfl
  · have hsame := perform_withDrafts s s.drafts h fun k hk => hb ⟨k, hk⟩
    exact congrArg (fun r => r.1.drafts) hsame

/-- **A draft is known by what has been said about it.** -/
theorem Told.drafts_eq (h : s.Told told) : s.drafts = told.map Description.draft := by
  induction h with
  | start => exact Array.map_empty.symm
  | @step s told h a ih =>
    show (s.perform a).1.drafts = _
    cases a with
    | draft fl =>
      simp only [perform, hears, Array.map_push, ih]
      rfl
    | copyDraft k =>
      simp only [perform, hears, ih, Array.getElem?_map]
      cases told[k]? with
      | none => exact ih
      | some t => exact (Array.map_push ..).symm
    | choose k picks =>
      simp only [perform, hears, ih, Array.getElem?_map]
      cases picks.mapM s.choice? with
      | none =>
        cases told[k]? <;> exact ih
      | some cs =>
        cases hk : told[k]? with
        | some t =>
          have hsay : (told.modify k fun t => ⟨t.flavor, t.choices ++ cs⟩).map Description.draft
              = (told.map Description.draft).modify k (·.chooseAll cs) :=
            map_modify (fun t => List.foldl_append ..) told k
          exact hsay.symm
        | none =>
          -- a draft that does not exist is told nothing
          have hnone : told.modify k (fun t => ⟨t.flavor, t.choices ++ cs⟩) = told := by
            refine Array.ext_getElem? fun i => ?_
            rw [Array.getElem?_modify]
            split
            · rename_i hi
              rw [← hi, hk, Option.map_none]
            · rfl
          show s.drafts = (told.modify k fun t => ⟨t.flavor, t.choices ++ cs⟩).map Description.draft
          rw [hnone]
          exact ih
    | _ => exact (drafts_perform s rfl).trans ih

/-! ## Building -/

/-- **What comes of building** what has been described, now and later. -/
structure Builds (s : Session) (k : Nat) (t : Description) : Prop where
  /-- It fails for the first fault there is, -/
  failure : ∀ e, (s.perform (.build k)).2 = .failure e ↔ Fault.First t.flavor t.choices e
  /-- and then nothing comes of it but an empty slot. -/
  failed : ∀ e, Fault t.flavor t.choices e →
    (s.perform (.build k)).1 = { s with factories := s.factories.push none }
  /-- Without a fault there is one blueprint of what has been described. -/
  described : (∃! b : Blueprint, b.IsOf s.here t.flavor t.choices)
    ↔ ∀ e, ¬ Fault t.flavor t.choices e
  /-- Its factory is added, and put on record. That is all: nothing is opened, nothing is offered to
  an executor, nobody is woken. -/
  built : ∀ b : Blueprint, b.IsOf s.here t.flavor t.choices →
    (s.perform (.build k)).1 =
      { s with
        world :=
          { s.world with
            machine :=
              { s.world.machine with
                store :=
                  { s.world.machine.store with
                    factories := s.world.machine.store.factories.push (.ofBlueprint b) } }
            record := .said (.built t.flavor b.terms) :: s.world.record }
        factories := s.factories.push (some s.world.machine.store.factories.size) }
  /-- Nobody has used the factory yet, -/
  fresh : ∀ b : Blueprint, b.IsOf s.here t.flavor t.choices →
    (Factory.ofBlueprint b).Fresh b ∧ (Factory.ofBlueprint b).flavor = t.flavor
  /-- and whatever happens it is there for good, on the terms it was built on. -/
  lasting : ∀ (b : Blueprint) (is : List Incident) (m : Machine),
    b.IsOf s.here t.flavor t.choices → (s.perform (.build k)).1.world.machine.Leads is m →
    ∃ fac, m.store.factories[s.world.machine.store.factories.size]? = some fac
      ∧ (Factory.ofBlueprint b).Grows fac
  /-- What is described later changes drafts only, -/
  later : ∀ (s' : Session) (a : SessionStep), describes a = true →
    ∃ ds, (s'.perform a).1 = s'.withDrafts ds
  /-- and nothing but building looks at them. -/
  unseen : ∀ (s' : Session) (ds : Array Draft) (a : SessionStep), describes a = false →
    (∀ k, a ≠ .build k) → (s'.withDrafts ds).perform a = alongside ds (s'.perform a)
  /-- Where no more has been said than a platform and a number of workers, the terms are those that
  the platform suggests. -/
  suggested : ∀ (d : Draft) (p : Platform) (n : Nat) (hn : 0 < n), s.drafts[k]? = some d →
    InForce t.choices .platform s.here p →
    InForce t.choices .workerCount (min (2 * p.processors) 18446744073709551615) n →
    (∀ q, ¬ Said t.choices (.provider q)) → (∀ v, ¬ Said t.choices (.setting v)) →
    d.terms s.here = .ok (.suggested p n hn)
  /-- It is the same outside of sessions: whatever is said, building fails for the first fault, -/
  fails : ∀ (fl : Flavor) (cs : List Choice) (here : Platform) (e : Failure),
    ((Draft.blank fl).chooseAll cs).blueprint here = .error e ↔ Fault.First fl cs e
  /-- or comes to the blueprint of what has been described. -/
  succeeds : ∀ (fl : Flavor) (cs : List Choice) (here : Platform) (b : Blueprint),
    ((Draft.blank fl).chooseAll cs).blueprint here = .ok b ↔ b.IsOf here fl cs

/-- **Building comes to what has been described**, at every point of every session. -/
theorem Told.builds {t : Description} (h : s.Told told) (hk : told[k]? = some t) :
    s.Builds k t := by
  have hdraft : s.drafts[k]? = some t.draft := by
    rw [h.drafts_eq, Array.getElem?_map, hk, Option.map_some]
  have hkeeps : t.draft.Keeps t.flavor t.choices := Draft.keeps_chooseAll t.flavor t.choices
  have herror {e : Failure} (he : t.draft.blueprint s.here = .error e) :
      s.perform (.build k) = ({ s with factories := s.factories.push none }, .failure e) := by
    simp only [perform, build, hdraft, he]
  have hok {b : Blueprint} (hb : t.draft.blueprint s.here = .ok b) :
      s.perform (.build k)
        = (s.addFactory b, .context (s.viewContext ⟨b.terms.provider, b.terms.level⟩)) := by
    simp only [perform, build, hdraft, hb]
  have hblueprint {b : Blueprint} (hb : b.IsOf s.here t.flavor t.choices) :
      t.draft.blueprint s.here = .ok b := hkeeps.blueprint_eq_ok_iff.mpr hb
  have hflavor {b : Blueprint} (hb : b.IsOf s.here t.flavor t.choices) :
      b.staffing.flavor = t.flavor := hb.staffing.flavor
  exact {
    failure := by
      intro e
      rw [← hkeeps.blueprint_eq_error_iff]
      cases hb : t.draft.blueprint s.here with
      | error e' => rw [herror hb, SessionResult.failure.injEq, Except.error.injEq]
      | ok b => simp [hok hb]
    failed := by
      intro e he
      cases hb : t.draft.blueprint s.here with
      | error e' => rw [herror hb]
      | ok b => exact absurd he (hkeeps.not_fault (hkeeps.blueprint_eq_ok_iff.mp hb))
    described := by
      rw [← hkeeps.exists_isOf_iff]
      refine ⟨ExistsUnique.exists, fun ⟨b, hb⟩ => ⟨b, hb, fun b' hb' => ?_⟩⟩
      exact Except.ok.inj ((hblueprint hb').symm.trans (hblueprint hb))
    built := by
      intro b hb
      rw [hok (hblueprint hb), ← hflavor hb]
      rfl
    fresh := fun b hb =>
      ⟨Factory.fresh_ofBlueprint b, (Factory.flavor_ofBlueprint b).trans (hflavor hb)⟩
    lasting := by
      intro b is m hb hleads
      rw [hok (hblueprint hb)] at hleads
      exact hleads.grows.factory Array.getElem?_push_size
    later := fun _ _ => perform_of_describes
    unseen := fun s' ds _ => perform_withDrafts s' ds
    suggested := by
      intro d p n hn hd hp hcount hprovider hsetting
      obtain rfl := Option.some.inj (hdraft.symm.trans hd)
      exact hkeeps.terms_eq_ok_iff.mpr (onTerms_suggested hn hp hcount hprovider hsetting)
    fails := fun fl cs _ _ => (Draft.keeps_chooseAll fl cs).blueprint_eq_error_iff
    succeeds := fun fl cs _ _ => (Draft.keeps_chooseAll fl cs).blueprint_eq_ok_iff }

/-- A session on a machine with four processors and one executor. -/
def alone : Session := .start [.stepped [] false 0] [] [] 4 (by decide) .empty

/-- A draft of a datagram factory has been begun there, and nothing else has happened. -/
def begun : Session := (alone.step (.draft .datagram)).1

/-- Two workers and the executor are what has been said about it. -/
def spoken : Session := (begun.step (.choose 0 [.workerExecutor 0, .workerCount 2])).1

theorem world_begun : begun.world = alone.world := by
  have hstepped : alone.world.executors.any (·.regime.isEager) = false := by
    simp [alone, start, StagedExecutor.fresh, Regime.isEager]
  show alone.world.settled = alone.world
  simp [World.settled, hstepped]

theorem told_spoken : spoken.Told #[⟨.datagram, [.workerExecutor 0, .workerCount 2]⟩] := by
  have hbegun : begun.Told #[⟨.datagram, []⟩] := Told.step (.start ..) (.draft .datagram)
  have hone : 0 < alone.world.executors.size := by decide
  have hheard : begun.hears #[⟨.datagram, []⟩] (.choose 0 [.workerExecutor 0, .workerCount 2])
      = #[⟨.datagram, [.workerExecutor 0, .workerCount 2]⟩] := by
    simp [hears, choice?, world_begun, hone]
  exact hheard ▸ Told.step hbegun _

/-- What has been said is built. -/
theorem builds_spoken :
    spoken.Told #[⟨.datagram, [.workerExecutor 0, .workerCount 2]⟩]
      ∧ spoken.Builds 0 ⟨.datagram, [.workerExecutor 0, .workerCount 2]⟩ :=
  ⟨told_spoken, told_spoken.builds rfl⟩

end Session

end Scenario

end EndpointControl
