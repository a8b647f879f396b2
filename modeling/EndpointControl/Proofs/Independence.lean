import EndpointControl.Context
import EndpointControl.Proofs.Confluence
import EndpointControl.Proofs.Making
import EndpointControl.Proofs.Waiting

/-!
# Factories leave one another alone

Factories may be built from one description and share executors, providers and platforms.
All of these belong to the surroundings. In the store factories have nothing in common: a
thread works for one factory, the one whose operation it carries out or whose loop it runs
(`Machine.WorksFor`), and whatever it has in its hands on the way belongs to that factory
(`Machine.Reachable.allOf`). So no step of it changes anything that belongs to another
(`Machine.Reachable.sameFor`), and that holds for as long as nobody works for the other
(`Machine.Elsewhere`).

A release shuts executors down that other factories may share. That concerns the loops
which have still to be started. A loop that has been started is not offered to an executor
again, and nobody asks for anything else on its behalf
(`Machine.Traffic.asksToLaunch_of_started`); it runs on until it is told to end, which only
the release of its own factory does, and until then it accepts what is submitted to it
(`Machine.Reachable.independent`).
-/

namespace EndpointControl

/-! ## What belongs to a factory -/

/-- **The factory that a thing is of**, as far as its name tells; that of an endpoint is known
when the endpoint is there. -/
def Store.factory? (s : Store) : Entity → Option FactoryId
  | .factory f => some f
  | .loop l => some l.factory
  | .endpoint e => s.endpoints[e]?.map (·.factory)

/-- **All these things are of the factory.** -/
def Store.AllOf (s : Store) (f : FactoryId) (xs : List Entity) : Prop :=
  ∀ x ∈ xs, s.factory? x = some f

/-- **All that belongs to a factory is as it was**: the factory, with its cursor, its next
number, its mark, what its boss and its workers have counted, and its loops with their queues
and flags; and its endpoints with their states and addresses. -/
structure Store.SameFor (f : FactoryId) (s s' : Store) : Prop where
  factory : s'.factories[f]? = s.factories[f]?
  endpoint : ∀ (e : EndpointId) (q : Endpoint), q.factory = f →
    (s'.endpoints[e]? = some q ↔ s.endpoints[e]? = some q)

section Stores

variable {s s' s'' : Store} {f f' : FactoryId} {e : EndpointId} {l : LoopId} {q : Endpoint}
  {x : Entity} {xs ys : List Entity}

theorem Store.factory?_endpoint (found : s.endpoints[e]? = some q) :
    s.factory? (.endpoint e) = some q.factory := by
  rw [factory?, found, Option.map_some]

/-- A job is queued with a loop of the factory that its endpoint is of. -/
theorem Job.Placed.factory?_endpoint {j : Job} (h : j.Placed s l) :
    s.factory? (.endpoint j.endpoint) = some l.factory := by
  cases j with
  | attempt | registration =>
    obtain ⟨q, hq, rfl⟩ := h
    exact Store.factory?_endpoint hq

/-- What a thing is of does not change. -/
theorem Store.Grows.factory? (h : s.Grows s') (hx : s.factory? x = some f) :
    s'.factory? x = some f := by
  cases x with
  | factory | loop => exact hx
  | endpoint e =>
    obtain ⟨q, hq, rfl⟩ := Option.map_eq_some_iff.mp hx
    obtain ⟨st, hq'⟩ := h.endpoint hq
    exact (Store.factory?_endpoint hq').trans rfl

namespace Store.AllOf

theorem mono (h : s.AllOf f xs) (hg : s.Grows s') : s'.AllOf f xs :=
  fun x hx => hg.factory? (h x hx)

theorem subset (h : s.AllOf f xs) (hsub : ys ⊆ xs) : s.AllOf f ys := fun y hy => h y (hsub hy)

theorem append_iff : s.AllOf f (xs ++ ys) ↔ s.AllOf f xs ∧ s.AllOf f ys := List.forall_mem_append

theorem cons_iff : s.AllOf f (x :: xs) ↔ s.factory? x = some f ∧ s.AllOf f xs :=
  List.forall_mem_cons

theorem nil : s.AllOf f [] := nofun

end Store.AllOf

namespace Store.SameFor

theorem of_eq (hf : s'.factories = s.factories) (he : s'.endpoints = s.endpoints) :
    s.SameFor f s' :=
  ⟨by rw [hf], fun e q _ => by rw [he]⟩

theorem refl (f : FactoryId) (s : Store) : s.SameFor f s := of_eq rfl rfl

theorem trans (h : s.SameFor f s') (h' : s'.SameFor f s'') : s.SameFor f s'' :=
  ⟨h'.factory.trans h.factory, fun e q hq => (h'.endpoint e q hq).trans (h.endpoint e q hq)⟩

theorem giveLock {k : Lock} (h : s.SameFor f s') : s.SameFor f (s'.giveLock k) :=
  ⟨h.factory, h.endpoint⟩

/-- Changing a factory changes no other. -/
theorem modifyFactory (hne : f' ≠ f) (k : Factory → Factory) :
    s.SameFor f (s.modifyFactory f' k) where
  factory := by rw [Store.modifyFactory, Array.getElem?_modify, if_neg hne]
  endpoint _ _ _ := .rfl

theorem modifyLoop (hne : l.factory ≠ f) (k : Loop → Loop) : s.SameFor f (s.modifyLoop l k) :=
  modifyFactory hne _

/-- Setting the status of an endpoint changes it for its factory. -/
theorem setStatus (found : s.endpoints[e]? = some q) (hne : q.factory ≠ f) (st : Status) :
    s.SameFor f (s.setStatus e st) where
  factory := rfl
  endpoint e' q' hq' := by
    rw [Store.setStatus, Array.getElem?_modify]
    split
    · rename_i he
      subst he
      -- the endpoint is of another factory before and after
      rw [found]
      constructor
      · intro h
        obtain rfl := Option.some.inj h
        exact absurd hq' hne
      · intro h
        obtain rfl := Option.some.inj h
        exact absurd hq' hne
    · exact .rfl

/-- A new endpoint comes about for its factory. -/
theorem enroll (hne : f' ≠ f) (w : Nat) (n : UInt64) : s.SameFor f (s.enroll f' w n) where
  factory := rfl
  endpoint e q hq := by
    rw [Store.enroll, Array.getElem?_push]
    split
    · rename_i he
      subst he
      rw [Array.getElem?_eq_none (Nat.le_refl _)]
      constructor
      · intro h
        obtain rfl := Option.some.inj h
        exact absurd hq hne
      · rintro ⟨⟩
    · exact .rfl

/-- A new factory leaves those that are there alone. -/
theorem build (h : s.factories[f]?.isSome) (b : Blueprint) : s.SameFor f (s.build b) where
  factory := by
    obtain ⟨fac, hfac⟩ := Option.isSome_iff_exists.mp h
    rw [Store.build, Array.getElem?_push, if_neg]
    exact Nat.ne_of_lt (Array.getElem?_eq_some_iff.mp hfac).1
  endpoint _ _ _ := .rfl

end Store.SameFor

end Stores

/-! ## What a thread has in its hands -/

/-- The jobs that a loop has taken and still to run, or to drop. -/
def ServePoint.jobs : ServePoint → List Job
  | .run batch _ => batch
  | .discard rest _ => rest
  | _ => []

/-- **What a procedure is about**, and what it has in its hands. -/
def Frame.subjects : Frame → List Entity
  | .start l _ | .signal l _ => [.loop l]
  | .submit l j _ => [.loop l, .endpoint j.endpoint]
  | .serve l _ p => .loop l :: p.jobs.map fun j => .endpoint j.endpoint
  | .attempt e _ _ | .registration e _ | .drop e _ | .connect e _ _ | .close e _ => [.endpoint e]
  | .create f p => .factory f :: p.endpoint.map .endpoint
  | .release f _ => [.factory f]

/-- **What a thread has in its hands.** -/
def Control.subjects : Control → List Entity
  | .running stack => stack.flatMap Frame.subjects
  | .finished _ => []

section Procedures

variable {s s' : Store} {t : ThreadId} {fr caller : Frame} {below : List Frame}
  {g : Store → Store} {c c' : Control} {ns : List Note} {f f' : FactoryId}

@[simp] theorem Control.subjects_cons :
    (Control.running (fr :: below)).subjects = fr.subjects ++ (Control.running below).subjects :=
  List.flatMap_cons

/-- A call that goes on has nothing more in its hands, unless it runs a loop or makes a
channel. -/
theorem Frame.SameCall.subjects {fr' : Frame} (h : fr.SameCall fr') (hserve : fr.served? = none)
    (hcreate : ∀ f p, fr ≠ .create f p) : fr'.subjects = fr.subjects := by
  cases h with
  | serve => cases hserve
  | create => exact (hcreate _ _ (Eq.refl _)).elim
  | _ => exact Eq.refl _

/-- A caller that goes on takes up nothing. -/
theorem Frame.subjects_resume (fr : Frame) (r : Except Failure Unit) :
    (fr.resume r).subjects ⊆ fr.subjects := by
  unfold resume
  split
  case h_4 => cases r <;> simp [subjects, CreatePoint.endpoint]
  case h_6 => exact List.Subset.refl _
  all_goals cases r <;> exact List.Subset.refl _

theorem Control.subjects_back (below : List Frame) (r : Except Failure Unit) :
    (back below r).subjects ⊆ (running below).subjects := by
  cases below with
  | nil => exact List.nil_subset _
  | cons caller rest =>
    rw [back, subjects_cons, subjects_cons]
    exact List.append_subset.mpr ⟨List.Subset.trans (caller.subjects_resume r)
      (List.subset_append_left ..), List.subset_append_right ..⟩

/-! ## What a step does to it -/

/-- **Whoever is called has only what the caller has**, or what belongs to the same factory. -/
theorem Frame.Calls.allOf {callee : Frame} (h : Calls callee caller) (hk : callee.Knows s)
    (hserve : caller.served? = none) (hall : s.AllOf f caller.subjects) :
    s.AllOf f callee.subjects := by
  cases h with
  | startSubmit => exact hall.subset (by simp [subjects])
  | startCreate =>
    have hf := hall _ List.mem_cons_self
    exact Store.AllOf.cons_iff.mpr ⟨hf, .nil⟩
  | @submitCreate l e | @submitConnect l e | @submitAttempt l e =>
    -- the job goes to a loop of the endpoint's own factory
    have he : s.factory? (.endpoint e) = some f :=
      hall _ (by simp [subjects, CreatePoint.endpoint])
    have hl := hk.1.factory?_endpoint.symm.trans he
    exact Store.AllOf.cons_iff.mpr ⟨hl, Store.AllOf.cons_iff.mpr ⟨he, .nil⟩⟩
  | dropSubmit => exact hall.subset (by simp [subjects])
  | dropAttempt => exact hall
  | dropServe | attemptServe | registrationServe => cases hserve
  | signalRelease =>
    obtain ⟨hf, -⟩ := Store.AllOf.cons_iff.mp hall
    exact Store.AllOf.cons_iff.mpr ⟨hf, .nil⟩

/-- **A procedure that takes up nothing by itself** leaves the thread with things of one
factory. -/
theorem Control.Goes.allOf (h : c'.Goes fr below) (hc' : c'.Sound s')
    (hserve : fr.served? = none) (hcreate : ∀ f p, fr ≠ .create f p)
    (hall : s'.AllOf f (running (fr :: below)).subjects) : s'.AllOf f c'.subjects := by
  rw [subjects_cons, Store.AllOf.append_iff] at hall
  obtain ⟨hfr, hbelow⟩ := hall
  cases h with
  | within hsame =>
    rw [subjects_cons, Store.AllOf.append_iff, hsame.subjects hserve hcreate]
    exact ⟨hfr, hbelow⟩
  | calls hsame =>
    obtain ⟨hk, -, hcalls, -⟩ := hc'
    have hcaller := hsame.subjects hserve hcreate ▸ hfr
    rw [subjects_cons, subjects_cons, Store.AllOf.append_iff, Store.AllOf.append_iff]
    exact ⟨hcalls.allOf hk (hsame.served?.trans hserve) hcaller, hcaller, hbelow⟩
  | returns => exact hbelow.subset (subjects_back ..)
  | ends => exact .nil

/-- **A loop takes what is queued**, which is of its factory, and then one job at a time. -/
theorem ServePoint.allOf {id : LoopId} {lp : Loop} {m : Multiplexer} {p : ServePoint}
    (hs : s.Sound) (found : s.loop? id = some lp)
    (h : p.move s t below id lp m = .act g c' ns)
    (hall : s.AllOf f (Control.running (.serve id m p :: below)).subjects) :
    s.AllOf f c'.subjects := by
  have hsub {c : Control} (hc' : c' = c)
      (hsub : c.subjects ⊆ (Control.running (.serve id m p :: below)).subjects) :
      s.AllOf f c'.subjects := by
    subst hc'
    exact hall.subset hsub
  have htaken {p' : ServePoint} (hc' : c' = .running (.serve id m p' :: below))
      (hp' : p'.jobs = lp.queue.toList) : s.AllOf f c'.subjects := by
    subst hc'
    rw [Control.subjects_cons, Frame.subjects, List.cons_append, Store.AllOf.cons_iff,
      Store.AllOf.append_iff] at hall
    obtain ⟨hid, -, hbelow⟩ := hall
    rw [Control.subjects_cons, Frame.subjects, List.cons_append, Store.AllOf.cons_iff,
      Store.AllOf.append_iff, hp']
    refine ⟨hid, fun x hx => ?_, hbelow⟩
    obtain ⟨j, hj, rfl⟩ := List.mem_map.mp hx
    have hj : j.Placed s id := hs.placed found j hj
    exact hj.factory?_endpoint.trans hid
  cases p
  case run batch n =>
    cases batch with
    | nil =>
      simp [ServePoint.move] at h
      exact hsub h.2.1 (by simp [Frame.subjects, jobs])
    | cons j rest =>
      simp [ServePoint.move] at h
      exact hsub h.2.1 (by cases j <;> simp [Frame.subjects, jobs, Frame.ofJob, Job.endpoint])
  case report n => cases n <;> simp [ServePoint.move] at h <;> exact hsub h.2.1 (List.Subset.refl _)
  case discard rest n =>
    cases rest with
    | nil =>
      simp [ServePoint.move] at h
      exact hsub h.2.1 (by simp [Frame.subjects, jobs])
    | cons j rest =>
      simp [ServePoint.move] at h
      exact hsub h.2.1 (by simp [Frame.subjects, jobs, Frame.ofDropped])
  all_goals simp [ServePoint.move] at h
  case takeBatch => exact htaken h.2.1 rfl
  case takeRest => exact htaken h.2.1 rfl
  case takeQueue | takeQueueLast => exact hsub h.2.2.1 (List.Subset.refl _)
  case serialize =>
    split at h <;> simp at h
    · exact hsub h.2.2.1 (List.Subset.refl _)
    · exact hsub h.2.1 (List.Subset.refl _)
  case endTurn => split at h <;> simp at h <;> exact hsub h.2.1 (List.Subset.refl _)
  case readShutDown => exact hsub h.2.1 (by split <;> exact List.Subset.refl _)
  case announceExit => exact hsub h.2.1 (List.nil_subset _)
  all_goals exact hsub h.2.1 (List.Subset.refl _)

/-- **Whoever makes a channel starts a worker of the factory**, lets an endpoint of it come
about, and submits to the worker of that. -/
theorem CreatePoint.allOf {id : FactoryId} {fac : Factory} {p : CreatePoint}
    (h : p.move s below id fac = .act g c' ns)
    (hall : s.AllOf f (Control.running (.create id p :: below)).subjects) :
    (g s).AllOf f c'.subjects := by
  replace hall := hall.mono (grows_of_move h)
  have hsub {c : Control} (hc' : c' = c)
      (hsub : c.subjects ⊆ (Control.running (.create id p :: below)).subjects) :
      (g s).AllOf f c'.subjects := by
    subst hc'
    exact hall.subset hsub
  obtain ⟨hid, hbelow⟩ := Store.AllOf.cons_iff.mp hall
  cases p <;> simp [CreatePoint.move] at h
  case readReleased =>
    refine hsub h.2.1 ?_
    split
    · exact List.nil_subset _
    · exact List.Subset.refl _
  case start w n =>
    rw [h.2.1]
    exact Store.AllOf.cons_iff.mpr ⟨hid, hall⟩
  case enroll w n =>
    obtain ⟨rfl, rfl, -⟩ := h
    have hnew : (s.enroll id w n).factory? (.endpoint s.endpoints.size) = some f := by
      rw [Store.factory?, Store.enroll, Array.getElem?_push_size, Option.map_some]
      exact hid
    have hmade : (s.enroll id w n).AllOf f
        (.factory id :: .endpoint s.endpoints.size :: (Control.running below).subjects) :=
      Store.AllOf.cons_iff.mpr ⟨hid, Store.AllOf.cons_iff.mpr ⟨hnew, hbelow⟩⟩
    cases fac.flavor <;> exact hmade
  case submit e =>
    split at h <;> simp at h
    rename_i q hq
    obtain ⟨rfl, rfl, -⟩ := h
    have he : s.factory? (.endpoint e) = some f := hbelow _ List.mem_cons_self
    have hl : s.factory? (.loop q.home) = some f := (Store.factory?_endpoint hq).symm.trans he
    exact Store.AllOf.cons_iff.mpr ⟨hl, Store.AllOf.cons_iff.mpr ⟨he, hall⟩⟩
  case announce e =>
    split at h <;> simp at h
    exact hsub h.2.1 (List.nil_subset _)
  case failed => exact hsub h.2.1 (List.nil_subset _)
  all_goals exact hsub h.2.1 (List.Subset.refl _)

/-- **A step leaves a thread with things of one factory.** -/
theorem Control.allOf_of_act (hs : s.Sound) (hc : c.Sound s) (h : c.move s t = .act g c' ns)
    (hall : s.AllOf f c.subjects) : (g s).AllOf f c'.subjects := by
  have hsound := (sound_of_act hs hc h).2
  have hgrows := grows_of_move h
  obtain ⟨fr, below, rfl, hm⟩ := moves_of_act h
  have hgoes := goes_of_running h
  cases hm with
  | serve found hp => exact (ServePoint.allOf hs found hp hall).mono hgrows
  | create found hp => exact CreatePoint.allOf hp hall
  | _ => exact hgoes.allOf hsound rfl nofun (hall.mono hgrows)

theorem Control.subjects_of_ask {q : Request} {after : q.Reply → Control} (reply : q.Reply)
    (h : c.move s t = .ask q after) : (after reply).subjects = c.subjects := by
  obtain ⟨fr, below, rfl, ha⟩ := asks h
  cases ha with
  | openNew | wakeSubmit | wakeSignal => cases reply <;> rfl
  | _ => rfl

/-! ## What a step leaves alone -/

theorem StartPoint.sameFor {id : LoopId} {l : Loop} {p : StartPoint} (hne : id.factory ≠ f)
    (h : p.move s t below id l = .act g c' ns) : s.SameFor f (g s) := by
  cases p <;> simp [StartPoint.move] at h
  case takeSlot => exact h.2.1 ▸ .of_eq rfl rfl
  case fillSlot | mark => exact h.1 ▸ .modifyLoop hne _
  all_goals exact h.1 ▸ .of_eq rfl rfl

theorem SubmitPoint.sameFor {id : LoopId} {l : Loop} {j : Job} {p : SubmitPoint}
    (hne : id.factory ≠ f) (h : p.move s t below id l j = .act g c' ns) :
    s.SameFor f (g s) := by
  cases p <;> simp [SubmitPoint.move] at h
  case takeSlot | takeQueue => exact h.2.1 ▸ .of_eq rfl rfl
  case append => exact h.1 ▸ (Store.SameFor.modifyLoop hne _).giveLock
  case serialize =>
    split at h <;> simp at h
    · exact h.2.1 ▸ .of_eq rfl rfl
    · exact h.1 ▸ .refl ..
  case leave => split at h <;> simp at h <;> exact h.1 ▸ .of_eq rfl rfl
  all_goals exact h.1 ▸ .of_eq rfl rfl

theorem SignalPoint.sameFor {id : LoopId} {l : Loop} {p : SignalPoint} (hne : id.factory ≠ f)
    (h : p.move s t below id l = .act g c' ns) : s.SameFor f (g s) := by
  cases p <;> simp [SignalPoint.move] at h
  case raise => exact h.1 ▸ .modifyLoop hne _
  case takeSlot => exact h.2.1 ▸ .of_eq rfl rfl
  all_goals exact h.1 ▸ .of_eq rfl rfl

theorem ServePoint.sameFor {id : LoopId} {l : Loop} {m : Multiplexer} {p : ServePoint}
    (hne : id.factory ≠ f) (h : p.move s t below id l m = .act g c' ns) :
    s.SameFor f (g s) := by
  cases p
  case run batch n => cases batch <;> simp [ServePoint.move] at h <;> exact h.1 ▸ .refl ..
  case report n => cases n <;> simp [ServePoint.move] at h <;> exact h.1 ▸ .refl ..
  case discard rest n => cases rest <;> simp [ServePoint.move] at h <;> exact h.1 ▸ .refl ..
  all_goals simp [ServePoint.move] at h
  case takeQueue | takeQueueLast => exact h.2.1 ▸ .of_eq rfl rfl
  case takeBatch | takeRest => exact h.1 ▸ (Store.SameFor.modifyLoop hne _).giveLock
  case serialize =>
    split at h <;> simp at h
    · exact h.2.1 ▸ .of_eq rfl rfl
    · exact h.1 ▸ .refl ..
  case endTurn => split at h <;> simp at h <;> exact h.1 ▸ .of_eq rfl rfl
  case markExited => exact h.1 ▸ .modifyLoop hne _
  all_goals exact h.1 ▸ .refl ..

theorem AttemptPoint.sameFor {id : EndpointId} {q : Endpoint} {a : Address} {p : AttemptPoint}
    (h : p.move below id q a = .act g c' ns) : s.SameFor f (g s) := by
  cases p <;> simp [AttemptPoint.move] at h
  all_goals exact h.1 ▸ .refl ..

theorem RegistrationPoint.sameFor {id : EndpointId} {q : Endpoint} {p : RegistrationPoint}
    (found : s.endpoints[id]? = some q) (hne : q.factory ≠ f)
    (h : p.move s t below id q = .act g c' ns) : s.SameFor f (g s) := by
  cases p <;> simp [RegistrationPoint.move] at h
  case takeStatus => exact h.2.1 ▸ .of_eq rfl rfl
  case mark => exact h.1 ▸ (Store.SameFor.setStatus found hne _).giveLock
  case count => exact h.1 ▸ .modifyFactory hne _
  case announce => exact h.1 ▸ .refl ..

theorem DropPoint.sameFor {id : EndpointId} {q : Endpoint} {p : DropPoint}
    (found : s.endpoints[id]? = some q) (hne : q.factory ≠ f)
    (h : p.move s t below id q = .act g c' ns) : s.SameFor f (g s) := by
  cases p <;> simp [DropPoint.move] at h
  case takeStatus => exact h.2.1 ▸ .of_eq rfl rfl
  case revert => exact h.1 ▸ (Store.SameFor.setStatus found hne _).giveLock

theorem CreatePoint.sameFor {id : FactoryId} {fac : Factory} {p : CreatePoint} (hne : id ≠ f)
    (h : p.move s below id fac = .act g c' ns) : s.SameFor f (g s) := by
  cases p <;> simp [CreatePoint.move] at h
  case pickWorker | drawNumber | count => exact h.1 ▸ .modifyFactory hne _
  case enroll => exact h.1 ▸ .enroll hne ..
  case submit | announce => split at h <;> simp at h; exact h.1 ▸ .refl ..
  all_goals exact h.1 ▸ .refl ..

theorem ConnectPoint.sameFor {id : EndpointId} {q : Endpoint} {a : Address} {p : ConnectPoint}
    (found : s.endpoints[id]? = some q) (hne : q.factory ≠ f)
    (h : p.move s t below id q a = .act g c' ns) : s.SameFor f (g s) := by
  cases p <;> simp [ConnectPoint.move] at h
  case takeStatus => exact h.2.1 ▸ .of_eq rfl rfl
  case begin =>
    split at h <;> simp at h
    · exact h.1 ▸ (Store.SameFor.setStatus found hne _).giveLock
    · exact h.1 ▸ .of_eq rfl rfl
  case count => exact h.1 ▸ .modifyFactory hne _
  all_goals exact h.1 ▸ .refl ..

theorem ClosePoint.sameFor {id : EndpointId} {q : Endpoint} {p : ClosePoint}
    (found : s.endpoints[id]? = some q) (hne : q.factory ≠ f)
    (h : p.move s t below id q = .act g c' ns) : s.SameFor f (g s) := by
  cases p <;> simp [ClosePoint.move] at h
  case takeStatus => exact h.2.1 ▸ .of_eq rfl rfl
  case close => exact h.1 ▸ (Store.SameFor.setStatus found hne _).giveLock

theorem ReleasePoint.sameFor {id : FactoryId} {fac : Factory} {p : ReleasePoint} (hne : id ≠ f)
    (h : p.move below id fac = .act g c' ns) : s.SameFor f (g s) := by
  cases p <;> simp [ReleasePoint.move] at h
  case raise => exact h.1 ▸ .modifyFactory hne _
  case signalWorkers | terminate => split at h <;> simp at h <;> exact h.1 ▸ .refl ..
  all_goals exact h.1 ▸ .refl ..

/-- **A step changes nothing of a factory that none of the things are of** which the thread has
in its hands. -/
theorem Control.sameFor_of_act (h : c.move s t = .act g c' ns) (hall : s.AllOf f' c.subjects)
    (hne : f' ≠ f) : s.SameFor f (g s) := by
  obtain ⟨fr, below, rfl, hm⟩ := moves_of_act h
  -- the procedure on top is about something of the one factory, and changes nothing else
  have hout {x : Entity} (hx : x ∈ fr.subjects) : s.factory? x ≠ some f := fun h =>
    hne (Option.some.inj ((hall x (List.mem_append_left _ hx)).symm.trans h))
  have hfactory {id : FactoryId} (hx : .factory id ∈ fr.subjects) : id ≠ f := by
    rintro rfl
    exact hout hx rfl
  have hloop {l : LoopId} (hx : .loop l ∈ fr.subjects) : l.factory ≠ f := by
    rintro rfl
    exact hout hx rfl
  have hendpoint {e : EndpointId} {q : Endpoint} (hx : .endpoint e ∈ fr.subjects)
      (found : s.endpoints[e]? = some q) : q.factory ≠ f := by
    rintro rfl
    exact hout hx (Store.factory?_endpoint found)
  cases hm with
  | start _ hp => exact StartPoint.sameFor (hloop List.mem_cons_self) hp
  | submit _ hp => exact SubmitPoint.sameFor (hloop List.mem_cons_self) hp
  | signal _ hp => exact SignalPoint.sameFor (hloop List.mem_cons_self) hp
  | serve _ hp => exact ServePoint.sameFor (hloop List.mem_cons_self) hp
  | attempt _ hp => exact AttemptPoint.sameFor hp
  | registration found hp =>
    exact RegistrationPoint.sameFor found (hendpoint List.mem_cons_self found) hp
  | drop found hp => exact DropPoint.sameFor found (hendpoint List.mem_cons_self found) hp
  | create _ hp => exact CreatePoint.sameFor (hfactory List.mem_cons_self) hp
  | connect found hp => exact ConnectPoint.sameFor found (hendpoint List.mem_cons_self found) hp
  | close found hp => exact ClosePoint.sameFor found (hendpoint List.mem_cons_self found) hp
  | release _ hp => exact ReleasePoint.sameFor (hfactory List.mem_cons_self) hp

/-- Whoever makes a move is about something that is of a factory. -/
theorem Frame.Moves.exists_factory {mv : Move} (h : fr.Moves s t below mv) :
    ∃ x ∈ fr.subjects, ∃ f, s.factory? x = some f := by
  cases h with
  | start | submit | signal | serve | create | release => exact ⟨_, List.mem_cons_self, _, rfl⟩
  | attempt found | registration found | drop found | connect found | close found =>
    exact ⟨_, List.mem_cons_self, _, Store.factory?_endpoint found⟩

end Procedures

/-! ## Who works for which factory -/

/-- What an operation is about. -/
def Operation.subject : Operation → Entity
  | .create f | .release f => .factory f
  | .connect e _ | .close e => .endpoint e

/-- **What a thread is there for**: the factory or the endpoint that its operation is about, or
the loop that it runs. -/
def Control.task? (c : Control) : Option Entity :=
  (c.operation?.map Operation.subject).or (c.serves?.map .loop)

/-- **What a thread has in its hands is of one factory.** A thread that has but one thing may
be waiting for that to come about. -/
def Control.Devoted (s : Store) (c : Control) : Prop :=
  (∃ x, c.subjects = [x]) ∨ ∃ f, s.AllOf f c.subjects

section Procedures

variable {s : Store} {t : ThreadId} {fr : Frame} {below : List Frame} {c : Control}

/-- What a thread is there for is among the things that it has in its hands. -/
theorem Frame.Below.exists_task (hb : fr.Below s below) :
    ∃ x ∈ (Control.running (fr :: below)).subjects,
      (Control.running (fr :: below)).task? = some x := by
  induction below generalizing fr with
  | nil =>
    cases fr with
    | create | connect | close | release | serve => exact ⟨_, List.mem_cons_self, rfl⟩
    | _ => cases hb
  | cons caller rest ih =>
    have hroot : fr.isRoot = false := by cases hb.1 <;> rfl
    obtain ⟨x, hx, htask⟩ := ih hb.2.2
    refine ⟨x, List.mem_append_right _ hx, ?_⟩
    rw [Control.task?, Control.operation?, List.findSome?_cons, Frame.operation?_of_not_root hroot,
      Control.serves?_cons, Frame.served?_of_not_root hroot, Option.none_or]
    exact htask

theorem Control.Devoted.exists_allOf (h : c.Devoted s) (hmove : c.move s t ≠ .stuck) :
    ∃ f, s.AllOf f c.subjects := by
  rcases h with ⟨x, hx⟩ | h
  · match c, hmove with
    | .running (fr :: below), hmove =>
      obtain ⟨y, hy, f, hf⟩ := (Frame.moves rfl hmove).exists_factory
      -- the one thing that it has is the one it is about
      have hmem : y ∈ (running (fr :: below)).subjects := List.mem_append_left _ hy
      rw [hx] at hmem
      obtain rfl := List.mem_singleton.mp hmem
      exact ⟨f, by rw [hx]; exact Store.AllOf.cons_iff.mpr ⟨hf, .nil⟩⟩
  · exact h

end Procedures

namespace Machine

variable {m m' m'' : Machine} {i : Incident} {is js : List Incident} {t : ThreadId}
  {hap : Happening} {c : Control} {f g : FactoryId} {l : LoopId} {j : Job} {below : List Frame}
  {r : Except Failure Unit}

/-- **The thread works for the factory**: it carries out an operation on it or on one of its
endpoints, or runs one of its loops. -/
def WorksFor (m : Machine) (t : ThreadId) (f : FactoryId) : Prop :=
  ((m.control? t).bind Control.task?).bind m.store.factory? = some f

instance (m : Machine) (t : ThreadId) (f : FactoryId) : Decidable (m.WorksFor t f) :=
  inferInstanceAs (Decidable (_ = _))

/-- **Whatever a thread has in its hands is of one factory.** -/
theorem Reachable.devoted (h : m.Reachable) (hc : m.control? t = some c) :
    c.Devoted m.store := by
  have hinvariant := h.invariant (P := Store.Sound) (Q := fun s c => c.Sound s ∧ c.Devoted s)
    .empty (fun _ b hs => hs.build b) (fun hg hc => ⟨hg.control hc.1, ?grows⟩)
    (fun hs hc hmove => ?act)
    (fun reply _ hc hmove => ⟨Control.sound_of_ask reply hc.1 hmove, ?ask⟩)
    (fun s o => ?called) (fun s l mux => ⟨⟨trivial, trivial, rfl⟩, .inl ⟨_, rfl⟩⟩)
  · exact (hinvariant.2 t c hc).2
  case grows => exact hc.2.imp_right fun ⟨f, hf⟩ => ⟨f, hf.mono hg⟩
  case act =>
    obtain ⟨hs', hc'⟩ := Control.sound_of_act hs hc.1 hmove
    obtain ⟨f, hf⟩ := hc.2.exists_allOf (by rw [hmove]; nofun)
    exact ⟨hs', hc', .inr ⟨f, Control.allOf_of_act hs hc.1 hmove hf⟩⟩
  case ask =>
    rw [Control.Devoted, Control.subjects_of_ask reply hmove]
    exact hc.2
  case called => cases o <;> exact ⟨⟨trivial, trivial, rfl⟩, .inl ⟨_, rfl⟩⟩

/-- **Whoever can go on works for a factory**, and all that they have in their hands is of
it. -/
theorem Reachable.allOf (h : m.Reachable) (hc : m.control? t = some c)
    (hmove : c.move m.store t ≠ .stuck) : ∃ f, m.WorksFor t f ∧ m.store.AllOf f c.subjects := by
  obtain ⟨f, hf⟩ := (h.devoted hc).exists_allOf hmove
  match c, hmove with
  | .running (fr :: below), _ =>
    obtain ⟨x, hx, htask⟩ := (h.sound.2 t _ hc).2.2.exists_task
    exact ⟨f, by rw [WorksFor, hc, Option.bind_some, htask, Option.bind_some, hf x hx], hf⟩

/-- **Whoever makes a step works for a factory**, and leaves all others as they are. -/
theorem Reachable.sameFor (h : m.Reachable) (a : m.Advance (.stepped t hap) m') :
    ∃ f, m.WorksFor t f ∧ ∀ g, f ≠ g → m.store.SameFor g m'.store := by
  cases a with
  | act hc hmove =>
    obtain ⟨f, hf, hall⟩ := h.allOf hc (by rw [hmove]; nofun)
    exact ⟨f, hf, fun g hne => Control.sameFor_of_act hmove hall hne⟩
  | answer hc hmove reply =>
    obtain ⟨f, hf, -⟩ := h.allOf hc (by rw [hmove]; nofun)
    exact ⟨f, hf, fun g _ => by rw [store_answer]; exact .refl ..⟩

/-- **Something happens elsewhere**: nobody makes a step who works for the factory. -/
def Spares (m : Machine) (g : FactoryId) : Incident → Prop
  | .stepped t _ => ¬ m.WorksFor t g
  | _ => True

/-- **What happens elsewhere**, for as long as one likes. -/
inductive Elsewhere (m : Machine) (g : FactoryId) : List Incident → Machine → Prop where
  /-- Nothing happens. -/
  | refl : Elsewhere m g [] m
  /-- One thing more happens. -/
  | advance {js : List Incident} {m' m'' : Machine} {i : Incident} (h : Elsewhere m g js m')
    (a : m'.Advance i m'') (spared : m'.Spares g i) : Elsewhere m g (js ++ [i]) m''

theorem Elsewhere.leads (h : m.Elsewhere g js m') : m.Leads js m' := by
  induction h with
  | refl => exact .refl
  | advance _ a _ ih => exact ih.advance a

/-- **What happens elsewhere changes nothing of a factory.** -/
theorem Reachable.sameFor_of_spares (h : m.Reachable) (hg : m.store.factories[g]?.isSome)
    (a : m.Advance i m') (spared : m.Spares g i) : m.store.SameFor g m'.store := by
  cases i with
  | stepped t hap =>
    obtain ⟨f, hf, hsame⟩ := h.sameFor a
    refine hsame g ?_
    rintro rfl
    exact spared hf
  | called => cases a; exact .refl ..
  | built => cases a; exact .build hg _

theorem Elsewhere.sameFor (h : m.Elsewhere g js m') (hm : m.Reachable)
    (hg : m.store.factories[g]?.isSome) : m.store.SameFor g m'.store := by
  induction h with
  | refl => exact .refl ..
  | advance h a spared ih =>
    refine ih.trans ((h.leads.reachable hm).sameFor_of_spares ?_ a spared)
    rwa [ih.factory]

/-! ## What a shared executor cannot do -/

/-- **Nobody asks for anything on behalf of a loop that has been started.** -/
theorem Traffic.asksToLaunch_of_started (h : Traffic is m) (hs : m.store.Started l)
    (h' : m.Unfolds js m') (hi : i ∈ js) : i.asksToLaunch l = false := by
  obtain ⟨js₁, js₂, rfl⟩ := List.append_of_mem hi
  obtain ⟨m₁, m₂, h₁, a, -⟩ := h'.split
  have hs₁ := h₁.grows.started hs
  cases a with
  | answer hc hmove reply =>
    obtain ⟨fr, below, rfl, hask⟩ := Control.asks hmove
    cases hask with
    | @openNew id | @execute id =>
      -- whoever asks stands at a point where the loop has not been started
      refine decide_eq_false ?_
      rintro rfl
      exact (((h.unfolds h₁).launch id).fits hc).2 hs₁
    | _ => rfl
  | _ => rfl

end Machine

/-- What a thread has been told it has been told in some incident. -/
theorem stepped_of_mem_answersTo {t : ThreadId} {js : List Incident} {q : Request}
    {reply : q.Reply} (hq : ⟨q, reply⟩ ∈ answersTo t js) : .stepped t (.answered q reply) ∈ js := by
  obtain ⟨i, hi, h⟩ := List.mem_flatMap.mp hq
  unfold Incident.answersTo at h
  split at h
  · split at h
    · rename_i ht
      subst ht
      cases List.mem_singleton.mp h
      exact hi
    · cases h
  · cases h

/-- **How a call ends that wants a loop which is running**: well, or because the loop has been
told to end. -/
def Store.EndsWell (s : Store) (l : LoopId) (r : Except Failure Unit) : Prop :=
  r = .ok () ∨ r = .error .released ∧ s.ShutDown l

/-- **A start that asks for nothing** finds the loop started, or told to end. -/
theorem StartEnds.endsWell {s : Store} {l : LoopId} {r : Except Failure Unit} {t : ThreadId}
    {js : List Incident} (h : StartEnds s l r (answersTo t js))
    (hjs : ∀ i ∈ js, i.asksToLaunch l = false) : s.EndsWell l r := by
  have hasked {q : Request} {reply : q.Reply} (hq : ⟨q, reply⟩ ∈ answersTo t js) :
      (Incident.stepped t (.answered q reply)).asksToLaunch l = false :=
    hjs _ (stepped_of_mem_answersTo hq)
  generalize answersTo t js = as at h hasked
  cases h with
  | already | started => exact .inl rfl
  | told hd => exact .inr ⟨rfl, hd⟩
  | unopened => exact absurd (hasked List.mem_cons_self) (by simp [Incident.asksToLaunch])
  | refused =>
    exact absurd (hasked (List.mem_append_right _ List.mem_cons_self))
      (by simp [Incident.asksToLaunch])

/-- **A submission that asks for no launch** is accepted, or the loop has been told to end. -/
theorem SubmitEnds.endsWell {s : Store} {l : LoopId} {j : Job} {r : Except Failure Unit}
    {t : ThreadId} {js : List Incident} {ps : List Note}
    (h : SubmitEnds s l j r (answersTo t js) ps) (hjs : ∀ i ∈ js, i.asksToLaunch l = false) :
    s.EndsWell l r := by
  generalize has : answersTo t js = as at h
  cases h with
  | accepted => exact .inl rfl
  | refused h =>
    subst has
    exact h.endsWell hjs
  | late told => exact .inr ⟨rfl, told⟩

namespace Machine

variable {m m' : Machine} {i : Incident} {js : List Incident} {t : ThreadId}
  {hap : Happening} {f g : FactoryId} {l : LoopId} {j : Job} {below : List Frame}

/-- **Factories leave one another alone.** -/
structure Independent (m : Machine) : Prop where
  /-- Whoever makes a step works for a factory, and leaves all other factories as they are. -/
  steps : ∀ {t hap m'}, m.Advance (.stepped t hap) m' →
    ∃ f, m.WorksFor t f ∧ ∀ g, f ≠ g → m.store.SameFor g m'.store
  /-- So a factory stays as it is whatever happens elsewhere, and for however long: whatever
  is called, whichever loops of others run, and whatever else is built. -/
  elsewhere : ∀ {g js m'}, m.store.factories[g]?.isSome → m.Elsewhere g js m' →
    m.store.SameFor g m'.store
  /-- Where nobody carries out an operation on the factory, it is changed only by its own loops,
  which run on executors of its own choice. -/
  loops : ∀ {t hap m' g c}, m.Advance (.stepped t hap) m' → ¬ m.store.SameFor g m'.store →
    m.control? t = some c → (∃ o, c.operation? = some o ∧ m.store.factory? o.subject = some g)
      ∨ ∃ l lp, c.serves? = some l ∧ l.factory = g ∧ m.store.loop? l = some lp
        ∧ m.home? t = some lp.executor
  /-- A loop is told to end only by a release of its own factory. -/
  told : ∀ {i m' l}, m.Advance i m' → ¬ m.store.ShutDown l → m'.store.ShutDown l →
    ∃ t hap c, i = .stepped t hap ∧ m.control? t = some c
      ∧ c.operation? = some (.release l.factory)
  /-- Until then a loop that has been started is run, by a thread of its executor. -/
  runs : ∀ l, m.store.Started l → ¬ m.store.ShutDown l → ∃ t c lp, m.control? t = some c
    ∧ c.serves? = some l ∧ m.store.loop? l = some lp ∧ m.home? t = some lp.executor
  /-- It is not offered to an executor again, and nobody opens another multiplexer for it, -/
  unasked : ∀ {l js m'}, m.store.Started l → m.Unfolds js m' → ∀ i ∈ js, i.asksToLaunch l = false
  /-- so whoever wants to have it started finds that it is, -/
  starts : ∀ {l t below js m'}, m.store.Started l →
    m.Course t (.start l .readShutDown) below js m' →
    ∃ r, m'.control? t = some (.back below r) ∧ m'.store.EndsWell l r
  /-- and what is submitted to it is accepted. -/
  submits : ∀ {l j t below js m'}, m.store.Started l →
    m.Course t (.submit l j .start) below js m' →
    ∃ r, m'.control? t = some (.back below r) ∧ m'.store.EndsWell l r

/-- **A loop is told to end only by whoever releases its factory.** -/
theorem Run.release_of_told {is : List Incident} (r : Run is m) (a : m.Advance i m')
    (hup : ¬ m.store.ShutDown l) (told : m'.store.ShutDown l) : ∃ t hap c, i = .stepped t hap
      ∧ m.control? t = some c ∧ c.operation? = some (.release l.factory) := by
  obtain ⟨t, hap, below, hi, hc, -⟩ := a.exists_takeSlot hup told
  exact ⟨t, hap, _, hi, hc, r.from_of_carriesOut (r.releases_of_signal hc).1 hc⟩

/-- **In every machine that a history leads to, factories leave one another alone**, whatever
they share. -/
theorem Reachable.independent (h : m.Reachable) : m.Independent where
  steps := h.sameFor
  elsewhere hg h' := h'.sameFor h hg
  loops {t hap m' g c} a hchanged hc := by
    obtain ⟨is, r⟩ := h
    obtain ⟨f, hf, hsame⟩ := r.reachable.sameFor a
    obtain rfl : f = g := by
      by_contra hne
      exact hchanged (hsame g hne)
    rw [WorksFor, hc, Option.bind_some, Control.task?] at hf
    cases ho : c.operation? with
    | some o =>
      rw [ho] at hf
      exact .inl ⟨o, rfl, hf⟩
    | none =>
      rw [ho, Option.map_none, Option.none_or] at hf
      obtain ⟨x, hx, hf⟩ := Option.bind_eq_some_iff.mp hf
      obtain ⟨l, hl, rfl⟩ := Option.map_eq_some_iff.mp hx
      obtain ⟨lp, hlp, hhome⟩ := r.home_of_serves hc hl
      exact .inr ⟨l, lp, hl, Option.some.inj hf, hlp, hhome⟩
  told a hup told := by
    obtain ⟨is, r⟩ := h
    exact r.release_of_told a hup told
  runs l hs hup := by
    obtain ⟨is, r⟩ := h
    rcases r.attended.1 l hs with hexited | ⟨t, c, hc, hl⟩
    · exact absurd (r.ended hexited).1 hup
    · obtain ⟨lp, hlp, hhome⟩ := r.home_of_serves hc hl
      exact ⟨t, c, lp, hc, hl, hlp, hhome⟩
  unasked hs h' i hi := by
    obtain ⟨is, r⟩ := h
    exact r.traffic.asksToLaunch_of_started hs h' hi
  starts hs hcourse := by
    obtain ⟨is, r⟩ := h
    obtain ⟨res, hback, hends, -⟩ := hcourse.startEnds r.traffic
    exact ⟨res, hback, hends.endsWell fun i =>
      r.traffic.asksToLaunch_of_started hs hcourse.during.unfolds⟩
  submits hs hcourse := by
    obtain ⟨is, r⟩ := h
    obtain ⟨res, hback, hends⟩ := hcourse.submitEnds r.traffic
    exact ⟨res, hback, hends.endsWell fun i =>
      r.traffic.asksToLaunch_of_started hs hcourse.during.unfolds⟩

/-- Two factories of one description, which share their executors and their provider. The
boss and the worker of the first have been started. Somebody releases the second, has shut
the executors down and waits for them; and somebody who connects an endpoint of the first is
about to submit the attempt to its boss. -/
def sharing : Machine :=
  let connect (e : EndpointId) : Operation := .connect e "127.0.0.1:9"
  let built := (empty.build .small).build .small
  let used := ((built.visit (.create 0) 40).visit (connect 0) 40).visit (.create 0) 40
  ((used.visit (.create 1) 40).visit (.release 1) 23).visit (connect 1) 3

theorem reachable_sharing : sharing.Reachable :=
  ((((((reachable_empty.build _).build _).visit _ _).visit _ _).visit _ _).visit _ _).visit
    _ _ |>.visit _ _

/-- The release leaves the first factory as it is, and the boss of that accepts the attempt
although no executor would take a loop any more. -/
theorem independent_sharing :
    let m := sharing
    let boss : LoopId := ⟨0, .boss⟩
    let below : List Frame := [.connect 1 "127.0.0.1:9" .submitting]
    m.Reachable ∧ m.Independent
      ∧ m.control? 7 = some (.running [.release 1 (.terminate (.waiting [0, 1]))])
      ∧ m.WorksFor 7 1 ∧ m.store.SameFor 0 (m.perform unobliged 7 1).store
      ∧ m.WorksFor 3 0 ∧ m.store.Started boss ∧ ¬ m.store.ShutDown boss
      ∧ (∃ js, m.Course 8 (.submit boss (.attempt 1 "127.0.0.1:9") .start) below js
        (m.perform unobliged 8 11))
      ∧ (m.perform unobliged 8 11).control? 8 = some (.back below (.ok ())) := by
  intro m boss below
  have hindependent : m.Independent := reachable_sharing.independent
  have hstep : ∃ hap, m.Advance (.stepped 7 hap) (m.perform unobliged 7 1) :=
    exists_advance_of_perform (by decide +kernel)
  obtain ⟨hap, a⟩ := hstep
  have helsewhere : m.Elsewhere 0 ([] ++ [.stepped 7 hap]) (m.perform unobliged 7 1) :=
    .advance .refl a (show ¬ m.WorksFor 7 0 by decide +kernel)
  exact ⟨reachable_sharing, hindependent, by decide +kernel, by decide +kernel,
    hindependent.elsewhere (by decide +kernel) helsewhere, by decide +kernel, by decide +kernel,
    by decide +kernel, exists_course (by decide +kernel) 11 (by decide +kernel) (by decide +kernel),
    by decide +kernel⟩

end Machine

end EndpointControl
