import EndpointControl.Scenario.Script
import EndpointControl.Scenario.World

/-!
# Sessions

A session plays a script against a `World`. A slot whose step failed, or whose
content has been dropped, stays empty; a step that refers to nothing is answered
by `noSuch` and does nothing else. Dropping empties a slot and nothing more: loops
and endpoints are kept alive by what else leads to them.
-/

namespace EndpointControl.Scenario

/-- **An endpoint in somebody's hands**, with the pipeline it carries. -/
structure Held where
  /-- The endpoint. -/
  endpoint : EndpointId
  /-- The pipeline, which means nothing here. -/
  pipeline : String
  deriving DecidableEq, Repr

/-- **A session in progress.** -/
structure Session where
  /-- What it is played against. -/
  world : World
  /-- The platform of drafts that name none. -/
  here : Platform
  /-- The platforms described. -/
  platforms : Array Platform
  /-- The number of providers described. -/
  described : Nat
  /-- The drafts. -/
  drafts : Array Draft
  /-- The slots for factories. -/
  factories : Array (Option FactoryId)
  /-- The slots for endpoints. -/
  endpoints : Array (Option Held)

namespace Session

/-- The provider at a place of the list. -/
def providerAt (ps : Array StagedProvider) (k : Nat) : Option Provider :=
  ps[k]?.map fun p => ⟨k, p.inner.identity⟩

/-- Adds the provider of one platform, unless it has one of those described. -/
def addPlatform (ps : Array StagedProvider) (plan : PlatformPlan) :
    Array StagedProvider × Platform :=
  match plan.provider.bind (providerAt ps) with
  | some p => (ps, ⟨plan.processors, plan.processors_pos, p, plan.defects⟩)
  | none =>
    (ps.push (.plain (.fresh ownIdentity false) false false),
      ⟨plan.processors, plan.processors_pos, ⟨ps.size, ownIdentity⟩, plan.defects⟩)

/-- **The start of a session** on a machine with so many processors, which knows
these defects. -/
def start (executors : List Regime) (providers : List ProviderPlan)
    (platforms : List PlatformPlan) (processors : Nat) (h : 0 < processors)
    (defects : DefectTable) : Session :=
  let given := (providers.map (·.staged)).toArray
  let (all, platforms) := platforms.foldl
    (fun (ps, qs) plan => let (ps, q) := addPlatform ps plan; (ps, qs.push q)) (given, #[])
  let native : StagedProvider := .plain (.fresh nativeIdentity false) true false
  { world :=
      { machine := .empty
        executors := (executors.map .fresh).toArray
        providers := all.push native
        floor := []
        record := []
        results := [] }
    here := ⟨processors, h, ⟨all.size, nativeIdentity⟩, defects⟩
    platforms := platforms
    described := given.size
    drafts := #[]
    factories := #[]
    endpoints := #[] }

/-! ## Looking things up -/

/-- The factory in a slot. -/
def factoryAt (s : Session) (slot : Nat) : Option FactoryId := s.factories[slot]?.bind id

/-- What is held in a slot. -/
def heldAt (s : Session) (slot : Nat) : Option Held := s.endpoints[slot]?.bind id

/-- The memory that the threads share. -/
def store (s : Session) : Store := s.world.machine.store

/-- The endpoint makes connections: its factory has a boss. -/
def isStream (s : Session) (e : EndpointId) : Bool :=
  match s.store.endpoints[e]? with
  | some r => (s.store.factories[r.factory]?.map (·.flavor == .client)).getD false
  | none => false

/-- What a name stands for. -/
def entity? (s : Session) : Name → Option Entity
  | .factory k => (s.factoryAt k).map .factory
  | .boss k => (s.factoryAt k).map fun f => .loop ⟨f, .boss⟩
  | .worker k i => (s.factoryAt k).map fun f => .loop ⟨f, .worker i⟩
  | .endpoint k => (s.heldAt k).map fun h => .endpoint h.endpoint

/-- The context of what a name stands for. -/
def context? (s : Session) (n : Name) : Option Context := (s.entity? n).bind s.store.context?

/-- A context as the script sees it. -/
def viewContext (s : Session) (c : Context) : ContextView where
  level := c.level
  identity := c.provider.identity
  provider := if c.provider.key < s.described then some c.provider.key else none
  platforms := s.platforms.toList.map fun p => p.provider.same c.provider

/-- The worker of an endpoint. -/
def workerOf? (s : Session) (e : EndpointId) : Option WorkerView :=
  s.store.endpoints[e]?.bind fun r =>
    s.store.factories[r.factory]?.bind fun f => f.workers[r.worker]?.map (.of r.worker)

/-- A choice of the script as a choice about a draft. -/
def choice? (s : Session) : Pick → Option Choice
  | .bossExecutor x => if x < s.world.executors.size then some (.bossExecutor x) else none
  | .workerExecutor x => if x < s.world.executors.size then some (.workerExecutor x) else none
  | .workerCount n => some (.workerCount n)
  | .provider k =>
    if k < s.described then (providerAt s.world.providers k).map .provider else none
  | .setting v => some (.setting v)
  | .platform k => s.platforms[k]?.map .platform

/-! ## Steps -/

/-- Calls an operation and goes on with its outcome. -/
def callThen (s : Session) (o : Operation) (k : Session → Outcome → Session × SessionResult) :
    Session × SessionResult :=
  let t := s.world.machine.threads.size
  let s := { s with world := s.world.call o }
  match s.world.outcome? t with
  | some out => k s out
  | none => (s, .wouldBlock)

/-- What an attempt to connect came to. -/
def ofConnected : Except Failure Unit → SessionResult
  | .ok () => .done
  | .error e => .failure e

/-- Builds the factory of a blueprint and puts it into a new slot. -/
def addFactory (s : Session) (b : Blueprint) : Session :=
  let f := s.store.factories.size
  let w := { s.world with machine := s.world.machine.build b }
  { s with
    world := w.log (.said (.built b.staffing.flavor b.terms))
    factories := s.factories.push (some f) }

/-- **Building a factory**: a new slot in any case, with the factory in it if there
is one. -/
def build (s : Session) (draft : Nat) : Session × SessionResult :=
  match s.drafts[draft]? with
  | none => ({ s with factories := s.factories.push none }, .noSuch)
  | some d =>
    match d.blueprint s.here with
    | .error e => ({ s with factories := s.factories.push none }, .failure e)
    | .ok b => (s.addFactory b, .context (s.viewContext ⟨b.terms.provider, b.terms.level⟩))

/-- **Making a channel**: a new slot in any case, with the endpoint in it if there
is one. -/
def channel (s : Session) (factory : Nat) (pipeline : String) : Session × SessionResult :=
  match s.factoryAt factory with
  | none => ({ s with endpoints := s.endpoints.push none }, .noSuch)
  | some f =>
    s.callThen (.create f) fun s out =>
      match out with
      | .created (.ok e) =>
        let k := s.endpoints.size
        ({ s with endpoints := s.endpoints.push (some ⟨e, pipeline⟩) }, .slot k)
      | .created (.error e) => ({ s with endpoints := s.endpoints.push none }, .failure e)
      | _ => (s, .wouldBlock)

/-- Where a unit stopped. -/
def haltOf (w : World) (u : StagedUnit) : SessionResult :=
  match u with
  | ⟨_, .done⟩ => .halt .done
  | ⟨some t, .parked⟩ =>
    match w.machine.move t with
    | .ask (.wake ..) _ => .halt .wake
    | _ => .halt .wait
  | _ => .wouldBlock

/-- The unit, if a script can name it: the units of eager executors run by
themselves and are nobody's to move. -/
def steppedUnit? (s : Session) (unit : ExecutorId × Nat) : Option StagedUnit :=
  if s.world.isEager (some unit) then none else s.world.unit? unit

/-- **Advancing a unit** and telling where it stops. -/
def advance (s : Session) (unit : ExecutorId × Nat) (ready : Except String Nat) :
    Session × SessionResult :=
  match s.steppedUnit? unit with
  | none => (s, .noSuch)
  | some _ =>
    let s := { s with world := (s.world.advance unit ready).finish }
    match s.world.unit? unit with
    | some u => (s, haltOf s.world u)
    | none => (s, .noSuch)

/-- Offers a unit to an executor: a thread that begins at this place, or a unit
with nothing to do. -/
def offer (s : Session) (x : ExecutorId) (c : Option Control) : Session × SessionResult :=
  match s.world.executors[x]? with
  | none => (s, .noSuch)
  | some e =>
    let w := s.world
    let (e, r) := e.offer (c.map fun _ => w.machine.threads.size)
    let w := w.modifyExecutor x fun _ => e
    match r with
    | none => ({ s with world := w.log (.refused x) }, .rejected)
    | some k =>
      let w := w.log (.taken x k)
      let w :=
        match c with
        | some c => { w with machine := w.machine.spawn (some x) c }
        | none => w
      ({ s with world := w }, .done)

/-- **Having an executor run an operation.** What the operation is about is looked
up before the executor is asked. -/
def submit (s : Session) (x : ExecutorId) : Action → Session × SessionResult
  | .release k =>
    match s.factoryAt k with
    | some f => s.offer x (some (Operation.release f).control)
    | none => (s, .noSuch)
  | .channel k =>
    match s.factoryAt k with
    | some f => s.offer x (some (Operation.create f).control)
    | none => (s, .noSuch)
  | .connect k a =>
    match s.heldAt k with
    | some h =>
      s.offer x
        (if s.isStream h.endpoint then some (Operation.connect h.endpoint a).control else none)
    | none => (s, .noSuch)
  | .close k =>
    match s.heldAt k with
    | some h => s.offer x (some (Operation.close h.endpoint).control)
    | none => (s, .noSuch)

/-- **One step of the script**, before anything settles. -/
def perform (s : Session) : SessionStep → Session × SessionResult
  | .draft f => ({ s with drafts := s.drafts.push (.blank f) }, .slot s.drafts.size)
  | .copyDraft k =>
    match s.drafts[k]? with
    | some d => ({ s with drafts := s.drafts.push d }, .slot s.drafts.size)
    | none => (s, .noSuch)
  | .choose k picks =>
    match s.drafts[k]?, picks.mapM s.choice? with
    | some _, some cs => ({ s with drafts := s.drafts.modify k (·.chooseAll cs) }, .done)
    | _, _ => (s, .noSuch)
  | .build k => s.build k
  | .copyFactory k =>
    match s.factoryAt k with
    | some f => ({ s with factories := s.factories.push (some f) }, .done)
    | none => ({ s with factories := s.factories.push none }, .noSuch)
  | .dropFactory k =>
    match s.factories[k]? with
    | some c => ({ s with factories := s.factories.setIfInBounds k none }, .flag c.isSome)
    | none => (s, .noSuch)
  | .dropEndpoint k =>
    match s.endpoints[k]? with
    | some c => ({ s with endpoints := s.endpoints.setIfInBounds k none }, .flag c.isSome)
    | none => (s, .noSuch)
  | .channel k p => s.channel k p
  | .connect k a =>
    match s.heldAt k with
    | some h =>
      if s.isStream h.endpoint then
        s.callThen (.connect h.endpoint a) fun s out =>
          match out with
          | .connected r => (s, ofConnected r)
          | _ => (s, .wouldBlock)
      else (s, .noSuch)
    | none => (s, .noSuch)
  | .close k =>
    match s.heldAt k with
    | some h =>
      s.callThen (.close h.endpoint) fun s out =>
        match out with
        | .closed b => (s, .flag b)
        | _ => (s, .wouldBlock)
    | none => (s, .noSuch)
  | .extend k t =>
    match s.heldAt k with
    | some h =>
      let p := h.pipeline ++ t
      ({ s with endpoints := s.endpoints.setIfInBounds k (some { h with pipeline := p }) }, .text p)
    | none => (s, .noSuch)
  | .release k =>
    match s.factoryAt k with
    | some f => s.callThen (.release f) fun s _ => (s, .done)
    | none => (s, .noSuch)
  | .shutDown x =>
    if x < s.world.executors.size then
      let w := s.world.modifyExecutor x fun e => { e with shutDown := true }
      ({ s with world := w.log (.shutDown x) }, .done)
    else (s, .noSuch)
  | .context n =>
    match s.context? n with
    | some c => (s, .context (s.viewContext c))
    | none => (s, .noSuch)
  | .shares a b =>
    match s.context? a, s.context? b with
    | some a, some b => (s, .flag (a.shares b))
    | _, _ => (s, .noSuch)
  | .worker k =>
    match (s.heldAt k).bind fun h => s.workerOf? h.endpoint with
    | some w => (s, .worker w)
    | none => (s, .noSuch)
  | .advance x u ready => s.advance (x, u) ready
  | .sweep => ({ s with world := { s.world with floor := [.sweep 0 0] }.finish }, .done)
  | .discard x u =>
    match s.steppedUnit? (x, u) with
    | some ⟨_, .fresh⟩ => ({ s with world := s.world.setUnit (x, u) .done }, .done)
    | _ => (s, .noSuch)
  | .submit x a => s.submit x a

/-- **One step of the script**, with everything settled after it. -/
def step (s : Session) (a : SessionStep) : Session × SessionResult :=
  let (s, r) := s.perform a
  ({ s with world := s.world.settled }, r)

/-- What is on record since somebody looked, in order, and what units came to. -/
def news (s : Session) : List Entry × List UnitResult :=
  (s.world.record.reverse, s.world.results.reverse)

/-- Somebody has looked. -/
def read (s : Session) : Session := { s with world := { s.world with record := [], results := [] } }

end Session

end EndpointControl.Scenario
