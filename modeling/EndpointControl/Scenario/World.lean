import EndpointControl.Scenario.Staging

/-!
# A scenario in progress

A `World` is a machine of threads, what surrounds them, and who has the floor.
Exactly one thing runs at a time, and what it interrupted waits below it on a
stack of activities: a thread that waits for an executor has all units of that
executor advanced on top of it, one of those units may wait for another executor
in turn, and so on.

`World.step` is one step of whatever is on top. There is none only when nobody has
the floor or when the thread on top wants a lock that is held by somebody below it
or parked – which in a scenario, where nothing moves by itself, is the end of it.

Every step of a thread here is a step of the machine: the world adds the answers.
-/

namespace EndpointControl.Scenario

/-- **Who has the floor.** -/
inductive Activity where
  /-- A thread, and the unit of which executor it is, if it is one. -/
  | thread (t : ThreadId) (unit : Option (ExecutorId × Nat))
  /-- A thread waits for an executor, whose units are advanced from this one on. -/
  | round (t : ThreadId) (executor : ExecutorId) (next : Nat)
  /-- Everything that can run is run, on behalf of a thread that waits for an
  executor, if one does. -/
  | settle (waiting : Option (ThreadId × ExecutorId))
  /-- All units are advanced, from this executor and this unit on. -/
  | sweep (executor : ExecutorId) (next : Nat)
  deriving DecidableEq, Repr

/-- **What a unit of work came to** that was not a loop. -/
inductive UnitResult where
  /-- Its operation ended so. -/
  | outcome (o : Outcome)
  /-- It had nothing to do. -/
  | noSuch
  deriving DecidableEq, Repr

/-- **A scenario in progress.** -/
structure World where
  /-- The threads and what they share. -/
  machine : Machine
  /-- The executors. -/
  executors : Array StagedExecutor
  /-- The providers; the key of a provider is its place here. -/
  providers : Array StagedProvider
  /-- Who has the floor, the innermost first. -/
  floor : List Activity
  /-- What has been on record since somebody looked, the last entry first. -/
  record : List Entry
  /-- What units came to since somebody looked, the last one first. -/
  results : List UnitResult

namespace World

/-! ## Small changes -/

/-- Puts something on record. -/
def log (w : World) (e : Entry) : World := { w with record := e :: w.record }

/-- Puts a call to a provider on record, if the provider is watched. -/
def logCall (w : World) (provider : Nat) (e : Entry) : World :=
  match w.providers[provider]? with
  | some p => if p.watched then w.log e else w
  | none => w

/-- Puts on record what was said in a step. -/
def logNotes (w : World) (ns : List Note) : World :=
  ns.foldl (fun w n =>
    match n with
    | .said n => w.log (.said n)
    | _ => w) w

/-- Changes one executor. -/
def modifyExecutor (w : World) (x : ExecutorId) (f : StagedExecutor → StagedExecutor) : World :=
  { w with executors := w.executors.modify x f }

/-- Changes one provider. -/
def modifyProvider (w : World) (p : Nat) (f : StagedProvider → StagedProvider) : World :=
  { w with providers := w.providers.modify p f }

/-- Puts a unit at another place. -/
def setUnit (w : World) (unit : ExecutorId × Nat) (s : UnitState) : World :=
  w.modifyExecutor unit.1 (·.setUnit unit.2 s)

/-- The unit, if there is such a one. -/
def unit? (w : World) (unit : ExecutorId × Nat) : Option StagedUnit :=
  w.executors[unit.1]?.bind (·.units[unit.2]?)

/-- How the executor treats its units. -/
def regime? (w : World) (x : ExecutorId) : Option Regime :=
  w.executors[x]?.map StagedExecutor.regime

/-- The unit, if it is one, is run by an executor that runs its units by itself. -/
def isEager (w : World) (unit : Option (ExecutorId × Nat)) : Bool :=
  (unit.bind fun u => (w.regime? u.1).map (·.isEager)).getD false

/-- **Answers the thread**, if this is what it asks for. -/
def reply (w : World) (t : ThreadId) (r : Request) (a : r.Reply) : World :=
  match w.machine.move t with
  | .ask r' after =>
    if h : r' = r then { w with machine := w.machine.answer t r' after (h ▸ a) } else w
  | _ => w

/-- A loop has something to do: it is told to end, or jobs are queued. -/
def loopHasWork (w : World) (l : LoopId) : Bool :=
  match w.machine.store.loop? l with
  | some l => l.shutDown || !l.queue.isEmpty
  | none => false

/-! ## Units -/

/-- **Resumes a parked thread**: its wait comes to this, or its wake-up is
delivered. -/
def resume (w : World) (t : ThreadId) (ready : Except String Nat) : World :=
  match w.machine.move t with
  | .ask (.wait l m) _ =>
    (w.modifyProvider m.provider (·.endWait m.number)).reply t (.wait l m) ready
  | .ask (.wake l m) _ =>
    (w.modifyProvider m.provider (·.deliverWake m.number)).reply t (.wake l m) (.ok ())
  | _ => w

/-- **Advances a unit.** A fresh one begins; a parked one is resumed; one that is
over or on stays as it is. -/
def advance (w : World) (unit : ExecutorId × Nat) (ready : Except String Nat) : World :=
  match w.unit? unit with
  | some ⟨none, .fresh⟩ =>
    { w.setUnit unit .done with results := .noSuch :: w.results }
  | some ⟨some t, .fresh⟩ =>
    { w.setUnit unit .running with floor := .thread t (some unit) :: w.floor }
  | some ⟨some t, .parked⟩ =>
    let w := (w.setUnit unit .running).resume t ready
    { w with floor := .thread t (some unit) :: w.floor }
  | _ => w

/-- A unit that could run by itself: it has not begun, or it waits on its
multiplexer and its loop has something to do. -/
def canRun (w : World) (u : StagedUnit) : Bool :=
  match u with
  | ⟨_, .fresh⟩ => true
  | ⟨some t, .parked⟩ =>
    match w.machine.control? t with
    | some (.running (.serve l _ .wait :: _)) => w.loopHasWork l
    | _ => false
  | _ => false

/-- The first unit that could run by itself, in order of executors and units. -/
def runnable? (w : World) : Option (ExecutorId × Nat) :=
  (List.range w.executors.size).findSome? fun x =>
    w.executors[x]?.bind fun e =>
      (List.range e.units.size).findSome? fun k =>
        e.units[k]?.bind fun u => if w.canRun u then some (x, k) else none

/-- The thread is over, and so is the unit that it was. A loop leaves no result. -/
def retire (w : World) (unit : Option (ExecutorId × Nat)) (o : Outcome) : World :=
  match unit with
  | none => w
  | some u =>
    let w := w.setUnit u .done
    match o with
    | .served => w
    | o => { w with results := .outcome o :: w.results }

/-- The unit is parked and gives the floor up. -/
def park (w : World) (unit : ExecutorId × Nat) (below : List Activity) : World :=
  { w.setUnit unit .parked with floor := below }

/-! ## Answers -/

/-- Tells a thread whether the executor it waits for has terminated. -/
def tellVerdict (w : World) (t : ThreadId) (x : ExecutorId) (ended : Bool) : World :=
  match w.executors[x]? with
  | some e =>
    let (e, ended) := e.verdict ended
    let w := (w.modifyExecutor x fun _ => e).log (.awaited x ended)
    w.reply t (.await x) ended
  | none => w.reply t (.await x) true

/-- **What surrounds a thread answers it**, or takes the floor from it. -/
def serve (w : World) (t : ThreadId) (unit : Option (ExecutorId × Nat)) (below : List Activity) :
    Request → World
  | .openMultiplexer l p =>
    match w.providers[p.key]? with
    | some sp =>
      let (sp, r) := sp.openNext
      let w := w.modifyProvider p.key fun _ => sp
      match r with
      | .ok n =>
        (w.logCall p.key (.opened p.key n)).reply t (.openMultiplexer l p) (.ok ⟨p.key, n⟩)
      | .error cause =>
        (w.logCall p.key (.openFailed p.key)).reply t (.openMultiplexer l p) (.error cause)
    | none => w.reply t (.openMultiplexer l p) (.error "")
  | .execute x l m =>
    match w.executors[x]? with
    | some e =>
      let (e, r) := e.offer (some w.machine.threads.size)
      let w := w.modifyExecutor x fun _ => e
      match r with
      | some k => (w.log (.taken x k)).reply t (.execute x l m) true
      | none => (w.log (.refused x)).reply t (.execute x l m) false
    | none => w.reply t (.execute x l m) false
  | .wake l m =>
    match w.providers[m.provider]? with
    | some p =>
      let (p, r) := p.askWake
      let w := w.modifyProvider m.provider fun _ => p
      match r with
      | .error cause =>
        (w.logCall m.provider (.wakeFailed m.provider m.number)).reply t (.wake l m) (.error cause)
      | .ok () =>
        let w := w.logCall m.provider (.woken m.provider m.number)
        match unit with
        | some u =>
          if p.pauseWakes && !w.isEager unit then w.park u below
          else (w.modifyProvider m.provider (·.deliverWake m.number)).reply t (.wake l m) (.ok ())
        | none =>
          (w.modifyProvider m.provider (·.deliverWake m.number)).reply t (.wake l m) (.ok ())
    | none => w.reply t (.wake l m) (.ok ())
  | .wait l m =>
    let w := w.logCall m.provider (.waiting m.provider m.number)
    let watched := (w.providers[m.provider]?.map (·.watched)).getD false
    match unit with
    | some u =>
      if w.isEager unit || watched then w.park u below
      else (w.modifyProvider m.provider (·.endWait m.number)).reply t (.wait l m) (.ok 0)
    | none => (w.modifyProvider m.provider (·.endWait m.number)).reply t (.wait l m) (.ok 0)
  | .shutDown x =>
    ((w.modifyExecutor x fun e => { e with shutDown := true }).log (.shutDown x)).reply t
      (.shutDown x) ()
  | .isMember x =>
    let own := (unit.map (·.1)) == some x
    (w.log (.member x own)).reply t (.isMember x) own
  | .await x =>
    match w.regime? x with
    | some .eager => { w with floor := .settle (some (t, x)) :: w.floor }
    | some (.stepped _ idle _) =>
      let w := w.log (.awaiting x)
      if idle then w.tellVerdict t x false else { w with floor := .round t x 0 :: w.floor }
    | none => w.reply t (.await x) true

/-! ## One step -/

/-- **One step of whatever has the floor**, and whether there was one. -/
def step (w : World) : World × Bool :=
  match w.floor with
  | [] => (w, false)
  | .thread t unit :: below =>
    match w.machine.control? t with
    | some (.finished o) => ({ w with floor := below }.retire unit o, true)
    | _ =>
      match w.machine.move t with
      | .act g c notes => ({ w with machine := w.machine.act t g c }.logNotes notes, true)
      | .ask r _ => (w.serve t unit below r, true)
      | .blocked _ => (w, false)
      | .stuck => (w, false)
  | .round t x k :: below =>
    match w.executors[x]? with
    | some e =>
      if k < e.units.size then
        ({ w with floor := .round t x (k + 1) :: below }.advance (x, k) (.ok 0), true)
      else ({ w with floor := below }.tellVerdict t x e.terminated, true)
    | none => (w, false)
  | .settle waiting :: below =>
    match w.runnable? with
    | some u => (w.advance u (.ok 0), true)
    | none =>
      let w := { w with floor := below }
      match waiting with
      | none => (w, true)
      | some (t, x) =>
        let ended := (w.executors[x]?.map (·.terminated)).getD true
        (w.tellVerdict t x ended, true)
  | .sweep x k :: below =>
    match w.executors[x]? with
    | some e =>
      if k < e.units.size then
        ({ w with floor := .sweep x (k + 1) :: below }.advance (x, k) (.ok 0), true)
      else ({ w with floor := .sweep (x + 1) 0 :: below }, true)
    | none => ({ w with floor := below }, true)

/-- **Goes on for at most so many steps.** -/
def run : Nat → World → World
  | 0, w => w
  | n + 1, w =>
    match w.step with
    | (w, true) => run n w
    | (w, false) => w

/-- More steps than any scenario takes that ends at all. -/
def enough : Nat := 10000000

/-- Goes on until nobody has the floor. -/
def finish (w : World) : World := w.run enough

/-- The thread of an operation that is called from outside has the floor. -/
def begin (w : World) (o : Operation) : World :=
  let t := w.machine.threads.size
  { w with machine := w.machine.spawn none o.control, floor := [.thread t none] }

/-- **Calls an operation from outside** and goes on until it has returned. -/
def call (w : World) (o : Operation) : World := (w.begin o).finish

/-- What a thread ended with, if it has ended. -/
def outcome? (w : World) (t : ThreadId) : Option Outcome :=
  match w.machine.control? t with
  | some (.finished o) => some o
  | _ => none

/-- Runs everything that an eager executor could run by itself. -/
def settled (w : World) : World :=
  if w.executors.any (·.regime.isEager) then { w with floor := [.settle none] }.finish else w

end World

end EndpointControl.Scenario
