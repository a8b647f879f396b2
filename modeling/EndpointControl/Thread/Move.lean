import EndpointControl.Thread.Request

/-!
# One step of a thread

`Frame.move` says what a thread does next, given the store, its own name, the
procedure on top of its stack and the procedures below. Each procedure is a
function from its points to moves, and a point does one thing: read or write one
flag, change what one lock guards, take or give back a lock, ask, say something,
call or return.

Answers are not chosen here. Whatever holds of a thread for all answers holds
whatever providers and executors do.
-/

namespace EndpointControl

/-! ## The procedures

`below` is the rest of the stack throughout. -/

section Procedures

variable (s : Store) (t : ThreadId) (below : List Frame)

/-- **Starting a loop.** The slot is locked from the second look at the flags
until the loop has been announced, so of several threads that start one loop the
first does it and the others find it done. -/
def StartPoint.move (id : LoopId) (l : Loop) (p : StartPoint) : Move :=
  let on (p : StartPoint) : Control := .running (.start id p :: below)
  match p with
  | .readShutDown =>
    .go (if l.shutDown then .back below (.error .released) else on .readStarted)
  | .readStarted => .go (if l.started then .back below (.ok ()) else on .takeSlot)
  | .takeSlot => .takeLock s t (.slot id) (on .rereadShutDown)
  | .rereadShutDown =>
    .go (on (if l.shutDown then .leave (.error .released) else .rereadStarted))
  | .rereadStarted => .go (on (if l.started then .leave (.ok ()) else .inspectSlot))
  | .inspectSlot =>
    .go (on (match l.slot with
      | some m => .execute m
      | none => .openNew))
  | .openNew => .ask (.openMultiplexer id l.provider) fun
    | .ok m => on (.fillSlot m)
    | .error cause => on (.leave (.error (.unopened l.provider.identity cause)))
  | .fillSlot m =>
    .change (fun s => s.modifyLoop id fun l => { l with slot := some m }) (on (.execute m))
  | .execute m => .ask (.execute l.executor id m) fun taken =>
    on (if taken then .mark else .leave (.error (.refused id.seat.role)))
  | .mark => .change (fun s => s.modifyLoop id fun l => { l with started := true }) (on .announce)
  | .announce => .say (.submitted id l.provider.identity l.level) (on (.leave (.ok ())))
  | .leave r => .change (·.giveLock (.slot id)) (.back below r)

/-- **Submitting a job.** The job is appended and the multiplexer woken within
one turn of the queueing side, at the levels that ask for turns. A job that
cannot be submitted is dropped. -/
def SubmitPoint.move (id : LoopId) (l : Loop) (j : Job) (p : SubmitPoint) : Move :=
  let on (p : SubmitPoint) : Control := .running (.submit id j p :: below)
  match p with
  | .start => .go (.running (.start id .readShutDown :: .submit id j .starting :: below))
  | .starting => .stuck
  | .readShutDown => .go (on (if l.shutDown then .refuse .released else .takeSlot))
  | .takeSlot => .takeLock s t (.slot id) (on .readSlot)
  | .readSlot => .change (·.giveLock (.slot id)) (on (.serialize l.slot))
  | .serialize m =>
    if l.level.serialized then .takeLock s t (.registration id) (on (.takeQueue m))
    else .go (on (.takeQueue m))
  | .takeQueue m => .takeLock s t (.queue id) (on (.append m))
  | .append m =>
    .act
      (fun s =>
        (s.modifyLoop id fun l => { l with queue := l.queue.push j }).giveLock (.queue id))
      (on (match m with
        | some m => .wake m
        | none => .leave))
      [.pushed id j]
  | .wake m => .ask (.wake id m) fun
    | .ok () => on .leave
    | .error cause => on (.wakeFailed cause)
  | .wakeFailed cause => .say (.wakeFailed id cause) (on .leave)
  | .leave =>
    if l.level.serialized then .change (·.giveLock (.registration id)) (.back below (.ok ()))
    else .go (.back below (.ok ()))
  | .refuse e => .go (.running (.ofDropped j :: .submit id j (.refused e) :: below))
  | .refused e => .go (.back below (.error e))

/-- **Telling a loop to end.** The multiplexer is woken under the lock of the
slot, so a start that is under way has either filled the slot already or will see
the flag. -/
def SignalPoint.move (id : LoopId) (l : Loop) (p : SignalPoint) : Move :=
  let on (p : SignalPoint) : Control := .running (.signal id p :: below)
  match p with
  | .raise =>
    .change (fun s => s.modifyLoop id fun l => { l with shutDown := true })
      (if l.shutDown then .back below (.ok ()) else on .takeSlot)
  | .takeSlot => .takeLock s t (.slot id) (on .readSlot)
  | .readSlot =>
    .go (on (match l.slot with
      | some m => .wake m
      | none => .giveSlot))
  | .wake m => .ask (.wake id m) fun
    | .ok () => on .giveSlot
    | .error cause => on (.wakeFailed cause)
  | .wakeFailed cause => .say (.wakeFailed id cause) (on .giveSlot)
  | .giveSlot => .change (·.giveLock (.slot id)) (on .announce)
  | .announce => .say (.signalled id) (.back below (.ok ()))

/-- What a loop says about the outcome of a wait: nothing if nothing was ready. -/
def Notice.ofWait (id : LoopId) : Except String Nat → List Note
  | .ok 0 => []
  | .ok n => [.said (.ready id n)]
  | .error cause => [.said (.waitFailed id cause)]

/-- **Running a loop.** Everything queued is taken at once and run in order,
within one turn of the draining side. A loop that finds itself told to end drops
what has been queued since. -/
def ServePoint.move (id : LoopId) (l : Loop) (m : Multiplexer) (p : ServePoint) : Move :=
  let on (p : ServePoint) : Control := .running (.serve id m p :: below)
  match p with
  | .announce => .say (.loopStarted id) (on .serialize)
  | .serialize =>
    if l.level.serialized then .takeLock s t (.registration id) (on .takeQueue)
    else .go (on .takeQueue)
  | .takeQueue => .takeLock s t (.queue id) (on .takeBatch)
  | .takeBatch =>
    .change (fun s => (s.modifyLoop id fun l => { l with queue := #[] }).giveLock (.queue id))
      (on (.run l.queue.toList 0))
  | .run [] n => .go (on (.endTurn n))
  | .run (j :: rest) n =>
    .tell (.running (.ofJob j :: .serve id m (.run rest (n + 1)) :: below)) [.started id j]
  | .endTurn n =>
    if l.level.serialized then .change (·.giveLock (.registration id)) (on (.report n))
    else .go (on (.report n))
  | .report 0 => .go (on .readShutDown)
  | .report (n + 1) => .say (.ran id (n + 1)) (on .readShutDown)
  | .readShutDown => .go (on (if l.shutDown then .takeQueueLast else .wait))
  | .wait => .ask (.wait id m) fun r => on (.waited r)
  | .waited r => .tell (on .serialize) (Notice.ofWait id r)
  | .takeQueueLast => .takeLock s t (.queue id) (on .takeRest)
  | .takeRest =>
    .change (fun s => (s.modifyLoop id fun l => { l with queue := #[] }).giveLock (.queue id))
      (on (.discard l.queue.toList l.queue.size))
  | .discard [] n => .go (on (.markExited n))
  | .discard (j :: rest) n =>
    .tell (.running (.ofDropped j :: .serve id m (.discard rest n) :: below)) [.dropped id j]
  | .markExited n =>
    .change (fun s => s.modifyLoop id fun l => { l with exited := true }) (on (.announceExit n))
  | .announceExit n => .say (.exiting id n) (.finished .served)

/-- **Taking a connecting endpoint to its worker.** When the worker will not have
it the attempt is dropped a second time, by its own hand: the first drop was that
of the registration. -/
def AttemptPoint.move (id : EndpointId) (e : Endpoint) (a : Address) (p : AttemptPoint) : Move :=
  let on (p : AttemptPoint) : Control := .running (.attempt id a p :: below)
  match p with
  | .announce => .say (.handingOver e.home e.number a) (on .submit)
  | .submit =>
    .go (.running (.submit e.home (.registration id) .start :: .attempt id a .submitting :: below))
  | .submitting => .stuck
  | .announceRefusal cause => .say (.handOverRefused e.home e.number cause) (on .drop)
  | .drop => .go (.running (.drop id .takeStatus :: .attempt id a .leave :: below))
  | .leave => .go (.back below (.ok ()))

/-- **Registering an endpoint.** A closed endpoint is passed over. -/
def RegistrationPoint.move (id : EndpointId) (e : Endpoint) (p : RegistrationPoint) : Move :=
  let on (p : RegistrationPoint) : Control := .running (.registration id p :: below)
  match p with
  | .takeStatus => .takeLock s t (.status id) (on .mark)
  | .mark =>
    .change (fun s => (s.setStatus id e.status.register.1).giveLock (.status id))
      (if e.status.register.2 then on .count else .back below (.ok ()))
  | .count =>
    .act
      (fun s => s.modifyFactory e.factory fun f =>
        f.modifyWorker e.worker fun w => { w with registered := w.registered + 1 })
      (on .announce)
      [.counted id]
  | .announce => .say (.registered e.home e.number) (.back below (.ok ()))

/-- **Dropping a job.** -/
def DropPoint.move (id : EndpointId) (e : Endpoint) (p : DropPoint) : Move :=
  match p with
  | .takeStatus => .takeLock s t (.status id) (.running (.drop id .revert :: below))
  | .revert =>
    .change (fun s => (s.setStatus id e.status.revert).giveLock (.status id)) (.back below (.ok ()))

/-- **Making a channel.** The cursor and the number move before anything can
fail. -/
def CreatePoint.move (id : FactoryId) (f : Factory) (p : CreatePoint) : Move :=
  let on (p : CreatePoint) : Control := .running (.create id p :: below)
  let loop (w : Nat) : LoopId := ⟨id, .worker w⟩
  match p with
  | .readReleased =>
    .go (if f.released then .finished (.created (.error .released)) else on .pickWorker)
  | .pickWorker =>
    .change (fun s => s.modifyFactory id fun f => { f with cursor := f.cursor + 1 })
      (on (.drawNumber f.nextWorker))
  | .drawNumber w =>
    .change (fun s => s.modifyFactory id fun f => { f with nextNumber := f.nextNumber + 1 })
      (on (.start w f.nextNumber))
  | .start w n =>
    .go (.running (.start (loop w) .readShutDown :: .create id (.starting w n) :: below))
  | .starting .. => .stuck
  | .count w n =>
    .change (fun s => s.modifyFactory id fun f =>
        f.modifyWorker w fun w => { w with assigned := w.assigned + 1 })
      (on (.announceBound w n))
  | .announceBound w n => .say (.assigned (loop w) n) (on (.enroll w n))
  | .enroll w n =>
    .change (·.enroll id w n)
      (on (match f.flavor with
        | .client => .announce s.endpoints.size
        | .datagram => .submit s.endpoints.size))
  | .submit e =>
    match s.endpoints[e]? with
    | none => .stuck
    | some r =>
      .go (.running (.submit r.home (.registration e) .start ::
        .create id (.submitting e) :: below))
  | .submitting _ => .stuck
  | .announce e =>
    match s.endpoints[e]? with
    | none => .stuck
    | some r => .say (.created f.flavor r.home r.number) (.finished (.created (.ok e)))
  | .failed e => .go (.finished (.created (.error e)))

/-- **Starting a connection attempt.** The endpoint is connecting before the boss
has heard of it; an attempt that the boss does not take is dropped, which takes
the endpoint back. -/
def ConnectPoint.move (id : EndpointId) (e : Endpoint) (a : Address) (p : ConnectPoint) : Move :=
  let on (p : ConnectPoint) : Control := .running (.connect id a p :: below)
  match p with
  | .takeStatus => .takeLock s t (.status id) (on .begin)
  | .begin =>
    match e.status.beginConnect a with
    | .ok st => .change (fun s => (s.setStatus id st).giveLock (.status id)) (on .submit)
    | .error st =>
      .change (·.giveLock (.status id)) (.finished (.connected (.error (.wrongState e.number st))))
  | .submit =>
    .go (.running (.submit e.boss (.attempt id a) .start :: .connect id a .submitting :: below))
  | .submitting => .stuck
  | .count =>
    .change (fun s => s.modifyFactory e.factory fun f =>
        f.modifyBoss fun b => { b with attempts := b.attempts + 1 })
      (.finished (.connected (.ok ())))
  | .failed err => .go (.finished (.connected (.error err)))

/-- **Closing an endpoint.** -/
def ClosePoint.move (id : EndpointId) (e : Endpoint) (p : ClosePoint) : Move :=
  match p with
  | .takeStatus => .takeLock s t (.status id) (.running (.close id .close :: below))
  | .close =>
    .change (fun s => (s.setStatus id e.status.close.1).giveLock (.status id))
      (.finished (.closed e.status.close.2))

/-- **Letting go of a factory's resources.** The boss is told to end before the
workers are, and all loops are told before any executor is. -/
def ReleasePoint.move (id : FactoryId) (f : Factory) (p : ReleasePoint) : Move :=
  let on (p : ReleasePoint) : Control := .running (.release id p :: below)
  match p with
  | .raise =>
    .change (fun s => s.modifyFactory id fun f => { f with released := true })
      (if f.released then .finished .released else on .announce)
  | .announce =>
    .say (.releasing f.flavor)
      (on (match f.flavor with
        | .client => .signalBoss
        | .datagram => .signalWorkers 0))
  | .signalBoss =>
    .go (.running (.signal ⟨id, .boss⟩ .raise :: .release id (.signalWorkers 0) :: below))
  | .signalWorkers i =>
    if i < f.workers.size then
      .go (.running (.signal ⟨id, .worker i⟩ .raise ::
        .release id (.signalWorkers (i + 1)) :: below))
    else .go (on .announceWorkers)
  | .announceWorkers =>
    .say (.workersSignalled f.terms.workerCount) (on (.terminate (.begin f.executors)))
  | .terminate u =>
    match u.turn with
    | .shutDown x after => .ask (.shutDown x) fun () => on (.terminate after)
    | .isMember x after => .ask (.isMember x) fun own => on (.terminate (after own))
    | .await x after => .ask (.await x) fun ended => on (.terminate (after ended))
    | .note n after => .say n (on (.terminate after))
    | .go after => .go (on (.terminate after))
    | .stop => .go (on .announceEnd)
  | .announceEnd => .say (.released f.flavor) (.finished .released)

end Procedures

/-- **What a thread does next** that has this procedure on top of its stack. -/
def Frame.move (s : Store) (t : ThreadId) (below : List Frame) : Frame → Move
  | .start id p =>
    match s.loop? id with
    | some l => p.move s t below id l
    | none => .stuck
  | .submit id j p =>
    match s.loop? id with
    | some l => p.move s t below id l j
    | none => .stuck
  | .signal id p =>
    match s.loop? id with
    | some l => p.move s t below id l
    | none => .stuck
  | .serve id m p =>
    match s.loop? id with
    | some l => p.move s t below id l m
    | none => .stuck
  | .attempt id a p =>
    match s.endpoints[id]? with
    | some e => p.move below id e a
    | none => .stuck
  | .registration id p =>
    match s.endpoints[id]? with
    | some e => p.move s t below id e
    | none => .stuck
  | .drop id p =>
    match s.endpoints[id]? with
    | some e => p.move s t below id e
    | none => .stuck
  | .create id p =>
    match s.factories[id]? with
    | some f => p.move s below id f
    | none => .stuck
  | .connect id a p =>
    match s.endpoints[id]? with
    | some e => p.move s t below id e a
    | none => .stuck
  | .close id p =>
    match s.endpoints[id]? with
    | some e => p.move s t below id e
    | none => .stuck
  | .release id p =>
    match s.factories[id]? with
    | some f => p.move below id f
    | none => .stuck

/-- **What a thread does next**, wherever it is. A thread at its end does
nothing more. -/
def Control.move (s : Store) (t : ThreadId) : Control → Move
  | .running (f :: below) => f.move s t below
  | .running [] => .stuck
  | .finished _ => .stuck

end EndpointControl
