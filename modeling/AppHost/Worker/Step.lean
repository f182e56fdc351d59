import AppHost.Worker.Basic

/-!
# What happens to a worker

`Worker.step` is one uninterrupted stretch of a worker's life: something happened, the worker
changes, and some things are asked of the world. An event that the worker's stage does not expect
changes nothing. `Worker.due` lists what the clock will bring, `Worker.pending?` what can happen at
once.
-/

namespace AppHost

namespace Worker

inductive Event where
  | begin (via : Option TransportRef)
  | allocated (result : Except Failure Endpoint) (stamp : String)
  | launched (result : Except Failure Nat)
  | answered (listening : Bool)
  | resumed
  | overdue
  | exited (status : ExitStatus)
  | abandoned
  /-- The spawn task learns that the process is gone. -/
  | exitNoticed
  /-- The exit task learns it and cleans up. -/
  | exitHandled
  | timer (timer : Entry.Timer)
  | idleNoticed
  | lingered
  | acquire (kind : ConnKind)
  | release (kind : ConnKind)
  | pushReservation (timeout : Nat)
  | shiftReservation
  | kill (force : Bool)
  deriving Repr

def Event.sessionOpens (reserved : Bool) : List Event :=
  [.acquire .sock, .shiftReservation] ++ if reserved then [.release .pending] else []

def Event.sessionCloses : List Event := [.release .sock]

def abandon (w : Worker) (failure : Failure) : Worker × List Act :=
  ({ w with entry := (w.entry.close.resolve (.error failure)).1, stage := .finished },
    [.leave true])

def kill (w : Worker) (now : Time) (force : Bool) : Worker × List Act :=
  match w.launched with
  | none => (w, [])
  | some l =>
    if l.exit.hasExited then (w, [])
    else ({ w with launched := some { l with kills := l.kills ++ [(now, force)] } },
      [.kill l.process force])

def cleanUp (w : Worker) (log : Option Path) : Worker × List Act :=
  ({ w with entry := (w.entry.close.resolve (.error (.exitedDuringInit log))).1 }, [.leave true])

def logToRemove (w : Worker) (log : Option Path) : List Act :=
  match log with
  | some path =>
    if w.dropLog && !w.app.settings.appDefaults.preserveLogs then [.removeLog path] else []
  | none => []

/-- The worker took too long to answer. It is killed, as nobody holds a handle to it; the table
is left without word. -/
def timeOut (w : Worker) (now : Time) : Worker × List Act :=
  let log := w.launched.bind (·.log)
  let w := { w with
    entry := (w.entry.close.resolve (.error (.startupTimeout log))).1
    stage := .finished }
  let r := w.kill now true
  (r.1, .leave false :: r.2)

def becomeReady (w : Worker) (now : Time) (l : Launched) : Worker :=
  let ready := { endpoint := l.endpoint, logFile := l.log, process := l.process }
  { w with entry := (w.entry.resolve (.ok ready)).1.armIdle now, stage := .watching }

def stopIfIdle (w : Worker) (now : Time) : Worker × List Act :=
  if w.entry.count ≠ 0 ∨ w.entry.idleArmed then ({ w with stage := .watching }, [])
  else { w with dropLog := true, stage := .finished }.kill now false

/-- The linger period is over. A later expiry starts it again; a connection, or a timer armed
since, sends the task back to waiting; otherwise the worker is stopped. -/
def endLinger (w : Worker) (now since : Time) : Worker × List Act :=
  let (entry, unread) := w.entry.takeExpiries
  let w := { w with entry }
  match unread.getLast? with
  | some latest =>
    if since < latest then ({ w with stage := .lingering latest }, [])
    else w.stopIfIdle now
  | none => w.stopIfIdle now

def step (w : Worker) (now : Time) : Event → Worker × List Act
  | .begin via =>
    match w.stage, via with
    | .queued, none => w.abandon .noTransport
    | .queued, some via => ({ w with stage := .allocating via }, [.alloc via])
    | _, _ => (w, [])
  | .allocated result stamp =>
    match w.stage, result with
    | .allocating _, .error failure => w.abandon failure
    | .allocating via, .ok endpoint =>
      let log := w.app.logFile stamp endpoint.address.logSuffix
      ({ w with stage := .launching via endpoint log }, [.launch endpoint log])
    | _, _ => (w, [])
  | .launched result =>
    match w.stage, result with
    | .launching _ _ log, .error failure =>
      { w with entry := (w.entry.resolve (.error failure)).1, stage := .finished }.cleanUp log
    | .launching via endpoint log, .ok process =>
      let deadline := now + w.app.settings.appDefaults.initTimeoutMs
      ({ w with
          launched := some { endpoint, log, process }
          stage := .connecting { via, endpoint, attempt := 0, deadline } },
        [.connect via endpoint])
    | _, _ => (w, [])
  | .answered listening =>
    match w.stage, w.launched with
    | .connecting probe, some l =>
      if listening then (w.becomeReady now l, [])
      else
        let pause := connectPause w.app.settings.appDefaults.healthCheckIntervalMs probe.attempt
        ({ w with stage := .pausing probe (now + pause) }, [])
    | _, _ => (w, [])
  | .resumed =>
    match w.stage with
    | .pausing probe _ =>
      ({ w with stage := .connecting { probe with attempt := probe.attempt + 1 } },
        [.connect probe.via probe.endpoint])
    | _ => (w, [])
  | .overdue =>
    match w.stage with
    | .connecting _ | .pausing .. => w.timeOut now
    | _ => (w, [])
  | .exited status =>
    ({ w with launched := w.launched.map fun l => { l with exit := (l.exit.resolve status).1 } },
      [])
  | .abandoned =>
    ({ w with launched := w.launched.map fun l => { l with exit := l.exit.abandon } }, [])
  | .exitNoticed =>
    match w.stage, w.launched with
    | .connecting _, some l | .pausing .., some l | .watching, some l | .lingering _, some l =>
      if l.exit.awaited.isSome then ({ w with stage := .finished }, []) else (w, [])
    | _, _ => (w, [])
  | .exitHandled =>
    match w.launched with
    | some l =>
      if l.exit.awaited.isSome && !l.reaped then
        let r := { w with launched := some { l with reaped := true } }.cleanUp l.log
        (r.1, r.2 ++ w.logToRemove l.log)
      else (w, [])
    | none => (w, [])
  | .timer timer => ({ w with entry := w.entry.fire now timer }, [])
  | .idleNoticed =>
    match w.stage, w.entry.expiries with
    | .watching, since :: rest =>
      ({ w with entry := { w.entry with expiries := rest }, stage := .lingering since }, [])
    | _, _ => (w, [])
  | .lingered =>
    match w.stage with
    | .lingering since => w.endLinger now since
    | _ => (w, [])
  | .acquire kind => ({ w with entry := w.entry.acquire kind }, [])
  | .release kind => ({ w with entry := w.entry.release now kind }, [])
  | .pushReservation timeout => ({ w with entry := w.entry.pushReservation now timeout }, [])
  | .shiftReservation => ({ w with entry := w.entry.shiftReservation.1 }, [])
  | .kill force => w.kill now force

/-- What the clock will bring, and when. A connect attempt that is due together with the deadline
is still made. -/
def due (w : Worker) : List (Time × Event) :=
  (match w.stage with
    | .connecting probe => [(probe.deadline, .overdue)]
    | .pausing probe resume => [(resume, .resumed), (probe.deadline, .overdue)]
    | .lingering since => [(since + w.app.settings.appDefaults.idleLingerMs, .lingered)]
    | _ => [])
  ++ w.entry.timers.map fun t => (t.1, .timer t.2)

def pending? (w : Worker) (transport : Option TransportRef) : Option Event :=
  let gone := w.launched.any fun l => l.exit.awaited.isSome
  match w.stage with
  | .queued => some (.begin transport)
  | .connecting _ | .pausing .. | .lingering _ => if gone then some .exitNoticed else none
  | .watching =>
    if gone then some .exitNoticed else if w.entry.expiries.isEmpty then none else some .idleNoticed
  | _ => none

def exitPending (w : Worker) : Bool :=
  w.launched.any fun l => l.exit.awaited.isSome && !l.reaped

end Worker

end AppHost
