import AppHost.Child

/-!
# Supervised children

A child process with a behaviour of its own, under supervision, on a clock that only a script moves.
-/

namespace AppHost.Simulation

inductive Ending where
  | exits (code : Int)
  | signals (signal : Signal)
  | sleeps
  deriving DecidableEq, Repr, Inhabited

structure Subject where
  ignored : List Signal := []
  suspended : Bool := false
  held : List Signal := []
  status : Option ExitStatus := none
  deriving DecidableEq, Repr, Inhabited

namespace Subject

/-- A signal arrives. Two of them cannot be ignored, nor can resuming. -/
def receive (s : Subject) (signal : Signal) : Subject :=
  if s.status.isSome then s
  else if signal = .kill then { s with status := some (.killedBy signal) }
  else if signal = .stop then { s with suspended := true }
  else if signal = .cont then
    { s with suspended := false, held := [], status := s.held.head?.map ExitStatus.killedBy }
  else if s.ignored.contains signal then s
  else match signal.disposition with
    | .ignore | .resume => s
    | .suspend => { s with suspended := true }
    | .terminate =>
      if s.suspended then { s with held := s.held ++ [signal] }
      else { s with status := some (.killedBy signal) }

def run (s : Subject) : Ending → Subject
  | .exits code => { s with status := some (.exited code) }
  | .signals signal => s.receive signal
  | .sleeps => s

end Subject

structure Supervision where
  now : Time := 0
  child : Child
  subject : Subject
  deriving Repr, Inhabited

namespace Supervision

def settle (s : Supervision) : Supervision :=
  match s.subject.status with
  | some status => { s with child := s.child.exited status }
  | none => s

def act (s : Supervision) (f : Child → Child) : Supervision :=
  let child := f s.child
  let arriving :=
    (child.sent.drop s.child.sent.length).filter (·.target = Child.systemPid child.spawnedPid)
  settle { s with
    child := child
    subject := arriving.foldl (fun subject sent => subject.receive sent.signal) s.subject }

def begin (child : Child) (ignored : List Signal) (ending : Ending) : Supervision :=
  settle { child, subject := Subject.run { ignored } ending }

def kill (s : Supervision) (force : Bool) : Supervision := s.act (·.kill s.now force)

def signal (s : Supervision) (signal : Signal) : Supervision :=
  settle { s with subject := s.subject.receive signal }

def report (s : Supervision) (pid : UInt32) : Supervision := s.act (·.report pid)

/-- Lets the second stages of kills happen that are due by `limit`; without a limit, all of them.
There are no more of them than the child has escalations. -/
def advance (s : Supervision) (limit : Option Time) : (fuel : Nat) → Supervision
  | 0 => s
  | fuel + 1 =>
    match s.child.nextEscalation? with
    | none => s
    | some e =>
      if limit.any (· < e.due) then s
      else
        let s := { s with now := max s.now e.due }
        (s.act (·.escalate s.now e)).advance limit fuel

def sleep (s : Supervision) (ms : Nat) : Supervision :=
  let limit := s.now + ms
  { s.advance (some limit) s.child.escalations.length with now := limit }

def wait (s : Supervision) : Supervision × Option ExitStatus :=
  let s := if s.child.isRunning then s.advance none s.child.escalations.length else s
  (s, s.child.exit.awaited)

end Supervision

end AppHost.Simulation
