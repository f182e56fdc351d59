import AppHost.Clock
import AppHost.Exit

/-!
# Child processes

A worker's process under supervision. It is asked to stop in two stages: an interrupt first, and, if
it has not exited by the end of a grace period, a request it is harder to ignore. Who is insistent
from the start sends the second right away. Once the process has exited nothing is sent any more.

The signals go to the number that the worker reported about itself, if it did: the child that was
spawned may be no more than its launcher.
-/

namespace AppHost

structure SentSignal where
  time : Time
  target : Int
  signal : Signal
  deriving DecidableEq, Repr, Inhabited

structure Escalation where
  due : Time
  target : Int
  deriving DecidableEq, Repr, Inhabited

structure Child where
  spawnedPid : UInt32
  /-- Zero until the worker reports its number. -/
  reportedPid : UInt32 := 0
  gracePeriod : Nat
  exit : ExitNotification := .pending
  escalations : List Escalation := []
  sent : List SentSignal := []
  deriving DecidableEq, Repr, Inhabited

namespace Child

def pid (c : Child) : UInt32 := if c.reportedPid = 0 then c.spawnedPid else c.reportedPid

/-- Process numbers are signed for the system: the upper half of the range is negative, and a
negative number stands for more than one process. -/
def systemPid (pid : UInt32) : Int :=
  if pid.toNat < 2147483648 then pid.toNat else (pid.toNat : Int) - 4294967296

def report (c : Child) (pid : UInt32) : Child := { c with reportedPid := pid }

def isRunning (c : Child) : Bool := !c.exit.hasExited

def send (c : Child) (now : Time) (target : Int) (signal : Signal) : Child :=
  { c with sent := c.sent ++ [{ time := now, target, signal }] }

def kill (c : Child) (now : Time) (force : Bool) : Child :=
  if c.exit.hasExited then c
  else
    let target := systemPid c.pid
    if force then c.send now target .term
    else
      let c := c.send now target .int
      { c with escalations := c.escalations ++ [{ due := now + c.gracePeriod, target }] }

def exited (c : Child) (status : ExitStatus) : Child :=
  { c with exit := (c.exit.resolve status).1, escalations := [] }

def escalate (c : Child) (now : Time) (e : Escalation) : Child :=
  let c := { c with escalations := c.escalations.erase e }
  if c.exit.hasExited then c else c.send now e.target .term

def nextEscalation? (c : Child) : Option Escalation :=
  (earliest? (c.escalations.map fun e => (e.due, e))).map Prod.snd

end Child

end AppHost
