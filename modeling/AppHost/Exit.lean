import AppHost.Signal

/-!
# How a process ends

`ExitStatus` says how a process ended. `ExitNotification` hands that status to everyone who waits
for it: it settles once, and whoever waits learns the same status, whether they began to wait
before or after it settled.
-/

namespace AppHost

structure ExitStatus where
  code : Option Int := none
  signal : Option Signal := none
  deriving DecidableEq, Repr, Inhabited

namespace ExitStatus

def synthetic : ExitStatus := { code := some (-1) }

def exited (code : Int) : ExitStatus := { code := some code }

def killedBy (signal : Signal) : ExitStatus := { signal := some signal }

def success (status : ExitStatus) : Bool := status.code = some 0

/-- Splits a wait status word: the low seven bits hold the fatal signal, zero for a process that
exited by itself, whose code is then the next byte; all ones mark a stopped process. -/
def ofWaitStatus (word : Nat) : ExitStatus :=
  let low := word % 128
  { code := if low = 0 then some (word / 256 % 256 : Nat) else none
    signal := if 0 < low ∧ low < 127 then Signal.ofNumber? low else none }

def describe (status : ExitStatus) : String :=
  match status.signal, status.code with
  | some signal, _ => "signal " ++ signal.name
  | none, some code => "code " ++ toString code
  | none, none => "unknown status"

end ExitStatus

/-- The state of a one-shot notification. `abandoned` is what becomes of an unsettled one whose
process nobody watches any more. -/
inductive ExitNotification where
  | pending
  | settled (status : ExitStatus)
  | abandoned
  deriving DecidableEq, Repr, Inhabited

namespace ExitNotification

def status : ExitNotification → Option ExitStatus
  | .settled status => some status
  | _ => none

/-- An abandoned process still counts as running: nobody saw it end. -/
def hasExited (n : ExitNotification) : Bool := n.status.isSome

def awaited : ExitNotification → Option ExitStatus
  | .pending => none
  | .settled status => some status
  | .abandoned => some .synthetic

def resolve (n : ExitNotification) (status : ExitStatus) : ExitNotification × Bool :=
  match n with
  | .pending => (.settled status, true)
  | other => (other, false)

def abandon : ExitNotification → ExitNotification
  | .pending => .abandoned
  | other => other

end ExitNotification

structure ExitChannel where
  notification : ExitNotification := .pending
  watched : Bool := true
  deriving DecidableEq, Repr, Inhabited

namespace ExitChannel

def report (c : ExitChannel) (status : ExitStatus) : ExitChannel × Option Bool :=
  if c.watched then
    let r := c.notification.resolve status
    ({ c with notification := r.1 }, some r.2)
  else (c, none)

def leave (c : ExitChannel) : ExitChannel × Bool :=
  if c.watched then ({ notification := c.notification.abandon, watched := false }, true)
  else (c, false)

end ExitChannel

end AppHost
