import AppHost.Exit
import AppHost.Registry

/-!
# Plans

A simulation decides beforehand what the world around a registry does: how long each endpoint takes
to be allocated, whether each launch succeeds, when the launched process listens, how it answers a
kill and when it exits by itself. Plans are used in order; when they run out, everything works and
takes no time.
-/

namespace AppHost.Simulation

inductive PlannedFailure where
  | noFreePort
  | missingAppDir
  | spawn
  | superuser
  | io
  | user
  deriving DecidableEq, Repr, Inhabited

namespace PlannedFailure

def name : PlannedFailure → String
  | .noFreePort => "no_free_port"
  | .missingAppDir => "missing_app_dir"
  | .spawn => "spawn"
  | .superuser => "superuser"
  | .io => "io"
  | .user => "user"

def all : List PlannedFailure := [.noFreePort, .missingAppDir, .spawn, .superuser, .io, .user]

def failure (app : AppSpec) : PlannedFailure → Failure
  | .noFreePort => .noFreePort
  | .missingAppDir => .appDirNotFound app.appDir
  | .spawn => .spawn "su: refused"
  | .superuser => .superuserLaunch
  | .io => .io .permissionDenied
  | .user => match app.runAsUser with
    | .ok account => .userNotFound account
    | .error reason => reason

end PlannedFailure

structure AllocPlan where
  delay : Nat := 0
  fail : Option PlannedFailure := none
  deriving DecidableEq, Repr, Inhabited

/-- One launch and the process it starts. Delays are in milliseconds; a delay of `none` never
ends. -/
structure LaunchPlan where
  launchMs : Nat := 0
  fail : Option PlannedFailure := none
  connectMs : Nat := 0
  listenMs : Option Nat := some 0
  exitMs : Option Nat := none
  exit : ExitStatus := .exited 0
  termMs : Option Nat := some 0
  intMs : Option Nat := some 0
  deriving DecidableEq, Repr, Inhabited

structure WorkerKey where
  policy : PolicyRef
  worker : WorkerRef
  deriving DecidableEq, Repr, Inhabited

structure Process where
  worker : WorkerKey
  plan : LaunchPlan
  listensAt : Option Time
  watched : Bool := true
  deriving Repr, Inhabited

inductive Errand where
  | allocated (worker : WorkerKey) (number : Nat) (via : TransportRef)
  | launched (worker : WorkerKey) (number : Nat)
  | answered (worker : WorkerKey) (attempt : Nat)
  | exit (process : Nat) (status : ExitStatus)
  deriving Repr

end AppHost.Simulation
