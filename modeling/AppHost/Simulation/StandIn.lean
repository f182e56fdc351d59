import AppHost.Launch.Launcher
import AppHost.Launch.Report
import AppHost.Simulation.Supervision

/-!
# Stand-ins for worker commands

A command that a launch starts, replaced by one that takes its input, writes what it is told to, and
then exits or sleeps. One that is deaf never takes its input: the host cannot tell it its settings,
and asks it to stop.
-/

namespace AppHost.Simulation

structure StandIn where
  output : List UInt8 := []
  errors : List UInt8 := []
  /-- The code it exits with; without one it sleeps. -/
  code : Option Int := none
  ignored : List Signal := []
  deaf : Bool := false
  deriving Repr, Inhabited

def standInPid : UInt32 := 3141592

structure Session where
  files : Files
  dir : String
  pid : UInt32
  killed : Bool
  status : Option ExitStatus
  deriving Repr

/-- Runs a stand-in in place of a process. `graceMs` is the grace period of a kill; `force` says how
the script stops a stand-in that does not exit. -/
def StandIn.run (s : StandIn) (files : Files) (c : Caller) (p : Launch.Invocation) (graceMs : Nat)
    (force : Bool) : Session :=
  let child : Child := { spawnedPid := standInPid, gracePeriod := graceMs }
  let dir := match files.find c p.dir with
    | .ok (place, _) => "/" ++ String.intercalate "/" place
    | .error _ => p.dir.text
  let ending := match s.code with
    | some code => .exits code
    | none => .sleeps
  if s.deaf then
    let r := ((Supervision.begin child s.ignored .sleeps).kill false).wait
    { files, dir, pid := r.1.child.pid, killed := false, status := r.2 }
  else
    let files := match p.sink with
      | .appended place => files.append c place (Launch.logText s.errors)
      | _ => files
    let child := child.report (Launch.reportedPid s.output)
    let run := Supervision.begin child s.ignored ending
    let r := if s.code.isSome then run.wait else (run.kill force).wait
    { files, dir, pid := r.1.child.pid, killed := s.code.isNone, status := r.2 }

end AppHost.Simulation
