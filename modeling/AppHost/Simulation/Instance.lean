import AppHost.Exit
import AppHost.Startup

/-!
# Instances

The program as it is run from a command line: started with an argument, sent signals, and looked at
when it has ended. Nothing it serves is simulated here.
-/

namespace AppHost.Simulation

inductive Instance where
  | running (host : Host) (ready : Bool)
  | ended (status : ExitStatus) (errors : String)
  deriving Repr, Inhabited

structure Terminal where
  surroundings : Surroundings
  configPath : Path
  nextPid : Nat
  current : Instance := .ended (.exited 0) ""
  deriving Repr

namespace Terminal

def failed (e : StartError) : Instance := .ended (.exited 1) ("Error: " ++ e.message ++ "\n")

def start (t : Terminal) : Terminal :=
  let r := t.surroundings.start t.configPath t.nextPid
  { t with
    surroundings := r.1
    nextPid := t.nextPid + 1
    current := match r.2 with
      | .ok host => .running host false
      | .error e => failed e }

def pid (t : Terminal) : Nat := t.nextPid - 1

def awaitReady (t : Terminal) : Terminal × Bool :=
  match t.current with
  | .running host _ => ({ t with current := .running host true }, true)
  | .ended .. => (t, false)

def signal (t : Terminal) (signal : Signal) : Terminal :=
  match t.current with
  | .ended .. => t
  | .running host ready =>
    match Host.answer ready signal with
    | .stops =>
      { t with surroundings := t.surroundings.stop host, current := .ended (.exited 0) "" }
    | .dies =>
      { t with surroundings := t.surroundings.lose host, current := .ended (.killedBy signal) "" }
    | .reports | .ignores => t

/-- Starts a second instance next to the current one. It is gone again when this is over. -/
def second (t : Terminal) : Terminal × Instance :=
  let r := t.surroundings.start t.configPath t.nextPid
  match r.2 with
  | .error e => ({ t with surroundings := r.1 }, failed e)
  | .ok host => ({ t with surroundings := r.1.lose host }, .running host true)

def occupy (t : Terminal) (address : ListenAddress) : Terminal :=
  { t with surroundings := { t.surroundings with bound := t.surroundings.bound ++ [address] } }

end Terminal

end AppHost.Simulation
