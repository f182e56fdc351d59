import AppHost.Config.Load
import AppHost.Endpoint.Directory
import AppHost.Endpoint.Listen
import AppHost.Signal

/-!
# Starting and stopping

A host reads its configuration, takes its PID file, readies its transport, and listens on the port
of every application that has one. Whatever fails ends it with an error; what it did before stays
done. A PID file is locked for as long as its host runs, however it ends, so two hosts never share
one. A host that is stopped removes its PID file; one that is killed cannot.
-/

namespace AppHost

structure Surroundings where
  files : Files
  caller : Caller
  bound : List ListenAddress := []
  locked : List Place := []
  deriving Repr, Inhabited

inductive StartError where
  | config (error : LoadError)
  | pidFile (error : IoError)
  | alreadyRunning
  | noSocketDir
  | socketDir (dir : String) (error : IoError)
  | badBind (app : String)
  | listen (address : ListenAddress) (app : String) (error : IoError)
  deriving Repr

def StartError.message : StartError → String
  | .config error => error.message
  | .pidFile error => error.message
  | .alreadyRunning => "Another instance is already running (PID file is locked)"
  | .noSocketDir => "server.socket_dir is required for the unix transport"
  | .socketDir dir error => "Failed to prepare socket dir '" ++ dir ++ "': " ++ error.message
  | .badBind app => "Invalid bind address for app '" ++ app ++ "': invalid socket address syntax"
  | .listen address app error =>
    "Failed to listen on " ++ address.describe ++ " for app '" ++ app ++ "': " ++ error.message

structure Host where
  config : Config
  pidFile : Option (Path × Place)
  listening : List ListenAddress
  deriving Repr, Inhabited

namespace Surroundings

def readConfig (s : Surroundings) (path : Path) : Except StartError Config :=
  (Config.load ((s.files.readText s.caller path).map String.toUTF8)).mapError .config

/-- Takes the PID file: what it held is only dropped once it is locked. -/
def takePidFile (s : Surroundings) (path : Path) (pid : Nat) :
    Surroundings × Except StartError Place :=
  match s.files.openFile s.caller path 0o666 with
  | .error e => (s, .error (.pidFile e))
  | .ok (files, place) =>
    if s.locked.contains place then ({ s with files }, .error .alreadyRunning)
    else
      let files := files.write s.caller place fun _ => toString pid ++ "\n"
      ({ s with files, locked := s.locked ++ [place] }, .ok place)

def prepareTransport (s : Surroundings) (server : ServerConfig) :
    Surroundings × Except StartError Unit :=
  match server.transport, server.socketDir with
  | .tcp, _ => (s, .ok ())
  | .unix, none => (s, .error .noSocketDir)
  | .unix, some dir =>
    match SocketDirectory.prepare s.files s.caller ⟨dir⟩ with
    | .error (files, e) => ({ s with files }, .error (.socketDir dir e))
    | .ok files => ({ s with files }, .ok ())

def listen (s : Surroundings) (server : ServerConfig) (app : String) (port : Nat) :
    Except StartError ListenAddress :=
  match ListenAddress.read? (server.bind ++ ":" ++ toString port) with
  | none => .error (.badBind app)
  | some address =>
    if s.bound.any address.conflicts then .error (.listen address app .addressInUse)
    else .ok address

def listenAll (s : Surroundings) (server : ServerConfig) :
    List (String × AppConfig) → Surroundings × Except StartError (List ListenAddress)
  | [] => (s, .ok [])
  | (name, app) :: rest =>
    match app.listenPort.filter (0 < ·) with
    | none => s.listenAll server rest
    | some port =>
      match s.listen server name port with
      | .error e => (s, .error e)
      | .ok address =>
        let r := listenAll { s with bound := s.bound ++ [address] } server rest
        (r.1, r.2.map (address :: ·))

def release (s : Surroundings) (pidFile : Option Place) (listening : List ListenAddress) :
    Surroundings :=
  { s with
    locked := s.locked.filter fun place => pidFile ≠ some place
    bound := listening.foldl (fun bound address => bound.erase address) s.bound }

def bringUp (s : Surroundings) (config : Config) (pidFile : Option (Path × Place)) :
    Surroundings × Except StartError Host :=
  match s.prepareTransport config.server with
  | (s, .error e) => (s, .error e)
  | (s, .ok ()) =>
    match s.listenAll config.server config.apps with
    | (s, .error e) => (s, .error e)
    | (s, .ok listening) => (s, .ok { config, pidFile, listening })

/-- Starts a host with this configuration file and process number. A host that fails to start holds
nothing afterwards. -/
def start (s : Surroundings) (configPath : Path) (pid : Nat) :
    Surroundings × Except StartError Host :=
  match s.readConfig configPath with
  | .error e => (s, .error e)
  | .ok config =>
    let taken : Surroundings × Except StartError (Option (Path × Place)) :=
      match config.server.pidFile with
      | none => (s, .ok none)
      | some path =>
        let r := s.takePidFile ⟨path⟩ pid
        (r.1, r.2.map fun place => some (⟨path⟩, place))
    match taken with
    | (taken, .error e) => (taken, .error e)
    | (taken, .ok pidFile) =>
      match taken.bringUp config pidFile with
      | (up, .ok host) => (up, .ok host)
      | (up, .error e) => ({ up with bound := s.bound, locked := s.locked }, .error e)

def lose (s : Surroundings) (host : Host) : Surroundings :=
  s.release (host.pidFile.map Prod.snd) host.listening

def stop (s : Surroundings) (host : Host) : Surroundings :=
  let files := match host.pidFile with
    | none => s.files
    | some (path, _) => (s.files.remove s.caller path).toOption.getD s.files
  { s with files }.lose host

end Surroundings

inductive Host.Answer where
  | stops
  | reports
  | ignores
  | dies
  deriving DecidableEq, Repr

/-- Until its handlers are in place a host answers like any other process. -/
def Host.answer (ready : Bool) (signal : Signal) : Host.Answer :=
  if ready ∧ (signal = .int ∨ signal = .term) then .stops
  else if ready ∧ signal = .hup then .reports
  else if signal = .pipe then .ignores
  else match signal.disposition with
    | .terminate => .dies
    | _ => .ignores

def defaultConfigPath : Path := ⟨"config.toml"⟩

end AppHost
