import AppHost.Config.Basic

/-!
# Checking a configuration

A configuration that reads well may still describe an application nobody can launch. Each
application is charged with its first fault only; the report lists the server first and then the
applications by name, whatever order they were written in.
-/

namespace AppHost

inductive AppFault where
  | noAppDir
  | relativeAppDir
  | noRunAs
  | noCandidates
  | zeroPort
  deriving DecidableEq, Repr

def AppFault.message (app : String) (fault : AppFault) : String :=
  "App '" ++ app ++ "': " ++ match fault with
    | .noAppDir => "'app_dir' is required"
    | .relativeAppDir => "'app_dir' must be an absolute path"
    | .noRunAs => "'run_as' is required"
    | .noCandidates => "'run_as' must name at least one user"
    | .zeroPort => "'listen_port' must be greater than 0"

namespace AppConfig

def fault? (app : AppConfig) : Option AppFault :=
  if app.appDir = "" then some .noAppDir
  else if !(Path.mk app.appDir).isAbsolute then some .relativeAppDir
  else match app.runAs with
    | none => some .noRunAs
    | some (.candidates []) => some .noCandidates
    | some _ => if app.listenPort = some 0 then some .zeroPort else none

def validate (name : String) (app : AppConfig) : Except String Unit :=
  match app.fault? with
  | some fault => .error (fault.message name)
  | none => .ok ()

end AppConfig

namespace ServerConfig

/-- Sockets need a directory that does not depend on where the host was started. -/
def lacksSocketDir (server : ServerConfig) : Bool :=
  server.transport = .unix && !(server.socketDir.any fun dir => (Path.mk dir).isAbsolute)

end ServerConfig

namespace Config

/-- The applications by name. Names compare by code point. -/
def sortedApps (config : Config) : List (String × AppConfig) :=
  config.apps.mergeSort fun a b => a.1 ≤ b.1

def faults (config : Config) : List String :=
  (if config.server.lacksSocketDir then
    ["Server: unix transport requires an absolute 'socket_dir'"] else [])
    ++ config.sortedApps.filterMap fun app => app.2.fault?.map (AppFault.message app.1)

def validate (config : Config) : Except String Unit :=
  match config.faults with
  | [] => .ok ()
  | faults => .error ("Configuration errors:\n  - " ++ String.intercalate "\n  - " faults)

end Config

end AppHost
