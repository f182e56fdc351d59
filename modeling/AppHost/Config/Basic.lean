import AppHost.Path

/-!
# Configuration

What the host is told when it starts: where it listens, how it launches workers, and which
applications it serves. Every optional setting has its default here and nowhere else.
-/

namespace AppHost

inductive TransportKind where
  | tcp
  | unix
  deriving DecidableEq, Repr, Inhabited

namespace TransportKind

def name : TransportKind → String
  | .tcp => "tcp"
  | .unix => "unix"

def all : List TransportKind := [.tcp, .unix]

end TransportKind

inductive WorkerMode where
  | shiny
  | rmd
  | shinyPython
  deriving DecidableEq, Repr, Inhabited

namespace WorkerMode

def name : WorkerMode → String
  | .shiny => "shiny"
  | .rmd => "rmd"
  | .shinyPython => "shiny-python"

def all : List WorkerMode := [.shiny, .rmd, .shinyPython]

end WorkerMode

inductive RunAs where
  | user (name : String)
  | candidates (names : List String)
  deriving DecidableEq, Repr, Inhabited

namespace RunAs

def describe : RunAs → String
  | .user name => name
  | .candidates names => String.intercalate "," names

end RunAs

structure ServerConfig where
  bind : String := "127.0.0.1"
  transport : TransportKind := .tcp
  socketDir : Option String := none
  pidFile : Option String := none
  deriving DecidableEq, Repr, Inhabited

structure LauncherConfig where
  rProgram : String := "R"
  rAdapterScript : String := "/usr/lib/workergate/R/SockJSAdapter.R"
  pythonProgram : String := "python3"
  pythonAdapterScript : String := "/usr/lib/workergate/python/SockJSAdapter.py"
  killGracePeriodSecs : Nat := 20
  stderrPassthrough : Bool := false
  deriving DecidableEq, Repr, Inhabited

structure SchedulerSettings where
  /-- Connections one worker takes at a time; zero sets no limit. -/
  maxRequests : Nat := 0
  deriving DecidableEq, Repr, Inhabited

structure AppDefaults where
  initTimeoutSecs : Nat := 60
  idleTimeoutSecs : Int := 5
  healthCheckIntervalMs : Nat := 500
  idleLingerMs : Nat := 5000
  preserveLogs : Bool := false
  reconnect : Bool := true
  sanitizeErrors : Bool := true
  disableProtocols : List String := []
  bookmarkStateDir : Option Path := none
  logFileMode : Nat := 0o640
  python : Option String := none
  deriving DecidableEq, Repr, Inhabited

namespace AppDefaults

def maxIdleTimeoutMs : Nat := 2147483647

def initTimeoutMs (d : AppDefaults) : Nat := d.initTimeoutSecs * 1000

/-- Milliseconds without a connection before a worker counts as idle. A timeout that is not
positive means never; one beyond the longest is cut to it. -/
def idleTimeoutMs (d : AppDefaults) : Option Nat :=
  if d.idleTimeoutSecs ≤ 0 then none
  else some (min (d.idleTimeoutSecs.toNat * 1000) maxIdleTimeoutMs)

end AppDefaults

structure AppSettings where
  mode : WorkerMode := .shiny
  logAsUser : Bool := false
  gaTrackingId : Option String := none
  scheduler : SchedulerSettings := {}
  appDefaults : AppDefaults := {}
  deriving DecidableEq, Repr, Inhabited

structure AppConfig where
  listenPort : Option Nat := none
  appDir : String
  runAs : Option RunAs := none
  urlPrefix : String := "/"
  logDir : Option String := none
  settings : AppSettings := {}
  deriving DecidableEq, Repr, Inhabited

structure Config where
  server : ServerConfig := {}
  launcher : LauncherConfig := {}
  apps : List (String × AppConfig) := []
  deriving DecidableEq, Repr, Inhabited

end AppHost
