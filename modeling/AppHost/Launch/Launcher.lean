import AppHost.Launch.Command
import AppHost.Launch.Input
import AppHost.Launch.Provision

/-!
# Launching a worker

A launch first asks whether the application can be run at all: as whom, with which home, from which
directory, and never as the superuser. Then it prepares the log and the bookmark directories and
starts the command, in a process group of its own so that signals can reach all of the worker.
-/

namespace AppHost.Launch

structure Machine where
  accounts : Accounts
  caller : Caller
  environment : List (String × String) := []
  unstartable : List (String × IoError) := []
  deriving Repr, Inhabited

def Machine.user? (m : Machine) : Option String :=
  (m.accounts.numbered? m.caller.uid).map Account.name

structure Launcher where
  config : LauncherConfig := {}
  passthrough : Bool := false
  deriving DecidableEq, Repr, Inhabited

/-- Set to anything but the empty text, this variable asks for the error streams of workers. -/
def passthroughVariable : String := "WORKERGATE_LOG_STDERR"

def Launcher.ofConfig (config : LauncherConfig) (environment : List (String × String)) :
    Launcher where
  config
  passthrough := config.stderrPassthrough || (environment.lookup passthroughVariable).any (· ≠ "")

inductive LogSink where
  | discarded
  | ownFile (path : Path)
  | appended (place : Place)
  deriving DecidableEq, Repr, Inhabited

structure Invocation where
  command : Command
  dir : Path
  environment : List (String × String)
  input : String
  sink : LogSink
  readsErrors : Bool
  deriving Repr, Inhabited

structure Runner where
  user : String
  account : Account
  switchUser : Bool
  deriving DecidableEq, Repr, Inhabited

def accountFor (accounts : Accounts) (app : AppSpec) : Except Failure (String × Account) := do
  let user ← app.runAsUser
  match accounts.named? user with
  | none => throw (.userNotFound user)
  | some account => return (user, account)

/-- Asks everything that can be asked before anything is changed. -/
def runnerFor (m : Machine) (files : Files) (app : AppSpec) : Except Failure Runner := do
  let (user, account) ← accountFor m.accounts app
  if !account.hasHome then throw (.noHomeDirectory user)
  if app.appDir.text = "" then throw .noAppDir
  match files.find m.caller app.appDir with
  | .error _ => throw (.appDirNotFound app.appDir)
  | .ok _ =>
    let switchUser : Bool := m.user? ≠ some user
    if !switchUser && m.caller.isSuperuser then throw .superuserLaunch
    return { user, account, switchUser }

def prepareLog (m : Machine) (files : Files) (app : AppSpec) (account : Account)
    (log : Option Path) : Attempt LogSink :=
  match log with
  | none => .ok files .discarded
  | some path =>
    let mode := app.settings.appDefaults.logFileMode
    if app.settings.logAsUser then
      (makeLogAsUser files m.caller (m.unstartable.lookup "sh") path account mode).andThen
        fun files _ =>
        .ok files (.ownFile path)
    else (openLog files m.caller path account mode).andThen fun files place =>
      .ok files (.appended place)

def checkAppDir (m : Machine) (files : Files) (app : AppSpec) : Attempt Unit :=
  match files.find m.caller app.appDir with
  | .error e => .failed files (.io e)
  | .ok (_, node) =>
    if node.isDirectory then .ok files () else .failed files (.notADirectory app.appDir)

def prepareBookmarks (m : Machine) (files : Files) (app : AppSpec) (account : Account) :
    Attempt Unit :=
  match app.settings.appDefaults.bookmarkStateDir with
  | none => .ok files ()
  | some root =>
    if root.text = "" then .ok files () else makeBookmarkDirs files m.caller root account

def Launcher.invocation (l : Launcher) (m : Machine) (app : AppSpec) (endpoint : Endpoint)
    (workerId : String) (runner : Runner) (sink : LogSink) : Invocation :=
  let command := Command.forWorker l.config app runner.user runner.switchUser
  let passed := ["LANG", "PATH"].filterMap fun name => (m.environment.lookup name).map (name, ·)
  let ownLog := match sink with
    | .ownFile path => some path
    | _ => none
  let input : WorkerInput := { app, endpoint, workerId, ownLog }
  { command, sink
    dir := app.appDir
    environment := ("HOME", runner.account.home.text) :: passed ++ command.env
    input := input.line
    readsErrors := match sink with
      | .discarded => l.passthrough
      | .ownFile _ => false
      | .appended _ => true }

/-- The longest argument or variable the system hands to a program, in bytes. -/
def maxArgumentBytes : Nat := 131071

def startError? (m : Machine) (files : Files) (p : Invocation) : Option IoError :=
  let words := p.command.program :: p.command.args ++ p.environment.map fun v => v.1 ++ "=" ++ v.2
  if words.any fun word => word.toList.contains '\x00' then
    some (.other "nul byte found in provided data")
  else match files.find m.caller p.dir with
    | .error e => some e
    | .ok (place, _) =>
      match files.searchable m.caller place with
      | .error e => some e
      | .ok () =>
        match m.unstartable.lookup p.command.program with
        | some e => some e
        | none =>
          if words.any fun word => maxArgumentBytes < word.utf8ByteSize then some (.os 7) else none

def start (m : Machine) (files : Files) (p : Invocation) : Attempt Invocation :=
  match startError? m files p with
  | some e => .failed files (.spawn (p.command.program ++ ": " ++ e.message))
  | none => .ok files p

def Launcher.launch (l : Launcher) (m : Machine) (files : Files) (app : AppSpec)
    (endpoint : Endpoint) (log : Option Path) (workerId : String) : Attempt Invocation :=
  match runnerFor m files app with
  | .error failure => .failed files failure
  | .ok runner =>
    (prepareLog m files app runner.account log).andThen fun files sink =>
      (checkAppDir m files app).andThen fun files _ =>
        (prepareBookmarks m files app runner.account).andThen fun files _ =>
          start m files (l.invocation m app endpoint workerId runner sink)

/-- Who removes the logs of an application: the host, or, where workers write them, a helper that
runs as their user, if there is such a user and the host may act as it. -/
def logRemover (m : Machine) (app : AppSpec) : Option Caller :=
  if !app.settings.logAsUser then some m.caller
  else match accountFor m.accounts app with
    | .ok (_, account) =>
      if m.caller.canBecome account then some (m.caller.become account) else none
    | .error _ => none

def removeLogOf (m : Machine) (files : Files) (app : AppSpec) (path : Path) : Files :=
  removeLog files (logRemover m app) path

end AppHost.Launch
