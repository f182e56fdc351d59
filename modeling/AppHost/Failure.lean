import AppHost.Path
import AppHost.OsError
import AppHost.Text.Printable

/-!
# Failures

Why a request for a worker is turned away. `Failure.code` sorts the causes into the few classes
that a client is told apart by; `Failure.message` is the text that it reads.
-/

namespace AppHost

inductive Failure where
  | noRunAs
  | unresolvedRunAs (users : List String)
  | userNotFound (user : String)
  | noHomeDirectory (user : String)
  | noAppDir
  | appDirNotFound (dir : Path)
  | notADirectory (dir : Path)
  | superuserLaunch
  | noFreePort
  | outOfCapacity (reason : String)
  | noTransport
  | retired
  | exitedDuringInit (consoleLog : Option Path)
  | startupTimeout (consoleLog : Option Path)
  | bookmark (path : Path) (reason : String)
  | logFile (path : Path) (reason : String)
  | spawn (reason : String)
  | io (error : IoError)
  deriving DecidableEq, Repr, Inhabited

inductive FailureCode where
  | notFound
  | outOfCapacity
  | startupFailed
  | configError
  | internal
  deriving DecidableEq, Repr

namespace FailureCode

def status : FailureCode → Nat
  | .notFound => 404
  | .outOfCapacity | .startupFailed => 503
  | .configError | .internal => 500

def name : FailureCode → String
  | .notFound => "NOT_FOUND"
  | .outOfCapacity => "OUT_OF_CAPACITY"
  | .startupFailed => "STARTUP_FAILED"
  | .configError => "CONFIG_ERROR"
  | .internal => "INTERNAL"

def header : FailureCode → String
  | .internal => "INTERNAL_ERROR"
  | code => code.name

end FailureCode

namespace Failure

def code : Failure → FailureCode
  | .userNotFound _ | .noHomeDirectory _ | .appDirNotFound _ => .notFound
  | .noFreePort | .outOfCapacity _ => .outOfCapacity
  | .exitedDuringInit _ | .startupTimeout _ => .startupFailed
  | .noRunAs | .unresolvedRunAs _ | .noAppDir | .notADirectory _ | .superuserLaunch
  | .noTransport => .configError
  | .bookmark .. | .logFile .. | .spawn _ | .retired | .io _ => .internal

def consoleLog : Failure → Option Path
  | .exitedDuringInit log | .startupTimeout log => log
  | _ => none

def message : Failure → String
  | .noRunAs => "No user specified"
  | .unresolvedRunAs users =>
    "run_as must be resolved to a single user before launch, got " ++ Text.quotedList users
  | .userNotFound user => "User " ++ user ++ " does not exist"
  | .noHomeDirectory user => "User " ++ user ++ " does not have a home directory"
  | .noAppDir => "No app directory specified"
  | .appDirNotFound dir => "App dir " ++ dir.text ++ " does not exist"
  | .notADirectory dir => "Trying to launch an application that is not a directory: " ++ dir.text
  | .superuserLaunch => "Aborting attempt to launch worker process as root"
  | .noFreePort => "Couldn't find a free port"
  | .outOfCapacity reason => reason
  | .noTransport => "No transport has been configured"
  | .retired => "Scheduling policy has been retired"
  | .exitedDuringInit _ => "The application exited during initialization."
  | .startupTimeout _ => "The application took too long to respond."
  | .bookmark path reason =>
    "Failed to create bookmark state directory " ++ path.text ++ ": " ++ reason
  | .logFile path reason => "Failed to create log file " ++ path.text ++ ": " ++ reason
  | .spawn reason => "Failed to spawn worker process: " ++ reason
  | .io error => error.message

def name : Failure → String
  | .noRunAs => "NoRunAs"
  | .unresolvedRunAs _ => "UnresolvedRunAs"
  | .userNotFound _ => "UserNotFound"
  | .noHomeDirectory _ => "NoHomeDirectory"
  | .noAppDir => "NoAppDir"
  | .appDirNotFound _ => "AppDirNotFound"
  | .notADirectory _ => "NotADirectory"
  | .superuserLaunch => "SuperuserLaunch"
  | .noFreePort => "NoFreePort"
  | .outOfCapacity _ => "OutOfCapacity"
  | .noTransport => "NoTransport"
  | .retired => "Retired"
  | .exitedDuringInit _ => "ExitedDuringInit"
  | .startupTimeout _ => "StartupTimeout"
  | .bookmark .. => "Bookmark"
  | .logFile .. => "LogFile"
  | .spawn _ => "Spawn"
  | .io _ => "Io"

end Failure

end AppHost
