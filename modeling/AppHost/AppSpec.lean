import AppHost.Config.Basic
import AppHost.Failure
import AppHost.Json.Printer

/-!
# What to run

An `AppSpec` is everything a worker's launch depends on. Two specs with one key share a worker, so
the key is built from every field; its last line is the settings in compact form.
-/

namespace AppHost

namespace AppDefaults

def toJson (d : AppDefaults) : Json := .object [
  ("init_timeout_secs", .ofNat d.initTimeoutSecs),
  ("idle_timeout_secs", .int d.idleTimeoutSecs),
  ("health_check_interval_ms", .ofNat d.healthCheckIntervalMs),
  ("idle_linger_ms", .ofNat d.idleLingerMs),
  ("preserve_logs", .bool d.preserveLogs),
  ("reconnect", .bool d.reconnect),
  ("sanitize_errors", .bool d.sanitizeErrors),
  ("disable_protocols", .strings d.disableProtocols),
  ("bookmark_state_dir", .ofOption (fun dir => .str dir.text) d.bookmarkStateDir),
  ("log_file_mode", .ofNat d.logFileMode),
  ("python", .ofOption .str d.python)]

end AppDefaults

namespace AppSettings

def toJson (s : AppSettings) : Json := .object [
  ("mode", .str s.mode.name),
  ("log_as_user", .bool s.logAsUser),
  ("ga_tracking_id", .ofOption .str s.gaTrackingId),
  ("scheduler", .object [("max_requests", .ofNat s.scheduler.maxRequests)]),
  ("app_defaults", s.appDefaults.toJson)]

end AppSettings

structure AppSpec where
  appDir : Path
  runAs : Option RunAs
  urlPrefix : String
  logDir : Option Path
  settings : AppSettings
  deriving DecidableEq, Repr, Inhabited

def AppConfig.toSpec (app : AppConfig) : AppSpec where
  appDir := ⟨app.appDir⟩
  runAs := app.runAs
  urlPrefix := app.urlPrefix
  logDir := app.logDir.map Path.mk
  settings := app.settings

namespace AppSpec

/-- The one user the worker runs as. An empty name is no user, and a choice among candidates is
not this library's to make. -/
def runAsUser (app : AppSpec) : Except Failure String :=
  match app.runAs with
  | none => .error .noRunAs
  | some (.user name) => if name = "" then .error .noRunAs else .ok name
  | some (.candidates names) => .error (.unresolvedRunAs names)

def runAsText (app : AppSpec) : String :=
  match app.runAs with
  | none => ""
  | some runAs => runAs.describe

def key (app : AppSpec) : String :=
  String.intercalate "\n" [
    app.appDir.text,
    app.runAsText,
    app.urlPrefix,
    (app.logDir.map Path.text).getD "",
    app.settings.toJson.compact]

def logFile (app : AppSpec) (stamp suffix : String) : Option Path :=
  app.logDir.map fun dir =>
    dir.join ((app.appDir.fileName.getD "") ++ "-" ++ app.runAsText ++ "-" ++ stamp ++ "-" ++
      suffix ++ ".log")

end AppSpec

end AppHost
