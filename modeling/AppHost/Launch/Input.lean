import AppHost.AppSpec
import AppHost.Endpoint

/-!
# What a worker is told

The settings a worker needs go to its standard input, as one line. The secret it shares with the
host is among them: command lines and environments can be read by others, an input cannot.
-/

namespace AppHost.Launch

def serverVersion : String := "0.1.0"

structure WorkerInput where
  app : AppSpec
  endpoint : Endpoint
  workerId : String
  /-- The log that the worker writes itself, if it does. -/
  ownLog : Option Path
  deriving Repr, Inhabited

namespace WorkerInput

def toJson (w : WorkerInput) : Json :=
  let settings := w.app.settings
  let defaults := settings.appDefaults
  .object [
    ("appDir", .str w.app.appDir.text),
    ("port", .str w.endpoint.address.forWorker),
    ("gaTrackingId", .str (settings.gaTrackingId.getD "")),
    ("sharedSecret", .str w.endpoint.secret),
    ("serverVersion", .str serverVersion),
    ("workerId", .str w.workerId),
    ("mode", .str settings.mode.name),
    ("logFilePath", .str ((w.ownLog.map Path.text).getD "")),
    ("disableProtocols", .str (String.intercalate "," defaults.disableProtocols)),
    ("reconnect", .bool defaults.reconnect),
    ("sanitizeErrors", .bool defaults.sanitizeErrors),
    ("bookmarkStateDir", .ofOption (fun dir => .str dir.text) defaults.bookmarkStateDir)]

def line (w : WorkerInput) : String := w.toJson.compact ++ "\n"

end WorkerInput

end AppHost.Launch
