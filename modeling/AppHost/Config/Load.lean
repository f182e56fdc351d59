import AppHost.Config.Decode
import AppHost.Config.Validate
import AppHost.OsError

/-!
# Loading a configuration

From the bytes of a file, if it could be read, to a configuration that can be used, or to the first
reason why not.
-/

namespace AppHost

inductive LoadError where
  | unreadable (error : IoError)
  | malformed
  | misfit (misfit : Misfit)
  | invalid (report : String)
  deriving Repr

namespace LoadError

def message : LoadError → String
  | .unreadable error => error.message
  | .malformed => "the configuration is not in its format"
  | .misfit fault => fault.message
  | .invalid report => report

end LoadError

namespace Config

def ofText (text : String) : Except LoadError Config :=
  match Toml.read? text with
  | none => .error .malformed
  | some fields =>
    match Decode.config (.table fields) with
    | .error misfit => .error (.misfit misfit)
    | .ok config =>
      match config.validate with
      | .error report => .error (.invalid report)
      | .ok () => .ok config

/-- A file's content must be text in UTF-8. -/
def load (content : Except IoError ByteArray) : Except LoadError Config :=
  match content with
  | .error error => .error (.unreadable error)
  | .ok bytes =>
    match String.fromUTF8? bytes with
    | none => .error (.unreadable (.other "stream did not contain valid UTF-8"))
    | some text => ofText text

end Config

end AppHost
