import AppHost.Config.Basic
import AppHost.Text.Printable
import AppHost.Toml.Reader

/-!
# Fitting a configuration

A text in the format may still say something that is no configuration. Values are visited in the
order of the text, and the first that does not fit is reported. A structure is written as a table,
or as an array that lists its fields by position; what a table says beyond its fields is ignored.
-/

namespace AppHost

open Toml (Value)

inductive Misfit where
  | missingField (name : String)
  | missingItem (found : Nat) (name : String) (wanted : Nat)
  | wrongType (found : String) (wanted : String)
  | outOfRange (found : Int) (wanted : String)
  | unknownVariant (found : String) (known : List String)
  | noVariant
  | noVariantName
  | severalVariantNames
  | variantContent (found : String)
  | variantTableNotEmpty
  | variantArrayNotEmpty
  | noIdentity
  deriving DecidableEq, Repr

namespace Misfit

def choice (names : List String) : String :=
  let ticked := names.map fun name => "`" ++ name ++ "`"
  match ticked with
  | [a, b] => a ++ " or " ++ b
  | _ => "one of " ++ String.intercalate ", " ticked

def message : Misfit → String
  | .missingField name => "missing field `" ++ name ++ "`"
  | .missingItem found name wanted =>
    "invalid length " ++ toString found ++ ", expected struct " ++ name ++ " with " ++
      toString wanted ++
      (if wanted = 1 then " element" else " elements")
  | .wrongType found wanted => "invalid type: " ++ found ++ ", expected " ++ wanted
  | .outOfRange found wanted =>
    "invalid value: integer `" ++ toString found ++ "`, expected " ++ wanted
  | .unknownVariant found known => "unknown variant `" ++ found ++ "`, expected " ++ choice known
  | .noVariant => "wanted string or table"
  | .noVariantName => "wanted exactly 1 element, found 0 elements"
  | .severalVariantNames => "wanted exactly 1 element, more than 1 element"
  | .variantContent found => "expected table, found " ++ found
  | .variantTableNotEmpty => "expected empty table"
  | .variantArrayNotEmpty => "expected empty array"
  | .noIdentity => "data did not match any variant of untagged enum RunAs"

end Misfit

namespace Toml.Value

def describe : Value → String
  | .string text => "string " ++ Text.quoted text
  | .integer value => "integer `" ++ toString value ++ "`"
  | .float value => "floating point `" ++ value.text ++ "`"
  | .boolean value => "boolean `" ++ toString value ++ "`"
  | .datetime _ | .table _ => "map"
  | .array _ => "sequence"

def typeName : Value → String
  | .string _ => "string"
  | .integer _ => "integer"
  | .float _ => "float"
  | .boolean _ => "boolean"
  | .datetime _ => "datetime"
  | .array _ => "array"
  | .table _ => "inline table"

end Toml.Value

namespace Decode

abbrev Decoder (α : Type) := Value → Except Misfit α

def misfit (v : Value) (wanted : String) : Except Misfit α := .error (.wrongType v.describe wanted)

def string : Decoder String
  | .string text => .ok text
  | v => misfit v "a string"

def path : Decoder Path
  | .string text => .ok ⟨text⟩
  | v => misfit v "path string"

def boolean : Decoder Bool
  | .boolean value => .ok value
  | v => misfit v "a boolean"

def unsigned (limit : Nat) (wanted : String) : Decoder Nat
  | .integer value =>
    if 0 ≤ value ∧ value ≤ limit then .ok value.toNat else .error (.outOfRange value wanted)
  | v => misfit v wanted

def u16 : Decoder Nat := unsigned 65535 "u16"
def u32 : Decoder Nat := unsigned 4294967295 "u32"
def u64 : Decoder Nat := unsigned 18446744073709551615 "u64"

def i64 : Decoder Int
  | .integer value => .ok value
  | v => misfit v "i64"

def strings : Decoder (List String)
  | .array items => items.mapM string
  | v => misfit v "a sequence"

def optional (decode : Decoder α) : Decoder (Option α) := fun v => some <$> decode v

/-- One of several names. A table with that name as its only key, and nothing under it, does as
well as the name itself. -/
def variant (names : List (String × α)) : Decoder α := fun v =>
  let named (name : String) : Except Misfit α :=
    match names.lookup name with
    | some a => .ok a
    | none => .error (.unknownVariant name (names.map (·.1)))
  match v with
  | .string name => named name
  | .table [] => .error .noVariantName
  | .table [(name, content)] => do
    let a ← named name
    match content with
    | .table [] | .array [] => .ok a
    | .table _ => .error .variantTableNotEmpty
    | .array _ => .error .variantArrayNotEmpty
    | other => .error (.variantContent other.typeName)
  | .table _ => .error .severalVariantNames
  | _ => .error .noVariant

def transportKind : Decoder TransportKind := variant (TransportKind.all.map fun k => (k.name, k))

def workerMode : Decoder WorkerMode := variant (WorkerMode.all.map fun m => (m.name, m))

def allStrings : List Value → Option (List String)
  | [] => some []
  | .string text :: rest => (allStrings rest).map (text :: ·)
  | _ :: _ => none

/-- A user, or a list of candidates; nothing else, and no word about what is wrong with it. -/
def runAs : Decoder RunAs
  | .string name => .ok (.user name)
  | .array items =>
    match allStrings items with
    | some names => .ok (.candidates names)
    | none => .error .noIdentity
  | _ => .error .noIdentity

/-! ## Structures -/

inductive Presence where
  | required
  | optional
  | defaulted
  deriving DecidableEq, Repr

structure Field (σ : Type) where
  name : String
  presence : Presence
  read : Value → σ → Except Misfit σ

def field (name : String) (presence : Presence) (decode : Decoder α) (put : σ → α → σ) :
    Field σ where
  name := name
  presence := presence
  read v s := (decode v).map (put s)

def fromPairs (fields : List (Field σ)) (s : σ) (pairs : List (String × Value)) :
    Except Misfit σ := do
  let s ← pairs.foldlM (fun s p =>
    match fields.find? (·.name == p.1) with
    | some f => f.read p.2 s
    | none => .ok s) s
  match fields.find? fun f => f.presence = .required && !(pairs.any (·.1 == f.name)) with
  | some f => .error (.missingField f.name)
  | none => .ok s

def fromItems (name : String) (wanted : Nat) :
    (index : Nat) → List (Field σ) → σ → List Value → Except Misfit σ
  | _, [], s, _ => .ok s
  | index, f :: fields, s, item :: items => do
    fromItems name wanted (index + 1) fields (← f.read item s) items
  | index, f :: fields, s, [] =>
    if f.presence = .defaulted then fromItems name wanted (index + 1) fields s []
    else .error (.missingItem index name wanted)

/-- A structure of this name. A moment counts as a table with nothing that a structure knows. -/
def record (name : String) (fields : List (Field σ)) (start : σ) : Decoder σ
  | .table pairs => fromPairs fields start pairs
  | .datetime _ => fromPairs fields start []
  | .array items => fromItems name fields.length 0 fields start items
  | v => misfit v ("struct " ++ name)

def serverConfig : Decoder ServerConfig := record "ServerConfig" [
  field "bind" .defaulted string fun s v => { s with bind := v },
  field "transport" .defaulted transportKind fun s v => { s with transport := v },
  field "socket_dir" .optional (optional string) fun s v => { s with socketDir := v },
  field "pid_file" .optional (optional string) fun s v => { s with pidFile := v }] {}

def launcherConfig : Decoder LauncherConfig := record "LauncherConfig" [
  field "r_program" .defaulted string fun s v => { s with rProgram := v },
  field "r_adapter_script" .defaulted string fun s v => { s with rAdapterScript := v },
  field "python_program" .defaulted string fun s v => { s with pythonProgram := v },
  field "python_adapter_script" .defaulted string fun s v => { s with pythonAdapterScript := v },
  field "kill_grace_period_secs" .defaulted u64 fun s v => { s with killGracePeriodSecs := v },
  field "stderr_passthrough" .defaulted boolean fun s v => { s with stderrPassthrough := v }] {}

def schedulerSettings : Decoder SchedulerSettings := record "SchedulerSettings" [
  field "max_requests" .defaulted u32 fun s v => { s with maxRequests := v }] {}

def appDefaults : Decoder AppDefaults := record "AppDefaults" [
  field "init_timeout_secs" .defaulted u64 fun s v => { s with initTimeoutSecs := v },
  field "idle_timeout_secs" .defaulted i64 fun s v => { s with idleTimeoutSecs := v },
  field "health_check_interval_ms" .defaulted u64 fun s v => { s with healthCheckIntervalMs := v },
  field "idle_linger_ms" .defaulted u64 fun s v => { s with idleLingerMs := v },
  field "preserve_logs" .defaulted boolean fun s v => { s with preserveLogs := v },
  field "reconnect" .defaulted boolean fun s v => { s with reconnect := v },
  field "sanitize_errors" .defaulted boolean fun s v => { s with sanitizeErrors := v },
  field "disable_protocols" .defaulted strings fun s v => { s with disableProtocols := v },
  field "bookmark_state_dir" .optional (optional path) fun s v => { s with bookmarkStateDir := v },
  field "log_file_mode" .defaulted u32 fun s v => { s with logFileMode := v },
  field "python" .optional (optional string) fun s v => { s with python := v }] {}

def appSettings : Decoder AppSettings := record "AppSettings" [
  field "mode" .defaulted workerMode fun s v => { s with mode := v },
  field "log_as_user" .defaulted boolean fun s v => { s with logAsUser := v },
  field "ga_tracking_id" .optional (optional string) fun s v => { s with gaTrackingId := v },
  field "scheduler" .defaulted schedulerSettings fun s v => { s with scheduler := v },
  field "app_defaults" .defaulted appDefaults fun s v => { s with appDefaults := v }] {}

def appConfig : Decoder AppConfig := record "AppConfig" [
  field "listen_port" .optional (optional u16) fun s v => { s with listenPort := v },
  field "app_dir" .required string fun s v => { s with appDir := v },
  field "run_as" .optional (optional runAs) fun s v => { s with runAs := v },
  field "prefix" .defaulted string fun s v => { s with urlPrefix := v },
  field "log_dir" .optional (optional string) fun s v => { s with logDir := v },
  field "settings" .defaulted appSettings fun s v => { s with settings := v }] { appDir := "" }

def apps : Decoder (List (String × AppConfig))
  | .table pairs => pairs.mapM fun p => do return (p.1, ← appConfig p.2)
  | .datetime text => do return [("", ← appConfig (.string text))]
  | v => misfit v "a map"

def config : Decoder Config := record "Config" [
  field "server" .defaulted serverConfig fun s v => { s with server := v },
  field "launcher" .defaulted launcherConfig fun s v => { s with launcher := v },
  field "apps" .defaulted apps fun s v => { s with apps := v }] {}

end Decode

end AppHost
