import AppHost.Proofs.Json.RoundTrip
import AppHost.Proofs.Launch.Outcome

/-!
# What a worker learns

A worker takes one line from its input, reads it, and looks up what it is to know field by field.
`told_faithfully` says that it learns exactly what it was launched with, whatever the texts are made
of, and that a launch hands it this line and no other.
-/

namespace AppHost

-- ---------------------------------------------------------------------------
-- Reading a field
-- ---------------------------------------------------------------------------

namespace Json

def string? : Json → Option String
  | .str value => some value
  | _ => none

def truth? : Json → Option Bool
  | .bool value => some value
  | _ => none

def path? (value : Json) : Option Path := value.string?.map Path.mk

theorem path?_str (p : Path) : (str p.text).path? = some p := rfl

def nullable? (read : Json → Option α) : Json → Option (Option α)
  | .null => some none
  | value => (read value).map some

theorem nullable?_ofOption {f : α → Json} {read : Json → Option α}
    (hread : ∀ a, read (f a) = some a) (hnull : ∀ a, f a ≠ .null) (x : Option α) :
    (ofOption f x).nullable? read = some x := by
  cases x with
  | none => rfl
  | some a =>
    have hvalue : (f a).nullable? read = (read (f a)).map some := by
      unfold nullable?
      split
      · next h => exact absurd h (hnull a)
      · rfl
    rw [ofOption, hvalue, hread, Option.map_some]

def at? (value : Json) (name : String) (read : Json → Option α) : Option α :=
  (value.field? name).bind read

end Json

namespace WorkerMode

def ofName? (name : String) : Option WorkerMode := all.find? (·.name = name)

def read? (value : Json) : Option WorkerMode := value.string?.bind ofName?

theorem read?_name (mode : WorkerMode) : read? (.str mode.name) = some mode := by
  cases mode <;> decide

end WorkerMode

namespace Launch

-- ---------------------------------------------------------------------------
-- The worker's side
-- ---------------------------------------------------------------------------

/-- What a worker takes from its input. -/
structure Briefing where
  appDir : Path
  address : String
  secret : String
  version : String
  workerId : String
  mode : WorkerMode
  /-- Empty if there is none. -/
  trackingId : String
  /-- Empty if the worker is not to write its own log. -/
  logFile : String
  /-- Names with commas between them. -/
  disabledProtocols : String
  reconnect : Bool
  sanitizeErrors : Bool
  bookmarkDir : Option Path
  deriving DecidableEq, Repr

def Briefing.read? (text : String) : Option Briefing := do
  let json ← Json.read? text
  return {
    appDir := ← json.at? "appDir" Json.path?
    address := ← json.at? "port" Json.string?
    secret := ← json.at? "sharedSecret" Json.string?
    version := ← json.at? "serverVersion" Json.string?
    workerId := ← json.at? "workerId" Json.string?
    mode := ← json.at? "mode" WorkerMode.read?
    trackingId := ← json.at? "gaTrackingId" Json.string?
    logFile := ← json.at? "logFilePath" Json.string?
    disabledProtocols := ← json.at? "disableProtocols" Json.string?
    reconnect := ← json.at? "reconnect" Json.truth?
    sanitizeErrors := ← json.at? "sanitizeErrors" Json.truth?
    bookmarkDir := ← json.at? "bookmarkStateDir" (Json.nullable? Json.path?) }

/-- The text is a line by itself, and a worker that reads it knows about its application, its
endpoint and itself what there is to know. -/
structure Told (text : String) (app : AppSpec) (endpoint : Endpoint) (workerId : String)
    (ownLog : Option Path) : Prop where
  line : ∃ body, text = body ++ "\n" ∧ '\n' ∉ body.toList ∧ Briefing.read? body = some {
    appDir := app.appDir
    address := endpoint.address.forWorker
    secret := endpoint.secret
    version := serverVersion
    workerId
    mode := app.settings.mode
    trackingId := app.settings.gaTrackingId.getD ""
    logFile := (ownLog.map Path.text).getD ""
    disabledProtocols := String.intercalate "," app.settings.appDefaults.disableProtocols
    reconnect := app.settings.appDefaults.reconnect
    sanitizeErrors := app.settings.appDefaults.sanitizeErrors
    bookmarkDir := app.settings.appDefaults.bookmarkStateDir }

-- ---------------------------------------------------------------------------
-- The line
-- ---------------------------------------------------------------------------

theorem WorkerInput.plain (w : WorkerInput) :
    ∃ fields, w.toJson = .object fields ∧ ∀ f ∈ fields, Json.Plain f.2 := by
  refine ⟨_, rfl, fun f hf => ?_⟩
  simp only [List.mem_cons, List.not_mem_nil, or_false] at hf
  rcases hf with rfl | rfl | rfl | rfl | rfl | rfl | rfl | rfl | rfl | rfl | rfl | rfl
  · exact .str _
  · exact .str _
  · exact .str _
  · exact .str _
  · exact .str _
  · exact .str _
  · exact .str _
  · exact .str _
  · exact .str _
  · exact .bool _
  · exact .bool _
  · exact Json.plain_ofOption (fun _ => .str _) _

theorem WorkerInput.read?_compact (w : WorkerInput) :
    Json.read? w.toJson.compact = some w.toJson := by
  obtain ⟨fields, hw, hplain⟩ := w.plain
  rw [hw, Json.read?_compact hplain]

theorem WorkerInput.one_line (w : WorkerInput) : '\n' ∉ w.toJson.compact.toList := by
  obtain ⟨fields, hw, hplain⟩ := w.plain
  rw [hw, Json.compact, String.toList_ofList]
  exact (Json.Integral.object fun f hf => (hplain f hf).integral).one_line

theorem WorkerInput.told (w : WorkerInput) : Told w.line w.app w.endpoint w.workerId w.ownLog := by
  refine ⟨w.toJson.compact, rfl, w.one_line, ?_⟩
  have mode : w.toJson.at? "mode" WorkerMode.read? = some w.app.settings.mode :=
    WorkerMode.read?_name w.app.settings.mode
  have hdir := Json.nullable?_ofOption Json.path?_str nofun
  have bookmark : w.toJson.at? "bookmarkStateDir" (Json.nullable? Json.path?) =
      some w.app.settings.appDefaults.bookmarkStateDir := hdir _
  rw [Briefing.read?, w.read?_compact, Option.bind_eq_bind, Option.bind_some, mode, bookmark]
  rfl

-- ---------------------------------------------------------------------------
-- Launches
-- ---------------------------------------------------------------------------

def LogSink.ownFile? : LogSink → Option Path
  | .ownFile path => some path
  | _ => none

theorem prepareLog_ok {m : Machine} {files : Files} {app : AppSpec} {account : Account}
    {log : Option Path} {sink : LogSink}
    (h : (prepareLog m files app account log).result = .ok sink) :
    sink.ownFile? = if app.settings.logAsUser then log else none := by
  unfold prepareLog at h
  split at h
  · cases h
    simp [LogSink.ownFile?]
  · dsimp only at h
    split at h
    · next huser =>
      obtain ⟨_, -, h⟩ := Attempt.andThen_ok.mp h
      cases h
      simp [LogSink.ownFile?, huser]
    · next huser =>
      obtain ⟨_, -, h⟩ := Attempt.andThen_ok.mp h
      cases h
      simp [LogSink.ownFile?, huser]

namespace Launcher

theorem invocation_input (l : Launcher) (m : Machine) (app : AppSpec) (endpoint : Endpoint)
    (workerId : String) (runner : Runner) (sink : LogSink) :
    (l.invocation m app endpoint workerId runner sink).input =
      WorkerInput.line { app, endpoint, workerId, ownLog := sink.ownFile? } := by
  cases sink <;> rfl

/-- Every text that a worker could be told, and the one that it is told when it is launched. -/
structure Tells (l : Launcher) (m : Machine) (files : Files) (app : AppSpec) (endpoint : Endpoint)
    (log : Option Path) (workerId : String) : Prop where
  encoded : ∀ ownLog, Told (WorkerInput.line { app, endpoint, workerId, ownLog }) app endpoint
    workerId ownLog
  written : ∀ p, (l.launch m files app endpoint log workerId).result = .ok p →
    Told p.input app endpoint workerId (if app.settings.logAsUser then log else none)

theorem told_faithfully (l : Launcher) (m : Machine) (files : Files) (app : AppSpec)
    (endpoint : Endpoint) (log : Option Path) (workerId : String) :
    Tells l m files app endpoint log workerId where
  encoded ownLog := WorkerInput.told { app, endpoint, workerId, ownLog }
  written p hp := by
    obtain ⟨runner, -, hp⟩ := launch_ok.mp hp
    obtain ⟨sink, hsink, hp⟩ := Attempt.andThen_ok.mp hp
    obtain ⟨_, -, hp⟩ := Attempt.andThen_ok.mp hp
    obtain ⟨_, -, hp⟩ := Attempt.andThen_ok.mp hp
    obtain rfl := start_ok hp
    rw [invocation_input, prepareLog_ok hsink]
    exact WorkerInput.told
      { app, endpoint, workerId, ownLog := if app.settings.logAsUser then log else none }

/-- Awkward characters do not get in each other's way. -/
example :
    let m : Machine := {
      accounts := [⟨"alice", 1000, 1000, ⟨"/home/alice"⟩⟩]
      caller := { uid := 1000, gid := 1000, privileged := false } }
    let app : AppSpec := {
      appDir := ⟨"/"⟩, runAs := some (.user "alice"), urlPrefix := "/", logDir := none
      settings := { gaTrackingId := some "\"UA\"\n,\"mode\":\"rmd\"" } }
    (launch {} m {} app { address := .port 41234, secret := "\\" } none "\x01").result.toOption.map
      Invocation.input =
      some ("\x7b\"appDir\":\"/\",\"port\":\"41234\"," ++
        "\"gaTrackingId\":\"\\\"UA\\\"\\n,\\\"mode\\\":\\\"rmd\\\"\"," ++
        "\"sharedSecret\":\"\\\\\",\"serverVersion\":\"0.1.0\",\"workerId\":\"\\u0001\"," ++
        "\"mode\":\"shiny\",\"logFilePath\":\"\",\"disableProtocols\":\"\",\"reconnect\":true," ++
        "\"sanitizeErrors\":true,\"bookmarkStateDir\":null\x7d\n") := by
  decide +kernel

end Launcher

end Launch

end AppHost
