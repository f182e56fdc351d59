import AppHost.Json.Reader
import AppHost.Text.Lines

/-!
# What a worker writes

A worker started through another program has another process number than the child that was
spawned. So the adapter prints one line with its own number, under a tag, among whatever else it
prints; after the end marker nothing it prints is looked at any more.

What it writes to its error stream goes to its log file line by line. Every line gets a line feed,
whatever it ended in.
-/

namespace AppHost.Launch

structure LaunchInfo where
  pid : UInt32
  versions : List (String × Json) := []
  deriving Repr, Inhabited

namespace LaunchInfo

def pidOf? : Json → Option UInt32
  | .int n => if 0 ≤ n ∧ n < 4294967296 then some n.toNat.toUInt32 else none
  | _ => none

def versionsOf? : Json → Option (List (String × Json))
  | .object fields => some fields
  | _ => none

/-- Each known field may be given once, and fields nobody knows are passed over. -/
def ofFields? (fields : List (String × Json)) : Option LaunchInfo := do
  let [pid] := fields.filter (·.1 = "pid") | none
  let pid ← pidOf? pid.2
  match fields.filter (·.1 = "versions") with
  | [] => return { pid }
  | [versions] => return { pid, versions := ← versionsOf? versions.2 }
  | _ => none

def ofItems? : List Json → Option LaunchInfo
  | [pid] => do return { pid := ← pidOf? pid }
  | [pid, versions] => do return { pid := ← pidOf? pid, versions := ← versionsOf? versions }
  | _ => none

def field : Json.Scan (String × Json) :=
  Json.field .kept fun name =>
    if name = "pid" ∨ name = "versions" then Json.value .kept (Json.maxDepth - 1) else Json.skipped

def read? (text : List Char) : Option LaunchInfo :=
  match Json.skipBlanks text with
  | '\x7b' :: rest => (Json.complete (Json.objectAfterBrace field rest)).bind ofFields?
  | '[' :: rest =>
    (Json.complete
      (Json.arrayAfterBracket (Json.value .kept (Json.maxDepth - 1)) rest)).bind ofItems?
  | _ => none

end LaunchInfo

def launchInfoTag : String := "worker_launch_info: "

def endMarker : String := "==END=="

def afterTag? : (tag text : List Char) → Option (List Char)
  | [], text => some text
  | t :: tag, c :: text => if t = c then afterTag? tag text else none
  | _ :: _, [] => none

structure Scan where
  pid : UInt32 := 0
  ended : Bool := false
  deriving DecidableEq, Repr, Inhabited

namespace Scan

/-- A tagged line that does not read well changes nothing. -/
def line (s : Scan) (text : String) : Scan :=
  if s.ended then s
  else match afterTag? launchInfoTag.toList text.toList with
    | some payload =>
      match LaunchInfo.read? payload with
      | some info => { s with pid := info.pid }
      | none => s
    | none => if text = endMarker then { s with ended := true } else s

def lines (s : Scan) (texts : List String) : Scan := texts.foldl line s

end Scan

/-- The number that a worker reported on its output; zero if it reported none. -/
def reportedPid (output : List UInt8) : UInt32 := (Scan.lines {} (Text.readLines output).lines).pid

def logText (errors : List UInt8) : String :=
  String.join ((Text.readLines errors).lines.map fun line => line ++ "\n")

end AppHost.Launch
