import AppHost.Toml.Document
import AppHost.Toml.Number

/-!
# Reading configuration text

`read?` takes a text to what it says, or to nothing if it is not in the format. Values nest to a
fixed depth, so the reader recurses on the depth that is left; within one array, table or document
every round takes at least one character, so the length of the text bounds the rounds.
-/

namespace AppHost.Toml

def arrayItems (item : Scan Value) (cs : List Char) : (fuel : Nat) → Option (List Value × List Char)
  | 0 => none
  | fuel + 1 =>
    match skipFiller false cs with
    | ']' :: rest => some ([], rest)
    | cs => do
      let (value, rest) ← item cs
      match skipFiller false rest with
      | ',' :: rest =>
        let (values, rest) ← arrayItems item rest fuel
        return (value :: values, rest)
      | ']' :: rest => return ([value], rest)
      | _ => none

def pair (item : Scan Value) (cs : List Char) : Option ((List String × Value) × List Char) := do
  let (path, rest) ← key cs
  let '=' :: rest := skipBlanks rest | none
  let (value, rest) ← item (skipBlanks rest)
  return ((path, value), rest)

/-- The pairs of a table on one line, after its opening brace and up to and over its closing one. No
comma may follow the last. -/
def inlinePairs (item : Scan Value) (cs : List Char) :
    (fuel : Nat) → Option (List (List String × Value) × List Char)
  | 0 => none
  | fuel + 1 => do
    let (p, rest) ← pair item cs
    match skipBlanks rest with
    | ',' :: rest =>
      let (more, rest) ← inlinePairs item rest fuel
      return (p :: more, rest)
    | '\x7d' :: rest => return ([p], rest)
    | _ => none

def inlineTable (item : Scan Value) : Scan Value := fun cs =>
  match skipBlanks cs with
  | '\x7d' :: rest => some (.table [], rest)
  | cs => do
    let (pairs, rest) ← inlinePairs item cs (cs.length + 1)
    let fields ← pairs.foldlM (fun fields p => Fields.addValue fields p.1 p.2) []
    return (.table (fieldValues fields), rest)

def value : (depth : Nat) → Scan Value
  | depth, cs =>
    match cs with
    | '"' :: _ | '\'' :: _ => (quotation cs).map fun p => (.string p.1, p.2)
    | '[' :: rest =>
      match depth with
      | 0 => none
      | depth + 1 =>
        (arrayItems (value depth) rest (rest.length + 1)).map fun p => (.array p.1, p.2)
    | '\x7b' :: rest =>
      match depth with
      | 0 => none
      | depth + 1 => inlineTable (value depth) rest
    | 't' :: 'r' :: 'u' :: 'e' :: rest => some (.boolean true, rest)
    | 'f' :: 'a' :: 'l' :: 's' :: 'e' :: rest => some (.boolean false, rest)
    | 'i' :: _ | 'n' :: _ => (specialFloat cs).map fun p => (.float p.1, p.2)
    | cs => numberOrMoment cs

def line : Scan Line
  | '[' :: '[' :: rest => do
    let (path, rest) ← key rest
    let ']' :: ']' :: rest := rest | none
    return (.element path, ← endLine? rest)
  | '[' :: rest => do
    let (path, rest) ← key rest
    let ']' :: rest := rest | none
    return (.header path, ← endLine? rest)
  | cs => do
    let ((path, value), rest) ← pair (value maxDepth) cs
    return (.pair path value, ← endLine? rest)

/-- All lines. One that holds no more than blanks and a comment says nothing. -/
def lines (cs : List Char) : (fuel : Nat) → Option (List Line)
  | 0 => none
  | fuel + 1 =>
    match skipBlanks cs with
    | [] => some []
    | '#' :: rest => do lines (← endLine? ('#' :: rest)) fuel
    | '\n' :: rest => lines rest fuel
    | '\r' :: '\n' :: rest => lines rest fuel
    | cs => do
      let (first, rest) ← line cs
      return first :: (← lines rest fuel)

def read? (text : String) : Option (List (String × Value)) :=
  let cs := match text.toList with
    | '\ufeff' :: rest => rest
    | cs => cs
  (lines cs (cs.length + 1)).bind document?

end AppHost.Toml
