import AppHost.Decimal.Binary64
import AppHost.Json.Basic

/-!
# Reading structured values

The text of a value, with blanks allowed around every part of it. A reader need not make use of all
that it reads. What it keeps has to be sound: escapes pair up to characters, numbers stay within the
range of the 64-bit binary format, and values nest to a fixed depth. What it skips only has to be
well formed, and nests as deep as it likes.

`read?` keeps everything.
-/

namespace AppHost.Json

abbrev Scan (α : Type) := List Char → Option (α × List Char)

inductive Use where
  | kept
  | skipped
  deriving DecidableEq, Repr

def isBlank (c : Char) : Bool := c = ' ' || c = '\t' || c = '\n' || c = '\r'

def skipBlanks (cs : List Char) : List Char := cs.dropWhile isBlank

/-! ## Strings -/

/-- One item between the quotes: a character, or the 16-bit unit that an escape gives by number. -/
inductive Piece where
  | char (c : Char)
  | unit (n : Nat)
  deriving DecidableEq, Repr

def letterEscape? : Char → Option Char
  | '"' => some '"'
  | '\\' => some '\\'
  | '/' => some '/'
  | 'b' => some '\x08'
  | 'f' => some '\x0c'
  | 'n' => some '\n'
  | 'r' => some '\r'
  | 't' => some '\t'
  | _ => none

def andThen (piece : Piece) : Option (List Piece × List Char) → Option (List Piece × List Char)
  | some (pieces, rest) => some (piece :: pieces, rest)
  | none => none

def pieces : List Char → Option (List Piece × List Char)
  | [] => none
  | '"' :: rest => some ([], rest)
  | '\\' :: 'u' :: a :: b :: c :: d :: rest =>
    match Text.numeral? 16 [a, b, c, d] with
    | some n => andThen (.unit n) (pieces rest)
    | none => none
  | '\\' :: c :: rest =>
    match letterEscape? c with
    | some e => andThen (.char e) (pieces rest)
    | none => none
  | c :: rest => if c = '\\' ∨ c.toNat < 32 then none else andThen (.char c) (pieces rest)

def isHighSurrogate (n : Nat) : Bool := 0xD800 ≤ n && n ≤ 0xDBFF

def isLowSurrogate (n : Nat) : Bool := 0xDC00 ≤ n && n ≤ 0xDFFF

/-- The characters that pieces amount to. Two surrogates make one character if the high one comes
right before the low one; none may stand alone. -/
def joinPieces : List Piece → Option (List Char)
  | [] => some []
  | .char c :: rest => (joinPieces rest).map (c :: ·)
  | .unit n :: .unit m :: rest =>
    if isHighSurrogate n then
      if isLowSurrogate m then
        (joinPieces rest).map (Char.ofNat (0x10000 + (n - 0xD800) * 0x400 + (m - 0xDC00)) :: ·)
      else none
    else if isLowSurrogate n then none
    else (joinPieces (.unit m :: rest)).map (Char.ofNat n :: ·)
  | .unit n :: rest =>
    if isHighSurrogate n ∨ isLowSurrogate n then none else (joinPieces rest).map (Char.ofNat n :: ·)

def stringAfterQuote (use : Use) : Scan String := fun cs => do
  let (ps, rest) ← pieces cs
  match use with
  | .kept => return (String.ofList (← joinPieces ps), rest)
  | .skipped => return ("", rest)

/-! ## Numbers -/

def digits (cs : List Char) : Option (List Char × List Char) :=
  let ds := cs.takeWhile Char.isDigit
  if ds.isEmpty then none else some (ds, cs.dropWhile Char.isDigit)

def wholePart : Scan (List Char)
  | '0' :: rest => if (rest.head?.map Char.isDigit).getD false then none else some (['0'], rest)
  | cs => digits cs

def fraction : Scan (List Char)
  | '.' :: rest => digits rest
  | cs => some ([], cs)

def power : Scan (Option Int)
  | c :: rest =>
    if c = 'e' ∨ c = 'E' then
      let (negative, rest) := match rest with
        | '-' :: rest => (true, rest)
        | '+' :: rest => (false, rest)
        | rest => (false, rest)
      (digits rest).map fun p =>
        let n : Int := (Text.numeral? 10 p.1).getD 0
        (some (if negative then -n else n), p.2)
    else some (none, c :: rest)
  | [] => some (none, [])

/-- A number without a fraction and a power of ten is an integer, except for minus zero. -/
def number (use : Use) : Scan Json := fun cs => do
  let (negative, body) := match cs with
    | '-' :: rest => (true, rest)
    | cs => (false, cs)
  let (whole, rest) ← wholePart body
  let (places, rest) ← fraction rest
  let (exponent, rest) ← power rest
  let coefficient := (Text.numeral? 10 (whole ++ places)).getD 0
  let magnitude := Decimal.Binary64.ofDecimal negative coefficient (exponent.getD 0 - places.length)
  if use = .kept ∧ magnitude = .infinite negative then none
  else if places = [] ∧ exponent = none ∧ ¬(negative ∧ coefficient = 0) then
    return (.int (if negative then -coefficient else coefficient), rest)
  else return (.real (String.ofList (cs.take (cs.length - rest.length))), rest)

/-! ## Values -/

def items (item : Scan Json) (cs : List Char) : (fuel : Nat) → Option (List Json × List Char)
  | 0 => none
  | fuel + 1 => do
    let (value, rest) ← item cs
    match skipBlanks rest with
    | ',' :: rest =>
      let (more, rest) ← items item rest fuel
      return (value :: more, rest)
    | ']' :: rest => return ([value], rest)
    | _ => none

def arrayAfterBracket (item : Scan Json) : Scan (List Json) := fun cs =>
  match skipBlanks cs with
  | ']' :: rest => some ([], rest)
  | cs => items item cs (cs.length + 1)

def field (names : Use) (value : String → Scan Json) : Scan (String × Json) := fun cs => do
  let '"' :: rest := skipBlanks cs | none
  let (name, rest) ← stringAfterQuote names rest
  let ':' :: rest := skipBlanks rest | none
  let (v, rest) ← value name rest
  return ((name, v), rest)

def fields (field : Scan (String × Json)) (cs : List Char) :
    (fuel : Nat) → Option (List (String × Json) × List Char)
  | 0 => none
  | fuel + 1 => do
    let (f, rest) ← field cs
    match skipBlanks rest with
    | ',' :: rest =>
      let (more, rest) ← fields field rest fuel
      return (f :: more, rest)
    | '\x7d' :: rest => return ([f], rest)
    | _ => none

def objectAfterBrace (field : Scan (String × Json)) : Scan (List (String × Json)) := fun cs =>
  match skipBlanks cs with
  | '\x7d' :: rest => some ([], rest)
  | cs => fields field cs (cs.length + 1)

def value (use : Use) : (depth : Nat) → Scan Json
  | depth, cs =>
    match skipBlanks cs with
    | 'n' :: 'u' :: 'l' :: 'l' :: rest => some (.null, rest)
    | 't' :: 'r' :: 'u' :: 'e' :: rest => some (.bool true, rest)
    | 'f' :: 'a' :: 'l' :: 's' :: 'e' :: rest => some (.bool false, rest)
    | '"' :: rest => (stringAfterQuote use rest).map fun p => (.str p.1, p.2)
    | '[' :: rest =>
      match depth with
      | 0 => none
      | depth + 1 => (arrayAfterBracket (value use depth) rest).map fun p => (.array p.1, p.2)
    | '\x7b' :: rest =>
      match depth with
      | 0 => none
      | depth + 1 =>
        (objectAfterBrace (field use fun _ => value use depth) rest).map fun p => (.object p.1, p.2)
    | cs => number use cs

/-- A value that is skipped. It cannot nest deeper than its text is long. -/
def skipped : Scan Json := fun cs => value .skipped cs.length cs

def maxDepth : Nat := 127

def complete (r : Option (α × List Char)) : Option α := do
  let (a, rest) ← r
  if (skipBlanks rest).isEmpty then some a else none

def read? (text : String) : Option Json := complete (value .kept maxDepth text.toList)

end AppHost.Json
