import AppHost.Text.Digits

/-!
# Listening addresses

An internet address and a port, read from text and written in the standard form: four decimal
numbers, or eight groups of hexadecimal digits in brackets, of which the longest run of zeros is
left out.
-/

namespace AppHost

inductive IpAddress where
  | v4 (octets : List Nat)
  | v6 (groups : List Nat) (scope : Nat)
  deriving DecidableEq, Repr, Inhabited

structure ListenAddress where
  ip : IpAddress
  port : Nat
  deriving DecidableEq, Repr, Inhabited

namespace IpAddress

/-! ## Reading -/

abbrev Scan (α : Type) := List Char → Option (α × List Char)

/-- A numeral below `bound`. At most `width` digits are allowed, if a width is given; zeros in
front are, if `padded`. -/
def numeral (base bound : Nat) (width : Option Nat) (padded : Bool) : Scan Nat := fun cs => do
  let isDigit (c : Char) : Bool := (Text.hexValue? c).any (· < base)
  let ds := cs.takeWhile isDigit
  if width.any (· < ds.length) then none
  if !padded && ds.length ≠ 1 && ds.head? = some '0' then none
  let n ← Text.numeral? base ds
  if n < bound then some (n, cs.dropWhile isDigit) else none

def dotted : (count : Nat) → Scan (List Nat)
  | 0, cs => some ([], cs)
  | count + 1, cs => do
    let (n, rest) ← numeral 10 256 (some 3) false cs
    if count = 0 then return ([n], rest)
    let '.' :: rest := rest | none
    let (more, rest) ← dotted count rest
    return (n :: more, rest)

/-- Groups between colons, up to `limit`; the last two may be written in the dotted form, which the
flag tells. The groups end where the text does not go on with one. -/
def groups (first : Bool) : (limit : Nat) → List Char → (List Nat × Bool) × List Char
  | 0, cs => (([], false), cs)
  | limit + 1, cs =>
    let next : Option (List Char) := if first then some cs else
      match cs with
      | ':' :: rest => some rest
      | _ => none
    match next with
    | none => (([], false), cs)
    | some body =>
      match (if 1 ≤ limit then dotted 4 body else none) with
      | some ([a, b, c, d], rest) => (([a * 256 + b, c * 256 + d], true), rest)
      | _ =>
        match numeral 16 65536 (some 4) true body with
        | none => (([], false), cs)
        | some (n, rest) =>
          let r := groups false limit rest
          ((n :: r.1.1, r.1.2), r.2)

def eightGroups : Scan (List Nat) := fun cs =>
  let (head, rest) := groups true 8 cs
  if head.1.length = 8 then some (head.1, rest)
  else if head.2 then none
  else match rest with
    | ':' :: ':' :: rest =>
      let (tail, rest) := groups true (7 - head.1.length) rest
      some (head.1 ++ List.replicate (8 - head.1.length - tail.1.length) 0 ++ tail.1, rest)
    | _ => none

def scope : Scan Nat
  | '%' :: rest => numeral 10 4294967296 none true rest
  | cs => some (0, cs)

def bracketed : Scan IpAddress
  | '[' :: rest => do
    let (gs, rest) ← eightGroups rest
    let (s, rest) ← scope rest
    let ']' :: rest := rest | none
    return (.v6 gs s, rest)
  | cs => (dotted 4 cs).map fun p => (.v4 p.1, p.2)

/-! ## Writing -/

/-- The longest run of zeros, as its start and length. Of two the first is taken. -/
def longestZeros (gs : List Nat) : Nat × Nat :=
  let runs := (List.range gs.length).map fun i => (i, ((gs.drop i).takeWhile (· = 0)).length)
  runs.foldl (fun best run => if best.2 < run.2 then run else best) (0, 0)

def colons (gs : List Nat) : String := String.intercalate ":" (gs.map Text.hexadecimal)

def groupsText (gs : List Nat) : String :=
  match gs with
  | [0, 0, 0, 0, 0, 0xffff, a, b] =>
    "::ffff:" ++ String.intercalate "." ([a / 256, a % 256, b / 256, b % 256].map toString)
  | gs =>
    let (start, length) := longestZeros gs
    if length < 2 then colons gs
    else colons (gs.take start) ++ "::" ++ colons (gs.drop (start + length))

def describe : IpAddress → String
  | .v4 octets => String.intercalate "." (octets.map toString)
  | .v6 gs s => "[" ++ groupsText gs ++ (if s = 0 then "" else "%" ++ toString s) ++ "]"

def isWildcard : IpAddress → Bool
  | .v4 octets => octets.all (· = 0)
  | .v6 gs _ => gs.all (· = 0)

end IpAddress

namespace ListenAddress

def read? (text : String) : Option ListenAddress := do
  let (ip, rest) ← IpAddress.bracketed text.toList
  let ':' :: rest := rest | none
  let (port, rest) ← IpAddress.numeral 10 65536 none true rest
  if rest.isEmpty then some { ip, port } else none

def describe (a : ListenAddress) : String := a.ip.describe ++ ":" ++ toString a.port

def conflicts (a b : ListenAddress) : Bool :=
  a.port = b.port && (a.ip = b.ip || a.ip.isWildcard || b.ip.isWildcard)

end ListenAddress

end AppHost
