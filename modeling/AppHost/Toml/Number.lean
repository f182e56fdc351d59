import AppHost.Toml.Document
import AppHost.Toml.Scan

/-!
# Numbers and moments

Integers fit 64 bits with a sign. Floats round to the binary format; one too large to represent is
refused, but only on the positive side. Dates and times are checked against the calendar and kept
in their standard spelling.
-/

namespace AppHost.Toml

/-- Digits, between which single underscores may stand; none of either is kept or needed first. -/
def moreDigits (accepts : Char → Bool) : List Char → Option (List Char × List Char)
  | '_' :: c :: rest =>
    if accepts c then (moreDigits accepts rest).map fun p => (c :: p.1, p.2) else none
  | '_' :: [] => none
  | c :: rest =>
    if accepts c then (moreDigits accepts rest).map fun p => (c :: p.1, p.2)
    else some ([], c :: rest)
  | [] => some ([], [])

def someDigits (accepts : Char → Bool) : Scan (List Char)
  | c :: rest =>
    if accepts c then (moreDigits accepts rest).map fun p => (c :: p.1, p.2) else none
  | [] => none

def sign : List Char → Bool × List Char
  | '-' :: rest => (true, rest)
  | '+' :: rest => (false, rest)
  | cs => (false, cs)

def decimal : Scan (Bool × List Char) := fun cs =>
  let (negative, cs) := sign cs
  match cs with
  | '0' :: rest => some ((negative, ['0']), rest)
  | cs => (someDigits Char.isDigit cs).map fun p => ((negative, p.1), p.2)

def numeralValue (base : Nat) (digits : List Char) : Nat := (Text.numeral? base digits).getD 0

def maxInteger : Int := 9223372036854775807

def inBase (base : Nat) (accepts : Char → Bool) (cs : List Char) : Option (Value × List Char) := do
  let (digits, rest) ← someDigits accepts cs
  let n := numeralValue base digits
  if (n : Int) ≤ maxInteger then some (.integer n, rest) else none

def isHexDigit (c : Char) : Bool := (Text.hexValue? c).isSome

def integer : Scan Value
  | '0' :: 'x' :: rest => inBase 16 isHexDigit rest
  | '0' :: 'o' :: rest => inBase 8 (fun c => '0' ≤ c && c ≤ '7') rest
  | '0' :: 'b' :: rest => inBase 2 (fun c => c = '0' || c = '1') rest
  | cs => do
    let ((negative, digits), rest) ← decimal cs
    let n : Int := numeralValue 10 digits
    let n := if negative then -n else n
    if -maxInteger - 1 ≤ n ∧ n ≤ maxInteger then some (.integer n, rest) else none

def exponent : Scan Int
  | c :: rest =>
    if c = 'e' ∨ c = 'E' then do
      let (negative, rest) := sign rest
      let (digits, rest) ← someDigits Char.isDigit rest
      let n : Int := numeralValue 10 digits
      return (if negative then -n else n, rest)
    else none
  | [] => none

def specialFloat : Scan Decimal.Binary64 := fun cs =>
  let (negative, cs) := sign cs
  match cs with
  | 'i' :: 'n' :: 'f' :: rest => some (.infinite negative, rest)
  | 'n' :: 'a' :: 'n' :: rest => some (.nan, rest)
  | _ => none

def float : Scan Value := fun cs =>
  match decimal cs with
  | some ((negative, whole), '.' :: rest) => do
    let (places, rest) ← someDigits Char.isDigit rest
    let (power, rest) ← optionalExponent rest
    rounded negative (whole ++ places) (power - places.length) rest
  | some ((negative, whole), rest) =>
    match exponent rest with
    | some (power, rest) => rounded negative whole power rest
    | none => special cs
  | none => special cs
where
  optionalExponent (cs : List Char) : Option (Int × List Char) :=
    match cs with
    | 'e' :: _ | 'E' :: _ => exponent cs
    | cs => some (0, cs)
  /-- Rounds; a positive overflow is refused. -/
  rounded (negative : Bool) (digits : List Char) (power : Int) (rest : List Char) :
    Option (Value × List Char) :=
    match Decimal.Binary64.ofDecimal negative (numeralValue 10 digits) power with
    | .infinite false => none
    | value => some (.float value, rest)
  special (cs : List Char) : Option (Value × List Char) :=
    (specialFloat cs).map fun p => (.float p.1, p.2)

/-! ## Dates and times -/

def fixedDigits (count : Nat) : Scan Nat := fun cs =>
  let digits := cs.take count
  if digits.length = count ∧ digits.all Char.isDigit then
    some (numeralValue 10 digits, cs.drop count) else none

def twoDigits (n : Nat) : List Char := Text.zeroPadded 2 (Text.digits 10 n)

def isLeapYear (year : Nat) : Bool := year % 4 = 0 && (year % 100 ≠ 0 || year % 400 = 0)

def daysIn (year month : Nat) : Nat :=
  if month = 2 then if isLeapYear year then 29 else 28
  else if month = 4 ∨ month = 6 ∨ month = 9 ∨ month = 11 then 30 else 31

def date : Scan (List Char) := fun cs => do
  let (year, rest) ← fixedDigits 4 cs
  let '-' :: rest := rest | none
  let (month, rest) ← fixedDigits 2 rest
  let '-' :: rest := rest | none
  let (day, rest) ← fixedDigits 2 rest
  if 1 ≤ month ∧ month ≤ 12 ∧ 1 ≤ day ∧ day ≤ daysIn year month then
    some
      (Text.zeroPadded 4 (Text.digits 10 year) ++ '-' :: twoDigits month ++ '-' :: twoDigits day,
        rest)
  else none

/-- A fraction of a second; beyond nine digits it is cut, and zeros at its end are not written. -/
def secondFraction : Scan (List Char)
  | '.' :: rest =>
    let digits := rest.takeWhile Char.isDigit
    if digits.isEmpty then none
    else
      let kept := ((digits.take 9).reverse.dropWhile (· = '0')).reverse
      some (if kept.isEmpty then [] else '.' :: kept, rest.dropWhile Char.isDigit)
  | cs => some ([], cs)

def time : Scan (List Char) := fun cs => do
  let (hour, rest) ← fixedDigits 2 cs
  let ':' :: rest := rest | none
  let (minute, rest) ← fixedDigits 2 rest
  let ':' :: rest := rest | none
  let (second, rest) ← fixedDigits 2 rest
  let (fraction, rest) ← secondFraction rest
  if hour ≤ 23 ∧ minute ≤ 59 ∧ second ≤ 60 then
    some (twoDigits hour ++ ':' :: twoDigits minute ++ ':' :: twoDigits second ++ fraction, rest)
  else none

def offset : Scan (List Char) := fun cs =>
  match cs with
  | 'Z' :: rest | 'z' :: rest => some (['Z'], rest)
  | '+' :: rest => distance '+' rest
  | '-' :: rest => distance '-' rest
  | cs => some ([], cs)
where
  distance (sign : Char) (cs : List Char) : Option (List Char × List Char) := do
    let (hour, rest) ← fixedDigits 2 cs
    let ':' :: rest := rest | none
    let (minute, rest) ← fixedDigits 2 rest
    let sign := if hour = 0 ∧ minute = 0 then '+' else sign
    if hour ≤ 23 ∧ minute ≤ 59 then some (sign :: twoDigits hour ++ ':' :: twoDigits minute, rest)
    else none

def moment : Scan Value := fun cs =>
  match date cs with
  | some (day, rest) =>
    let whole : Option (List Char × List Char) :=
      match rest with
      | c :: after =>
        if c = 'T' ∨ c = 't' ∨ c = ' ' then do
          let (clock, after) ← time after
          let (zone, after) ← offset after
          return (day ++ 'T' :: clock ++ zone, after)
        else none
      | [] => none
    let (text, rest) := whole.getD (day, rest)
    some (.datetime (String.ofList text), rest)
  | none => (time cs).map fun p => (.datetime (String.ofList p.1), p.2)

def numberOrMoment : Scan Value := fun cs => moment cs <|> float cs <|> integer cs

end AppHost.Toml
