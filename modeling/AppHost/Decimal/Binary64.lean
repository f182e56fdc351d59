import AppHost.Text.Digits

/-!
# Binary floating point, written in decimal

A number in the 64-bit binary format is kept as an integer significand and a power of two. Reading a
decimal, or multiplying, rounds to the nearest such number, a tie to the even significand; writing
one uses the fewest digits that read back as the same number, without an exponent. All of it
computes with natural numbers only.
-/

namespace AppHost.Decimal

inductive Binary64 where
  | nan
  | infinite (negative : Bool)
  /-- `significand * 2 ^ exponent`, the significand below `2 ^ 53`. -/
  | finite (negative : Bool) (significand : Nat) (exponent : Int)
  deriving DecidableEq, Repr, Inhabited

structure Ratio where
  num : Nat
  den : Nat
  deriving Repr

namespace Ratio

def scale (r : Ratio) (base : Nat) (power : Int) : Ratio :=
  if 0 ≤ power then { r with num := r.num * Nat.pow base power.toNat }
  else { r with den := r.den * Nat.pow base (-power).toNat }

def round (r : Ratio) : Nat :=
  let q := r.num / r.den
  let twice := 2 * (r.num % r.den)
  if twice < r.den then q else if r.den < twice then q + 1 else if q % 2 = 0 then q else q + 1

def roundHalfUp (r : Ratio) : Nat := (2 * r.num + r.den) / (2 * r.den)

def le (r s : Ratio) : Bool := r.num * s.den ≤ s.num * r.den

def lt (r s : Ratio) : Bool := r.num * s.den < s.num * r.den

end Ratio

namespace Binary64

def significandBound : Nat := 9007199254740992

def ofRatio (negative : Bool) (r : Ratio) : Binary64 :=
  if r.num = 0 then .finite negative 0 0
  else
    let guess : Int := (Nat.log2 r.num : Int) - Nat.log2 r.den - 53
    let fits (q : Int) : Bool := (r.scale 2 (-q)).round < significandBound
    let q := if fits guess then guess else if fits (guess + 1) then guess + 1 else guess + 2
    let q := max q (-1074)
    let m := (r.scale 2 (-q)).round
    if 971 < q then .infinite negative else .finite negative m q

/-- The decimal `digits * 10 ^ exponent`. Magnitudes far outside the format are settled by the
count of digits alone. -/
def ofDecimal (negative : Bool) (digits : Nat) (exponent : Int) : Binary64 :=
  let size : Int := (Text.digits 10 digits).length + exponent
  if digits = 0 ∨ size < -400 then .finite negative 0 0
  else if 400 < size then .infinite negative
  else ofRatio negative (Ratio.scale ⟨digits, 1⟩ 10 exponent)

def whole (n : Nat) : Binary64 := .finite false n 0

def mul : Binary64 → Binary64 → Binary64
  | .finite s m p, .finite t n q => ofRatio (s != t) (Ratio.scale ⟨m * n, 1⟩ 2 (p + q))
  | .infinite s, .infinite t => .infinite (s != t)
  | .infinite s, .finite t n _ | .finite t n _, .infinite s =>
    if n = 0 then .nan else .infinite (s != t)
  | .nan, _ | _, .nan => .nan

def magnitude? : Binary64 → Option Ratio
  | .finite _ m q => some (Ratio.scale ⟨m, 1⟩ 2 q)
  | _ => none

def decimalExponent (r : Ratio) : Int :=
  if r.den ≤ r.num then (Text.digits 10 (r.num / r.den)).length - 1
  else -((Text.digits 10 ((r.den + r.num - 1) / r.num - 1)).length : Int)

/-- The fewest digits of a positive number, and the power of ten of the last of them: the first
grid of decimals that has a point between the number's neighbours wins, and of two such points the
nearer. -/
def shortest (significand : Nat) (exponent : Int) : Nat × Int :=
  let quarter (n : Nat) : Ratio := Ratio.scale ⟨n, 1⟩ 2 (exponent - 2)
  let value := quarter (4 * significand)
  let low := quarter (4 * significand -
    if 2 * significand = significandBound ∧ -1074 < exponent then 1 else 2)
  let high := quarter (4 * significand + 2)
  let closed := significand % 2 = 0
  let within (r : Ratio) : Bool :=
    if closed then low.le r && r.le high else low.lt r && r.lt high
  let top := decimalExponent value
  let point (power : Int) (n : Nat) : Ratio := Ratio.scale ⟨n, 1⟩ 10 power
  let candidate (digits : Nat) : Option (Nat × Int) :=
    let power := top - (digits : Int) + 1
    let scaled := value.scale 10 (-power)
    let floor := scaled.num / scaled.den
    let nearest := scaled.round
    let other := if nearest = floor then floor + 1 else floor
    if within (point power nearest) then some (nearest, power)
    else if within (point power other) then some (other, power)
    else none
  ((List.range 17).findSome? fun n => candidate (n + 1)).getD (significand, 0)

def stripZeros (digits : Nat) (power : Int) : (fuel : Nat) → Nat × Int
  | 0 => (digits, power)
  | fuel + 1 =>
    if digits ≠ 0 ∧ digits % 10 = 0 then stripZeros (digits / 10) (power + 1) fuel
    else (digits, power)

def positional (digits : Nat) (power : Int) : List Char :=
  let cs := Text.digits 10 digits
  if 0 ≤ power then cs ++ List.replicate power.toNat '0' ++ ['.', '0']
  else
    let places := (-power).toNat
    if places < cs.length then cs.take (cs.length - places) ++ '.' :: cs.drop (cs.length - places)
    else ['0', '.'] ++ List.replicate (places - cs.length) '0' ++ cs

def text : Binary64 → String
  | .nan => "NaN"
  | .infinite negative => if negative then "-inf" else "inf"
  | .finite negative significand exponent =>
    let magnitude :=
      if significand = 0 then ['0', '.', '0']
      else
        let (digits, power) := shortest significand exponent
        let (digits, power) := stripZeros digits power 400
        positional digits power
    String.ofList (if negative then '-' :: magnitude else magnitude)

end Binary64

end AppHost.Decimal
