/-!
# Digits

Numerals in the bases that paths, modes and secrets are written in: lower-case hexadecimal and
octal, without padding unless a width is asked for.
-/

namespace AppHost.Text

def digit (n : Nat) : Char :=
  if n < 10 then Char.ofNat (48 + n) else Char.ofNat (87 + n)

/-- The digits of `n` in `base`, most significant first; at least one. -/
def digits (base n : Nat) : List Char :=
  if _h : base < 2 ∨ n < base then [digit n]
  else digits base (n / base) ++ [digit (n % base)]
termination_by n
decreasing_by exact Nat.div_lt_self (by omega) (by omega)

def hexadecimal (n : Nat) : String := String.ofList (digits 16 n)

def octal (n : Nat) : String := String.ofList (digits 8 n)

def zeroPadded (width : Nat) (numeral : List Char) : List Char :=
  List.replicate (width - numeral.length) '0' ++ numeral

def hexBytes (bytes : List UInt8) : String :=
  String.ofList (bytes.flatMap fun byte => zeroPadded 2 (digits 16 byte.toNat))

def isLowerHex (c : Char) : Bool := c.isDigit || ('a' ≤ c && c ≤ 'f')

def hexValue? (c : Char) : Option Nat :=
  if '0' ≤ c ∧ c ≤ '9' then some (c.toNat - 48)
  else if 'a' ≤ c ∧ c ≤ 'f' then some (c.toNat - 87)
  else if 'A' ≤ c ∧ c ≤ 'F' then some (c.toNat - 55)
  else none

/-- Reads a numeral whose every character is a digit of `base`; the empty text is no numeral. -/
def numeral? (base : Nat) (cs : List Char) : Option Nat :=
  if cs.isEmpty then none
  else cs.foldlM (fun n c =>
    (hexValue? c).bind fun d => if d < base then some (n * base + d) else none) 0

end AppHost.Text
