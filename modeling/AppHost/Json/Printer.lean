import AppHost.Json.Basic
import AppHost.Text.Digits

/-!
# Printing structured values

The compact form: no blanks, fields in their own order. Quotes, backslashes and control characters
are escaped, the common ones by a letter and the rest by four digits, and nothing else is. So a
printed value has no line break in it.
-/

namespace AppHost.Json

def escapeChar (c : Char) : List Char :=
  match c with
  | '"' => ['\\', '"']
  | '\\' => ['\\', '\\']
  | '\n' => ['\\', 'n']
  | '\r' => ['\\', 'r']
  | '\t' => ['\\', 't']
  | '\x08' => ['\\', 'b']
  | '\x0c' => ['\\', 'f']
  | c => if c.toNat < 32 then ['\\', 'u'] ++ Text.zeroPadded 4 (Text.digits 16 c.toNat) else [c]

def stringText (s : String) : List Char :=
  '"' :: s.toList.flatMap escapeChar ++ ['"']

def separated : List (List Char) → List Char
  | [] => []
  | [item] => item
  | item :: rest => item ++ ',' :: separated rest

mutual
def text : Json → List Char
  | .null => ['n', 'u', 'l', 'l']
  | .bool true => ['t', 'r', 'u', 'e']
  | .bool false => ['f', 'a', 'l', 's', 'e']
  | .int value => (toString value).toList
  | .real literal => literal.toList
  | .str value => stringText value
  | .array items => '[' :: separated (itemTexts items) ++ [']']
  | .object fields => '\x7b' :: separated (fieldTexts fields) ++ ['\x7d']

def itemTexts : List Json → List (List Char)
  | [] => []
  | item :: rest => item.text :: itemTexts rest

def fieldTexts : List (String × Json) → List (List Char)
  | [] => []
  | (name, value) :: rest => (stringText name ++ ':' :: value.text) :: fieldTexts rest
end

def compact (value : Json) : String := String.ofList value.text

end AppHost.Json
