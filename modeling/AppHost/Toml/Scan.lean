import AppHost.Text.Digits

/-!
# Scanning configuration text

The small pieces every part of the grammar is built from: blanks, line ends, comments, quoted text
and keys. A scanner takes what it recognises from the front of the text and returns the rest;
`none` means that the text is not in the format.
-/

namespace AppHost.Toml

abbrev Scan (α : Type) := List Char → Option (α × List Char)

def isBlank (c : Char) : Bool := c = ' ' || c = '\t'

def skipBlanks (cs : List Char) : List Char := cs.dropWhile isBlank

def lineEnd? : List Char → Option (List Char)
  | '\n' :: rest => some rest
  | '\r' :: '\n' :: rest => some rest
  | _ => none

def inComment (c : Char) : Bool := c = '\t' || (' ' ≤ c && c ≠ '\x7f')

def endLine? (cs : List Char) : Option (List Char) :=
  let cs := skipBlanks cs
  let cs := match cs with
    | '#' :: rest => rest.dropWhile inComment
    | cs => cs
  match cs with
  | [] => some []
  | cs => lineEnd? cs

/-- Skips blanks, line ends and comments, as they may stand between the items of an array. The flag
says whether a comment is being skipped. -/
def skipFiller (commenting : Bool) : List Char → List Char
  | [] => []
  | '\r' :: '\n' :: rest => skipFiller false rest
  | c :: rest =>
    if c = '\n' then skipFiller false rest
    else if commenting then if inComment c then skipFiller true rest else c :: rest
    else if isBlank c then skipFiller false rest
    else if c = '#' then skipFiller true rest
    else c :: rest

/-! ## Quoted text -/

/-- The character of a code point; there is none for surrogates and beyond the last plane. -/
def charOf? (n : Nat) : Option Char :=
  if n < 0xD800 ∨ (0xDFFF < n ∧ n < 0x110000) then some (Char.ofNat n) else none

def hexChar? (digits : List Char) : Option Char := (Text.numeral? 16 digits).bind charOf?

def letterEscape? : Char → Option Char
  | 'b' => some '\x08'
  | 't' => some '\t'
  | 'n' => some '\n'
  | 'f' => some '\x0c'
  | 'r' => some '\r'
  | '"' => some '"'
  | '\\' => some '\\'
  | _ => none

def andThen (c : Char) : Option (List Char × List Char) → Option (List Char × List Char)
  | some (text, rest) => some (c :: text, rest)
  | none => none

def basicText : List Char → Option (List Char × List Char)
  | [] => none
  | '"' :: rest => some ([], rest)
  | '\\' :: 'u' :: a :: b :: c :: d :: rest =>
    match hexChar? [a, b, c, d] with
    | some e => andThen e (basicText rest)
    | none => none
  | '\\' :: 'U' :: a :: b :: c :: d :: e :: f :: g :: h :: rest =>
    match hexChar? [a, b, c, d, e, f, g, h] with
    | some e => andThen e (basicText rest)
    | none => none
  | '\\' :: c :: rest =>
    match letterEscape? c with
    | some e => andThen e (basicText rest)
    | none => none
  | c :: rest => if c ≠ '\\' ∧ inComment c then andThen c (basicText rest) else none

def literalText : List Char → Option (List Char × List Char)
  | [] => none
  | '\'' :: rest => some ([], rest)
  | c :: rest => if inComment c then andThen c (literalText rest) else none

def continuesLine (cs : List Char) : Bool := (lineEnd? (skipBlanks cs)).isSome

/-- The characters of a quotation over several lines with escapes. It ends in three quotes; up to
two more before them belong to it. A line end reads as a line feed. The flag says whether blanks
and line ends are being skipped, as they are after a backslash at the end of a line. -/
def basicLines (skipping : Bool) : List Char → Option (List Char × List Char)
  | [] => none
  | '"' :: '"' :: '"' :: '"' :: '"' :: rest => some (['"', '"'], rest)
  | '"' :: '"' :: '"' :: '"' :: rest => some (['"'], rest)
  | '"' :: '"' :: '"' :: rest => some ([], rest)
  | '\r' :: '\n' :: rest =>
    if skipping then basicLines true rest else andThen '\n' (basicLines false rest)
  | '\\' :: 'u' :: a :: b :: c :: d :: rest =>
    match hexChar? [a, b, c, d] with
    | some e => andThen e (basicLines false rest)
    | none => none
  | '\\' :: 'U' :: a :: b :: c :: d :: e :: f :: g :: h :: rest =>
    match hexChar? [a, b, c, d, e, f, g, h] with
    | some e => andThen e (basicLines false rest)
    | none => none
  | '\\' :: c :: rest =>
    if continuesLine (c :: rest) then
      if c = '\r' then basicLines true rest
      else if isBlank c ∨ c = '\n' then basicLines true rest
      else none
    else match letterEscape? c with
      | some e => andThen e (basicLines false rest)
      | none => none
  | c :: rest =>
    if c = '\n' then if skipping then basicLines true rest else andThen '\n' (basicLines false rest)
    else if skipping ∧ isBlank c then basicLines true rest
    else if c ≠ '\\' ∧ inComment c then andThen c (basicLines false rest)
    else none

def literalLines : List Char → Option (List Char × List Char)
  | [] => none
  | '\'' :: '\'' :: '\'' :: '\'' :: '\'' :: rest => some (['\'', '\''], rest)
  | '\'' :: '\'' :: '\'' :: '\'' :: rest => some (['\''], rest)
  | '\'' :: '\'' :: '\'' :: rest => some ([], rest)
  | '\r' :: '\n' :: rest => andThen '\n' (literalLines rest)
  | c :: rest => if c = '\n' ∨ inComment c then andThen c (literalLines rest) else none

/-- A line end right after the opening quotes is not part of the text. -/
def dropFirstLineEnd (cs : List Char) : List Char := (lineEnd? cs).getD cs

def quotation : Scan String
  | '"' :: '"' :: '"' :: rest => asString (basicLines false (dropFirstLineEnd rest))
  | '"' :: rest => asString (basicText rest)
  | '\'' :: '\'' :: '\'' :: rest => asString (literalLines (dropFirstLineEnd rest))
  | '\'' :: rest => asString (literalText rest)
  | _ => none
where
  asString (r : Option (List Char × List Char)) : Option (String × List Char) :=
    r.map fun p => (String.ofList p.1, p.2)

/-! ## Keys -/

def isBare (c : Char) : Bool := c.isAlphanum || c = '_' || c = '-'

def keyPart : Scan String
  | '"' :: rest => (basicText rest).map fun p => (String.ofList p.1, p.2)
  | '\'' :: rest => (literalText rest).map fun p => (String.ofList p.1, p.2)
  | cs =>
    let bare := cs.takeWhile isBare
    if bare.isEmpty then none else some (String.ofList bare, cs.dropWhile isBare)

def maxDepth : Nat := 79

def keyPath (cs : List Char) : (fuel : Nat) → Option (List String × List Char)
  | 0 => none
  | fuel + 1 => do
    let (part, rest) ← keyPart (skipBlanks cs)
    match skipBlanks rest with
    | '.' :: rest =>
      let (parts, rest) ← keyPath rest fuel
      return (part :: parts, rest)
    | rest => return ([part], rest)

def key : Scan (List String) := fun cs => keyPath cs maxDepth

end AppHost.Toml
