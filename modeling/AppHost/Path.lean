/-!
# Paths

A path is its text. Nothing is normalised on the way in, so a path prints as it was given; only
the questions asked of it (its last name, its parent, whether it is absolute) look at segments.
-/

namespace AppHost

structure Path where
  text : String
  deriving DecidableEq, Repr, Inhabited

namespace Path

def isAbsolute (p : Path) : Bool := p.text.toList.head? = some '/'

/-- An absolute right side replaces the left; otherwise one slash stands between the two, and
none after an empty left side. -/
def join (p : Path) (q : String) : Path :=
  if q.toList.head? = some '/' then ⟨q⟩
  else if p.text.isEmpty then ⟨q⟩
  else if p.text.toList.getLast? = some '/' then ⟨p.text ++ q⟩
  else ⟨p.text ++ "/" ++ q⟩

def segmentsOf : List Char → List (List Char)
  | [] => [[]]
  | '/' :: rest => [] :: segmentsOf rest
  | c :: rest =>
    match segmentsOf rest with
    | [] => [[c]]
    | s :: more => (c :: s) :: more

def segments (p : Path) : List (List Char) := segmentsOf p.text.toList

/-- Drops empty segments and `.` from the end, reading the segments last first. The first segment
of a path names its root or its starting point and stays unless it is empty. -/
def trimLast : List (List Char) → List (List Char)
  | [] => []
  | [s] => if s = [] then [] else [s]
  | s :: rest => if s = [] ∨ s = ['.'] then trimLast rest else s :: rest

def fileName (p : Path) : Option String :=
  match trimLast p.segments.reverse with
  | [] => none
  | s :: _ => if s = ['.'] ∨ s = ['.', '.'] then none else some (String.ofList s)

def ofSegments (absolute : Bool) (segments : List (List Char)) : Path :=
  let text := String.intercalate "/" (segments.map String.ofList)
  if absolute then if segments.length ≤ 1 then ⟨"/"⟩ else ⟨text⟩ else ⟨text⟩

def parent (p : Path) : Option Path :=
  match trimLast p.segments.reverse with
  | [] => none
  | _ :: rest =>
    let kept := if rest.length ≤ 1 then rest else
      match trimLast rest with
      | [] => [[]]
      | more => more
    some (ofSegments p.isAbsolute kept.reverse)

end Path

end AppHost
