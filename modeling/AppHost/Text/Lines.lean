/-!
# Lines of text

What a process writes is a stream of bytes. Its lines end in a line feed, which a carriage return
may precede; the last line may lack its end. A line is text only if it is UTF-8.
-/

namespace AppHost.Text

/-- Puts a byte in front of a stream that is cut into lines. A line feed is a line's last byte. -/
def pushByte (b : UInt8) (lines : List (List UInt8)) : List (List UInt8) :=
  if b = 10 then [b] :: lines
  else match lines with
    | [] => [[b]]
    | line :: more => (b :: line) :: more

def cutLines (stream : List UInt8) : List (List UInt8) := stream.foldr pushByte []

/-- A line without its end. A carriage return alone ends nothing. -/
def dropLineEnd (line : List UInt8) : List UInt8 :=
  match line.reverse with
  | 10 :: 13 :: rest => rest.reverse
  | 10 :: rest => rest.reverse
  | _ => line

def lineText? (line : List UInt8) : Option String :=
  String.fromUTF8? ⟨(dropLineEnd line).toArray⟩

structure Lines where
  lines : List String
  complete : Bool
  deriving DecidableEq, Repr, Inhabited

def readLines (stream : List UInt8) : Lines :=
  let texts := (cutLines stream).map lineText?
  { lines := (texts.takeWhile Option.isSome).filterMap id
    complete := texts.all Option.isSome }

end AppHost.Text
