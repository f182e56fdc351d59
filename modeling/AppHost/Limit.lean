import AppHost.AppSpec
import AppHost.Decimal.Binary64
import AppHost.Failure

/-!
# The limits of an application

Where connections are limited, a request beyond the limit is turned away. Requests that start a new
session are held to a lower limit than those of sessions in progress, so that a full worker still
serves the sessions it has.
-/

namespace AppHost

/-- Eighty percent of a limit, a half rounded up. The product is a binary one, whose factor is only
near to four fifths. -/
def eightyPercent (hard : Nat) : Nat :=
  match ((Decimal.Binary64.whole hard).mul (.ofRatio false ⟨4, 5⟩)).magnitude? with
  | some product => product.roundHalfUp
  | none => 0

/-- Eighty percent of the hard limit, but at least ten below it as long as that leaves two. Zero, no
limit, stays zero. -/
def softLimit (hard : Nat) : Nat :=
  if hard = 0 then 0 else min (eightyPercent hard) (max (hard - 10) 2)

namespace Policy

def limitFor (app : AppSpec) (url : Option String) : Nat :=
  let hard := app.settings.scheduler.maxRequests
  if url = some "/" then softLimit hard else hard

def outOfCapacity : Failure := .outOfCapacity "This application cannot handle another connection."

end Policy

end AppHost
