import AppHost.Path
import AppHost.Text.Digits

/-!
# Endpoints

Where a worker is told to listen: a loopback port, or a socket file in a directory of the host's.
Each endpoint carries a secret that only the host and its worker know.
-/

namespace AppHost

inductive Address where
  | port (number : Nat)
  | socket (dir : Path) (name : String)
  deriving DecidableEq, Repr, Inhabited

structure Endpoint where
  address : Address
  secret : String
  deriving DecidableEq, Repr, Inhabited

namespace Address

def portNumber : Address → Option Nat
  | .port number => some number
  | .socket .. => none

def socketPath : Address → Option Path
  | .port _ => none
  | .socket dir name => some (dir.join (name ++ ".sock"))

/-- A socket's name is long and random; twelve characters of it tell two apart in a log. -/
def shortName (name : String) : String := String.ofList (name.toList.take 12)

def forWorker : Address → String
  | .port number => toString number
  | .socket dir name => (dir.join (name ++ ".sock")).text

def logSuffix : Address → String
  | .port number => toString number
  | .socket _ name => shortName name

def describe : Address → String
  | .port number => "port " ++ toString number
  | .socket _ name => "socket " ++ shortName name

end Address

namespace Endpoint

def secretOfBytes (bytes : List UInt8) : String := Text.hexBytes bytes

def hasSecret (e : Endpoint) : Bool :=
  e.secret.toList.length = 32 && e.secret.toList.all Text.isLowerHex

end Endpoint

end AppHost
