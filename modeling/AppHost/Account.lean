import AppHost.Path

/-!
# Accounts

The users a machine knows, and the standing of a process among them.
-/

namespace AppHost

structure Account where
  name : String
  uid : Nat
  gid : Nat
  home : Path
  deriving DecidableEq, Repr, Inhabited

def Account.hasHome (a : Account) : Bool := a.home.text ≠ ""

/-- Every account of a machine. Of two with one name the first counts. -/
abbrev Accounts := List Account

namespace Accounts

def named? (as : Accounts) (name : String) : Option Account := as.find? (·.name = name)

def numbered? (as : Accounts) (uid : Nat) : Option Account := as.find? (·.uid = uid)

end Accounts

structure Caller where
  uid : Nat
  gid : Nat
  privileged : Bool
  umask : Nat := 0o022
  workDir : List String := []
  deriving DecidableEq, Repr, Inhabited

namespace Caller

def isSuperuser (c : Caller) : Bool := c.uid = 0

/-- Whether the process may start another one as this account. A superuser has to give up its
groups for that, which takes privilege even if the account is its own. -/
def canBecome (c : Caller) (a : Account) : Bool :=
  c.privileged || (!c.isSuperuser && c.uid = a.uid && c.gid = a.gid)

def become (c : Caller) (a : Account) : Caller :=
  { c with uid := a.uid, gid := a.gid, privileged := c.privileged && a.uid = 0 }

end Caller

end AppHost
