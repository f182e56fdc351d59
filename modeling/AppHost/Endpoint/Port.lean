import AppHost.Endpoint
import AppHost.Failure

/-!
# Allocating a port

The system picks a port and may find it taken again at once. `Bind.alloc` tries a few times and
passes every other refusal on. Successive allocations go on numbering their attempts, so that no
outcome is skipped and none is used twice.
-/

namespace AppHost

inductive Bind where
  | bound (port : Nat)
  | refused (error : IoError)
  deriving DecidableEq, Repr

namespace Bind

def maxRetries : Nat := 5

def inUse : Bind := .refused .addressInUse

/-- One allocation that may make `retries` attempts after its first. `next` supplies an attempt's
outcome by its number among all attempts ever made, and `made` is how many there were before; the
second part of the result is how many there are now. -/
def alloc (next : Nat → Bind) : (retries made : Nat) → Except Failure Nat × Nat
  | retries, made =>
    match next made with
    | .bound port => (.ok port, made + 1)
    | .refused error =>
      if error ≠ .addressInUse then (.error (.io error), made + 1)
      else match retries with
        | 0 => (.error .noFreePort, made + 1)
        | rest + 1 => alloc next rest (made + 1)

def allocs (next : Nat → Bind) (made : Nat) : (calls : Nat) → List (Except Failure Nat × Nat)
  | 0 => []
  | calls + 1 =>
    let r := alloc next maxRetries made
    r :: allocs next r.2 calls

end Bind

end AppHost
