import AppHost.AppSpec
import AppHost.Exit
import AppHost.Worker.Entry

/-!
# Workers

One worker from spawn to exit. Two tasks run for it. The first brings it up (endpoint, launch,
connect attempts until it answers) and, once it is ready, watches for idleness; `Stage` says where
that task stands. The second starts with the launch and waits for the process to exit.

Transports and processes are known here by number only: what they are is the business of whoever
answers the questions that a step asks (`Act`).
-/

namespace AppHost

abbrev TransportRef := Nat

structure Probe where
  via : TransportRef
  endpoint : Endpoint
  attempt : Nat
  deadline : Time
  deriving DecidableEq, Repr, Inhabited

inductive Stage where
  | queued
  | allocating (via : TransportRef)
  | launching (via : TransportRef) (endpoint : Endpoint) (log : Option Path)
  | connecting (probe : Probe)
  | pausing (probe : Probe) (resume : Time)
  | watching
  /-- The idle timer expired at `since`; the worker is spared for the linger period. -/
  | lingering (since : Time)
  | finished
  deriving DecidableEq, Repr, Inhabited

structure Launched where
  endpoint : Endpoint
  log : Option Path
  process : Nat
  exit : ExitNotification := .pending
  kills : List (Time × Bool) := []
  reaped : Bool := false
  deriving DecidableEq, Repr, Inhabited

structure Worker where
  app : AppSpec
  entry : Entry
  stage : Stage := .queued
  launched : Option Launched := none
  /-- Set when the worker is stopped for idleness: its log tells nothing then. -/
  dropLog : Bool := false
  deriving Repr, Inhabited

inductive Worker.Act where
  | alloc (via : TransportRef)
  | launch (endpoint : Endpoint) (log : Option Path)
  | connect (via : TransportRef) (endpoint : Endpoint)
  | kill (process : Nat) (force : Bool)
  | removeLog (path : Path)
  /-- The worker's entry leaves its table; `announce` asks for word to be sent should that leave
  the table empty. -/
  | leave (announce : Bool)
  deriving DecidableEq, Repr

def connectRamp : List Nat := [50, 50, 100, 100, 100, 100, 100, 200, 200, 300, 300, 300]

/-- The pause after the attempt of this number: it climbs the ramp, never above the configured
interval, and settles on the interval. -/
def connectPause (interval attempt : Nat) : Nat :=
  match connectRamp[attempt]? with
  | some pause => min pause interval
  | none => interval

end AppHost
