import AppHost.Worker.Step

/-!
# Pools

A pool holds the workers of one key. Its table lists those that are starting or ready: a worker
enters the table when it is spawned, before anything else happens to it, and leaves it when its
spawn fails or its process ends. Workers that left are remembered, because their tasks and their
callers still are: what happens to them later must not touch the table's other rows.
-/

namespace AppHost

/-- A worker's number within its pool: how many were spawned before it. -/
abbrev WorkerRef := Nat

structure Pool where
  key : String
  transport : Option TransportRef := none
  workers : List Worker := []
  table : List WorkerRef := []
  deriving Repr, Inhabited

namespace Pool

inductive Act where
  | ask (worker : WorkerRef) (act : Worker.Act)
  | vacant
  deriving Repr

def worker? (p : Pool) (ref : WorkerRef) : Option Worker := p.workers[ref]?

def size (p : Pool) : Nat := p.table.length

/-- Any one worker in the table, starting or ready. -/
def first? (p : Pool) : Option WorkerRef := p.table.head?

def spawn (p : Pool) (app : AppSpec) (id : String) (data : List (String × Json)) :
    Pool × WorkerRef :=
  let entry := { id, data, idleTimeout := app.settings.appDefaults.idleTimeoutMs }
  ({ p with workers := p.workers ++ [{ app, entry }], table := p.table ++ [p.workers.length] },
    p.workers.length)

/-- Carries out what a worker's step asks of its pool and passes on what it asks of the world. -/
def settle (p : Pool) (ref : WorkerRef) : List Worker.Act → Pool × List Act
  | [] => (p, [])
  | .leave announce :: rest =>
    let p := { p with table := p.table.erase ref }
    let r := p.settle ref rest
    (r.1, if announce && p.table.isEmpty then .vacant :: r.2 else r.2)
  | act :: rest =>
    let r := p.settle ref rest
    (r.1, .ask ref act :: r.2)

def step (p : Pool) (now : Time) (ref : WorkerRef) (event : Worker.Event) : Pool × List Act :=
  match p.worker? ref with
  | none => (p, [])
  | some w =>
    let r := w.step now event
    { p with workers := p.workers.set ref r.1 }.settle ref r.2

def readyRefs (p : Pool) : List WorkerRef :=
  p.table.filter fun ref => (p.worker? ref).any fun w => w.entry.ready?.isSome

def shutdown (p : Pool) (now : Time) : Pool × List Act :=
  p.readyRefs.foldl (fun r ref =>
    let s := r.1.step now ref (.kill true)
    (s.1, r.2 ++ s.2)) (p, [])

/-! ## Rows of the table -/

inductive Status where
  | starting
  | ready
  | failed
  deriving DecidableEq, Repr

def Status.name : Status → String
  | .starting => "starting"
  | .ready => "ready"
  | .failed => "failed"

structure Row where
  worker : WorkerRef
  status : Status
  ready : Option ReadyWorker
  connections : Connections
  deriving Repr

def row (ref : WorkerRef) (w : Worker) : Row where
  worker := ref
  status := match w.entry.outcome with
    | none => .starting
    | some (.ok _) => .ready
    | some (.error _) => .failed
  ready := w.entry.ready?
  connections := w.entry.connections

def rows (p : Pool) : List Row :=
  p.table.filterMap fun ref => (p.worker? ref).map (row ref)

end Pool

end AppHost
