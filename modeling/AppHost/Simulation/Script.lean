import AppHost.Registry
import AppHost.Simulation.World

/-!
# Scripts

A script drives a simulated world from outside: it asks for workers, uses and returns them, lets
time pass and makes processes exit. After each step the world runs until nothing more can happen
at that time.
-/

namespace AppHost.Simulation

inductive Level where
  | pool
  | policy
  | registry
  deriving DecidableEq, Repr

inductive Step where
  | get (handle : String) (app : AppSpec) (url : Option String)
  /-- The same at a policy that was stored earlier, registered or not. -/
  | getAt (handle policy : String) (app : AppSpec) (url : Option String)
  | spawn (handle : String) (app : AppSpec) (data : List (String × Json))
  | spawnAndWait (handle : String) (app : AppSpec)
  | acquire (handle : String) (kind : ConnKind) (times : Nat)
  | release (handle : String) (kind : ConnKind) (times : Nat)
  | pushReservation (handle : String) (timeout : Nat)
  | shiftReservation (handle : String)
  | kill (handle : String) (force : Bool)
  | inspect (handle : String)
  | exit (process : Nat) (status : ExitStatus)
  | abandon (process : Nat)
  | sleep (ms : Nat)
  | shutdown
  | setTransport (kind : TransportKind)
  | storePolicy (name : String) (app : AppSpec)
  | policyState (name : Option String)

inductive Reply where
  | nothing
  | noHandle
  | noPolicy
  | noProcess
  | flag (value : Bool)
  | count (value : Nat)
  | spawned (worker : String) (inTable : Bool) (added : Nat) (data : List (String × Json))
      (unresolved : Bool)
  | worker (name : String) (ready : ReadyWorker) (exit : Option ExitStatus)
      (connections sessions : Nat)
      (closed : Bool)
  | policy (workers : Nat) (retired registered : Bool)

structure Scene where
  level : Level
  world : World
  stored : List (String × PolicyRef) := []

namespace Scene

def initial (level : Level) (key : String) (transport : Option TransportKind)
    (allocPlans : List AllocPlan) (launchPlans : List LaunchPlan) : Scene :=
  let transportRef := transport.map fun _ => 0
  let registry : Registry := match level with
    | .registry => { transport := transportRef }
    | _ => { transport := transportRef
             policies := [{ pool := { key, transport := transportRef } }]
             current := [(key, 0)] }
  { level
    world := {
      registry, readsVacancies := level = .registry, transports := transport.toList
      allocPlans, launchPlans } }

def freshId (s : Scene) : String := "worker-" ++ toString s.world.workerKeys.length

def promise (s : Scene) (handle : String) (policy : PolicyRef) : Except Failure WorkerRef → Scene
  | .ok worker =>
    { s with world := { s.world with waiting := s.world.waiting ++ [(handle, ⟨policy, worker⟩)] } }
  | .error failure =>
    { s with world := s.world.observe (s.world.grantText handle none (.error failure)) }

def requestAt (s : Scene) (policy : PolicyRef) (handle : String) (app : AppSpec)
    (url : Option String) : Scene :=
  let r := s.world.registry.admissionAt policy app url s.freshId
  { s with world := { s.world with registry := r.1 } }.promise handle policy r.2

def request (s : Scene) (handle : String) (app : AppSpec) (url : Option String) : Scene :=
  match s.level with
  | .registry =>
    let r := s.world.registry.admission app url s.freshId
    let s := { s with world := { s.world with registry := r.1 } }
    match r.2 with
    | .answered policy result => s.promise handle policy result
    | _ => s
  | _ => s.requestAt 0 handle app url

def spawn (s : Scene) (handle : String) (app : AppSpec) (data : List (String × Json)) :
    Scene × Reply :=
  match s.world.registry.policy? 0 with
  | none => (s, .noPolicy)
  | some p =>
    let r := p.pool.spawn app s.freshId data
    let registry := s.world.registry.setPolicy 0 { p with pool := r.1 }
    let key : WorkerKey := ⟨0, r.2⟩
    let world := { s.world with registry }.named key
    let entry := (world.worker? key).map (·.entry)
    let reply := .spawned (world.nameOf key) (r.1.table.contains r.2) (r.1.size - p.pool.size)
      ((entry.map (·.data)).getD []) (entry.any (·.outcome.isNone))
    ({ s with world }.promise handle 0 (.ok r.2), reply)

def repeatedly (times : Nat) (f : α → α) (a : α) : α :=
  match times with
  | 0 => a
  | times + 1 => repeatedly times f (f a)

def use (s : Scene) (handle : String) (f : World → WorkerKey → World × Reply) : Scene × Reply :=
  match s.world.handles.lookup handle with
  | none => (s, .noHandle)
  | some key =>
    let r := f s.world key
    ({ s with world := r.1 }, r.2)

def countOf (w : World) (key : WorkerKey) (f : Entry → UInt32) : Reply :=
  .count (((w.worker? key).map fun worker => (f worker.entry).toNat).getD 0)

def inspect (w : World) (key : WorkerKey) : Reply :=
  match w.worker? key with
  | none => .nothing
  | some worker =>
    match worker.entry.ready? with
    | none => .nothing
    | some ready =>
      .worker (w.nameOf key) ready (worker.launched.bind (·.exit.status)) worker.entry.count.toNat
        worker.entry.sessions.toNat worker.entry.closed

def act (s : Scene) : Step → Scene × Reply
  | .get handle app url => (s.request handle app url, .nothing)
  | .getAt handle name app url =>
    match s.stored.lookup name with
    | none => (s, .noPolicy)
    | some policy => (s.requestAt policy handle app url, .nothing)
  | .spawn handle app data => s.spawn handle app data
  | .spawnAndWait handle app => ((s.spawn handle app []).1, .nothing)
  | .acquire handle kind times =>
    s.use handle fun w key =>
      let w := repeatedly times (·.tell key (.acquire kind)) w
      (w, countOf w key Entry.count)
  | .release handle kind times =>
    s.use handle fun w key =>
      let w := repeatedly times (·.tell key (.release kind)) w
      (w, countOf w key Entry.count)
  | .pushReservation handle timeout =>
    s.use handle fun w key =>
      let w := w.tell key (.pushReservation timeout)
      (w, countOf w key Entry.sessions)
  | .shiftReservation handle =>
    s.use handle fun w key =>
      let had := (w.worker? key).any fun worker => worker.entry.shiftReservation.2
      (w.tell key .shiftReservation, .flag had)
  | .kill handle force => s.use handle fun w key => (w.tell key (.kill force), .nothing)
  | .inspect handle => s.use handle fun w key => (w, inspect w key)
  | .exit process status =>
    if s.world.processes.length ≤ process then (s, .noProcess)
    else
      let r := s.world.endProcess process status
      ({ s with world := r.1 }, .flag r.2)
  | .abandon process =>
    if s.world.processes.length ≤ process then (s, .noProcess)
    else
      let r := s.world.abandonProcess process
      ({ s with world := r.1 }, .flag r.2)
  | .sleep ms => ({ s with world := s.world.run (s.world.now + ms) }, .nothing)
  | .shutdown =>
    let r := s.world.registry.shutdown s.world.now
    ({ s with world := { s.world with registry := r.1 }.performAll r.2 }, .nothing)
  | .setTransport kind =>
    let ref := s.world.transports.length
    let w := { s.world with transports := s.world.transports ++ [kind] }
    ({ s with world := { w with registry := w.registry.setTransport ref } }, .nothing)
  | .storePolicy name app =>
    match s.world.registry.lookup? app.key with
    | none => (s, .flag false)
    | some policy => ({ s with stored := (name, policy) :: s.stored }, .flag true)
  | .policyState name =>
    match name.bind (fun n => s.stored.lookup n) <|>
      (if s.level = .registry then none else some 0) with
    | none => (s, .noPolicy)
    | some ref =>
      match s.world.registry.policy? ref with
      | none => (s, .noPolicy)
      | some p =>
        let registered := s.world.registry.lookup? p.pool.key = some ref
        (s, .policy p.pool.size p.retired registered)

def nameAll (w : World) : World :=
  w.registry.rows.foldl (fun w entry =>
    entry.2.2.foldl (fun w row => w.named ⟨entry.2.1, row.worker⟩) w) w

/-- What a step shows: its reply, what was observed meanwhile by time and then by text, and the
reports of empty tables that nobody read. -/
structure Outcome where
  reply : Reply
  observed : List (Time × String)
  vacant : List String

def inOrder (log : List (Time × String)) : List (Time × String) :=
  log.mergeSort fun a b => a.1 < b.1 || (a.1 == b.1 && a.2 ≤ b.2)

def perform (s : Scene) (step : Step) : Scene × Outcome :=
  let r := s.act step
  let w := nameAll (r.1.world.run r.1.world.now)
  let s := { r.1 with world := { w with
    log := []
    registry := if w.readsVacancies then w.registry else { w.registry with vacancies := [] } } }
  (s, { reply := r.2, observed := inOrder w.log.reverse,
        vacant := if w.readsVacancies then [] else w.registry.vacancies })

/-! ## Looking at tables -/

def namedRows (s : Scene) (policy : PolicyRef) (rows : List Pool.Row) : List (String × Pool.Row) :=
  let seen := rows.map fun row => (s.world.names.idxOf ⟨policy, row.worker⟩, row)
  (seen.mergeSort fun a b => a.1 ≤ b.1).map fun r => ("w" ++ toString r.1, r.2)

def tables (s : Scene) (keys : List String) : List (Nat × List (String × Pool.Row)) :=
  let found := s.world.registry.rows.map fun t => (keys.idxOf t.1, s.namedRows t.2.1 t.2.2)
  found.mergeSort fun a b => a.1 ≤ b.1

end Scene

end AppHost.Simulation
