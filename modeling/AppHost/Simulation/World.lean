import AppHost.Simulation.Plan

/-!
# A simulated world

A registry, the clock, and everything the registry's workers ask of the world, answered by plans.
`World.tick` makes the next thing happen: first whatever needs no time to pass, then the timer or
answer that is due first. `World.run` lets things happen until a given time.
-/

namespace AppHost.Simulation

structure World where
  now : Time := 0
  registry : Registry
  /-- Whether reports of empty tables are read by the registry or kept for the caller. -/
  readsVacancies : Bool
  transports : List TransportKind := []
  allocPlans : List AllocPlan
  launchPlans : List LaunchPlan
  allocs : Nat := 0
  launches : Nat := 0
  processes : List Process := []
  agenda : List (Time × Errand) := []
  waiting : List (String × WorkerKey) := []
  handles : List (String × WorkerKey) := []
  names : List WorkerKey := []
  log : List (Time × String) := []
  deriving Inhabited

namespace World

def worker? (w : World) (key : WorkerKey) : Option Worker :=
  w.registry.worker? key.policy key.worker

def observe (w : World) (text : String) : World := { w with log := (w.now, text) :: w.log }

def named (w : World) (key : WorkerKey) : World :=
  if w.names.contains key then w else { w with names := w.names ++ [key] }

def nameOf (w : World) (key : WorkerKey) : String := "w" ++ toString (w.names.idxOf key)

def defer (w : World) (delay : Nat) (errand : Errand) : World :=
  { w with agenda := w.agenda ++ [(w.now + delay, errand)] }

def endProcess (w : World) (number : Nat) (status : ExitStatus) : World × Bool :=
  match w.processes[number]? with
  | none => (w, false)
  | some p =>
    let running :=
      (w.worker? p.worker).any fun worker => worker.launched.any fun l => l.exit = .pending
    if p.watched && running then
      let w := w.observe ("exit " ++ w.nameOf p.worker ++ " " ++ status.describe)
      let r := w.registry.step w.now p.worker.policy p.worker.worker (.exited status)
      ({ w with registry := r.1 }, true)
    else (w, false)

def abandonProcess (w : World) (number : Nat) : World × Bool :=
  match w.processes[number]? with
  | none => (w, false)
  | some p =>
    if p.watched then
      let r := w.registry.step w.now p.worker.policy p.worker.worker .abandoned
      ({ w with
          registry := r.1
          processes := w.processes.set number { p with watched := false } }, true)
    else (w, false)

def exitAfter (w : World) (number : Nat) (delay : Option Nat) (status : ExitStatus) : World :=
  match delay with
  | none => w
  | some 0 => (w.endProcess number status).1
  | some ms => w.defer ms (.exit number status)

def launchPlan (w : World) (number : Nat) : LaunchPlan := (w.launchPlans[number]?).getD {}

def processOf? (w : World) (key : WorkerKey) : Option Process :=
  (w.worker? key).bind (·.launched) |>.bind fun l => w.processes[l.process]?

def perform (w : World) (a : Registry.Act) : World :=
  let key : WorkerKey := ⟨a.policy, a.worker⟩
  match a.act with
  | .alloc via =>
    let plan := (w.allocPlans[w.allocs]?).getD {}
    { w with allocs := w.allocs + 1 }.defer plan.delay (.allocated key w.allocs via)
  | .launch endpoint log =>
    let w := w.named key
    let log := match log with | some path => path.text | none => "none"
    let place := endpoint.address.describe ++ " log " ++ log
    let w := w.observe ("launch " ++ w.nameOf key ++ " " ++ place)
    { w with launches := w.launches + 1 }.defer (w.launchPlan w.launches).launchMs
      (.launched key w.launches)
  | .connect _ _ =>
    match w.processOf? key, (w.worker? key).map Worker.stage with
    | some p, some (.connecting probe) => w.defer p.plan.connectMs (.answered key probe.attempt)
    | _, _ => w
  | .kill number force =>
    match w.processes[number]? with
    | none => w
    | some p =>
      let w := w.observe ("kill " ++ w.nameOf key ++ " " ++ if force then "force" else "graceful")
      if force then w.exitAfter number p.plan.termMs (.killedBy .term)
      else w.exitAfter number p.plan.intMs (.killedBy .int)
  | .removeLog path => w.observe ("rmlog " ++ path.text)
  | .leave _ => w

def performAll (w : World) (acts : List Registry.Act) : World := acts.foldl perform w

def tell (w : World) (key : WorkerKey) (event : Worker.Event) : World :=
  let r := w.registry.step w.now key.policy key.worker event
  { w with registry := r.1 }.performAll r.2

def endpointFor (w : World) (n : Nat) (via : TransportRef) : Endpoint :=
  let serial := String.ofList (Text.zeroPadded 3 (Text.digits 10 n))
  let address := match w.transports[via]? with
    | some .unix => .socket ⟨"/run/wg"⟩ ("s" ++ serial ++ "-0123456789abcdef")
    | _ => .port (40000 + n)
  { address, secret := Endpoint.secretOfBytes (List.replicate 16 n.toUInt8) }

def answer (w : World) : Errand → World
  | .allocated key n via =>
    match ((w.allocPlans[n]?).getD {}).fail, w.worker? key with
    | some planned, some worker =>
      (w.observe ("alloc failed " ++ planned.name)).tell key
        (.allocated (.error (planned.failure worker.app)) "")
    | _, _ =>
      let endpoint := w.endpointFor n via
      (w.observe ("alloc " ++ endpoint.address.forWorker)).tell key
        (.allocated (.ok endpoint) "<ts>")
  | .launched key n =>
    let plan := w.launchPlan n
    match plan.fail, w.worker? key with
    | some planned, some worker => w.tell key (.launched (.error (planned.failure worker.app)))
    | _, _ =>
      let number := w.processes.length
      let process := { worker := key, plan, listensAt := plan.listenMs.map (w.now + ·) }
      let w := { w with processes := w.processes ++ [process] }.tell key (.launched (.ok number))
      w.exitAfter number plan.exitMs plan.exit
  | .answered key attempt =>
    match w.worker? key with
    | some { stage := .connecting probe, launched := some l, .. } =>
      if probe.attempt ≠ attempt then w
      else if l.exit.hasExited then w.tell key (.answered false)
      else
        let listening := (w.processOf? key).any fun p => p.listensAt.any (· ≤ w.now)
        let verdict := if listening then " ok" else " refused"
        (w.observe ("connect " ++ probe.endpoint.address.forWorker ++ verdict)).tell key
          (.answered listening)
    | _ => w
  | .exit number status => (w.endProcess number status).1

def workerKeys (w : World) : List WorkerKey :=
  (List.range w.registry.policies.length).flatMap fun policy =>
    match w.registry.policy? policy with
    | none => []
    | some p => (List.range p.pool.workers.length).map fun worker => ⟨policy, worker⟩

def pendingEvent? (w : World) : Option (WorkerKey × Worker.Event) :=
  w.workerKeys.findSome? fun key => do
    let p ← w.registry.policy? key.policy
    let worker ← p.pool.worker? key.worker
    if worker.exitPending then some (key, .exitHandled)
    else (worker.pending? p.pool.transport).map (key, ·)

def grantText (w : World) (handle : String) (key : Option WorkerKey) :
    Except Failure WorkerHandle → String
  | .ok _ => "got " ++ handle ++ " " ++ (key.map w.nameOf).getD ""
  | .error failure =>
    "got " ++ handle ++ " " ++ failure.name ++ ": " ++ failure.message ++
      match failure.consoleLog with
      | some log => " (log " ++ log.text ++ ")"
      | none => ""

def grant (w : World) (request : String × WorkerKey) (answer : Except Failure WorkerHandle) :
    World :=
  let w := { w with waiting := w.waiting.erase request }
  let w := w.observe (w.grantText request.1 (some request.2) answer)
  match answer with
  | .ok _ => { w with handles := (request.1, request.2) :: w.handles }
  | .error _ => w

def settledRequest? (w : World) : Option ((String × WorkerKey) × Except Failure WorkerHandle) :=
  w.waiting.findSome? fun request =>
    ((w.worker? request.2).bind (·.entry.handle?)).map (request, ·)

/-- What the clock brings. Answers come before timers that are due at the same time. -/
def due (w : World) : List (Time × (Errand ⊕ WorkerKey × Worker.Event)) :=
  w.agenda.map (fun e => (e.1, .inl e.2)) ++
    w.workerKeys.flatMap fun key =>
      match w.worker? key with
      | none => []
      | some worker => worker.due.map fun t => (t.1, .inr (key, t.2))

def withoutErrand (agenda : List (Time × Errand)) (time : Time) : List (Time × Errand) :=
  match agenda with
  | [] => []
  | e :: rest => if e.1 = time then rest else e :: withoutErrand rest time

def tick (w : World) (limit : Time) : Option World :=
  match w.pendingEvent? with
  | some (key, event) => some (w.tell key event)
  | none =>
    match w.settledRequest? with
    | some (request, answer) => some (w.grant request answer)
    | none =>
      if w.readsVacancies && !w.registry.vacancies.isEmpty then
        some { w with registry := w.registry.readVacancy }
      else
        match earliest? w.due with
        | none => none
        | some (time, next) =>
          if limit < time then none
          else
            let w := { w with now := max w.now time }
            match next with
            | .inl errand => some ({ w with agenda := withoutErrand w.agenda time }.answer errand)
            | .inr (key, event) => some (w.tell key event)

/-- Lets everything happen that is due by `limit`. A world in which something happens over and
over without the clock moving would never get there; `fuel` bounds the number of ticks. -/
def runFor (w : World) (limit : Time) : (fuel : Nat) → World
  | 0 => { w with now := max w.now limit }
  | fuel + 1 =>
    match w.tick limit with
    | some next => next.runFor limit fuel
    | none => { w with now := max w.now limit }

def run (w : World) (limit : Time) : World := w.runFor limit 1000000

end World

end AppHost.Simulation
