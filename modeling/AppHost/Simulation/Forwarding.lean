import AppHost.Simulation.Script

/-!
# Forwarded connections

Clients of an application's public port, the forwarder behind it, and a worker that echoes what it
is sent. Whether clients get through to local ports at all is the world's to say.
-/

namespace AppHost.Simulation

inductive Server where
  | echo (greeting : String)
  /-- Counts as listening, but takes no connections. -/
  | dead
  | missing
  deriving DecidableEq, Repr, Inhabited

structure Client where
  worker : WorkerKey
  inbox : List UInt8
  deriving Repr, Inhabited

structure Forwarding where
  scene : Scene
  app : AppSpec
  server : Server
  reachable : Bool
  accepting : Bool := true
  clients : List (String × Client) := []

namespace Forwarding

inductive Reply where
  | nothing
  | opened
  | refused
  | ended (data : List UInt8)
  | received (data : List UInt8)
  | stopped
  deriving Repr

def initial (app : AppSpec) (server : Server) (transport : TransportKind) (reachable : Bool) :
    Forwarding :=
  let answers := server = .dead || transport = .unix || reachable
  let plan : LaunchPlan := {
    fail := if server = .missing then some .missingAppDir else none
    listenMs := if answers then some 0 else none }
  { scene := Scene.initial .registry "" (some transport) [] (List.replicate 100 plan), app,
    server, reachable }

def worker? (f : Forwarding) : Forwarding × Option WorkerKey :=
  let handle := "request"
  let s := (f.scene.perform (.get handle f.app none)).1
  let s := if (s.world.handles.lookup handle).isSome then s
    else (s.perform (.sleep f.app.settings.appDefaults.initTimeoutMs)).1
  let key := s.world.handles.lookup handle
  let s := { s with world := { s.world with handles := [], waiting := [] } }
  ({ f with scene := s }, key)

def tell (f : Forwarding) (key : WorkerKey) (events : List Worker.Event) : Forwarding :=
  { f with scene := { f.scene with world := events.foldl (fun w e => w.tell key e) f.scene.world } }

def settle (f : Forwarding) : Forwarding :=
  { f with scene := { f.scene with world := f.scene.world.run f.scene.world.now } }

def entry? (f : Forwarding) (key : WorkerKey) : Option Entry :=
  (f.scene.world.worker? key).map (·.entry)

/-- A client connects. A connection that is not taken on ends at once. -/
def connect (f : Forwarding) (client : String) : Forwarding × Reply :=
  if !f.reachable ∨ !f.accepting then (f, .refused)
  else
    match f.worker? with
    | (f, none) => (f.settle, .ended [])
    | (f, some key) =>
      let reserved := (f.entry? key).any fun e => !e.reservations.isEmpty
      let f := f.tell key (Worker.Event.sessionOpens reserved)
      match f.server with
      | .echo greeting =>
        let greeted : Client := { worker := key, inbox := greeting.toUTF8.toList }
        ({ f with clients := (client, greeted) :: f.clients }.settle, .opened)
      | _ => ((f.tell key Worker.Event.sessionCloses).settle, .ended [])

def disconnect (f : Forwarding) (name : String) (client : Client) : Forwarding :=
  { (f.tell client.worker Worker.Event.sessionCloses) with
    clients := f.clients.filter (·.1 ≠ name) }.settle

def receive (f : Forwarding) (name : String) (client : Client) (count : Nat) : Forwarding × Reply :=
  let rest : Client := { client with inbox := client.inbox.drop count }
  ({ f with clients := (name, rest) :: f.clients.filter (·.1 ≠ name) },
    .received (client.inbox.take count))

inductive Use where
  | send (data : List UInt8)
  | read (count : Nat)
  | finish
  | close
  deriving Repr

def use (f : Forwarding) (name : String) (use : Use) : Option (Forwarding × Reply) :=
  (f.clients.lookup name).map fun client =>
    match use with
    | .send data => f.receive name { client with inbox := client.inbox ++ data } data.length
    | .read count => f.receive name client count
    | .finish => (f.disconnect name client, .ended client.inbox)
    | .close => (f.disconnect name client, .nothing)

def reserve (f : Forwarding) (timeout : Nat) : Option (Forwarding × Reply) :=
  match f.worker? with
  | (_, none) => none
  | (f, some key) =>
    some ((f.tell key [.acquire .pending, .pushReservation timeout]).settle, .nothing)

def watch (f : Forwarding) (stop : Bool) : Forwarding × Reply :=
  if stop then ({ f with accepting := false }, .stopped) else (f, .nothing)

def entryOfApp? (f : Forwarding) : Option Entry := do
  let policy ← f.scene.world.registry.lookup? f.app.key
  let p ← f.scene.world.registry.policy? policy
  let worker ← p.pool.table.head?
  f.entry? ⟨policy, worker⟩

def policies (f : Forwarding) : Nat := f.scene.world.registry.current.length

end Forwarding

end AppHost.Simulation
