import AppHost.Limit
import AppHost.Pool

/-!
# Policies and their registry

A policy sends every request for an application to its single worker, which is spawned on demand.
Where connections are limited, a request beyond the limit is turned away rather than served by a
second process. A policy that its registry has dropped is retired: it takes no more requests.

The registry keeps one policy for each key. A policy is created on the first request for its key
and dropped when its pool reports an empty table and, at the time the report is read, still is
empty. A request looks its application's policy up and then comes to it. In between anything may
happen to the registry; a request that finds its policy retired looks again.
-/

namespace AppHost

structure Policy where
  pool : Pool
  retired : Bool := false
  deriving Repr, Inhabited

namespace Policy

/-- Picks the worker for a request, or spawns it under the name `id`. Reserved connections count
against the limit. -/
def admission (p : Policy) (app : AppSpec) (url : Option String) (id : String) :
    Policy × Except Failure WorkerRef :=
  if p.retired then (p, .error .retired)
  else match p.pool.first? with
    | none =>
      let r := p.pool.spawn app id []
      ({ p with pool := r.1 }, .ok r.2)
    | some ref =>
      let limit := limitFor app url
      let connections := ((p.pool.worker? ref).map (·.entry.count.toNat)).getD 0
      if 0 < limit ∧ limit ≤ connections then (p, .error outOfCapacity) else (p, .ok ref)

def retireIfVacant (p : Policy) : Policy × Bool :=
  if p.pool.size = 0 then ({ p with retired := true }, true) else (p, false)

end Policy

abbrev PolicyRef := Nat

structure Registry where
  transport : Option TransportRef := none
  policies : List Policy := []
  current : List (String × PolicyRef) := []
  /-- Keys whose pools reported an empty table; the oldest report comes first. -/
  vacancies : List String := []
  deriving Repr, Inhabited

inductive Request where
  | seeking
  | found (policy : PolicyRef)
  | answered (policy : PolicyRef) (result : Except Failure WorkerRef)
  deriving Repr, Inhabited

namespace Registry

structure Act where
  policy : PolicyRef
  worker : WorkerRef
  act : Worker.Act
  deriving Repr

def policy? (r : Registry) (ref : PolicyRef) : Option Policy := r.policies[ref]?

def lookup? (r : Registry) (key : String) : Option PolicyRef := r.current.lookup key

def worker? (r : Registry) (policy : PolicyRef) (worker : WorkerRef) : Option Worker :=
  (r.policy? policy).bind fun p => p.pool.worker? worker

def setPolicy (r : Registry) (ref : PolicyRef) (p : Policy) : Registry :=
  { r with policies := r.policies.set ref p }

def policyFor (r : Registry) (key : String) : Registry × PolicyRef :=
  match r.lookup? key with
  | some ref => (r, ref)
  | none =>
    let ref := r.policies.length
    ({ r with
        policies := r.policies ++ [{ pool := { key, transport := r.transport } }]
        current := r.current ++ [(key, ref)] }, ref)

/-- A request comes to a policy, which may not be the registered one any more. -/
def admissionAt (r : Registry) (ref : PolicyRef) (app : AppSpec) (url : Option String)
    (id : String) : Registry × Except Failure WorkerRef :=
  match r.policy? ref with
  | none => (r, .error .retired)
  | some p =>
    let s := p.admission app url id
    (r.setPolicy ref s.1, s.2)

def file (r : Registry) (ref : PolicyRef) (key : String) : List Pool.Act → Registry × List Act
  | [] => (r, [])
  | .vacant :: rest => { r with vacancies := r.vacancies ++ [key] }.file ref key rest
  | .ask worker act :: rest =>
    let s := r.file ref key rest
    (s.1, { policy := ref, worker, act } :: s.2)

def withPool (r : Registry) (ref : PolicyRef) (step : Pool → Pool × List Pool.Act) :
    Registry × List Act :=
  match r.policy? ref with
  | none => (r, [])
  | some p =>
    let s := step p.pool
    (r.setPolicy ref { p with pool := s.1 }).file ref p.pool.key s.2

def step (r : Registry) (now : Time) (policy : PolicyRef) (worker : WorkerRef)
    (event : Worker.Event) : Registry × List Act :=
  r.withPool policy fun pool => pool.step now worker event

/-- Reads the oldest report. The table may have filled again since it was made. -/
def readVacancy (r : Registry) : Registry :=
  match r.vacancies with
  | [] => r
  | key :: rest =>
    let r := { r with vacancies := rest }
    match r.lookup? key with
    | none => r
    | some ref =>
      match r.policy? ref with
      | none => r
      | some p =>
        let s := p.retireIfVacant
        if s.2 then { r.setPolicy ref s.1 with current := r.current.filter (·.1 ≠ key) } else r

def setTransport (r : Registry) (transport : TransportRef) : Registry :=
  r.current.foldl (fun r c =>
    match r.policy? c.2 with
    | none => r
    | some p => r.setPolicy c.2 { p with pool := { p.pool with transport := some transport } })
    { r with transport := some transport }

def shutdown (r : Registry) (now : Time) : Registry × List Act :=
  r.current.foldl (fun s c =>
    let t := s.1.withPool c.2 fun pool => pool.shutdown now
    (t.1, s.2 ++ t.2)) (r, [])

def advance (r : Registry) (app : AppSpec) (url : Option String) (id : String) :
    Request → Registry × Request
  | .seeking =>
    let s := r.policyFor app.key
    (s.1, .found s.2)
  | .found ref =>
    let s := r.admissionAt ref app url id
    match s.2 with
    | .error .retired => (s.1, .seeking)
    | result => (s.1, .answered ref result)
  | answered => (r, answered)

def admission (r : Registry) (app : AppSpec) (url : Option String) (id : String) :
    Registry × Request :=
  let s := r.advance app url id .seeking
  s.1.advance app url id s.2

def rows (r : Registry) : List (String × PolicyRef × List Pool.Row) :=
  r.current.filterMap fun c => (r.policy? c.2).map fun p => (c.1, c.2, p.pool.rows)

end Registry

end AppHost
