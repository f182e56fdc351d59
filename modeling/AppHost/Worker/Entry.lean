import AppHost.Clock
import AppHost.Endpoint
import AppHost.Failure
import AppHost.Json.Basic

/-!
# Worker entries

A worker is entered in its pool's table before it even has an endpoint. The entry counts the
connections assigned to the worker and arms an idle timer whenever a release leaves none. A page
load reserves a connection for the session it announces; the reservation lapses if the session
never arrives. Once the spawn has succeeded or failed the entry holds its outcome for good.

A closed entry has left its table. It keeps its counters and arms nothing on its own account.
-/

namespace AppHost

inductive ConnKind where
  | http
  | sock
  | pending
  deriving DecidableEq, Repr, Inhabited

structure Connections where
  http : UInt32 := 0
  sock : UInt32 := 0
  pending : UInt32 := 0
  deriving DecidableEq, Repr, Inhabited

namespace Connections

def count (c : Connections) : ConnKind → UInt32
  | .http => c.http
  | .sock => c.sock
  | .pending => c.pending

def set (c : Connections) (kind : ConnKind) (n : UInt32) : Connections :=
  match kind with
  | .http => { c with http := n }
  | .sock => { c with sock := n }
  | .pending => { c with pending := n }

def add (c : Connections) (kind : ConnKind) : Connections := c.set kind (c.count kind + 1)

def remove (c : Connections) (kind : ConnKind) : Connections :=
  if c.count kind = 0 then c else c.set kind (c.count kind - 1)

def total (c : Connections) : UInt32 := c.http + c.sock + c.pending

def sessions (c : Connections) : UInt32 := c.sock + c.pending

end Connections

/-- A reserved connection that is given up at `due` unless a session claims it. -/
structure Reservation where
  id : UInt64
  due : Time
  deriving DecidableEq, Repr, Inhabited

structure ReadyWorker where
  endpoint : Endpoint
  logFile : Option Path
  process : Nat
  deriving DecidableEq, Repr, Inhabited

abbrev Outcome := Except Failure ReadyWorker

structure WorkerHandle where
  worker : String
  ready : ReadyWorker
  deriving DecidableEq, Repr, Inhabited

structure Entry where
  id : String
  data : List (String × Json) := []
  /-- How long the worker may be without connections, if there is a limit. -/
  idleTimeout : Option Nat
  connections : Connections := {}
  idleDue : Option Time := none
  reservations : List Reservation := []
  nextReservation : UInt64 := 0
  /-- Expiries of the idle timer that nobody has read yet, oldest first. -/
  expiries : List Time := []
  closed : Bool := false
  outcome : Option Outcome := none
  deriving Repr, Inhabited

namespace Entry

def count (e : Entry) : UInt32 := e.connections.total

def sessions (e : Entry) : UInt32 := e.connections.sessions

def idleArmed (e : Entry) : Bool := e.idleDue.isSome

def acquire (e : Entry) (kind : ConnKind) : Entry :=
  { e with connections := e.connections.add kind, idleDue := none }

def armIdle (e : Entry) (now : Time) : Entry :=
  if e.count ≠ 0 then e
  else match e.idleTimeout with
    | none => e
    | some timeout => { e with idleDue := some (now + timeout) }

/-- A release that changes nothing: the entry is closed, or there is no reservation to give up. -/
def ignoresRelease (e : Entry) (kind : ConnKind) : Bool :=
  e.closed || (kind = .pending && e.connections.pending = 0)

def release (e : Entry) (now : Time) (kind : ConnKind) : Entry :=
  if e.ignoresRelease kind then e
  else armIdle { e with connections := e.connections.remove kind } now

def pushReservation (e : Entry) (now : Time) (timeout : Nat) : Entry :=
  { e with
    reservations := e.reservations ++ [{ id := e.nextReservation, due := now + timeout }]
    nextReservation := e.nextReservation + 1 }

def shiftReservation (e : Entry) : Entry × Bool :=
  match e.reservations with
  | [] => (e, false)
  | _ :: rest => ({ e with reservations := rest }, true)

/-- Takes a timer off the queue, from the front or, if it fired out of order, from wherever it
stands. -/
def dropReservation (e : Entry) (id : UInt64) : Entry :=
  match e.reservations with
  | [] => e
  | oldest :: rest =>
    if oldest.id = id then { e with reservations := rest }
    else { e with reservations := e.reservations.filter (·.id ≠ id) }

def expireReservation (e : Entry) (now : Time) (id : UInt64) : Entry :=
  (e.dropReservation id).release now .pending

def expireIdle (e : Entry) (now : Time) : Entry :=
  if e.idleDue.isSome then { e with idleDue := none, expiries := e.expiries ++ [now] } else e

def close (e : Entry) : Entry :=
  { e with closed := true, idleDue := none, reservations := [] }

/-- Settles the spawn; only the first outcome counts, and the flag says whether this was it. -/
def resolve (e : Entry) (outcome : Outcome) : Entry × Bool :=
  match e.outcome with
  | none => ({ e with outcome := some outcome }, true)
  | some _ => (e, false)

def ready? (e : Entry) : Option ReadyWorker :=
  match e.outcome with
  | some (.ok worker) => some worker
  | _ => none

def handle? (e : Entry) : Option (Except Failure WorkerHandle) :=
  e.outcome.map fun outcome => outcome.map fun ready => { worker := e.id, ready }

def takeExpiries (e : Entry) : Entry × List Time := ({ e with expiries := [] }, e.expiries)

/-! ## Sessions

While a forwarded connection is open it counts among the worker's sessions. If the session was
announced beforehand, the connection takes over the oldest reservation; it counts itself first, so
that the worker never looks idle in between.
-/

def openSession (e : Entry) (now : Time) : Entry :=
  let (e, reserved) := (e.acquire .sock).shiftReservation
  if reserved then e.release now .pending else e

def closeSession (e : Entry) (now : Time) : Entry := e.release now .sock

/-! ## Timers -/

inductive Timer where
  | reservation (id : UInt64)
  | idle
  deriving DecidableEq, Repr

def timers (e : Entry) : List (Time × Timer) :=
  e.reservations.map (fun r => (r.due, .reservation r.id)) ++ e.idleDue.toList.map (·, .idle)

def fire (e : Entry) (now : Time) : Timer → Entry
  | .reservation id => e.expireReservation now id
  | .idle => e.expireIdle now

/-- How much there is left to fire: a reservation that lapses may arm the idle timer, which arms
nothing. -/
def armed (e : Entry) : Nat := 2 * e.reservations.length + e.idleDue.toList.length

theorem armIdle_reservations (e : Entry) (now : Time) :
    (e.armIdle now).reservations = e.reservations := by
  unfold armIdle; split
  · rfl
  · split <;> rfl

theorem release_reservations (e : Entry) (now : Time) (kind : ConnKind) :
    (e.release now kind).reservations = e.reservations := by
  unfold release; split
  · rfl
  · rw [armIdle_reservations]

theorem dropReservation_length_lt (e : Entry) {r : Reservation} (h : r ∈ e.reservations) :
    (e.dropReservation r.id).reservations.length < e.reservations.length := by
  unfold dropReservation
  split
  · next hr => simp [hr] at h
  · next oldest rest hr =>
    split
    · simp [hr]
    · refine List.length_filter_lt_length_iff_exists.2 ⟨r, h, ?_⟩
      simp

theorem idleDue_toList_length_le (o : Option Time) : o.toList.length ≤ 1 := by
  cases o <;> simp

theorem armed_fire_lt (e : Entry) (now : Time) {t : Time × Timer} (h : t ∈ e.timers) :
    (e.fire now t.2).armed < e.armed := by
  simp only [timers, List.mem_append, List.mem_map] at h
  rcases h with ⟨r, hr, rfl⟩ | ⟨due, hd, rfl⟩
  · have hlt := dropReservation_length_lt e hr
    have hle := idleDue_toList_length_le (e.fire now (.reservation r.id)).idleDue
    simp only [armed, fire, expireReservation, release_reservations] at *
    omega
  · have hsome : e.idleDue.isSome := by
      cases hi : e.idleDue <;> simp [hi] at hd ⊢
    cases hi : e.idleDue <;> simp [armed, fire, expireIdle, hi] at *

def advance (e : Entry) (limit : Time) : Entry :=
  match _h : earliest? e.timers with
  | none => e
  | some t => if t.1 ≤ limit then (e.fire t.1 t.2).advance limit else e
termination_by e.armed
decreasing_by exact armed_fire_lt e t.1 (earliest?_mem _h)

end Entry

end AppHost
