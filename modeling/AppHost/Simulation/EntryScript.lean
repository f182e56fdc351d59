import AppHost.Worker.Entry

/-!
# Scripts for one entry

A script uses a single worker entry on a clock of its own: it connects and disconnects, lets time
pass and settles the spawn. Whatever is due by the time of a step has happened when it is over.
-/

namespace AppHost.Simulation

inductive EntryStep where
  | acquire (kind : ConnKind) (times : Nat)
  | release (kind : ConnKind) (times : Nat)
  | sleep (ms : Nat)
  | startIdle
  | pushReservation (timeout : Nat)
  | shiftReservation
  | close
  | resolve (outcome : Outcome)
  | await

inductive EntryReply where
  | nothing
  | flag (value : Bool)
  | waiter (number : Nat)

structure EntryScene where
  entry : Entry
  now : Time := 0
  waiters : Nat := 0

namespace EntryScene

def act (s : EntryScene) : EntryStep → EntryScene × EntryReply
  | .acquire kind times => ({ s with entry := times.repeat (·.acquire kind) s.entry }, .nothing)
  | .release kind times =>
    ({ s with entry := times.repeat (·.release s.now kind) s.entry }, .nothing)
  | .sleep ms => ({ s with now := s.now + ms }, .nothing)
  | .startIdle => ({ s with entry := s.entry.armIdle s.now }, .nothing)
  | .pushReservation timeout =>
    ({ s with entry := s.entry.pushReservation s.now timeout }, .nothing)
  | .shiftReservation =>
    let r := s.entry.shiftReservation
    ({ s with entry := r.1 }, .flag r.2)
  | .close => ({ s with entry := s.entry.close }, .nothing)
  | .resolve outcome =>
    let r := s.entry.resolve outcome
    ({ s with entry := r.1 }, .flag r.2)
  | .await => ({ s with waiters := s.waiters + 1 }, .waiter s.waiters)

/-- Performs a step; the last part is the expiries of the idle timer since the step before. -/
def perform (s : EntryScene) (step : EntryStep) : EntryScene × EntryReply × List Time :=
  let r := s.act step
  let t := (r.1.entry.advance r.1.now).takeExpiries
  ({ r.1 with entry := t.1 }, r.2, t.2)

end EntryScene

end AppHost.Simulation
