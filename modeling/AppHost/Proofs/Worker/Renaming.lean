import AppHost.Proofs.Worker.Effects

/-!
# Renaming a worker

Nothing that happens to a worker depends on what is random about it: the id of its entry, its
endpoint's secret, and the number that its launcher gave the process. A renaming gives these other
names, and a renamed worker goes on under renamed events just as the worker does (`rename_step`).
-/

namespace AppHost

/-- New names for ids and secrets, and for the numbers of processes. -/
structure Renaming where
  id : String → String
  secret : String → String
  process : Nat → Nat

def Endpoint.rename (ρ : Renaming) (e : Endpoint) : Endpoint :=
  { e with secret := ρ.secret e.secret }

def ReadyWorker.rename (ρ : Renaming) (w : ReadyWorker) : ReadyWorker :=
  { w with endpoint := w.endpoint.rename ρ, process := ρ.process w.process }

def Entry.rename (ρ : Renaming) (e : Entry) : Entry :=
  { e with id := ρ.id e.id, outcome := e.outcome.map fun o => o.map (ReadyWorker.rename ρ) }

def Probe.rename (ρ : Renaming) (p : Probe) : Probe := { p with endpoint := p.endpoint.rename ρ }

def Stage.rename (ρ : Renaming) : Stage → Stage
  | .launching via endpoint log => .launching via (endpoint.rename ρ) log
  | .connecting probe => .connecting (probe.rename ρ)
  | .pausing probe resume => .pausing (probe.rename ρ) resume
  | stage => stage

def Launched.rename (ρ : Renaming) (l : Launched) : Launched :=
  { l with endpoint := l.endpoint.rename ρ, process := ρ.process l.process }

namespace Worker

def rename (ρ : Renaming) (w : Worker) : Worker :=
  { w with
    entry := w.entry.rename ρ
    stage := w.stage.rename ρ
    launched := w.launched.map (Launched.rename ρ) }

def Act.rename (ρ : Renaming) : Act → Act
  | .launch endpoint log => .launch (endpoint.rename ρ) log
  | .connect via endpoint => .connect via (endpoint.rename ρ)
  | .kill process force => .kill (ρ.process process) force
  | act => act

def Event.rename (ρ : Renaming) : Event → Event
  | .allocated result stamp => .allocated (result.map (Endpoint.rename ρ)) stamp
  | .launched result => .launched (result.map ρ.process)
  | event => event

end Worker

-- ---------------------------------------------------------------------------
-- Entries
-- ---------------------------------------------------------------------------

namespace Entry

variable (ρ : Renaming) (e : Entry) (now : Time)

@[simp] theorem rename_count : (e.rename ρ).count = e.count := rfl
@[simp] theorem rename_idleTimeout : (e.rename ρ).idleTimeout = e.idleTimeout := rfl
@[simp] theorem rename_reservations : (e.rename ρ).reservations = e.reservations := rfl
@[simp] theorem rename_ignoresRelease (kind : ConnKind) :
    (e.rename ρ).ignoresRelease kind = e.ignoresRelease kind :=
  rfl

theorem rename_armIdle : (e.rename ρ).armIdle now = (e.armIdle now).rename ρ := by
  by_cases hc : e.count = 0
  · cases ht : e.idleTimeout with
    | none => simp [armIdle, hc, ht]
    | some timeout =>
      simp only [armIdle, rename_count, rename_idleTimeout, hc, ht]
      rfl
  · simp [armIdle, hc]

theorem rename_release (kind : ConnKind) :
    (e.rename ρ).release now kind = (e.release now kind).rename ρ := by
  cases h : e.ignoresRelease kind
  · rw [release, release, rename_ignoresRelease, h]
    exact rename_armIdle ρ { e with connections := e.connections.remove kind } now
  · simp [release, h]

theorem rename_shiftReservation :
    (e.rename ρ).shiftReservation.1 = e.shiftReservation.1.rename ρ := by
  cases h : e.reservations <;> simp [shiftReservation, rename, h]

theorem rename_dropReservation (id : UInt64) :
    (e.rename ρ).dropReservation id = (e.dropReservation id).rename ρ := by
  cases h : e.reservations with
  | nil => simp [dropReservation, h]
  | cons oldest rest => by_cases hid : oldest.id = id <;> simp [dropReservation, rename, h, hid]

theorem rename_fire (timer : Timer) :
    (e.rename ρ).fire now timer = (e.fire now timer).rename ρ := by
  cases timer with
  | reservation id =>
    rw [fire, fire, expireReservation, expireReservation, rename_dropReservation, rename_release]
  | idle => cases h : e.idleDue <;> simp [fire, expireIdle, rename, h]

theorem rename_resolve (outcome : Outcome) :
    ((e.rename ρ).resolve (outcome.map (ReadyWorker.rename ρ))).1 =
      (e.resolve outcome).1.rename ρ := by
  cases h : e.outcome <;> simp [resolve, rename, h]

theorem rename_resolve_error (failure : Failure) :
    ((e.rename ρ).resolve (.error failure)).1 = (e.resolve (.error failure)).1.rename ρ :=
  e.rename_resolve ρ (.error failure)

end Entry

-- ---------------------------------------------------------------------------
-- Workers
-- ---------------------------------------------------------------------------

namespace Worker

variable (ρ : Renaming) (w : Worker) (now : Time)

def renamed (r : Worker × List Act) : Worker × List Act := (r.1.rename ρ, r.2.map (Act.rename ρ))

theorem rename_kill (force : Bool) :
    (w.rename ρ).kill now force = renamed ρ (w.kill now force) := by
  unfold kill
  cases hl : w.launched with
  | none => simp [rename, renamed, hl]
  | some l =>
    cases hx : l.exit.hasExited <;> simp [rename, renamed, hl, hx, Launched.rename, Act.rename]

theorem rename_failed (failure : Failure) : ((w.rename ρ).entry.close.resolve (.error failure)).1 =
    (w.entry.close.resolve (.error failure)).1.rename ρ :=
  w.entry.close.rename_resolve_error ρ failure

theorem rename_cleanUp (log : Option Path) :
    (w.rename ρ).cleanUp log = renamed ρ (w.cleanUp log) := by
  simp only [cleanUp, rename_failed]
  rfl

theorem rename_abandon (failure : Failure) :
    (w.rename ρ).abandon failure = renamed ρ (w.abandon failure) := by
  simp only [abandon, rename_failed]
  rfl

theorem rename_timeOut : (w.rename ρ).timeOut now = renamed ρ (w.timeOut now) := by
  have hlog : (w.rename ρ).launched.bind (·.log) = w.launched.bind (·.log) := by
    cases h : w.launched <;> simp [rename, h, Launched.rename]
  have hkill := rename_kill ρ { w with
    entry := (w.entry.close.resolve (.error (.startupTimeout (w.launched.bind (·.log))))).1
    stage := .finished } now true
  simp only [timeOut, hlog, rename_failed]
  exact congrArg (fun r : Worker × List Act => (r.1, .leave false :: r.2)) hkill

theorem rename_becomeReady (l : Launched) :
    (w.rename ρ).becomeReady now (l.rename ρ) = (w.becomeReady now l).rename ρ := by
  simp only [becomeReady, rename]
  rw [← Entry.rename_armIdle, ← Entry.rename_resolve]
  rfl

theorem rename_stopIfIdle : (w.rename ρ).stopIfIdle now = renamed ρ (w.stopIfIdle now) := by
  have hused : ((w.rename ρ).entry.count ≠ 0 ∨ (w.rename ρ).entry.idleArmed) ↔
      (w.entry.count ≠ 0 ∨ w.entry.idleArmed) := Iff.rfl
  by_cases h : w.entry.count ≠ 0 ∨ w.entry.idleArmed
  · rw [stopIfIdle, stopIfIdle, if_pos h, if_pos (hused.mpr h)]
    rfl
  · rw [stopIfIdle, stopIfIdle, if_neg h, if_neg (mt hused.mp h)]
    exact rename_kill ρ { w with dropLog := true, stage := .finished } now false

theorem endLinger_eq (since : Time) :
    w.endLinger now since =
    match w.entry.expiries.getLast? with
    | some latest =>
      if since < latest then ({ w.unread with stage := .lingering latest }, [])
      else w.unread.stopIfIdle now
    | none => w.unread.stopIfIdle now := rfl

theorem rename_endLinger (since : Time) :
    (w.rename ρ).endLinger now since = renamed ρ (w.endLinger now since) := by
  have hexpiries : (w.rename ρ).entry.expiries = w.entry.expiries := rfl
  have hstop : (w.rename ρ).unread.stopIfIdle now = renamed ρ (w.unread.stopIfIdle now) :=
    rename_stopIfIdle ρ w.unread now
  rw [endLinger_eq, endLinger_eq, hexpiries, hstop]
  split
  · split <;> rfl
  · rfl

theorem rename_logToRemove (log : Option Path) :
    (w.rename ρ).logToRemove log = (w.logToRemove log).map (Act.rename ρ) := by
  cases log with
  | none => rfl
  | some path =>
    cases hd : w.dropLog && !w.app.settings.appDefaults.preserveLogs <;>
      simp [logToRemove, rename, hd, Act.rename]

theorem rename_step (e : Event) :
    (w.rename ρ).step now (e.rename ρ) = renamed ρ (w.step now e) := by
  have hstage : (w.rename ρ).stage = w.stage.rename ρ := rfl
  have hlaunched : (w.rename ρ).launched = w.launched.map (Launched.rename ρ) := rfl
  cases e with
  | begin via =>
    cases hs : w.stage <;> cases via <;>
      simp only [step, Event.rename, hstage, hs, Stage.rename, rename_abandon] <;> rfl
  | allocated result stamp =>
    cases hs : w.stage <;> cases result <;>
      simp only [step, Event.rename, hstage, hs, Stage.rename, Except.map, rename_abandon] <;> rfl
  | launched result =>
    cases hs : w.stage <;> cases result <;>
      simp only [step, Event.rename, hstage, hs, Stage.rename, Except.map] <;> try rfl
    next via endpoint log failure =>
      have hresolve : ((w.rename ρ).entry.resolve (.error failure)).1 =
          (w.entry.resolve (.error failure)).1.rename ρ := w.entry.rename_resolve_error ρ failure
      rw [hresolve]
      exact rename_cleanUp ρ
        { w with entry := (w.entry.resolve (.error failure)).1, stage := .finished } log
  | answered listening =>
    cases hs : w.stage <;> cases hl : w.launched <;>
      simp only [step, Event.rename, hstage, hlaunched, hs, hl, Stage.rename, Option.map] <;>
        try rfl
    cases listening
    · rfl
    · exact congrArg (·, []) (rename_becomeReady ρ w now _)
  | resumed =>
    cases hs : w.stage <;> simp only [step, Event.rename, hstage, hs, Stage.rename] <;> rfl
  | overdue =>
    cases hs : w.stage <;>
      simp only [step, Event.rename, hstage, hs, Stage.rename, rename_timeOut] <;> rfl
  | exited status =>
    cases hl : w.launched <;> simp only [step, Event.rename, hlaunched, hl] <;>
      simp [renamed, rename, hl, Launched.rename]
  | abandoned =>
    cases hl : w.launched <;> simp only [step, Event.rename, hlaunched, hl] <;>
      simp [renamed, rename, hl, Launched.rename]
  | exitNoticed =>
    cases hl : w.launched with
    | none =>
      cases hs : w.stage <;>
        simp only [step, Event.rename, hstage, hlaunched, hs, hl, Stage.rename] <;> rfl
    | some l =>
      cases hx : l.exit.awaited.isSome <;> cases hs : w.stage <;>
        simp [step, Event.rename, hstage, hlaunched, hs, hl, hx, Stage.rename, Launched.rename,
          renamed] <;> rfl
  | exitHandled =>
    cases hl : w.launched with
    | none => simp only [step, Event.rename, hlaunched, hl]; rfl
    | some l =>
      have hcleanUp := rename_cleanUp ρ { w with launched := some { l with reaped := true } } l.log
      cases hx : l.exit.awaited.isSome && !l.reaped
      · simp [step, Event.rename, hlaunched, hl, hx, Launched.rename, renamed]
      · simp only [step, Event.rename, hlaunched, hl, Option.map_some, Launched.rename, hx, if_true,
          renamed, List.map_append, ← rename_logToRemove]
        exact congrArg
          (fun r : Worker × List Act => (r.1, r.2 ++ (w.rename ρ).logToRemove l.log)) hcleanUp
  | timer timer =>
    exact congrArg (fun e => ({ w.rename ρ with entry := e }, [])) (w.entry.rename_fire ρ now timer)
  | idleNoticed =>
    have hexpiries : (w.rename ρ).entry.expiries = w.entry.expiries := rfl
    cases hs : w.stage <;> cases hx : w.entry.expiries <;>
      simp only [step, Event.rename, hstage, hexpiries, hs, hx, Stage.rename] <;> rfl
  | lingered =>
    cases hs : w.stage <;>
      simp only [step, Event.rename, hstage, hs, Stage.rename, rename_endLinger] <;> rfl
  | acquire kind => rfl
  | release kind =>
    exact congrArg (fun e => ({ w.rename ρ with entry := e }, []))
      (w.entry.rename_release ρ now kind)
  | pushReservation timeout => rfl
  | shiftReservation =>
    exact congrArg (fun e => ({ w.rename ρ with entry := e }, []))
      (w.entry.rename_shiftReservation ρ)
  | kill force => exact rename_kill ρ w now force

-- ---------------------------------------------------------------------------
-- What comes next
-- ---------------------------------------------------------------------------

theorem rename_due : (w.rename ρ).due = w.due := by
  have hstage : (w.rename ρ).stage = w.stage.rename ρ := rfl
  have htimers : (w.rename ρ).entry.timers = w.entry.timers := rfl
  cases hs : w.stage <;> simp only [due, hstage, htimers, hs, Stage.rename] <;> rfl

theorem rename_awaited : ((w.rename ρ).launched.any fun l => l.exit.awaited.isSome) =
    w.launched.any fun l => l.exit.awaited.isSome := by
  cases h : w.launched <;> simp [rename, h, Launched.rename]

theorem rename_pending? (transport : Option TransportRef) :
    (w.rename ρ).pending? transport = w.pending? transport := by
  have hstage : (w.rename ρ).stage = w.stage.rename ρ := rfl
  have hexpiries : (w.rename ρ).entry.expiries = w.entry.expiries := rfl
  cases hs : w.stage <;> simp only [pending?, hstage, hexpiries, hs, Stage.rename, rename_awaited]

theorem rename_exitPending : (w.rename ρ).exitPending = w.exitPending := by
  cases h : w.launched <;> simp [exitPending, rename, h, Launched.rename]

end Worker

end AppHost
