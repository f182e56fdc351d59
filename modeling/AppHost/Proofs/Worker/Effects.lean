import AppHost.Proofs.Worker.EntryLaws
import AppHost.Worker.Step

/-!
# What an event does to a worker

`Effect` lists everything `Worker.step` can do, with the stage each thing is done in, and
`step_effect` says that the list is complete. What holds of every step is proved by cases on it.
The one law that ties a worker to its pool is `step_leaves`: an event closes the entry exactly
when it asks the pool to strike the worker off its table.
-/

namespace AppHost

def Launched.killed (l : Launched) (now : Time) (force : Bool) : Launched :=
  if l.exit.hasExited then l else { l with kills := l.kills ++ [(now, force)] }

namespace Launched

@[simp] theorem killed_exit (l : Launched) : (l.killed now force).exit = l.exit := by
  unfold killed
  split <;> rfl

@[simp] theorem killed_reaped (l : Launched) : (l.killed now force).reaped = l.reaped := by
  unfold killed
  split <;> rfl

@[simp] theorem killed_process (l : Launched) : (l.killed now force).process = l.process := by
  unfold killed
  split <;> rfl

end Launched

/-- What the spawn task is about. -/
inductive Phase where
  /-- There is no process yet. -/
  | early
  /-- The worker is tried until it answers. -/
  | probing
  /-- The worker is ready and watched for idleness. -/
  | reaping
  | ended
  deriving DecidableEq

def Stage.phase : Stage → Phase
  | .queued | .allocating _ | .launching .. => .early
  | .connecting _ | .pausing .. => .probing
  | .watching | .lingering _ => .reaping
  | .finished => .ended

namespace Worker

theorem kill_eq (w : Worker) (now : Time) (force : Bool) :
    (w.kill now force).1 = { w with launched := w.launched.map (·.killed now force) } := by
  obtain ⟨app, entry, stage, launched, dropLog⟩ := w
  cases launched with
  | none => rfl
  | some l => cases hx : l.exit.hasExited <;> simp [kill, Launched.killed, hx]

/-- A kill request asks nothing but to be passed on, and that only while the process is not known
to be gone. -/
theorem mem_kill_acts {w : Worker} :
    act ∈ (w.kill now force).2 ↔
      ∃ l, w.launched = some l ∧ l.exit.hasExited = false ∧ act = .kill l.process force := by
  unfold kill
  cases hl : w.launched with
  | none => simp
  | some l => cases hx : l.exit.hasExited <;> simp [hx]

-- ---------------------------------------------------------------------------
-- Everything a step can do
-- ---------------------------------------------------------------------------

def gone (w : Worker) : Bool := w.launched.any fun l => l.exit.awaited.isSome

/-- The worker after the linger period, all expiries read. -/
def unread (w : Worker) : Worker := { w with entry := { w.entry with expiries := [] } }

/-- Whether the event concerns a worker at some stages only. -/
def Event.staged : Event → Bool
  | .exited _ | .abandoned | .timer _ | .acquire _ | .release _ | .pushReservation _
  | .shiftReservation
  | .kill _ => false
  | _ => true

/-- What an event can do to a worker, and ask for. -/
inductive Effect (w : Worker) (now : Time) : Event → Worker → List Act → Prop
  | ignored (he : e.staged = true) : Effect w now e w []
  | refused (hs : w.stage = .queued) :
    Effect w now (.begin none) (w.abandon .noTransport).1 [.leave true]
  | begun (hs : w.stage = .queued) :
    Effect w now (.begin (some via)) { w with stage := .allocating via } [.alloc via]
  | unallocated {failure : Failure} (hs : w.stage = .allocating via) :
    Effect w now (.allocated (.error failure) stamp) (w.abandon failure).1 [.leave true]
  | allocated (hs : w.stage = .allocating via)
      (hlog : log = w.app.logFile stamp endpoint.address.logSuffix) :
    Effect w now (.allocated (.ok endpoint) stamp) { w with stage := .launching via endpoint log }
      [.launch endpoint log]
  | unlaunched {failure : Failure} (hs : w.stage = .launching via endpoint log) :
    Effect w now (.launched (.error failure))
      ({ w with entry := (w.entry.resolve (.error failure)).1, stage := .finished }.cleanUp log).1
      [.leave true]
  | launched (hs : w.stage = .launching via endpoint log)
    (hd : deadline = now + w.app.settings.appDefaults.initTimeoutMs) :
    Effect w now (.launched (.ok process))
      { w with
        launched := some { endpoint, log, process }
        stage := .connecting ⟨via, endpoint, 0, deadline⟩ }
      [.connect via endpoint]
  | readied (hs : w.stage = .connecting probe) (hl : w.launched = some l) :
    Effect w now (.answered true) (w.becomeReady now l) []
  | unanswered (hs : w.stage = .connecting probe) (hl : w.launched = some l)
    (hp : pause = connectPause w.app.settings.appDefaults.healthCheckIntervalMs probe.attempt) :
    Effect w now (.answered false) { w with stage := .pausing probe (now + pause) } []
  | resumed (hs : w.stage = .pausing probe resume) :
    Effect w now .resumed
      { w with stage := .connecting { probe with attempt := probe.attempt + 1 } }
      [.connect probe.via probe.endpoint]
  | timedOut (hs : w.stage.phase = .probing) :
    Effect w now .overdue (w.timeOut now).1 (w.timeOut now).2
  | exited :
    Effect w now (.exited status)
      { w with launched := w.launched.map fun l => { l with exit := (l.exit.resolve status).1 } } []
  | abandoned :
    Effect w now .abandoned
      { w with launched := w.launched.map fun l => { l with exit := l.exit.abandon } } []
  | noticed (hs : w.stage.phase = .probing ∨ w.stage.phase = .reaping) (hg : w.gone = true) :
    Effect w now .exitNoticed { w with stage := .finished } []
  | handled (hl : w.launched = some l) (hx : l.exit.awaited.isSome) (hr : l.reaped = false) :
    Effect w now .exitHandled
      ({ w with launched := some { l with reaped := true } }.cleanUp l.log).1
      (.leave true :: w.logToRemove l.log)
  | fired : Effect w now (.timer timer) { w with entry := w.entry.fire now timer } []
  | heard (hs : w.stage = .watching) (hx : w.entry.expiries = since :: rest) :
    Effect w now .idleNoticed
      { w with entry := { w.entry with expiries := rest }, stage := .lingering since } []
  | lingersOn (hs : w.stage = .lingering since) (hx : w.entry.expiries.getLast? = some latest)
    (hlt : since < latest) :
    Effect w now .lingered { w.unread with stage := .lingering latest } []
  | spared (hs : w.stage = .lingering since)
    (hx : ∀ latest, w.entry.expiries.getLast? = some latest → latest ≤ since)
    (hu : w.entry.count ≠ 0 ∨ w.entry.idleArmed) :
    Effect w now .lingered { w.unread with stage := .watching } []
  | stopped (hs : w.stage = .lingering since)
    (hx : ∀ latest, w.entry.expiries.getLast? = some latest → latest ≤ since)
    (hc : w.entry.count = 0) (ha : w.entry.idleArmed = false) :
    Effect w now .lingered ({ w.unread with dropLog := true, stage := .finished }.kill now false).1
      ({ w.unread with dropLog := true, stage := .finished }.kill now false).2
  | acquired : Effect w now (.acquire kind) { w with entry := w.entry.acquire kind } []
  | released : Effect w now (.release kind) { w with entry := w.entry.release now kind } []
  | pushed :
      Effect w now (.pushReservation timeout)
        { w with entry := w.entry.pushReservation now timeout } []
  | shifted : Effect w now .shiftReservation { w with entry := w.entry.shiftReservation.1 } []
  | killed : Effect w now (.kill force) (w.kill now force).1 (w.kill now force).2

theorem stopIfIdle_effect (w : Worker) (hs : w.stage = .lingering since)
    (hx : ∀ latest, w.entry.expiries.getLast? = some latest → latest ≤ since) :
    Effect w now .lingered (w.unread.stopIfIdle now).1 (w.unread.stopIfIdle now).2 := by
  unfold stopIfIdle
  split
  · next hu => exact .spared hs hx hu
  · next hu =>
    simp only [ne_eq, not_or, Decidable.not_not, Bool.not_eq_true] at hu
    exact .stopped hs hx hu.1 hu.2

theorem endLinger_effect (w : Worker) (hs : w.stage = .lingering since) :
    Effect w now .lingered (w.endLinger now since).1 (w.endLinger now since).2 := by
  unfold endLinger
  simp only [Entry.takeExpiries]
  split
  · next latest hx =>
    split
    · next hlt => exact .lingersOn hs hx hlt
    · next hge =>
      exact stopIfIdle_effect w hs fun u hu => by simp_all
  · next hx => exact stopIfIdle_effect w hs fun u hu => by simp_all

/-- The list of effects is complete. -/
theorem step_effect (w : Worker) (now : Time) (e : Event) :
    Effect w now e (w.step now e).1 (w.step now e).2 := by
  cases e with
  | begin via =>
    simp only [step]
    split
    · next hs => exact .refused hs
    · next hs => exact .begun hs
    · exact .ignored rfl
  | allocated result stamp =>
    simp only [step]
    split
    · next hs => exact .unallocated hs
    · next hs => exact .allocated hs rfl
    · exact .ignored rfl
  | launched result =>
    simp only [step]
    split
    · next hs => exact .unlaunched hs
    · next hs => exact .launched hs rfl
    · exact .ignored rfl
  | answered listening =>
    simp only [step]
    split
    · next hs hl =>
      cases listening
      · exact .unanswered hs hl rfl
      · exact .readied hs hl
    · exact .ignored rfl
  | resumed =>
    simp only [step]
    split
    · next hs => exact .resumed hs
    · exact .ignored rfl
  | overdue =>
    simp only [step]
    split
    · next hs => exact .timedOut (by rw [hs]; rfl)
    · next hs => exact .timedOut (by rw [hs]; rfl)
    · exact .ignored rfl
  | exited status => exact .exited
  | abandoned => exact .abandoned
  | exitNoticed =>
    simp only [step]
    split
    all_goals first
      | exact .ignored rfl
      | next hs hl =>
        split
        · next hx => exact .noticed (by simp [hs, Stage.phase]) (by simp [gone, hl, hx])
        · exact .ignored rfl
  | exitHandled =>
    simp only [step]
    split
    · next l hl =>
      split
      · next hx =>
        simp only [Bool.and_eq_true, Bool.not_eq_true'] at hx
        exact .handled hl hx.1 hx.2
      · exact .ignored rfl
    · exact .ignored rfl
  | timer timer => exact .fired
  | idleNoticed =>
    simp only [step]
    split
    · next hs hx => exact .heard hs hx
    · exact .ignored rfl
  | lingered =>
    simp only [step]
    split
    · next since hs => exact endLinger_effect w hs
    · exact .ignored rfl
  | acquire kind => exact .acquired
  | release kind => exact .released
  | pushReservation timeout => exact .pushed
  | shiftReservation => exact .shifted
  | kill force => exact .killed

/-- Only an acquire adds connections. -/
theorem Effect.tally_le (h : Effect w now e w' acts) (he : ∀ kind, e ≠ .acquire kind) :
    w'.entry.connections.tally ≤ w.entry.connections.tally := by
  cases h with
  | acquired => exact absurd rfl (he _)
  | fired => exact w.entry.tally_fire_le now _
  | released => exact w.entry.tally_release_le now _
  | timedOut => simp [timeOut, kill_eq]
  | stopped => simp [kill_eq, unread]
  | killed => simp [kill_eq]
  | _ => simp [abandon, cleanUp, becomeReady, unread]

end Worker

end AppHost
