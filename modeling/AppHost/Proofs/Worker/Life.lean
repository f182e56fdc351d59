import AppHost.Proofs.Worker.Sound
import Mathlib.Data.List.TakeWhile

/-!
# The life of a worker in time

A history lists everything that happened to a worker, each event with its time and with the worker
as it was. In a `Life` the clock moves on only when the worker's tasks have nothing left to do, and
never past the time at which something is due; all else, requests and answers and exits, may come at
any moment and in any order.
-/

namespace AppHost

namespace Worker

def Act.graceful : Act → Bool
  | .kill _ false => true
  | _ => false

/-- One event of a history. -/
structure Moment where
  time : Time
  before : Worker
  event : Event

namespace Moment

def after (m : Moment) : Worker := (m.before.step m.time m.event).1

def acts (m : Moment) : List Act := (m.before.step m.time m.event).2

/-- The worker has answered; it is watched for idleness from now on. -/
def readies (m : Moment) : Bool := m.before.stage.phase = .probing ∧ m.after.stage.phase = .reaping

def acquires (m : Moment) : Bool :=
  match m.event with
  | .acquire _ => true
  | _ => false

/-- A connection is given up, by a request or as a reservation that lapsed, and that counts. -/
def releases (m : Moment) : Bool :=
  match m.event with
  | .release kind => !m.before.entry.ignoresRelease kind
  | .timer (.reservation _) => !m.before.entry.ignoresRelease .pending
  | _ => false

def arms (m : Moment) : Bool := (m.readies || m.releases) && m.after.entry.count = 0

/-- The process exits, or its watcher is lost. -/
def ends (m : Moment) : Bool :=
  match m.event with
  | .exited _ | .abandoned => m.before.launched.isSome
  | _ => false

/-- The task that watches for idleness sends its one kill request. -/
def reaps (m : Moment) : Bool :=
  match m.event with
  | .lingered => m.acts.any Act.graceful
  | _ => false

end Moment

/-- The idle timer was last armed at `s`, and nothing has been acquired since. -/
def IdleSince (history : List Moment) (s : Time) : Prop :=
  ∃ pre m post, history = pre ++ m :: post ∧ m.arms = true ∧ m.time = s ∧
    ∀ x ∈ post, x.arms = false ∧ x.acquires = false

/-- None of the worker's tasks can run. -/
def AtRest (w : Worker) : Prop := w.exitPending = false ∧ w.pending? none = none

/-- Whether the event comes about by the clock alone. A release timer is not counted here: one that
is cancelled too late still runs. -/
def Event.timed : Event → Bool
  | .resumed | .overdue | .lingered | .timer .idle => true
  | _ => false

/-- What the clock brings does not come early. -/
def Timely (w : Worker) (now : Time) (e : Event) : Prop :=
  e.timed = true → ∃ due, due ≤ now ∧ (due, e) ∈ w.due

/-- A worker with its history, from its spawn to a point in time. -/
inductive Life (app : AppSpec) : List Moment → Worker → Time → Prop
  | spawned (id : String) (data : List (String × Json)) (now : Time) :
      Life app [] (spawned app id data) now
  | wait (later : Time) (h : Life app history w now) (hle : now ≤ later) (hrest : w.AtRest)
    (hdue : ∀ d ∈ w.due, later ≤ d.1) : Life app history w later
  | happen (e : Event) (h : Life app history w now) (ht : w.Timely now e) :
    Life app (history ++ [⟨now, w, e⟩]) (w.step now e).1 now

variable {app : AppSpec} {history : List Moment} {w : Worker} {now t : Time} {m : Moment}

-- ---------------------------------------------------------------------------
-- Lives and their beginnings
-- ---------------------------------------------------------------------------

theorem Life.reachable (h : Life app history w now) : w.Reachable := by
  induction h with
  | spawned id data => exact ⟨app, id, data, .refl⟩
  | wait _ _ _ _ _ ih => exact ih
  | happen _ _ _ ih => exact ih.step _ _

theorem Life.times (h : Life app history w now) : ∀ m ∈ history, m.time ≤ now := by
  induction h with
  | spawned => simp
  | wait _ _ hle _ _ ih => exact fun m hm => Nat.le_trans (ih m hm) hle
  | happen _ _ _ ih =>
    intro m hm
    rcases List.mem_append.mp hm with hm | hm
    · exact ih m hm
    · obtain rfl := List.mem_singleton.mp hm
      exact Nat.le_refl _

/-- Every moment of a life comes at the end of a life, and comes timely. -/
theorem Life.split (h : Life app (pre ++ m :: post) w now) :
    Life app pre m.before m.time ∧ m.before.Timely m.time m.event := by
  generalize hhist : pre ++ m :: post = history at h
  induction h generalizing post with
  | spawned => simp at hhist
  | wait _ _ _ _ _ ih => exact ih hhist
  | happen _ hlife ht ih =>
    obtain ⟨rfl, rfl, -⟩ | ⟨rest, rfl, hpre⟩ := append_cons_eq_append_singleton.mp hhist
    · exact ⟨hlife, ht⟩
    · exact ih hpre

/-- A life that has come past `t` had a time after `t` when nothing later than `t` had happened. -/
theorem Life.cut (h : Life app history w now) (ht : t < now) :
    ∃ v later, t < later ∧ Life app (history.takeWhile (·.time ≤ t)) v later := by
  induction h with
  | spawned id data => exact ⟨_, _, ht, .spawned id data _⟩
  | @wait history w now later hlife hle hrest hdue ih =>
    by_cases hnow : t < now
    · exact ih hnow
    · have hall : history.takeWhile (·.time ≤ t) = history := by
        refine List.takeWhile_eq_self_iff.mpr fun m hm => ?_
        have := hlife.times m hm
        simpa using Nat.le_trans this (Nat.le_of_not_lt hnow)
      rw [hall]
      exact ⟨w, later, ht, hlife.wait later hle hrest hdue⟩
  | @happen history w now e hlife _ ih =>
    obtain ⟨v, later, hlater, hcut⟩ := ih ht
    refine ⟨v, later, hlater, ?_⟩
    have hlast : [Moment.mk now w e].takeWhile (·.time ≤ t) = [] := by simp [ht]
    rw [List.takeWhile_append, hlast, List.append_nil]
    split
    · next hall =>
      rwa [List.IsPrefix.eq_of_length (List.takeWhile_prefix _) hall] at hcut
    · exact hcut

-- ---------------------------------------------------------------------------
-- The last arming
-- ---------------------------------------------------------------------------

theorem idleSince_append :
    IdleSince (history ++ [m]) s ↔
      (m.arms = true ∧ m.time = s) ∨
      (m.arms = false ∧ m.acquires = false ∧ IdleSince history s) := by
  simpa only [IdleSince, and_assoc] using exists_last_append
    (p := fun m => m.arms = true ∧ m.time = s)
    (q := fun m : Moment => m.arms = false ∧ m.acquires = false)

theorem IdleSince.before (h : IdleSince (history ++ [m]) s) (ha : m.arms = false) :
    IdleSince history s := by
  rcases idleSince_append.mp h with ⟨harms, -⟩ | ⟨-, -, h⟩
  · simp [ha] at harms
  · exact h

theorem not_idleSince_nil : ¬IdleSince [] s := by
  rintro ⟨pre, m, post, h, -⟩
  simp at h

-- ---------------------------------------------------------------------------
-- What is due
-- ---------------------------------------------------------------------------

theorem mem_due_idle : (t, .timer .idle) ∈ w.due ↔ w.entry.idleDue = some t := by
  unfold due Entry.timers
  split <;> simp [eq_comm]

theorem Timely.idle_due (h : w.Timely now (.timer .idle)) (hdue : w.entry.idleDue = some t) :
    t ≤ now := by
  obtain ⟨x, hx, hmem⟩ := h rfl
  obtain rfl := Option.some.inj ((mem_due_idle.mp hmem).symm.trans hdue)
  exact hx

theorem mem_due_lingered :
    (t, .lingered) ∈ w.due ↔
      ∃ since, w.stage = .lingering since ∧
      t = since + w.app.settings.appDefaults.idleLingerMs := by
  unfold due
  split <;> simp_all [eq_comm]

end Worker

end AppHost
