import AppHost.Proofs.Worker.Leaving
import AppHost.Proofs.Worker.Watch

/-!
# Settling a spawn

A spawn is settled by the first of its tasks that has an outcome to report, and stays settled so.
For as long as there is none, either a task still has to hear from an allocation or a launch, or the
worker is being tried and its deadline is ahead, or its process is gone and the exit task is about
to report it (`Trying`). So the outcome is there by the deadline that the launch has set.
-/

namespace AppHost

def Stage.probe? : Stage → Option Probe
  | .connecting probe | .pausing probe _ => some probe
  | _ => none

namespace Worker

namespace Moment

/-- The spawn has its outcome from this event on. -/
def settles (m : Moment) : Bool := m.before.entry.outcome.isNone && m.after.entry.outcome.isSome

/-- What the spawn waits for before it can try the worker comes back for the last time: its launch,
or an allocation that failed. -/
def returns (m : Moment) : Bool :=
  match m.before.stage, m.event with
  | .allocating _, .allocated (.error _) _ | .launching .., .launched _ => true
  | _, _ => false

/-- The launch returns a process: this is what the worker will be if it answers. -/
def Launches (m : Moment) (r : ReadyWorker) : Prop :=
  ∃ via, m.before.stage = .launching via r.endpoint r.logFile ∧ m.event = .launched (.ok r.process)

end Moment

variable {app : AppSpec} {history : List Moment} {w w' : Worker} {now deadline : Time} {e : Event}
  {acts : List Act} {m : Moment}

-- ---------------------------------------------------------------------------
-- The outcome
-- ---------------------------------------------------------------------------

theorem Effect.outcome (h : Effect w now e w' acts) (ho : w.entry.outcome = some o) :
    w'.entry.outcome = some o := by
  cases h with
  | refused | unallocated | unlaunched | handled =>
    simp [Worker.abandon, cleanUp, Entry.resolve_outcome, ho]
  | timedOut => simp [timeOut, kill_eq, Entry.resolve_outcome, ho]
  | readied => simp [becomeReady, Entry.resolve_outcome, ho]
  | stopped | killed => simpa [kill_eq, unread] using ho
  | _ => simpa [unread] using ho

theorem Effect.id (h : Effect w now e w' acts) : w'.entry.id = w.entry.id := by
  cases h with
  | timedOut | stopped | killed => simp [timeOut, kill_eq, unread]
  | _ => simp [Worker.abandon, cleanUp, becomeReady, unread]

/-- A process comes from the launch that the task waits for, or was there before. -/
theorem Effect.origin (h : Effect w now e w' acts) (hl : w'.launched = some l) :
    (∃ via, w.stage = .launching via l.endpoint l.log ∧ e = .launched (.ok l.process)) ∨
      ∃ k, w.launched = some k ∧ k.endpoint = l.endpoint ∧ k.log = l.log ∧
      k.process = l.process := by
  cases h with
  | launched hs =>
    obtain rfl := Option.some.inj hl
    exact .inl ⟨_, hs, rfl⟩
  | timedOut | stopped | killed =>
    simp only [timeOut, kill_eq, Option.map_eq_some_iff] at hl
    obtain ⟨k, hk, rfl⟩ := hl
    have hf := k.follows_killed now
    exact .inr ⟨k, hk, (hf _).endpoint.symm, (hf _).log.symm, (hf _).process.symm⟩
  | exited | abandoned =>
    obtain ⟨k, hk, rfl⟩ := Option.map_eq_some_iff.mp hl
    exact .inr ⟨k, hk, rfl, rfl, rfl⟩
  | handled hk =>
    obtain rfl := Option.some.inj hl
    exact .inr ⟨_, hk, rfl, rfl, rfl⟩
  | _ => exact .inr ⟨l, hl, rfl, rfl, rfl⟩

-- ---------------------------------------------------------------------------
-- Before the outcome
-- ---------------------------------------------------------------------------

theorem exitPending_iff :
    w.exitPending = true ↔
      ∃ l, w.launched = some l ∧ l.exit.awaited.isSome = true ∧ l.reaped = false := by
  cases hl : w.launched <;> simp [exitPending, hl]

/-- The worker is tried until this deadline, or the exit task will report that its process is
gone. -/
def Trying (w : Worker) (deadline : Time) : Prop :=
  (∃ probe, w.stage.probe? = some probe ∧ probe.deadline = deadline) ∨ w.exitPending = true

theorem Effect.exitPending (h : Effect w now e w' acts) (hw : w.Sound) (hp : w.exitPending = true)
    (hnone : w'.entry.outcome = none) : w'.exitPending = true := by
  obtain ⟨l, hl, hx, hr⟩ := exitPending_iff.mp hp
  have follows : ∀ {k}, w'.launched = some k → l.Follows k → w'.exitPending = true :=
    fun hk hf => exitPending_iff.mpr ⟨_, hk, hf.awaited hx, hf.reaped.trans hr⟩
  cases h with
  | launched hs => simp [(hw.early (by rw [hs]; rfl)).1] at hl
  | handled => simp [cleanUp] at hnone
  | timedOut => exact follows (by simp [timeOut, kill_eq, hl]) (l.follows_killed now true)
  | stopped => exact follows (by simp [kill_eq, unread, hl]) (l.follows_killed now false)
  | @killed force => exact follows (by simp [kill_eq, hl]) (l.follows_killed now force)
  | exited => exact follows (by simp [hl]; rfl) (l.follows_resolve _)
  | abandoned => exact follows (by simp [hl]) l.follows_abandon
  | _ => exact exitPending_iff.mpr ⟨l, hl, hx, hr⟩

theorem Reachable.unreaped (h : w.Reachable) (hnone : w.entry.outcome = none)
    (hl : w.launched = some l) : l.reaped = false := by
  refine Bool.eq_false_iff.mpr fun hr => ?_
  have hopen := h.sound.unresolved hnone
  rw [h.cleared.reaped l hl hr] at hopen
  cases hopen

theorem Effect.trying (h : Effect w now e w' acts) (hw : w.Reachable) (ht : w.Trying deadline)
    (hnone : w'.entry.outcome = none) : w'.Trying deadline := by
  rcases ht with ⟨probe, hprobe, hd⟩ | hp
  · cases h with
    | readied => simp [becomeReady] at hnone
    | timedOut => simp [timeOut, kill_eq] at hnone
    | refused | unallocated | unlaunched | handled => simp [Worker.abandon, cleanUp] at hnone
    | noticed _ hg =>
      obtain ⟨l, hl, hx⟩ := gone_iff.mp hg
      exact .inr (exitPending_iff.mpr ⟨l, hl, hx, hw.unreaped hnone hl⟩)
    | unanswered hs | resumed hs =>
      obtain rfl : _ = probe := by simpa [hs, Stage.probe?] using hprobe
      exact .inl ⟨_, rfl, hd⟩
    | begun hs | allocated hs | launched hs | heard hs | lingersOn hs | spared hs | stopped hs =>
      simp [hs, Stage.probe?] at hprobe
    | killed => exact .inl ⟨probe, by simpa [kill_eq] using hprobe, hd⟩
    | _ => exact .inl ⟨probe, hprobe, hd⟩
  · exact .inr (h.exitPending hw.sound hp hnone)

theorem Moment.returns_iff : (Moment.mk now w e).returns = true ↔
    (∃ via failure stamp, w.stage = .allocating via ∧ e = .allocated (.error failure) stamp) ∨
      ∃ via endpoint log result, w.stage = .launching via endpoint log ∧ e = .launched result := by
  unfold returns
  split
  · next hs he => simp_all
  · next hs he => simp_all
  · next hnone hnone' =>
    refine ⟨by simp, ?_⟩
    rintro (⟨_, _, _, hs, he⟩ | ⟨_, _, _, _, hs, he⟩)
    · exact absurd he (hnone _ _ _ hs)
    · exact absurd he (hnone' _ _ _ _ hs)

theorem trying_of_returns (hm : (Moment.mk now w e).returns = true)
    (hnone : (w.step now e).1.entry.outcome = none) :
    (w.step now e).1.Trying (now + w.app.settings.appDefaults.initTimeoutMs) := by
  rcases Moment.returns_iff.mp hm with ⟨via, failure, stamp, hs, rfl⟩
    | ⟨via, endpoint, log, result, hs, rfl⟩
  · simp [step, hs, Worker.abandon] at hnone
  · cases result with
    | error failure => simp [step, hs, cleanUp] at hnone
    | ok process => exact .inl ⟨⟨via, endpoint, 0, _⟩, by simp [step, hs, Stage.probe?], rfl⟩

/-- When a worker cannot do anything before the clock moves, its deadline is ahead. -/
theorem Trying.ahead (h : w.Trying deadline) (hrest : w.AtRest) (hdue : ∀ d ∈ w.due, now ≤ d.1) :
    now ≤ deadline := by
  rcases h with ⟨probe, hprobe, rfl⟩ | hp
  · have hmem : (probe.deadline, Event.overdue) ∈ w.due := by
      unfold due
      cases hs : w.stage <;> simp_all [Stage.probe?]
    exact hdue _ hmem
  · rw [hrest.1] at hp
    cases hp

-- ---------------------------------------------------------------------------
-- In a life
-- ---------------------------------------------------------------------------

theorem Moment.settles_iff : (Moment.mk now w e).settles = true ↔
    w.entry.outcome = none ∧ ∃ o, (w.step now e).1.entry.outcome = some o := by
  simp [settles, after, Option.isSome_iff_exists]

theorem Life.kept (h : Life app history w now) (hm : m ∈ history)
    (ho : m.after.entry.outcome = some o) : w.entry.outcome = some o := by
  induction h with
  | spawned => cases hm
  | wait _ _ _ _ _ ih => exact ih hm
  | @happen history w now e _ _ ih =>
    rcases List.mem_append.mp hm with hm | hm
    · exact (w.step_effect now e).outcome (ih hm)
    · obtain rfl := List.mem_singleton.mp hm
      exact ho

theorem Life.settles_count (h : Life app history w now) :
    (history.filter Moment.settles).length = if w.entry.outcome.isSome then 1 else 0 := by
  induction h with
  | spawned => rfl
  | wait _ _ _ _ _ ih => exact ih
  | @happen history w now e _ _ ih =>
    rw [List.filter_append, List.length_append, ih]
    cases ho : w.entry.outcome with
    | some o =>
      have hs : (Moment.mk now w e).settles = false := by simp [Moment.settles, ho]
      simp [hs, (w.step_effect now e).outcome ho]
    | none =>
      have hs : (Moment.mk now w e).settles = (w.step now e).1.entry.outcome.isSome := by
        simp [Moment.settles, Moment.after, ho]
      cases hsome : (w.step now e).1.entry.outcome <;> simp [hs, hsome]

/-- Once everything has come back that the spawn waits for, it is settled within the time that the
worker has to answer. -/
theorem Life.in_time (h : Life app history w now) (hm : m ∈ history) (hr : m.returns = true) :
    (∃ x ∈ history, x.settles = true ∧ m.time ≤ x.time ∧
        x.time ≤ m.time + app.settings.appDefaults.initTimeoutMs) ∨
      (w.entry.outcome = none ∧ now ≤ m.time + app.settings.appDefaults.initTimeoutMs ∧
        w.Trying (m.time + app.settings.appDefaults.initTimeoutMs)) := by
  induction h with
  | spawned => cases hm
  | wait later _ _ hrest hdue ih =>
    refine (ih hm).imp_right ?_
    rintro ⟨hnone, -, ht⟩
    exact ⟨hnone, ht.ahead hrest hdue, ht⟩
  | @happen history w now e hlife _ ih =>
    have hlast : Moment.mk now w e ∈ history ++ [⟨now, w, e⟩] := by simp
    -- Either this event settles the spawn, in time, or the worker is still tried.
    suffices hopen : (∃ x ∈ history, x.settles = true ∧ m.time ≤ x.time ∧
          x.time ≤ m.time + app.settings.appDefaults.initTimeoutMs) ∨
        (w.entry.outcome = none ∧ m.time ≤ now ∧
          now ≤ m.time + app.settings.appDefaults.initTimeoutMs ∧
          ((w.step now e).1.entry.outcome = none →
            (w.step now e).1.Trying (m.time + app.settings.appDefaults.initTimeoutMs))) by
      rcases hopen with ⟨x, hx, hin⟩ | ⟨hnone, hle, hin, ht⟩
      · exact .inl ⟨x, List.mem_append_left _ hx, hin⟩
      · cases ho : (w.step now e).1.entry.outcome with
        | none => exact .inr ⟨rfl, hin, ht ho⟩
        | some o => exact .inl ⟨_, hlast, Moment.settles_iff.mpr ⟨hnone, o, ho⟩, hle, hin⟩
    rcases List.mem_append.mp hm with hm | hm
    · refine (ih hm).imp_right ?_
      rintro ⟨hnone, hin, ht⟩
      exact ⟨hnone, hlife.times m hm, hin, (w.step_effect now e).trying hlife.reachable ht⟩
    · obtain rfl := List.mem_singleton.mp hm
      have hearly : w.stage.phase = .early := by
        rcases Moment.returns_iff.mp hr with ⟨_, _, _, hs, -⟩ | ⟨_, _, _, _, hs, -⟩ <;>
          rw [hs] <;> rfl
      refine .inr ⟨(hlife.reachable.sound.early hearly).2.2, Nat.le_refl _,
        Nat.le_add_right _ _, ?_⟩
      rw [← hlife.app_eq]
      exact trying_of_returns hr

theorem Life.origin (h : Life app history w now) (hl : w.launched = some l) :
    ∃ m ∈ history, m.Launches ⟨l.endpoint, l.log, l.process⟩ := by
  induction h generalizing l with
  | spawned => cases hl
  | wait _ _ _ _ _ ih => exact ih hl
  | @happen history w now e _ _ ih =>
    rcases (w.step_effect now e).origin hl with ⟨via, hs, rfl⟩ | ⟨k, hk, he, hlog, hp⟩
    · exact ⟨_, List.mem_append_right _ List.mem_cons_self, via, hs, rfl⟩
    · obtain ⟨m, hm, hlaunch⟩ := ih hk
      rw [he, hlog, hp] at hlaunch
      exact ⟨m, List.mem_append_left _ hm, hlaunch⟩

end Worker

end AppHost
