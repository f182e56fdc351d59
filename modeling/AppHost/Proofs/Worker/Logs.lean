import AppHost.Proofs.Worker.Leaving
import AppHost.Proofs.Worker.Reaping
import AppHost.Proofs.Worker.Settling

/-!
# What becomes of a worker's log

When a linger ends and the worker is still not in use, the watching task condemns the worker's log
and then asks the process to stop, unless it has exited. The exit task reads the mark when it cleans
up. The two tasks are woken together by a process that exits as the linger ends, and nobody knows
which runs first.

`logs_removed`: a log is removed once at most, and just when it was condemned before the cleaning
up. As long as no process exits, nor its watcher is lost, at the very end of a linger, these are the
logs of the workers that were asked to stop (`LogFate.asked`).
-/

namespace AppHost

namespace Worker

def Act.removed? : Act → Option Path
  | .removeLog path => some path
  | _ => none

namespace Moment

/-- The watching task gives the worker up, and its log with it. -/
def condemns (m : Moment) : Bool := !m.before.dropLog && m.after.dropLog

/-- The exit task cleans up after the process. -/
def cleans (m : Moment) : Bool :=
  match m.event with
  | .exitHandled => m.before.exitPending
  | _ => false

def removed (m : Moment) : List Path := m.acts.filterMap Act.removed?

end Moment

def removedLogs (history : List Moment) : List Path := history.flatMap Moment.removed

variable {app : AppSpec} {history pre post : List Moment} {w w' : Worker} {now : Time} {e : Event}
  {acts : List Act} {m : Moment} {path : Path}

-- ---------------------------------------------------------------------------
-- One step
-- ---------------------------------------------------------------------------

@[simp] theorem removed_kill : (w.kill now force).2.filterMap Act.removed? = [] := by
  refine List.filterMap_eq_nil_iff.mpr fun act hact => ?_
  obtain ⟨l, -, -, rfl⟩ := mem_kill_acts.mp hact
  rfl

theorem removed_logToRemove (w : Worker) (log : Option Path) :
    (w.logToRemove log).filterMap Act.removed? =
      if w.dropLog ∧ w.app.settings.appDefaults.preserveLogs = false then log.toList else [] := by
  unfold logToRemove
  cases log with
  | none => simp
  | some path =>
    cases w.dropLog <;> cases w.app.settings.appDefaults.preserveLogs <;> simp [Act.removed?]

theorem Effect.removed (h : Effect w now e w' acts) (he : e ≠ .exitHandled) :
    acts.filterMap Act.removed? = [] := by
  cases h with
  | handled => exact absurd rfl he
  | timedOut | stopped | killed => exact removed_kill
  | _ => simp [Act.removed?]

/-- Logs are removed by the exit task alone. -/
theorem Moment.removed_eq (m : Moment) :
    m.removed =
    if m.cleans = true ∧ m.before.dropLog = true ∧
    m.before.app.settings.appDefaults.preserveLogs = false
      then (m.before.launched.bind (·.log)).toList else [] := by
  obtain ⟨now, w, e⟩ := m
  by_cases he : e = .exitHandled
  · subst he
    cases hl : w.launched with
    | none => simp [Moment.removed, Moment.acts, Moment.cleans, step, exitPending, hl]
    | some l =>
      cases hx : l.exit.awaited.isSome && !l.reaped with
      | false => simp [Moment.removed, Moment.acts, Moment.cleans, step, exitPending, hl, hx]
      | true =>
        have hacts : (Moment.mk now w .exitHandled).acts = .leave true :: w.logToRemove l.log := by
          simp only [Moment.acts, step, hl, hx, cleanUp]
          rfl
        rw [Moment.removed, hacts]
        simp only [Moment.cleans, exitPending, hl, Option.any_some, hx, true_and, Option.bind_some]
        exact removed_logToRemove w l.log
  · have hcleans : (Moment.mk now w e).cleans = false := by cases e <;> simp_all [Moment.cleans]
    simp only [hcleans, Bool.false_eq_true, false_and, if_false]
    exact (w.step_effect now e).removed he

/-- A worker is given up once, and then nobody watches it. -/
theorem Effect.marked (h : Effect w now e w' acts) (hw : w.dropLog = true → w.stage = .finished) :
    (w.dropLog = true → w'.dropLog = true) ∧ (w'.dropLog = true → w'.stage = .finished) := by
  cases h with
  | timedOut | stopped | killed => simp_all [timeOut, kill_eq, Stage.phase]
  | _ => simp_all [abandon, cleanUp, becomeReady, unread, Stage.phase]

theorem Reachable.marked (h : w.Reachable) : w.dropLog = true → w.stage = .finished :=
  h.keeps (fun _ _ _ => nofun) fun _ heff hw => (heff.marked hw).2

/-- The log is condemned when a linger ends with nothing connected and the timer not armed, whether
the process has exited meanwhile or not. -/
theorem Moment.condemns_iff (h : w.Reachable) : (Moment.mk now w e).condemns = true ↔
    e = .lingered ∧ ∃ since l, w.stage = .lingering since ∧
      (∀ latest, w.entry.expiries.getLast? = some latest → latest ≤ since) ∧ w.entry.count = 0 ∧
      w.entry.idleArmed = false ∧ w.launched = some l := by
  have hfresh : ∀ since, w.stage = .lingering since → w.dropLog = false := by
    intro since hs
    refine Bool.eq_false_iff.mpr fun hdrop => ?_
    simp [h.marked hdrop] at hs
  constructor
  · intro hc
    simp only [Moment.condemns, Moment.after, Bool.and_eq_true, Bool.not_eq_true'] at hc
    obtain ⟨hbefore, hafter⟩ := hc
    have heff := w.step_effect now e
    generalize (w.step now e).1 = w', (w.step now e).2 = acts at heff hafter
    cases heff with
    | stopped hs hx hc ha =>
      obtain ⟨l, hl, -⟩ := h.sound.attended (.inr (by rw [hs]; rfl))
      exact ⟨rfl, _, l, hs, hx, hc, ha, hl⟩
    | timedOut | killed => simp_all [timeOut, kill_eq]
    | _ => simp_all [abandon, cleanUp, becomeReady, unread]
  · rintro ⟨rfl, since, l, hs, hx, hc, ha, -⟩
    simp [Moment.condemns, Moment.after, step_lingered_of_idle hs hx hc ha, kill_eq,
      hfresh since hs]

theorem condemns_of_reaps (h : w.Reachable) (hr : (Moment.mk now w e).reaps = true) :
    (Moment.mk now w e).condemns = true := by
  obtain ⟨he, since, l, hs, hx, hc, ha, hl, -⟩ := reaps_iff.mp hr
  exact (Moment.condemns_iff h).mpr ⟨he, since, l, hs, hx, hc, ha, hl⟩

-- ---------------------------------------------------------------------------
-- A life
-- ---------------------------------------------------------------------------

theorem Life.dropLog (h : Life app history w now) :
    w.dropLog = true ↔ history.any Moment.condemns = true := by
  induction h with
  | spawned => simp [Worker.spawned]
  | wait _ _ _ _ _ ih => exact ih
  | @happen history w now e hlife _ ih =>
    have hkept := ((w.step_effect now e).marked hlife.reachable.marked).1
    rw [any_append_singleton, ← ih]
    cases hbefore : w.dropLog with
    | true => simp [hkept hbefore]
    | false => simp [Moment.condemns, Moment.after, hbefore]

theorem Moment.cleans_iff : m.cleans = true ↔
    m.event = .exitHandled ∧
      ∃ l, m.before.launched = some l ∧ l.exit.awaited.isSome = true ∧ l.reaped = false := by
  obtain ⟨now, w, e⟩ := m
  cases e <;> simp [Moment.cleans, exitPending_iff]

def reaped (w : Worker) : Bool := w.launched.any (·.reaped)

theorem Effect.reaped (h : Effect w now e w' acts) (hw : w.Sound) (he : e ≠ .exitHandled) :
    w'.reaped = w.reaped := by
  cases h with
  | handled => exact absurd rfl he
  | launched hs => simp [Worker.reaped, (hw.early (by rw [hs]; rfl)).1]
  | timedOut | stopped | killed | exited | abandoned =>
    cases hl : w.launched <;> simp [Worker.reaped, timeOut, kill_eq, unread, hl]
  | _ => rfl

theorem Moment.after_reaped (hw : m.before.Sound) :
    m.after.reaped = (m.before.reaped || m.cleans) := by
  obtain ⟨now, w, e⟩ := m
  by_cases he : e = .exitHandled
  · subst he
    cases hl : w.launched with
    | none => simp [Moment.after, Moment.cleans, step, Worker.reaped, exitPending, hl]
    | some l =>
      cases hx : l.exit.awaited.isSome && !l.reaped with
      | false => simp [Moment.after, Moment.cleans, step, Worker.reaped, exitPending, hl, hx]
      | true =>
        simp [Moment.after, Moment.cleans, step, Worker.reaped, exitPending, cleanUp, hl, hx]
  · have hcleans : (Moment.mk now w e).cleans = false := by cases e <;> simp_all [Moment.cleans]
    rw [hcleans, Bool.or_false]
    exact (w.step_effect now e).reaped hw he

theorem Life.reaped (h : Life app history w now) : w.reaped = history.any Moment.cleans := by
  induction h with
  | spawned => rfl
  | wait _ _ _ _ _ ih => exact ih
  | @happen history w now e hlife _ ih =>
    have hafter := (Moment.mk now w e).after_reaped hlife.reachable.sound
    simp only [Moment.after] at hafter
    simp [hafter, ih]

theorem Effect.log (h : Effect w now e w' acts) (hw : w.Sound) (hl : w.launched = some l) :
    ∃ k, w'.launched = some k ∧ k.log = l.log := by
  obtain ⟨k, hk, -⟩ := h.process hw hl
  obtain ⟨via, hs, -⟩ | ⟨l', hl', -, hlog, -⟩ := h.origin hk
  · simp [(hw.early (by rw [hs]; rfl)).1] at hl
  · obtain rfl := Option.some.inj (hl.symm.trans hl')
    exact ⟨k, hk, hlog.symm⟩

theorem Life.log (h : Life app history w now) (hm : m ∈ history) (hl : m.before.launched = some l) :
    ∃ k, w.launched = some k ∧ k.log = l.log := by
  induction h with
  | spawned => simp at hm
  | wait _ _ _ _ _ ih => exact ih hm
  | @happen history w now e hlife _ ih =>
    have hkeep : ∀ {l}, w.launched = some l →
        ∃ k, (w.step now e).1.launched = some k ∧ k.log = l.log :=
      fun hl => (w.step_effect now e).log hlife.reachable.sound hl
    rcases List.mem_append.mp hm with hm | hm
    · obtain ⟨k, hk, hlog⟩ := ih hm
      obtain ⟨k', hk', hlog'⟩ := hkeep hk
      exact ⟨k', hk', hlog'.trans hlog⟩
    · obtain rfl := List.mem_singleton.mp hm
      exact hkeep hl

/-- While a task still watches a process that is gone, no time has passed since. -/
theorem Life.gone_now (h : Life app history w now) (hg : w.gone = true) :
    w.stage = .finished ∨ ∃ m ∈ history, m.ends = true ∧ m.time = now := by
  induction h with
  | spawned => simp [Worker.spawned, Worker.gone] at hg
  | wait _ hlife _ hrest _ _ => exact .inl (hrest.finished hlife.reachable.sound hg)
  | @happen history w now e hlife _ ih =>
    have heff := w.step_effect now e
    obtain ⟨l, hl, hx⟩ := gone_iff.mp hg
    obtain hpending | ⟨k, hk, hexit⟩ | hends := heff.exit hl
    · simp [hpending, ExitNotification.awaited] at hx
    · rcases ih (gone_iff.mpr ⟨k, hk, hexit ▸ hx⟩) with hs | ⟨m, hm, hends⟩
      · exact .inl (heff.finished hs)
      · exact .inr ⟨m, List.mem_append_left _ hm, hends⟩
    · exact .inr ⟨_, List.mem_append_right _ List.mem_cons_self, hends, rfl⟩

-- ---------------------------------------------------------------------------
-- The fate of the log
-- ---------------------------------------------------------------------------

/-- The log was condemned before the exit task cleaned up. -/
def Condemned (history : List Moment) : Prop :=
  ∃ pre m post, history = pre ++ m :: post ∧ m.cleans = true ∧ pre.any Moment.condemns = true

/-- No process exits, nor is its watcher lost, at the very end of a linger. -/
def Untied (history : List Moment) : Prop :=
  ∀ a ∈ history, ∀ b ∈ history, a.ends = true → b.event = .lingered → a.time ≠ b.time

theorem Life.ends_of_cleans (h : Life app (pre ++ m :: post) w now) (hm : m.cleans = true) :
    pre.any Moment.ends = true := by
  obtain ⟨-, l, hl, hx, -⟩ := Moment.cleans_iff.mp hm
  exact h.split.1.vital.ends_of_gone (gone_iff.mpr ⟨l, hl, hx⟩)

theorem Life.cleans_of_ends (h : Life app history w now) (hrest : w.AtRest)
    (hends : history.any Moment.ends = true) : history.any Moment.cleans = true := by
  obtain ⟨l, hl, hx⟩ := gone_iff.mp (h.vital.gone hends)
  have hreaped := hrest.1
  rw [← h.reaped]
  simpa [exitPending, Worker.reaped, hl, hx] using hreaped

theorem Life.condemned (h : Life app (pre ++ m :: post) w now) (hm : m.condemns = true) :
    pre.any Moment.readies = true ∧ m.before.entry.count = 0 ∧
      (m.reaps = true ∨ ∃ x ∈ pre, x.ends = true ∧ x.time = m.time) := by
  have hlife := h.split.1
  obtain ⟨he, since, l, hs, hx, hc, ha, hl⟩ := (Moment.condemns_iff hlife.reachable).mp hm
  refine ⟨hlife.vital.readied (by rw [hs]; rfl), hc, ?_⟩
  cases hexit : l.exit.hasExited with
  | false => exact .inl (reaps_iff.mpr ⟨he, since, l, hs, hx, hc, ha, hl, hexit⟩)
  | true =>
    have hgone : m.before.gone = true := by
      refine gone_iff.mpr ⟨l, hl, ?_⟩
      cases hn : l.exit <;>
        simp_all [ExitNotification.hasExited, ExitNotification.status, ExitNotification.awaited]
    exact .inr ((hlife.gone_now hgone).resolve_left (by simp [hs]))

theorem Life.running (h : Life app (pre ++ m :: post) w now) (huntied : Untied (pre ++ m :: post))
    (hm : m.reaps = true) : pre.any Moment.ends = false := by
  have hlife := h.split.1
  obtain ⟨he, since, l, hs, -⟩ := reaps_iff.mp hm
  refine Bool.eq_false_iff.mpr fun hends => ?_
  rcases hlife.gone_now (hlife.vital.gone hends) with hfin | ⟨x, hx, hxends, htime⟩
  · simp [hs] at hfin
  · exact huntied x (List.mem_append_left _ hx) m (by simp) hxends he htime

theorem Life.condemned_iff (h : Life app history w now) (huntied : Untied history) :
    Condemned history ↔ history.any Moment.reaps = true ∧ history.any Moment.cleans = true := by
  constructor
  · rintro ⟨pre, m, post, rfl, hm, hany⟩
    obtain ⟨x, hx, hcond⟩ := List.any_eq_true.mp hany
    refine ⟨List.any_eq_true.mpr ⟨x, List.mem_append_left _ hx, ?_⟩,
      List.any_eq_true.mpr ⟨m, by simp, hm⟩⟩
    obtain ⟨a, b, rfl⟩ := List.append_of_mem hx
    rw [List.append_assoc, List.cons_append] at h huntied
    obtain ⟨-, -, hreaps | ⟨y, hy, hends, htime⟩⟩ := h.condemned hcond
    · exact hreaps
    · have he := ((Moment.condemns_iff h.split.1.reachable).mp hcond).1
      exact absurd htime (huntied y (List.mem_append_left _ hy) x (by simp) hends he)
  · rintro ⟨hreaps, hcleans⟩
    obtain ⟨x, hx, hxr⟩ := List.any_eq_true.mp hreaps
    obtain ⟨m, hm, hmc⟩ := List.any_eq_true.mp hcleans
    obtain ⟨pre, post, rfl⟩ := List.append_of_mem hm
    refine ⟨pre, m, post, rfl, hmc, ?_⟩
    rcases List.mem_append.mp hx with hx | hx
    · obtain ⟨a, b, rfl⟩ := List.append_of_mem hx
      rw [List.append_assoc, List.cons_append] at h
      exact List.any_eq_true.mpr ⟨x, by simp, condemns_of_reaps h.split.1.reachable hxr⟩
    · rcases List.mem_cons.mp hx with rfl | hx
      · simp [Moment.cleans, (reaps_iff.mp hxr).1] at hmc
      · -- A process that has been cleaned up after is not asked to stop.
        obtain ⟨a, b, rfl⟩ := List.append_of_mem hx
        have hsplit : pre ++ m :: (a ++ x :: b) = (pre ++ m :: a) ++ x :: b := by simp
        have hrun := Life.running (hsplit ▸ h) (hsplit ▸ huntied) hxr
        simp [h.ends_of_cleans hmc] at hrun

structure LogFate (app : AppSpec) (history : List Moment) (w : Worker) : Prop where
  once : (removedLogs history).length ≤ 1
  removed : ∀ path, path ∈ removedLogs history ↔ app.settings.appDefaults.preserveLogs = false ∧
    w.launched.bind (·.log) = some path ∧ Condemned history
  /-- The exit task cleans up after the process has exited, or its watcher was lost. -/
  after : ∀ pre m post, history = pre ++ m :: post → m.cleans = true → pre.any Moment.ends = true
  prompt : w.AtRest → history.any Moment.ends = true → history.any Moment.cleans = true
  condemned : ∀ pre m post, history = pre ++ m :: post → m.condemns = true →
    pre.any Moment.readies = true ∧ m.before.entry.count = 0 ∧
      (m.reaps = true ∨ ∃ x ∈ pre, x.ends = true ∧ x.time = m.time)
  asked : Untied history →
    (Condemned history ↔ history.any Moment.reaps = true ∧ history.any Moment.cleans = true)

theorem Moment.removed_length_le (m : Moment) : m.removed.length ≤ if m.cleans then 1 else 0 := by
  rw [m.removed_eq]
  cases hc : m.cleans with
  | false => simp
  | true =>
    split
    · cases m.before.launched.bind (·.log) <;> simp
    · simp

theorem Life.removed_once (h : Life app history w now) :
    (removedLogs history).length ≤ if w.reaped then 1 else 0 := by
  induction h with
  | spawned => simp [removedLogs]
  | wait _ _ _ _ _ ih => exact ih
  | @happen history w now e hlife _ ih =>
    have hlast := (Moment.mk now w e).removed_length_le
    have hafter : (w.step now e).1.reaped = (w.reaped || (Moment.mk now w e).cleans) :=
      (Moment.mk now w e).after_reaped hlife.reachable.sound
    have hlen : (removedLogs (history ++ [⟨now, w, e⟩])).length =
        (removedLogs history).length + (Moment.mk now w e).removed.length := by
      simp [removedLogs]
    cases hc : (Moment.mk now w e).cleans with
    | false => simp_all
    | true =>
      obtain ⟨-, l, hl, -, hr⟩ := Moment.cleans_iff.mp hc
      replace hl : w.launched = some l := hl
      have hbefore : w.reaped = false := by simp [Worker.reaped, hl, hr]
      simp_all

theorem Life.mem_removedLogs (h : Life app history w now) :
    path ∈ removedLogs history ↔
      app.settings.appDefaults.preserveLogs = false ∧ w.launched.bind (·.log) = some path ∧
      Condemned history := by
  constructor
  · intro hmem
    obtain ⟨m, hm, hpath⟩ := List.mem_flatMap.mp hmem
    rw [m.removed_eq] at hpath
    split at hpath
    · next hwhen =>
      obtain ⟨hc, hdrop, hkeep⟩ := hwhen
      obtain ⟨l, hl, hlog⟩ := Option.bind_eq_some_iff.mp (Option.mem_toList.mp hpath)
      obtain ⟨k, hk, hsame⟩ := h.log hm hl
      obtain ⟨pre, post, rfl⟩ := List.append_of_mem hm
      have hlife := h.split.1
      exact ⟨hlife.app_eq ▸ hkeep, by simp [hk, hsame, hlog], pre, m, post, rfl, hc,
        hlife.dropLog.mp hdrop⟩
    · cases hpath
  · rintro ⟨hkeep, hlog, pre, m, post, rfl, hc, hcond⟩
    have hlife := h.split.1
    obtain ⟨-, l, hl, -⟩ := Moment.cleans_iff.mp hc
    obtain ⟨k, hk, hsame⟩ := h.log (m := m) (by simp) hl
    refine List.mem_flatMap.mpr ⟨m, by simp, ?_⟩
    rw [m.removed_eq, if_pos ⟨hc, hlife.dropLog.mpr hcond, hlife.app_eq.symm ▸ hkeep⟩]
    simpa [hl, hk, hsame] using hlog

theorem logs_removed (h : Life app history w now) : LogFate app history w := by
  refine ⟨?_, fun path => h.mem_removedLogs, ?_, h.cleans_of_ends, ?_, h.condemned_iff⟩
  · exact Nat.le_trans h.removed_once (by split <;> simp)
  · rintro pre m post rfl
    exact h.ends_of_cleans
  · rintro pre m post rfl
    exact h.condemned

-- ---------------------------------------------------------------------------
-- Three ends of an idle worker
-- ---------------------------------------------------------------------------

def loggedApp : AppSpec := { helloApp with logDir := some ⟨"/var/log/hello"⟩ }

/-- A worker that is never used, up to the linger. -/
def lingerEvents : List (Time × Event) :=
  [(0, .begin (some 0)), (0, .allocated (.ok ⟨.port 40000, ""⟩) "1"), (5, .launched (.ok 7)),
    (30, .answered true), (5030, .timer .idle), (5030, .idleNoticed)]

def lingeringWorker : Worker :=
  lingerEvents.foldl (fun w t => (w.step t.1 t.2).1) (spawned loggedApp "w0" [])

theorem lingering_life :
    Life loggedApp ((spawned loggedApp "w0" []).record lingerEvents) lingeringWorker 10030 := by
  have h : Life loggedApp [] _ 0 := .spawned "w0" [] 0
  have h := (h.happen (.begin (some 0)) nofun).happen (.allocated (.ok ⟨.port 40000, ""⟩) "1") nofun
  have h := (h.wait 5 (by decide) ⟨rfl, rfl⟩ (by decide)).happen (.launched (.ok 7)) nofun
  have h := (h.wait 30 (by decide) ⟨rfl, rfl⟩ (by decide)).happen (.answered true) nofun
  have h := (h.wait 5030 (by decide) ⟨rfl, rfl⟩ (by decide)).happen (.timer .idle)
    fun _ => ⟨5030, by decide, mem_due_idle.mpr rfl⟩
  exact (h.happen .idleNoticed nofun).wait 10030 (by decide) ⟨rfl, rfl⟩ (by decide)

/-- The worker is asked to stop and does. -/
def stoppedHistory : List Moment :=
  (spawned loggedApp "w0" []).record (lingerEvents ++
    [(10030, .lingered), (10100, .exited (.exited 0)), (10100, .exitHandled)])

/-- The worker crashes as the linger ends, and the watching task hears of the linger first. -/
def crashHistory : List Moment :=
  (spawned loggedApp "w0" []).record (lingerEvents ++
    [(10030, .exited (.exited 1)), (10030, .lingered), (10030, .exitHandled)])

/-- The worker is asked to stop, and its watcher is lost before it does. -/
def lostHistory : List Moment :=
  (spawned loggedApp "w0" []).record (lingerEvents ++
    [(10030, .lingered), (11000, .abandoned), (11000, .exitHandled)])

theorem lingered_timely : lingeringWorker.Timely 10030 .lingered :=
  fun _ => ⟨10030, by decide, mem_due_lingered.mpr ⟨5030, rfl, rfl⟩⟩

theorem logs_removed_stopped : ∃ w, LogFate loggedApp stoppedHistory w ∧
    (removedLogs stoppedHistory).length = 1 ∧ stoppedHistory.any Moment.reaps = true := by
  have h :=
    (lingering_life.happen .lingered lingered_timely).wait 10100 (by decide) ⟨rfl, rfl⟩ (by decide)
  have h := (h.happen (.exited (.exited 0)) nofun).happen .exitHandled nofun
  have hfate : LogFate loggedApp stoppedHistory _ := logs_removed h
  exact ⟨_, hfate, rfl, rfl⟩

/-- The log of a crash is removed though nobody asked the worker to stop, and the log of a worker
that was asked to is removed though it has not exited. -/
theorem logs_removed_amiss :
    (∃ w, Life loggedApp crashHistory w 10030 ∧ crashHistory.any Moment.reaps = false ∧
      removedLogs crashHistory = (loggedApp.logFile "1" "40000").toList ∧
      (removedLogs crashHistory).length = 1) ∧
    ∃ w, Life loggedApp lostHistory w 11000 ∧ w.launched.any (·.exit.hasExited) = false ∧
      removedLogs lostHistory = (loggedApp.logFile "1" "40000").toList ∧
      (removedLogs lostHistory).length = 1 := by
  have hcrash := (lingering_life.happen (.exited (.exited 1)) nofun).happen .lingered
    fun _ => ⟨10030, by decide, mem_due_lingered.mpr ⟨5030, rfl, rfl⟩⟩
  have hlost :=
    (lingering_life.happen .lingered lingered_timely).wait 11000 (by decide) ⟨rfl, rfl⟩ (by decide)
  exact ⟨⟨_, hcrash.happen .exitHandled nofun, rfl, rfl, rfl⟩,
    ⟨_, (hlost.happen .abandoned nofun).happen .exitHandled nofun, rfl, rfl, rfl⟩⟩

end Worker

end AppHost
