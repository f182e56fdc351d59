import AppHost.Proofs.Worker.Reaping
import AppHost.Proofs.Worker.Settling

/-!
# Waiting for a spawn

Any number of callers may wait for one worker, each from a time of its own. Whoever finds the spawn
settled, then or later, is told what it came to, and the clock does not move while somebody could be
told. All are told the same.
-/

namespace AppHost

/-- A caller who asked for the worker at `since`, and what it was told. -/
structure Waiter where
  since : Time
  answer : Option (Except Failure WorkerHandle) := none

namespace Worker

/-- A worker's life, together with those who wait for its spawn. -/
inductive Attended (app : AppSpec) (id : String) : List Moment → Worker → List Waiter → Time → Prop
  | spawned (data : List (String × Json)) (now : Time) :
      Attended app id [] (spawned app id data) [] now
  | wait (later : Time) (h : Attended app id history w waiters now) (hle : now ≤ later)
      (hrest : w.AtRest)
    (hdue : ∀ d ∈ w.due, later ≤ d.1)
    (htold : ∀ c ∈ waiters, c.answer = none → w.entry.handle? = none) :
    Attended app id history w waiters later
  | happen (e : Event) (h : Attended app id history w waiters now) (ht : w.Timely now e) :
    Attended app id (history ++ [⟨now, w, e⟩]) (w.step now e).1 waiters now
  | ask (h : Attended app id history w waiters now) :
    Attended app id history w (waiters ++ [{ since := now }]) now
  | tell (n : Nat) (h : Attended app id history w waiters now) (hn : waiters[n]? = some c)
    (hc : c.answer = none) (hr : w.entry.handle? = some r) :
    Attended app id history w (waiters.set n { c with answer := some r }) now

variable {app : AppSpec} {id : String} {history : List Moment} {w w' : Worker}
  {waiters : List Waiter} {now : Time} {e : Event} {acts : List Act} {m : Moment} {c : Waiter}
  {r : Except Failure WorkerHandle}

theorem Attended.life (h : Attended app id history w waiters now) : Life app history w now := by
  induction h with
  | spawned data now => exact .spawned id data now
  | wait later _ hle hrest hdue _ ih => exact ih.wait later hle hrest hdue
  | happen e _ ht ih => exact ih.happen e ht
  | ask _ ih => exact ih
  | tell _ _ _ _ _ ih => exact ih

theorem Attended.name (h : Attended app id history w waiters now) : w.entry.id = id := by
  induction h with
  | spawned => rfl
  | wait _ _ _ _ _ _ ih => exact ih
  | @happen _ w _ now e _ _ ih => exact (w.step_effect now e).id.trans ih
  | ask _ ih => exact ih
  | tell _ _ _ _ _ ih => exact ih

theorem Effect.handle? (h : Effect w now e w' acts) (hr : w.entry.handle? = some r) :
    w'.entry.handle? = some r := by
  obtain ⟨o, ho, rfl⟩ := Option.map_eq_some_iff.mp hr
  rw [Entry.handle?, h.outcome ho, h.id]
  rfl

theorem Attended.told (h : Attended app id history w waiters now) (hc : c ∈ waiters)
    (hr : c.answer = some r) : w.entry.handle? = some r := by
  induction h generalizing c with
  | spawned => cases hc
  | wait _ _ _ _ _ _ ih => exact ih hc hr
  | @happen _ w _ now e _ _ ih => exact (w.step_effect now e).handle? (ih hc hr)
  | ask _ ih =>
    rcases List.mem_append.mp hc with hc | hc
    · exact ih hc hr
    · obtain rfl := List.mem_singleton.mp hc
      cases hr
  | tell _ _ _ _ htold ih =>
    rcases List.mem_or_eq_of_mem_set hc with hc | rfl
    · exact ih hc hr
    · obtain rfl := Option.some.inj hr
      exact htold

/-- Nobody waits past the time at which the spawn was settled, or past its own asking if that was
later. -/
theorem Attended.prompt (h : Attended app id history w waiters now) (hc : c ∈ waiters)
    (hwaits : c.answer = none) (hm : m ∈ history) (hs : m.settles = true) :
    now ≤ max c.since m.time := by
  induction h generalizing c with
  | spawned => cases hm
  | @wait _ w _ _ _ h _ _ _ htold ih =>
    have hnone := htold c hc hwaits
    obtain ⟨-, o, ho⟩ := Moment.settles_iff.mp hs
    rw [Entry.handle?, h.life.kept hm ho] at hnone
    cases hnone
  | happen _ _ _ ih =>
    rcases List.mem_append.mp hm with hm | hm
    · exact ih hc hwaits hm
    · obtain rfl := List.mem_singleton.mp hm
      exact Nat.le_max_right _ _
  | ask _ ih =>
    rcases List.mem_append.mp hc with hc | hc
    · exact ih hc hwaits hm
    · obtain rfl := List.mem_singleton.mp hc
      exact Nat.le_max_left _ _
  | tell _ _ _ _ _ ih =>
    rcases List.mem_or_eq_of_mem_set hc with hc | rfl
    · exact ih hc hwaits hm
    · cases hwaits

/-- A spawn that is settled once and for all, in time, and for everybody alike. -/
structure SettlesOnce (initTimeout : Nat) (id : String) (history : List Moment) (w : Worker)
    (waiters : List Waiter) (now : Time) : Prop where
  once : (history.filter Moment.settles).length = if w.entry.outcome.isSome then 1 else 0
  kept : ∀ m ∈ history, ∀ o, m.after.entry.outcome = some o → w.entry.outcome = some o
  inTime : ∀ m ∈ history, m.returns = true → m.time + initTimeout < now →
    ∃ x ∈ history, x.settles = true ∧ m.time ≤ x.time ∧ x.time ≤ m.time + initTimeout
  alike : ∀ c ∈ waiters, ∀ r, c.answer = some r → w.entry.handle? = some r
  prompt : ∀ c ∈ waiters, c.answer = none → ∀ m ∈ history, m.settles = true →
    now ≤ max c.since m.time
  own : ∀ h, w.entry.handle? = some (.ok h) → h.worker = id ∧ ∃ m ∈ history, m.Launches h.ready

theorem Attended.own {handle : WorkerHandle} (h : Attended app id history w waiters now)
    (hr : w.entry.handle? = some (.ok handle)) :
    handle.worker = id ∧ ∃ m ∈ history, m.Launches handle.ready := by
  obtain ⟨o, ho, heq⟩ := Option.map_eq_some_iff.mp hr
  cases o with
  | error failure => cases heq
  | ok ready =>
    cases heq
    obtain ⟨l, hl, rfl, -⟩ := h.life.reachable.sound.ready ready ho
    exact ⟨h.name, h.life.origin hl⟩

/-- In whichever order allocation, launch, answers, timeout, kill and exit come, the first outcome
is the only one, it is there when the launch has returned and the time to answer is over, and
everybody is told it, early or late. -/
theorem settles_once (h : Attended app id history w waiters now) :
    SettlesOnce app.settings.appDefaults.initTimeoutMs id history w waiters now where
  once := h.life.settles_count
  kept _ hm _ ho := h.life.kept hm ho
  inTime _ hm hr hlate :=
    (h.life.in_time hm hr).resolve_right fun ⟨_, hin, _⟩ => Nat.not_le.mpr hlate hin
  alike _ hc _ hr := h.told hc hr
  prompt _ hc hwaits _ hm hs := h.prompt hc hwaits hm hs
  own _ hr := h.own hr

/-- A worker that never answers, and dies of its kill a little later. -/
def overdueHistory : List Moment :=
  (spawned helloApp "w0" []).record [(0, .begin (some 0)),
    (0, .allocated (.ok ⟨.port 40000, ""⟩) ""), (5, .launched (.ok 7)), (60005, .overdue),
    (60010, .exited (.killedBy .term)), (60010, .exitHandled)]

/-- One caller waits from the start, the other asks after the process has died. -/
theorem overdueHistory_attended :
    ∃ w, Attended helloApp "w0" overdueHistory w [⟨0, some (.error (.startupTimeout none))⟩,
      ⟨60010, some (.error (.startupTimeout none))⟩] 60020 := by
  have h : Attended helloApp "w0" [] _ _ 0 := (Attended.spawned [] 0).ask
  have h := (h.happen (.begin (some 0)) nofun).happen (.allocated (.ok ⟨.port 40000, ""⟩) "") nofun
  have h :=
    (h.wait 5 (by decide) ⟨rfl, rfl⟩ (by decide) (by decide)).happen (.launched (.ok 7)) nofun
  have h := (h.wait 60005 (by decide) ⟨rfl, rfl⟩ (by decide) (by decide)).happen .overdue
    fun _ => ⟨60005, by decide, List.mem_cons_self⟩
  have h := (h.tell 0 rfl rfl rfl).wait 60010 (by decide) ⟨rfl, rfl⟩ (by decide) (by decide)
  have h :=
    ((h.happen (.exited (.killedBy .term)) nofun).happen .exitHandled nofun).ask.tell 1 rfl rfl rfl
  exact ⟨_, h.wait 60020 (by decide) ⟨rfl, rfl⟩ (by decide) (by decide)⟩

theorem settles_once_overdue :
    ∃ w, SettlesOnce 60000 "w0" overdueHistory w [⟨0, some (.error (.startupTimeout none))⟩,
      ⟨60010, some (.error (.startupTimeout none))⟩] 60020 := by
  obtain ⟨w, h⟩ := overdueHistory_attended
  exact ⟨w, settles_once h⟩

end Worker

end AppHost
