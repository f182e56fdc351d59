import AppHost.Proofs.Worker.Effects
import AppHost.Pool
import Mathlib.Logic.Relation

/-!
# What every worker satisfies

`Sound` relates a worker's stage, its entry and its process: no process before the launch, an open
entry for as long as the spawn task attends to the process, an outcome once the entry is closed,
and no process left running behind a closed entry without a forced kill. Every event keeps it, in
any order and at any time, so every worker that was ever spawned is sound.
-/

namespace AppHost

open Relation (ReflTransGen)

/-- The process as it may have become by itself or by a kill: the exit only ever settles, and kill
requests only ever add up. -/
structure Launched.Follows (l l' : Launched) : Prop where
  endpoint : l'.endpoint = l.endpoint
  log : l'.log = l.log
  process : l'.process = l.process
  reaped : l'.reaped = l.reaped
  exited : l.exit.hasExited = true → l'.exit.hasExited = true
  awaited : l.exit.awaited.isSome = true → l'.exit.awaited.isSome = true
  kills : ∀ k ∈ l.kills, k ∈ l'.kills

namespace Launched

theorem follows_killed (l : Launched) (now : Time) (force : Bool) :
    l.Follows (l.killed now force) := by
  unfold killed
  split
  · exact ⟨rfl, rfl, rfl, rfl, id, id, fun _ h => h⟩
  · exact ⟨rfl, rfl, rfl, rfl, id, id, fun _ h => List.mem_append_left _ h⟩

theorem follows_resolve (l : Launched) (status : ExitStatus) :
    l.Follows { l with exit := (l.exit.resolve status).1 } := by
  refine ⟨rfl, rfl, rfl, rfl, ?_, ?_, fun _ h => h⟩ <;>
    cases l.exit <;>
      simp [ExitNotification.hasExited, ExitNotification.status, ExitNotification.resolve,
        ExitNotification.awaited]

theorem follows_abandon (l : Launched) : l.Follows { l with exit := l.exit.abandon } := by
  refine ⟨rfl, rfl, rfl, rfl, ?_, ?_, fun _ h => h⟩ <;>
    cases l.exit <;>
      simp [ExitNotification.hasExited, ExitNotification.status, ExitNotification.abandon,
        ExitNotification.awaited]

end Launched

/-- An application with the default settings. -/
def helloApp : AppSpec where
  appDir := ⟨"/apps/hello"⟩
  runAs := some (.user "alice")
  urlPrefix := "/"
  logDir := none
  settings := {}

namespace Worker

-- ---------------------------------------------------------------------------
-- Runs
-- ---------------------------------------------------------------------------

def spawned (app : AppSpec) (id : String) (data : List (String × Json)) : Worker :=
  { app, entry := { id, data, idleTimeout := app.settings.appDefaults.idleTimeoutMs } }

def Next (w w' : Worker) : Prop := ∃ now e, w' = (w.step now e).1

def Reachable (w : Worker) : Prop := ∃ app id data, ReflTransGen Next (spawned app id data) w

variable {w w' : Worker} {now : Time} {e : Event} {acts : List Act}

theorem Reachable.step (h : Reachable w) (now : Time) (e : Event) : Reachable (w.step now e).1 := by
  obtain ⟨app, id, data, hr⟩ := h
  exact ⟨app, id, data, hr.tail ⟨now, e, rfl⟩⟩

/-- What a worker has when it is spawned, and no step takes from it, every worker has. -/
theorem Reachable.keeps {P : Worker → Prop} (h : Reachable w)
    (hspawned : ∀ app id data, P (spawned app id data))
    (hstep : ∀ {w now e w' acts}, Reachable w → Effect w now e w' acts → P w → P w') : P w := by
  obtain ⟨app, id, data, hr⟩ := h
  induction hr with
  | refl => exact hspawned app id data
  | tail hv hnext ih =>
    obtain ⟨now, e, rfl⟩ := hnext
    exact hstep ⟨app, id, data, hv⟩ (step_effect _ now e) ih

-- ---------------------------------------------------------------------------
-- Leaving the table
-- ---------------------------------------------------------------------------

theorem leave_notMem_kill (announce : Bool) : Act.leave announce ∉ (w.kill now force).2 := by
  intro h
  obtain ⟨l, -, -, h⟩ := mem_kill_acts.mp h
  cases h

theorem Effect.leaves (h : Effect w now e w' acts) :
    w'.entry.closed = true ↔ w.entry.closed = true ∨ ∃ announce, Act.leave announce ∈ acts := by
  cases h with
  | timedOut => simp [timeOut, kill_eq]
  | stopped => simp [kill_eq, unread, leave_notMem_kill]
  | killed => simp [kill_eq, leave_notMem_kill]
  | _ => simp [abandon, cleanUp, becomeReady, unread]

/-- An event closes the entry exactly when it has the worker struck off the table. -/
theorem step_leaves (w : Worker) (now : Time) (e : Event) :
    (w.step now e).1.entry.closed = true ↔
      w.entry.closed = true ∨ ∃ announce, Act.leave announce ∈ (w.step now e).2 :=
  (w.step_effect now e).leaves

theorem step_stays (w : Worker) (now : Time) (e : Event) :
    (w.step now e).1.entry.closed = false ↔
      w.entry.closed = false ∧ ∀ announce, Act.leave announce ∉ (w.step now e).2 := by
  rw [← Bool.not_eq_true, step_leaves, not_or, Bool.not_eq_true, not_exists]

-- ---------------------------------------------------------------------------
-- Soundness
-- ---------------------------------------------------------------------------

structure Sound (w : Worker) : Prop where
  early : w.stage.phase = .early →
    w.launched = none ∧ w.entry.closed = false ∧ w.entry.outcome = none
  attended : w.stage.phase = .probing ∨ w.stage.phase = .reaping →
    ∃ l, w.launched = some l ∧ (w.entry.closed = true → l.reaped = true)
  probing : w.stage.phase = .probing → ∀ r, w.entry.outcome ≠ some (.ok r)
  unresolved : w.entry.outcome = none → w.entry.closed = false
  ready : ∀ r, w.entry.outcome = some (.ok r) →
    ∃ l, w.launched = some l ∧ r = ⟨l.endpoint, l.log, l.process⟩ ∧
      (w.entry.closed = true → l.reaped = true)
  reaped : ∀ l, w.launched = some l → l.reaped = true → l.exit.awaited.isSome = true
  held : ∀ l, w.launched = some l → l.reaped = false → l.exit.hasExited = false →
    w.entry.closed = false ∨ ∃ t, (t, true) ∈ l.kills

theorem sound_spawned (app : AppSpec) (id : String) (data : List (String × Json)) :
    (spawned app id data).Sound := by
  constructor <;> simp [spawned, Stage.phase]

/-- Besides the process only the entry's flags and the phase matter to soundness. -/
theorem Sound.congr (hw : w.Sound) (hl : w'.launched = w.launched)
    (hc : w'.entry.closed = w.entry.closed) (ho : w'.entry.outcome = w.entry.outcome)
    (hs : w'.stage.phase = w.stage.phase ∨ w'.stage.phase = .ended) : w'.Sound := by
  have hphase : ∀ p, p ≠ .ended → w'.stage.phase = p → w.stage.phase = p := by
    intro p hp h
    obtain hs | hs := hs
    · rw [← hs, h]
    · exact absurd (h.symm.trans hs) hp
  constructor
  · rw [hl, hc, ho]
    exact fun h => hw.early (hphase _ nofun h)
  · rw [hl, hc]
    exact fun h => hw.attended (h.imp (hphase _ nofun) (hphase _ nofun))
  · rw [ho]
    exact fun h => hw.probing (hphase _ nofun h)
  · rw [ho, hc]
    exact hw.unresolved
  · rw [ho, hl, hc]
    exact hw.ready
  · rw [hl]
    exact hw.reaped
  · rw [hl, hc]
    exact hw.held

theorem Sound.follow (hw : w.Sound) {f : Launched → Launched}
    (hf : ∀ l : Launched, l.Follows (f l)) : { w with launched := w.launched.map f }.Sound := by
  have hback : ∀ k, w.launched.map f = some k → ∃ l, w.launched = some l ∧ l.Follows k := by
    intro k hk
    obtain ⟨l, hl, rfl⟩ := Option.map_eq_some_iff.mp hk
    exact ⟨l, hl, hf l⟩
  constructor
  · intro h
    obtain ⟨hl, hrest⟩ := hw.early h
    exact ⟨by simp [hl], hrest⟩
  · intro h
    obtain ⟨l, hl, hc⟩ := hw.attended h
    exact ⟨f l, by simp [hl], fun h => (hf l).reaped ▸ hc h⟩
  · exact hw.probing
  · exact hw.unresolved
  · intro r hr
    obtain ⟨l, hl, heq, hc⟩ := hw.ready r hr
    refine ⟨f l, by simp [hl], ?_, fun h => (hf l).reaped ▸ hc h⟩
    rw [(hf l).endpoint, (hf l).log, (hf l).process, heq]
  · intro k hk hr
    obtain ⟨l, hl, hlk⟩ := hback k hk
    exact hlk.awaited (hw.reaped l hl (hlk.reaped ▸ hr))
  · intro k hk hr hx
    obtain ⟨l, hl, hlk⟩ := hback k hk
    have hx' : l.exit.hasExited = false := by
      refine Bool.eq_false_iff.mpr fun h => ?_
      rw [hlk.exited h] at hx
      cases hx
    exact (hw.held l hl (hlk.reaped ▸ hr) hx').imp_right fun ⟨t, ht⟩ => ⟨t, hlk.kills _ ht⟩

theorem sound_failed (failure : Failure) (hl : w.launched = none) (hs : w.stage = .finished)
    (ho : w.entry.outcome = some (.error failure)) : w.Sound := by
  constructor <;> simp [hl, hs, ho, Stage.phase]

theorem Sound.abandon (hw : w.Sound) (hs : w.stage.phase = .early) (failure : Failure) :
    (w.abandon failure).1.Sound := by
  obtain ⟨hl, -, ho⟩ := hw.early hs
  exact sound_failed failure hl rfl (by simp [Worker.abandon, Entry.resolve_outcome, ho])

theorem Sound.launch (hw : w.Sound) (hs : w.stage.phase = .early) (hl : l.reaped = false)
    (probe : Probe) : { w with launched := some l, stage := .connecting probe }.Sound := by
  obtain ⟨-, hopen, hnone⟩ := hw.early hs
  constructor
  · intro h
    cases h
  · exact fun _ => ⟨l, rfl, by simp [hopen]⟩
  · simp [hnone]
  · exact fun _ => hopen
  · simp [hnone]
  · intro k hk hr
    obtain rfl : l = k := by simpa using hk
    simp [hl] at hr
  · exact fun _ _ _ _ => .inl hopen

theorem Sound.becomeReady (hw : w.Sound) (hs : w.stage.phase = .probing) (hl : w.launched = some l)
    (now : Time) : (w.becomeReady now l).Sound := by
  obtain ⟨k, hk, hc⟩ := hw.attended (.inl hs)
  obtain rfl : l = k := by simpa [hl] using hk
  have hclosed : (w.becomeReady now l).entry.closed = w.entry.closed := by
    simp [Worker.becomeReady]
  constructor
  · intro h
    cases h
  · exact fun _ => ⟨l, hl, hclosed ▸ hc⟩
  · intro h
    cases h
  · intro h
    simp [Worker.becomeReady] at h
  · intro r hr
    refine ⟨l, hl, ?_, hclosed ▸ hc⟩
    simp only [Worker.becomeReady, Entry.armIdle_outcome, Entry.resolve_outcome] at hr
    cases ho : w.entry.outcome with
    | none => simpa [ho, eq_comm] using hr
    | some o => exact absurd (by simpa [ho] using hr) (ho ▸ hw.probing hs r)
  · exact hw.reaped
  · rw [hclosed]
    exact hw.held

/-- The process was killed with the entry that went, or has exited. -/
theorem Sound.timeOut (hw : w.Sound) (hs : w.stage.phase = .probing) (now : Time) :
    (w.timeOut now).1.Sound := by
  have hready : ∀ r, (w.timeOut now).1.entry.outcome ≠ some (.ok r) := by
    intro r hr
    simp only [Worker.timeOut, kill_eq, Entry.resolve_error_ok, Entry.close_outcome] at hr
    exact hw.probing hs r hr
  have hback : ∀ k, (w.timeOut now).1.launched = some k →
      ∃ l, w.launched = some l ∧ l.killed now true = k := by
    intro k hk
    simpa [Worker.timeOut, kill_eq] using hk
  constructor
  · simp [Worker.timeOut, kill_eq, Stage.phase]
  · simp [Worker.timeOut, kill_eq, Stage.phase]
  · exact fun _ => hready
  · simp [Worker.timeOut, kill_eq]
  · exact fun r hr => absurd hr (hready r)
  · intro k hk hr
    obtain ⟨l, hl, rfl⟩ := hback k hk
    exact (l.follows_killed now true).awaited (hw.reaped l hl (by simpa using hr))
  · intro k hk _ hx
    obtain ⟨l, hl, rfl⟩ := hback k hk
    rw [Launched.killed_exit] at hx
    exact .inr ⟨now, by simp [Launched.killed, hx]⟩

theorem Sound.handleExit (hw : w.Sound) (hl : w.launched = some l)
    (hx : l.exit.awaited.isSome = true) :
    ({ w with launched := some { l with reaped := true } }.cleanUp l.log).1.Sound := by
  have hsame : ∀ r, (w.entry.close.resolve (.error (.exitedDuringInit l.log))).1.outcome =
      some (.ok r) →
      w.entry.outcome = some (.ok r) := fun r hr => (Entry.resolve_error_ok w.entry.close _).mp hr
  constructor
  · intro h
    have := (hw.early h).1
    simp [hl] at this
  · exact fun _ => ⟨_, rfl, fun _ => rfl⟩
  · exact fun h r hr => hw.probing h r (hsame r hr)
  · simp [cleanUp]
  · intro r hr
    obtain ⟨k, hk, heq, -⟩ := hw.ready r (hsame r hr)
    obtain rfl : l = k := by simpa [hl] using hk
    exact ⟨_, rfl, heq, fun _ => rfl⟩
  · intro k hk _
    obtain rfl : _ = k := by simpa [cleanUp] using hk
    exact hx
  · intro k hk hr
    obtain rfl : _ = k := by simpa [cleanUp] using hk
    cases hr

theorem Effect.sound (h : Effect w now e w' acts) (hw : w.Sound) : w'.Sound := by
  cases h with
  | ignored => exact hw
  | refused hs => exact hw.abandon (by rw [hs]; rfl) _
  | unallocated hs => exact hw.abandon (by rw [hs]; rfl) _
  | unlaunched hs =>
    obtain ⟨hl, -, ho⟩ := hw.early (by rw [hs]; rfl)
    exact sound_failed _ hl rfl (by simp [cleanUp, Entry.resolve_outcome, ho]; rfl)
  | launched hs => exact hw.launch (by rw [hs]; rfl) rfl _
  | readied hs hl => exact hw.becomeReady (by rw [hs]; rfl) hl now
  | timedOut hs => exact hw.timeOut hs now
  | exited => exact hw.follow fun l => l.follows_resolve _
  | abandoned => exact hw.follow fun l => l.follows_abandon
  | handled hl hx => exact hw.handleExit hl hx
  | killed =>
    rw [kill_eq]
    exact hw.follow fun l => l.follows_killed now _
  | stopped =>
    rw [kill_eq]
    refine Sound.follow (w := { w.unread with dropLog := true, stage := .finished }) ?_
      fun l => l.follows_killed now _
    exact hw.congr rfl rfl rfl (.inr rfl)
  | begun hs | allocated hs | unanswered hs | resumed hs | heard hs | lingersOn hs | spared hs =>
    exact hw.congr rfl rfl rfl (.inl (by rw [hs]; rfl))
  | noticed => exact hw.congr rfl rfl rfl (.inr rfl)
  | fired | acquired | released | pushed | shifted =>
    exact hw.congr rfl (by simp) (by simp) (.inl rfl)

theorem Reachable.sound (h : Reachable w) : w.Sound :=
  h.keeps sound_spawned fun _ heff => heff.sound

-- ---------------------------------------------------------------------------
-- The process
-- ---------------------------------------------------------------------------

theorem Effect.process (h : Effect w now e w' acts) (hw : w.Sound) (hl : w.launched = some l) :
    ∃ l', w'.launched = some l' ∧ l'.process = l.process ∧
      (l.exit.hasExited = true → l'.exit.hasExited = true) ∧
      (l.exit.awaited.isSome = true → l'.exit.awaited.isSome = true) := by
  have follows : ∀ {l'}, w'.launched = some l' → l.Follows l' → ∃ l', w'.launched = some l' ∧
      l'.process = l.process ∧ (l.exit.hasExited = true → l'.exit.hasExited = true) ∧
      (l.exit.awaited.isSome = true → l'.exit.awaited.isSome = true) :=
    fun hl' hf => ⟨_, hl', hf.process, hf.exited, hf.awaited⟩
  cases h with
  | launched hs => simp [(hw.early (by rw [hs]; rfl)).1] at hl
  | timedOut => exact follows (by simp [timeOut, kill_eq, hl]) (l.follows_killed now true)
  | stopped => exact follows (by simp [kill_eq, unread, hl]) (l.follows_killed now false)
  | @killed force => exact follows (by simp [kill_eq, hl]) (l.follows_killed now force)
  | exited => exact follows (by simp [hl]; rfl) (l.follows_resolve _)
  | abandoned => exact follows (by simp [hl]) l.follows_abandon
  | handled hl' =>
    obtain rfl := Option.some.inj (hl.symm.trans hl')
    exact ⟨_, rfl, rfl, id, id⟩
  | _ => exact ⟨l, hl, rfl, id, id⟩

end Worker

end AppHost
