import AppHost.Proofs.Worker.Sound

/-!
# Leaving the table

A worker leaves its table at most once in a step, and `Leaving` says how: with word to be sent
should the table be empty then, or, after a startup that took too long, without. A worker is `Done`
when its spawn task is past the launch and its process, if there was one, has been cleaned up after.
Whichever step makes a worker done has word sent, also if the worker had left without
(`Effect.done`).
-/

namespace AppHost

open Relation (ReflTransGen)

namespace Worker

-- ---------------------------------------------------------------------------
-- How a worker leaves
-- ---------------------------------------------------------------------------

inductive Leaving : Event → List Act → Prop
  | stays (h : ∀ announce, .leave announce ∉ acts) : Leaving e acts
  | announced (he : e ≠ .overdue) (h : ∀ announce, .leave announce ∉ rest) :
      Leaving e (.leave true :: rest)
  | silent (h : ∀ announce, .leave announce ∉ rest) : Leaving .overdue (.leave false :: rest)

variable {w w' : Worker} {now : Time} {e : Event} {acts : List Act}

theorem leave_notMem_logToRemove (announce : Bool) : Act.leave announce ∉ w.logToRemove log := by
  unfold logToRemove
  split
  · split <;> simp
  · simp

theorem Effect.leaving (h : Effect w now e w' acts) : Leaving e acts := by
  cases h with
  | refused | unallocated | unlaunched => exact .announced (by simp) (by simp)
  | handled => exact .announced (by simp) leave_notMem_logToRemove
  | timedOut => exact .silent leave_notMem_kill
  | stopped | killed => exact .stays leave_notMem_kill
  | _ => exact .stays (by simp)

/-- Word is sent by a spawn that fails before there is a process, and by the exit task. -/
theorem Effect.announced (h : Effect w now e w' acts) (hleave : .leave true ∈ acts) :
    w.stage.phase = .early ∨
      (e = .exitHandled ∧ ∃ l, w.launched = some l ∧ l.exit.awaited.isSome = true ∧
      l.reaped = false) := by
  cases h with
  | refused hs | unallocated hs | unlaunched hs => exact .inl (by rw [hs]; rfl)
  | handled hl hx hr => exact .inr ⟨rfl, _, hl, hx, hr⟩
  | timedOut =>
    rcases List.mem_cons.mp hleave with heq | hleave
    · cases heq
    · exact absurd hleave (leave_notMem_kill true)
  | stopped | killed => exact absurd hleave (leave_notMem_kill true)
  | _ => simp at hleave

-- ---------------------------------------------------------------------------
-- Done
-- ---------------------------------------------------------------------------

def Done (w : Worker) : Prop := w.stage.phase ≠ .early ∧ ∀ l, w.launched = some l → l.reaped = true

/-- Once the exit task has run, or the spawn task has ended without a process, the entry is
closed. -/
structure Cleared (w : Worker) : Prop where
  reaped : ∀ l, w.launched = some l → l.reaped = true → w.entry.closed = true
  ended : w.stage = .finished → w.launched = none → w.entry.closed = true

theorem Effect.cleared (h : Effect w now e w' acts) (hw : w.Sound) (hc : w.Cleared) :
    w'.Cleared := by
  have hkilled : ∀ v : Worker, ∀ force, v.launched = w.launched → v.entry.closed = w.entry.closed →
      (v.stage = .finished → w.launched = none → w.stage = .finished) →
      (v.kill now force).1.Cleared := by
    intro v force hl hclosed hs
    constructor
    · intro k hk hr
      simp only [kill_eq, hl, Option.map_eq_some_iff] at hk
      obtain ⟨l, hl, rfl⟩ := hk
      simpa [kill_eq, hclosed] using hc.reaped l hl (by simpa using hr)
    · intro hfin hnone
      simp only [kill_eq, hl, Option.map_eq_none_iff] at hfin hnone
      simpa [kill_eq, hclosed] using hc.ended (hs hfin hnone) hnone
  have hattended : w.stage.phase = .probing ∨ w.stage.phase = .reaping → w.launched ≠ none := by
    intro hs hnone
    obtain ⟨l, hl, -⟩ := hw.attended hs
    simp [hnone] at hl
  cases h with
  | ignored => exact hc
  | refused | unallocated | unlaunched => constructor <;> simp [abandon, cleanUp]
  | handled => constructor <;> simp [cleanUp]
  | timedOut => constructor <;> simp [timeOut, kill_eq]
  | launched hs =>
    constructor
    · rintro l hl hr
      obtain rfl := Option.some.inj hl
      cases hr
    · simp
  | stopped hs =>
    exact hkilled _ _ rfl rfl fun _ hnone => absurd hnone (hattended (.inr (by rw [hs]; rfl)))
  | killed => exact hkilled w _ rfl rfl fun hs _ => hs
  | exited | abandoned =>
    constructor
    · intro k hk hr
      obtain ⟨l, hl, rfl⟩ := Option.map_eq_some_iff.mp hk
      exact hc.reaped l hl hr
    · exact fun hs hnone => hc.ended hs (by simpa using hnone)
  | noticed hs => exact ⟨hc.reaped, fun _ hnone => absurd hnone (hattended hs)⟩
  | readied hs hl =>
    exact ⟨fun k hk hr => by simpa [becomeReady] using hc.reaped k hk hr, by simp [becomeReady]⟩
  | begun | allocated | unanswered | resumed | heard | lingersOn | spared =>
    exact ⟨hc.reaped, by simp⟩
  | fired | acquired | released | pushed | shifted =>
    exact ⟨fun l hl hr => by simpa using hc.reaped l hl hr,
      fun hs hl => by simpa using hc.ended hs hl⟩

theorem Reachable.cleared (h : Reachable w) : w.Cleared := by
  refine h.keeps ?_ fun hw heff => heff.cleared hw.sound
  intro app id data
  exact ⟨by simp [spawned], by simp [spawned]⟩

theorem Done.closed (hd : w.Done) (h : w.Reachable) : w.entry.closed = true := by
  obtain ⟨hs, hreaped⟩ := hd
  cases hl : w.launched with
  | some l => exact h.cleared.reaped l hl (hreaped l hl)
  | none =>
    refine h.cleared.ended ?_ hl
    have hattended := h.sound.attended
    cases hstage : w.stage <;> simp_all [Stage.phase]

/-- The step that makes a worker done has word sent. -/
theorem Effect.done (h : Effect w now e w' acts) (hd : w'.Done) : w.Done ∨ .leave true ∈ acts := by
  obtain ⟨hs', hreaped⟩ := hd
  cases h with
  | refused | unallocated | unlaunched | handled => exact .inr List.mem_cons_self
  | begun | allocated => exact absurd rfl hs'
  | launched => exact absurd (hreaped _ rfl) (by simp)
  | timedOut hs =>
    refine .inl ⟨by simp [hs], fun l hl => ?_⟩
    simpa using hreaped (l.killed now true) (by simp [timeOut, kill_eq, hl])
  | stopped hs =>
    refine .inl ⟨by simp [hs, Stage.phase], fun l hl => ?_⟩
    simpa using hreaped (l.killed now false) (by simp [kill_eq, unread, hl])
  | @killed force =>
    refine .inl ⟨by simpa [kill_eq] using hs', fun l hl => ?_⟩
    simpa using hreaped (l.killed now force) (by simp [kill_eq, hl])
  | exited | abandoned =>
    refine .inl ⟨hs', fun l hl => ?_⟩
    simpa [hl] using hreaped
  | noticed hs => exact .inl ⟨by rcases hs with hs | hs <;> simp [hs], hreaped⟩
  | ignored | fired | acquired | released | pushed | shifted => exact .inl ⟨hs', hreaped⟩
  | readied hs | unanswered hs | resumed hs | heard hs | lingersOn hs | spared hs =>
    exact .inl ⟨by simp [hs, Stage.phase], hreaped⟩

end Worker

end AppHost
