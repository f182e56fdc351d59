import AppHost.Proofs.Worker.Starting

/-!
# The outcome of a startup

What a startup comes to, and when, is settled by its process's behaviour alone: every startup is
tracked from the launch to its end (`Starting.tracked`), and stays as it ended. A startup that is
under way can always go on, and it ends after finitely many attempts (`Starting.finishes`).
-/

namespace AppHost

namespace Worker

variable {app : AppSpec} {history : List Moment} {b : Behaviour} {I D : Nat} {r : ReadyWorker}
  {start now later t : Time} {run : List Moment} {w w' : Worker} {j k : Nat} {e : Event}
  {m : Moment} {o : Outcome} {acts : List Act}

-- ---------------------------------------------------------------------------
-- After the end
-- ---------------------------------------------------------------------------

theorem Effect.kills (h : Effect w now e w' acts) (hs : w.stage = .finished)
    (he : ∀ force, e ≠ .kill force) (hl : w.launched = some l) :
    ∃ l', w'.launched = some l' ∧ l'.process = l.process ∧ l'.kills = l.kills := by
  cases h with
  | killed => exact absurd rfl (he _)
  | timedOut hs' => simp [hs, Stage.phase] at hs'
  | launched hs' | stopped hs' => simp [hs] at hs'
  | exited | abandoned => exact ⟨_, Option.map_eq_some_iff.mpr ⟨l, hl, rfl⟩, rfl, rfl⟩
  | handled hl' =>
    obtain rfl := Option.some.inj (hl.symm.trans hl')
    exact ⟨_, rfl, rfl, rfl⟩
  | _ => exact ⟨l, hl, rfl, rfl⟩

theorem GivenUp.happen (h : GivenUp D r start run w) (hs : w.stage = .finished)
    (he : ∀ force, e ≠ .kill force) :
    GivenUp D r start (run ++ [⟨now, w, e⟩]) (w.step now e).1 := by
  obtain ⟨⟨m, hm, hleft⟩, hclosed, l, hl, hr, hkills⟩ := h
  obtain ⟨l', hl', hr', hkills'⟩ := (w.step_effect now e).kills hs he hl
  exact ⟨⟨m, List.mem_append_left _ hm, hleft⟩, (w.step_leaves now e).mpr (.inl hclosed),
    l', hl', hr'.trans hr, hkills'.trans hkills⟩

theorem Effect.still (h : Effect w now e w' acts) (hw : w.Sound) (hs : w.Still now)
    (ht : w.Timely now e) : w'.Still now := by
  rcases hs with hs | hs | ⟨probe, resume, hs, hg, hresume, hdeadline⟩
  · cases h with
    | noticed => exact .inr (.inl rfl)
    | stopped => exact .inr (.inl (by simp [kill_eq]))
    | timedOut hs' => simp [hs] at hs'
    | killed => exact .inl (by simpa [kill_eq] using hs)
    | readied | heard | lingersOn | spared => exact .inl rfl
    | refused hs' | begun hs' | unallocated hs' | allocated hs' | unlaunched hs' | launched hs'
    | unanswered hs'
    | resumed hs' => simp [hs', Stage.phase] at hs
    | _ => exact .inl hs
  · exact .inr (.inl (h.finished hs))
  · have hgone : w'.gone = true := by
      obtain ⟨l, hl, hx⟩ := gone_iff.mp hg
      obtain ⟨l', hl', -, -, hx'⟩ := h.process hw hl
      exact gone_iff.mpr ⟨l', hl', hx' hx⟩
    cases h with
    | noticed => exact .inr (.inl rfl)
    | resumed => exact absurd (ht.resumed hs) (Nat.not_le.mpr hresume)
    | timedOut => exact absurd (ht.overdue hs) (Nat.not_le.mpr hdeadline)
    | killed =>
      exact .inr (.inr ⟨probe, resume, by simpa [kill_eq] using hs, hgone, hresume, hdeadline⟩)
    | refused hs' | begun hs' | unallocated hs' | allocated hs' | unlaunched hs'
    | launched hs' | readied hs'
    | unanswered hs' | heard hs' | lingersOn hs' | spared hs' | stopped hs' => simp [hs] at hs'
    | _ => exact .inr (.inr ⟨probe, resume, hs, hgone, hresume, hdeadline⟩)

namespace Ended

theorem happen (h : Ended b I D r start run w now t o) (hw : w.Sound) (ht : w.Timely now e)
    (ha : b.Allows start w now e) :
    Ended b I D r start (run ++ [⟨now, w, e⟩]) (w.step now e).1 now t o where
  ends := h.ends
  outcome := (w.step_effect now e).outcome h.outcome
  attempts := by
    have hnone : (Moment.mk now w e).attempts = [] := by
      refine attempts_eq_nil ?_ ?_
      · rcases h.still with hs | hs | ⟨_, _, hs, -⟩ <;> rw [hs] <;> simp [Stage.phase]
      · rintro probe resume hs rfl
        rcases h.still with hs' | hs' | ⟨_, _, hs', -, hresume, -⟩
        · simp [hs, Stage.phase] at hs'
        · simp [hs] at hs'
        · obtain ⟨-, rfl⟩ := Stage.pausing.inj (hs.symm.trans hs')
          exact absurd (ht.resumed hs) (Nat.not_le.mpr hresume)
    rw [attempts_append, hnone, List.append_nil]
    exact h.attempts
  successes := by
    have hnone : (Moment.mk now w e).success? = none := by
      unfold Moment.success?
      split
      · next hs _ => rcases h.still with hs' | hs' | ⟨_, _, hs', -⟩ <;> simp_all [Stage.phase]
      · rfl
    rw [successes_append, hnone, h.successes]
    exact List.append_nil _
  settled := by
    obtain ⟨m, hm, hs⟩ := h.settled
    exact ⟨m, List.mem_append_left _ hm, hs⟩
  settles := by
    intro m hm hs
    rcases List.mem_append.mp hm with hm | hm
    · exact h.settles m hm hs
    · obtain rfl := List.mem_singleton.mp hm
      have hnone := (Moment.settles_iff.mp hs).1
      rw [h.outcome] at hnone
      cases hnone
  still := (w.step_effect now e).still hw h.still ht
  givenUp := by
    rintro rfl
    obtain ⟨hs, hup⟩ := h.givenUp rfl
    refine ⟨(w.step_effect now e).finished hs, hup.happen hs ?_⟩
    rintro force rfl
    replace ha : w.entry.ready?.isSome = true := ha
    simp [Entry.ready?, h.outcome] at ha

theorem wait (h : Ended b I D r start run w now t o) (hrest : w.AtRest) :
    Ended b I D r start run w later t o := by
  refine { h with still := ?_ }
  rcases h.still with hs | hs | ⟨probe, resume, hs, hg, -⟩
  · exact .inl hs
  · exact .inr (.inl hs)
  · have hnone := hrest.2
    simp only [pending?, hs] at hnone
    replace hg : (w.launched.any fun l => l.exit.awaited.isSome) = true := hg
    simp [hg] at hnone

end Ended

-- ---------------------------------------------------------------------------
-- Every startup
-- ---------------------------------------------------------------------------

/-- What the launch returns is under way, its first attempt made at once. -/
theorem underway_launched {start : Moment} (hw : start.before.Reachable) (hl : start.Launches r)
    (hI : start.before.app.settings.appDefaults.healthCheckIntervalMs = I)
    (hD : start.before.app.settings.appDefaults.initTimeoutMs = D) (hb : b.Untied I D) :
    Underway b I D r start.time [start] start.after start.time 0 := by
  obtain ⟨t, w, e⟩ := start
  obtain ⟨via, hs, rfl⟩ := hl
  replace hs : w.stage = .launching via r.endpoint r.logFile := hs
  have hstep : w.step t (.launched (.ok r.process)) =
      ({ w with launched := some { endpoint := r.endpoint, log := r.logFile, process := r.process }
                stage := .connecting ⟨via, r.endpoint, 0, t + D⟩ }, [.connect via r.endpoint]) := by
    simp [step, hs, ← hD]
  have hopen := hw.sound.early (by rw [hs]; rfl)
  simp only [Moment.after, hstep]
  constructor
  · exact hI
  · exact hopen.2.2
  · exact ⟨_, rfl, rfl, rfl⟩
  · simp [attempts, Moment.attempts, Moment.acts, hstep, attemptAt]
  · refine ⟨Nat.zero_le D, fun j hj => absurd hj (Nat.not_lt_zero j),
      fun x hx => Nat.pos_of_ne_zero ((hb x hx).2 0)⟩
  · simp [successes, Moment.success?]
  · simp [Moment.settles, Moment.after, hstep]
  · exact fun x _ => Nat.le_add_right t x
  · simp [gone, ExitNotification.awaited]
  · exact .connecting rfl rfl

theorem connecting_launched {start : Moment} (hl : start.Launches r) :
    ∃ probe, start.after.stage = .connecting probe := by
  obtain ⟨t, w, e⟩ := start
  obtain ⟨via, hs, rfl⟩ := hl
  replace hs : w.stage = .launching via r.endpoint r.logFile := hs
  simp [Moment.after, step, hs]

theorem Starting.reachable {start : Moment} (h : Starting b start run w now)
    (hw : start.before.Reachable) : w.Reachable := by
  induction h with
  | launched => exact hw.step _ _
  | wait _ _ _ _ _ _ _ ih => exact ih
  | happen _ _ _ _ ih => exact ih.step _ _

/-- What happens from the launch on continues the life that led up to it. -/
theorem Starting.life {start : Moment} (h : Starting b start run w now)
    (hlife : Life app history start.before start.time) (hl : start.Launches r) :
    Life app (history ++ run) w now := by
  induction h with
  | launched =>
    obtain ⟨t, w, e⟩ := start
    obtain ⟨-, -, rfl⟩ := hl
    exact hlife.happen _ (timely_of_untimed rfl)
  | wait later _ hle hrest hdue _ _ ih => exact ih.wait later hle hrest hdue
  | happen e _ ht _ ih =>
    rw [← List.append_assoc]
    exact ih.happen e ht

theorem Starting.tracked {start : Moment} (h : Starting b start run w now)
    (hw : start.before.Reachable) (hl : start.Launches r)
    (hI : start.before.app.settings.appDefaults.healthCheckIntervalMs = I)
    (hD : start.before.app.settings.appDefaults.initTimeoutMs = D) (hpos : 1 ≤ I)
    (hb : b.Untied I D) : Tracked b I D r start.time run w now := by
  induction h with
  | launched => exact .inl ⟨0, underway_launched hw hl hI hD hb⟩
  | wait later h _ hrest hdue hanswered hexit ih =>
    rcases ih with ⟨k, hup⟩ | ⟨t, o, hend⟩
    · exact .inl ⟨k, hup.wait (h.reachable hw) hrest hdue hanswered hexit⟩
    · exact .inr ⟨t, o, hend.wait hrest⟩
  | happen e h ht ha ih =>
    rcases ih with ⟨k, hup⟩ | ⟨t, o, hend⟩
    · exact hup.happen hpos hb (h.reachable hw) ht ha
    · exact .inr ⟨t, o, hend.happen (h.reachable hw).sound ht ha⟩

-- ---------------------------------------------------------------------------
-- A startup goes on to its end
-- ---------------------------------------------------------------------------

theorem gone_of_exitPending (h : w.exitPending = true) : w.gone = true := by
  obtain ⟨l, hl, hx, -⟩ := exitPending_iff.mp h
  exact gone_iff.mpr ⟨l, hl, hx⟩

theorem atRest_of_pausing (hs : w.stage = .pausing probe resume) (hg : w.gone = false) :
    w.AtRest := by
  refine ⟨Bool.eq_false_iff.mpr fun hp => ?_, ?_⟩
  · rw [gone_of_exitPending hp] at hg
    cases hg
  · replace hg : (w.launched.any fun l => l.exit.awaited.isSome) = false := hg
    simp [pending?, hs, hg]

theorem mem_due_pausing (hs : w.stage = .pausing probe resume) :
    d ∈ w.due ↔ d = (resume, .resumed) ∨ d = (probe.deadline, .overdue) ∨
      ∃ u ∈ w.entry.timers, (u.1, .timer u.2) = d := by
  simp [due, hs]

section
variable {start : Moment} {target : Time}

/-- Between two attempts the clock may move as far as nothing is due. -/
theorem Starting.move (h : Starting b start run w now) (hw : start.before.Reachable)
    (hup : Underway b I D r start.time run w now k) (hs : w.stage = .pausing probe resume)
    (hg : w.gone = false) (hle : now ≤ later) (hresume : later ≤ resume)
    (hdeadline : later ≤ probe.deadline) (hexit : ∀ x ∈ b.exits, later ≤ start.time + x)
    (htimers : ∀ u ∈ w.entry.timers, later ≤ u.1) :
    Starting b start run w later ∧ Underway b I D r start.time run w later k := by
  have hrest := atRest_of_pausing hs hg
  have hdue : ∀ d ∈ w.due, later ≤ d.1 := by
    intro d hd
    rcases (mem_due_pausing hs).mp hd with rfl | rfl | ⟨u, hu, rfl⟩
    · exact hresume
    · exact hdeadline
    · exact htimers u hu
  have hanswered : ∀ probe, w.stage ≠ .connecting probe := by simp [hs]
  exact ⟨h.wait later hle hrest hdue hanswered fun _ => hexit,
    hup.wait (h.reachable hw) hrest hdue hanswered fun _ => hexit⟩

/-- Between two attempts any time up to the next thing to come is reached. Timers of the entry that
are due before it fire on the way; there are only so many. -/
theorem Starting.pass (h : Starting b start run w now) (hw : start.before.Reachable)
    (hup : Underway b I D r start.time run w now k) (hs : w.stage = .pausing probe resume)
    (hg : w.gone = false) (hle : now ≤ target) (hresume : target ≤ resume)
    (hdeadline : target ≤ probe.deadline) (hexit : ∀ x ∈ b.exits, target ≤ start.time + x) :
    ∃ run w, Starting b start run w target ∧ Underway b I D r start.time run w target k ∧
      w.stage = .pausing probe resume ∧ w.gone = false ∧ ∀ u ∈ w.entry.timers, target ≤ u.1 := by
  induction hn : w.entry.armed using Nat.strong_induction_on generalizing run w now with
  | _ n ih =>
    by_cases hlate : ∀ u ∈ w.entry.timers, target ≤ u.1
    · obtain ⟨hstart, hup⟩ := h.move hw hup hs hg hle hresume hdeadline hexit hlate
      exact ⟨run, w, hstart, hup, hs, hg, hlate⟩
    · obtain ⟨u, hu, hlt⟩ : ∃ u ∈ w.entry.timers, u.1 < target := by simpa using hlate
      obtain ⟨t, ht⟩ : ∃ t, earliest? w.entry.timers = some t := by
        refine Option.ne_none_iff_exists'.mp fun hnone => ?_
        rw [earliest?_eq_none.mp hnone] at hu
        cases hu
      have hfirst : ∀ u ∈ w.entry.timers, t.1 ≤ u.1 := fun u hu => earliest?_le ht hu
      have htarget : t.1 ≤ target := (hfirst u hu).trans (Nat.le_of_lt hlt)
      have hmem := earliest?_mem ht
      -- The timer fires at its time, or at once if that is over.
      obtain ⟨clock, hclock, hdue, hstart, hup⟩ : ∃ clock ≤ target, t.1 ≤ clock ∧
          Starting b start run w clock ∧ Underway b I D r start.time run w clock k := by
        rcases Nat.le_total t.1 now with hpast | hahead
        · exact ⟨now, hle, hpast, h, hup⟩
        · exact ⟨t.1, htarget, Nat.le_refl _, h.move hw hup hs hg hahead (htarget.trans hresume)
            (htarget.trans hdeadline) (fun x hx => htarget.trans (hexit x hx)) hfirst⟩
      have hfire := hstart.happen (.timer t.2)
        (fun _ => ⟨t.1, hdue, (mem_due_pausing hs).mpr (.inr (.inr ⟨t, hmem, rfl⟩))⟩) trivial
      refine ih _ ?_ hfire (hup.aside rfl) hs hg hclock rfl
      rw [← hn]
      exact w.entry.armed_fire_lt clock hmem

theorem outcome_exitHandled (hp : w.exitPending = true) (now : Time) :
    (w.step now .exitHandled).1.entry.outcome ≠ none := by
  obtain ⟨l, hl, hx, hr⟩ := exitPending_iff.mp hp
  simp [step, hl, hx, hr, cleanUp]

/-- A pause ends with the next attempt, or with the startup. -/
theorem Starting.resumes (h : Starting b start run w now) (hw : start.before.Reachable)
    (hup : Underway b I D r start.time run w now k)
    (hs : w.stage = .pausing ⟨via, r.endpoint, k, start.time + D⟩
      (start.time + attemptAt I (k + 1)))
    (hg : w.gone = false) (hno : Unanswered b I D start.time now k) (hb : b.Untied I D) :
    (∃ run w now, Starting b start run w now ∧ w.entry.outcome ≠ none) ∨
      ∃ run w now probe, Starting b start run w now ∧
      Underway b I D r start.time run w now (k + 1) ∧
        w.stage = .connecting probe := by
  by_cases hx : ∃ x ∈ b.exits, x ≤ attemptAt I (k + 1) ∧ x ≤ D
  · obtain ⟨x, hx, hnext, hlate⟩ := hx
    have hexit : ∀ y ∈ b.exits, start.time + x ≤ start.time + y := by
      intro y hy
      rw [Option.mem_unique hx hy]
    obtain ⟨run, w, h, hup, -⟩ := h.pass hw hup hs hg (hup.exits x hx) (Nat.add_le_add_left hnext _)
      (Nat.add_le_add_left hlate _) hexit
    obtain ⟨l, hl, -⟩ := hup.process
    have hends : (Moment.mk (start.time + x) w (.exited .synthetic)).ends = true := by
      simp [Moment.ends, hl]
    have hallows : b.Allows start.time w (start.time + x) (.exited .synthetic) :=
      fun _ => ⟨x, hx, rfl⟩
    have hexited := h.happen (.exited .synthetic) (timely_of_untimed rfl) hallows
    have hpending :=
      (hup.exit hends hallows).exitPending (hexited.reachable hw) (gone_of_ends hends)
    exact .inl ⟨_, _, _, hexited.happen .exitHandled (timely_of_untimed rfl) trivial,
      outcome_exitHandled hpending _⟩
  · have hexit : ∀ x ∈ b.exits, attemptAt I (k + 1) ≤ x ∨ D ≤ x := by
      intro x hx'
      rcases Nat.le_total (attemptAt I (k + 1)) x with hle | hle
      · exact .inl hle
      · exact .inr (Nat.le_of_not_le fun hlate => hx ⟨x, hx', hle, hlate⟩)
    rcases Nat.lt_or_ge D (attemptAt I (k + 1)) with hlt | hle
    · obtain ⟨run, w, h, -, hs, -, htimers⟩ := h.pass hw hup hs hg hno.deadline
        (Nat.add_le_add_left (Nat.le_of_lt hlt) _) (Nat.le_refl _)
        fun x hx => Nat.add_le_add_left ((hexit x hx).elim (Nat.le_of_lt hlt).trans id) _
      have hover := h.happen .overdue (fun _ => ⟨_, Nat.le_refl _, mem_due_overdue hs⟩)
        ⟨by simp [hs], _, earliest_of_deadline_lt hs (Nat.add_lt_add_left hlt _) htimers⟩
      exact .inl ⟨_, _, _, hover, by simp [step, hs, timeOut, kill_eq]⟩
    · obtain ⟨run, w, h, hup, hs, -⟩ := h.pass hw hup hs hg hno.next (Nat.le_refl _)
        (Nat.add_le_add_left hle _) fun x hx =>
          Nat.add_le_add_left ((hexit x hx).elim id hle.trans) _
      have hresume := h.happen .resumed (fun _ => ⟨_, Nat.le_refl _, mem_due_resumed hs⟩) trivial
      have hno' : Unanswered b I D start.time (start.time + attemptAt I (k + 1)) k :=
        ⟨hno.answer, Nat.le_refl _, Nat.add_le_add_left hle _⟩
      exact .inr ⟨_, _, _, _, hresume, hup.next hb hs hno' rfl, by simp [step, hs]; rfl⟩

theorem Starting.finishes (h : Starting b start run w now) (hw : start.before.Reachable)
    (hup : Underway b I D r start.time run w now k) (hs : w.stage = .connecting probe)
    (hpos : 1 ≤ I) (hb : b.Untied I D) :
    ∃ run w now, Starting b start run w now ∧ w.entry.outcome ≠ none := by
  induction hn : D - k using Nat.strong_induction_on generalizing run w now k probe with
  | _ n ih =>
    cases hup.standing with
    | pausing hs' | noticed hs' => simp [hs'] at hs
    | @connecting via hs' hnow =>
      obtain ⟨l, hl, -⟩ := hup.process
      have helapsed : now - start.time = attemptAt I k := by rw [hnow, Nat.add_sub_cancel_left]
      cases hlisten : b.answers (attemptAt I k) with
      | true =>
        have hanswer :=
          h.happen (.answered true) (timely_of_untimed rfl)
            (show true = _ by rw [helapsed, hlisten])
        exact ⟨_, _, _, hanswer, by simp [step, hs, hl, becomeReady]⟩
      | false =>
        have hrefuse :=
          h.happen (.answered false) (timely_of_untimed rfl)
            (show false = _ by rw [helapsed, hlisten])
        obtain ⟨hpausing, hup'⟩ := hup.refused hpos hs' hnow hlisten
        have hg : (w.step now (.answered false)).1.gone = false :=
          hup'.running hnow fun x hx => (hb x hx).2 k
        have hno : Unanswered b I D start.time now k := by
          refine ⟨hlisten, ?_, hup.deadline⟩
          rw [hnow]
          exact Nat.add_le_add_left ((attemptAt_strictMono hpos).monotone (Nat.le_succ k)) _
        rcases hrefuse.resumes hw hup' hpausing hg hno hb with hend
          | ⟨run, w, now, probe, h, hup, hs⟩
        · exact hend
        · -- Attempts are at least a millisecond apart, so there are at most as many as fit in.
          have hle : k + 1 ≤ D := (le_attemptAt hpos (k + 1)).trans hup.tries.1
          exact ih _ (by omega) h hup hs rfl

end

-- ---------------------------------------------------------------------------
-- The outcome
-- ---------------------------------------------------------------------------

/-- Attempts are made on the worker's own endpoint, exactly when they should be, and the spawn is
settled exactly when and as its process has it: a worker that is ready was answered once, at that
time, and one that failed never was; one that was given up has left its table and been killed. -/
structure StartsUp (b : Behaviour) (I D : Nat) (r : ReadyWorker) (start : Time) (run : List Moment)
    (w : Worker) (now : Time) : Prop where
  attempts : ∃ n ≤ D + 1,
    Worker.attempts run = ((List.range n).map fun j => (start + attemptAt I j, r.endpoint)) ∧
      (∀ j < n, b.Tries I D j) ∧ ∀ j, b.Tries I D j → start + attemptAt I j < now → j < n
  settled : ∀ t o, b.Ends I D r t o → start + t < now → ∃ m ∈ run, m.settles = true
  settles : ∀ t o, b.Ends I D r t o → ∀ m ∈ run, m.settles = true →
    m.time = start + t ∧ m.after.entry.outcome = some o
  ready : ∀ t, b.Ends I D r t (.ok r) → w.entry.outcome ≠ none →
    Worker.successes run = [(start + t, r.endpoint)]
  failed : ∀ t failure, b.Ends I D r t (.error failure) → Worker.successes run = []
  givenUp : w.entry.outcome = some (.error (.startupTimeout r.logFile)) → GivenUp D r start run w

theorem Underway.before (h : Underway b I D r start run w now k) (hI : 1 ≤ I)
    (hends : b.Ends I D r t o) : now ≤ start + t := by
  cases hends with
  | exited he => exact h.exits _ he
  | ready hk => exact (h.first hI hk).1
  | overdue => exact h.deadline

theorem Underway.startsUp (h : Underway b I D r start run w now k) (hI : 1 ≤ I) :
    StartsUp b I D r start run w now where
  attempts := by
    refine ⟨k + 1, h.tries.lt hI, h.attempts,
      fun j hj => h.tries.mono hI (Nat.le_of_lt_succ hj), ?_⟩
    intro j hj hlate
    refine Nat.lt_succ_of_le (Nat.le_of_not_lt fun hlt => ?_)
    have hnow : now ≤ start + attemptAt I (k + 1) := by
      cases h.standing with
      | connecting _ hnow =>
        rw [hnow]
        exact Nat.add_le_add_left ((attemptAt_strictMono hI).monotone (Nat.le_succ k)) _
      | pausing _ hno | noticed _ _ hno => exact hno.next
    have hle := Nat.add_le_add_left ((attemptAt_strictMono hI).monotone hlt) start
    exact absurd (hnow.trans hle) (Nat.not_le.mpr hlate)
  settled _ _ hends hlate := absurd (h.before hI hends) (Nat.not_le.mpr hlate)
  settles _ _ _ m hm hs := by simp [h.settles m hm] at hs
  ready _ _ ho := absurd h.outcome ho
  failed _ _ _ := h.successes
  givenUp ho := by simp [h.outcome] at ho

theorem Ended.startsUp (h : Ended b I D r start run w now t o) (hI : 1 ≤ I) :
    StartsUp b I D r start run w now where
  attempts := by
    obtain ⟨n, hn, htries⟩ := h.attempts
    refine ⟨n, Nat.le_of_not_lt fun hlt => ?_, hn, fun j => (htries j).mp,
      fun j hj _ => (htries j).mpr hj⟩
    exact absurd (((htries (D + 1)).mp hlt).lt hI) (Nat.lt_irrefl _)
  settled _ _ _ _ := h.settled
  settles u p hends m hm hs := by
    obtain ⟨rfl, rfl⟩ := h.ends.unique hends
    exact h.settles m hm hs
  ready u hends _ := by
    obtain ⟨rfl, rfl⟩ := h.ends.unique hends
    exact h.successes
  failed u failure hends := by
    obtain ⟨rfl, rfl⟩ := h.ends.unique hends
    exact h.successes
  givenUp ho := (h.givenUp (Option.some.inj (h.outcome.symm.trans ho))).2

/-- Whenever the process begins to listen, and whenever it ends, if it does: a startup can always go
on to its end, which is the one that the process's behaviour determines, and every startup that goes
on for long enough has come to it then. -/
theorem starts_up {start : Moment} (hw : start.before.Reachable) (hl : start.Launches r)
    (hI : start.before.app.settings.appDefaults.healthCheckIntervalMs = I)
    (hD : start.before.app.settings.appDefaults.initTimeoutMs = D) (hpos : 1 ≤ I)
    (hb : b.Untied I D) :
    (∃ t o, b.Ends I D r t o ∧ ∃ run w now, Starting b start run w now ∧ w.entry.outcome = some o) ∧
      ∀ run w now, Starting b start run w now → StartsUp b I D r start.time run w now := by
  have htracked := fun {run w now} (h : Starting b start run w now) => h.tracked hw hl hI hD hpos hb
  constructor
  · have hup := underway_launched hw hl hI hD hb
    obtain ⟨probe, hs⟩ := connecting_launched hl
    obtain ⟨run, w, now, h, ho⟩ := Starting.launched.finishes hw hup hs hpos hb
    rcases htracked h with ⟨k, hup⟩ | ⟨t, o, hend⟩
    · exact absurd hup.outcome ho
    · exact ⟨t, o, hend.ends, run, w, now, h, hend.outcome⟩
  · intro run w now h
    rcases htracked h with ⟨k, hup⟩ | ⟨t, o, hend⟩
    · exact hup.startsUp hpos
    · exact hend.startsUp hpos

/-- A launch that returns, five milliseconds after the spawn. -/
def helloLaunch : Moment where
  time := 5
  before := (((spawned helloApp "w0" []).step 0 (.begin (some 0))).1.step 0
    (.allocated (.ok ⟨.port 40000, ""⟩) "")).1
  event := .launched (.ok 7)

/-- A process that would listen after 260 ms, and ends after 250. -/
def shortLived : Behaviour := { listens := some 260, exits := some 250 }

theorem shortLived_untied : shortLived.Untied 500 60000 := by
  intro e he
  obtain rfl : 250 = e := Option.some.inj he
  refine ⟨by decide, fun k heq => ?_⟩
  have hmono := (attemptAt_strictMono (show 1 ≤ 500 by decide)).monotone
  rcases Nat.lt_or_ge k 4 with hk | hk
  · have hle : attemptAt 500 k ≤ 200 := hmono (Nat.le_of_lt_succ hk)
    omega
  · have hge : 300 ≤ attemptAt 500 k := hmono hk
    omega

/-- Its startup fails after 250 ms, between the fourth attempt and the fifth. -/
theorem starts_up_shortLived :
    ∃ run w now, Starting shortLived helloLaunch run w now ∧
      w.entry.outcome = some (.error (.exitedDuringInit none)) ∧
      StartsUp shortLived 500 60000 ⟨⟨.port 40000, ""⟩, none, 7⟩ 5 run w now := by
  have hw : helloLaunch.before.Reachable :=
    (Reachable.step ⟨helloApp, "w0", [], .refl⟩ _ _).step _ _
  have hl : helloLaunch.Launches ⟨⟨.port 40000, ""⟩, none, 7⟩ := ⟨0, rfl, rfl⟩
  obtain ⟨⟨t, o, hends, run, w, now, h, ho⟩, hall⟩ :=
    starts_up hw hl rfl rfl (by decide) shortLived_untied
  have hexited :
      shortLived.Ends 500 60000 ⟨⟨.port 40000, ""⟩, none, 7⟩ 250
        (.error (.exitedDuringInit none)) := by
    refine .exited rfl (by decide) fun k hk => ?_
    have hlistens : 260 ≤ attemptAt 500 k := by simpa [Behaviour.answers, shortLived] using hk.1
    omega
  obtain ⟨-, rfl⟩ := hends.unique hexited
  exact ⟨run, w, now, h, ho, hall run w now h⟩

end Worker

end AppHost
