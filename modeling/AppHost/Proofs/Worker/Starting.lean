import AppHost.Proofs.Worker.Attempts
import AppHost.Proofs.Worker.Settling

/-!
# Starting up

From its launch on a worker is tried, and its process does what it does. `Starting` is the part of a
worker's life that begins there: an attempt takes no time and finds the process as it is, and the
deadline is seen when nothing else is due first. As long as the spawn is open the worker is
`Underway`: one attempt was the last, nothing before it was answered, and neither the deadline nor
the end of the process has been passed over. It then comes to be `Ended`, in the way and at the time
that the process's behaviour determines.
-/

namespace AppHost

/-- What may happen to a worker whose process was launched at `start`. No attempt is under way when
the deadline is seen, and nothing else is due first. While the spawn is open the process ends at its
own time; nobody but the holder of a handle has a kill to request. -/
def Behaviour.Allows (b : Behaviour) (start : Time) (w : Worker) (now : Time) : Worker.Event → Prop
  | .answered listening => listening = b.answers (now - start)
  | .overdue => (∀ probe, w.stage ≠ .connecting probe) ∧ ∃ t, earliest? w.due = some (t, .overdue)
  | .exited _ | .abandoned => w.entry.outcome = none → ∃ e ∈ b.exits, now = start + e
  | .kill _ => w.entry.ready?.isSome = true
  | _ => True

namespace Worker

inductive Starting (b : Behaviour) (start : Moment) : List Moment → Worker → Time → Prop
  | launched : Starting b start [start] start.after start.time
  | wait (later : Time) (h : Starting b start run w now) (hle : now ≤ later) (hrest : w.AtRest)
    (hdue : ∀ d ∈ w.due, later ≤ d.1) (hanswered : ∀ probe, w.stage ≠ .connecting probe)
    (hexit : w.entry.outcome = none → ∀ e ∈ b.exits, later ≤ start.time + e) :
    Starting b start run w later
  | happen (e : Event) (h : Starting b start run w now) (ht : w.Timely now e)
    (ha : b.Allows start.time w now e) :
      Starting b start (run ++ [⟨now, w, e⟩]) (w.step now e).1 now

namespace Moment

def attempts (m : Moment) : List (Time × Endpoint) :=
  m.acts.filterMap fun
    | .connect _ endpoint => some (m.time, endpoint)
    | _ => none

def success? (m : Moment) : Option (Time × Endpoint) :=
  match m.before.stage, m.event with
  | .connecting probe, .answered true => some (m.time, probe.endpoint)
  | _, _ => none

end Moment

def attempts (run : List Moment) : List (Time × Endpoint) := run.flatMap Moment.attempts

def successes (run : List Moment) : List (Time × Endpoint) := run.filterMap Moment.success?

variable {b : Behaviour} {I D : Nat} {r : ReadyWorker} {start now later t : Time}
  {run : List Moment} {w w' : Worker} {j k : Nat} {e : Event} {m : Moment} {o : Outcome}
  {acts : List Act}

@[simp] theorem attempts_append : attempts (run ++ [m]) = attempts run ++ m.attempts := by
  simp [attempts]

@[simp] theorem successes_append : successes (run ++ [m]) = successes run ++ m.success?.toList := by
  cases hm : m.success? <;> simp [successes, hm]

-- ---------------------------------------------------------------------------
-- Events that are not about the startup
-- ---------------------------------------------------------------------------

theorem Effect.connects (h : Effect w now e w' acts) (hc : .connect via endpoint ∈ acts) :
    w.stage.phase = .early ∨ ∃ probe resume, w.stage = .pausing probe resume ∧ e = .resumed := by
  cases h with
  | launched hs => exact .inl (by rw [hs]; rfl)
  | resumed hs => exact .inr ⟨_, _, hs, rfl⟩
  | timedOut =>
    rcases List.mem_cons.mp hc with heq | hc
    · cases heq
    · obtain ⟨_, _, _, heq⟩ := mem_kill_acts.mp hc
      cases heq
  | stopped | killed =>
    obtain ⟨_, _, _, heq⟩ := mem_kill_acts.mp hc
    cases heq
  | handled =>
    rcases List.mem_cons.mp hc with heq | hc
    · cases heq
    · unfold logToRemove at hc
      split at hc
      · split at hc <;> simp at hc
      · cases hc
  | _ => simp at hc

theorem attempts_eq_nil (hs : w.stage.phase ≠ .early)
    (hr : ∀ probe resume, w.stage = .pausing probe resume → e ≠ .resumed) :
    (Moment.mk now w e).attempts = [] := by
  refine List.filterMap_eq_nil_iff.mpr fun act hact => ?_
  cases act with
  | connect via endpoint =>
    rcases (w.step_effect now e).connects hact with hearly | ⟨probe, resume, hpausing, he⟩
    · exact absurd hearly hs
    · exact absurd he (hr probe resume hpausing)
  | _ => rfl

/-- Events that change nothing about a startup. -/
def Event.aside : Event → Bool
  | .begin _ | .allocated .. | .launched _ | .timer _ | .idleNoticed | .lingered
  | .acquire _ | .release _
  | .pushReservation _ | .shiftReservation => true
  | _ => false

theorem Effect.aside (h : Effect w now e w' acts)
    (hs : w.stage.phase = .probing ∨ w.stage = .finished) (he : e.aside = true) :
    w'.app = w.app ∧ w'.stage = w.stage ∧ w'.entry.outcome = w.entry.outcome ∧
      w'.launched = w.launched := by
  cases h with
  | ignored => exact ⟨rfl, rfl, rfl, rfl⟩
  | fired | acquired | released | pushed | shifted => simp
  | readied | unanswered | resumed | timedOut | exited | abandoned | noticed | handled | killed =>
    cases he
  | refused hs' | begun hs' | unallocated hs' | allocated hs' | unlaunched hs'
  | launched hs' | heard hs'
  | lingersOn hs' | spared hs' | stopped hs' => simp [hs', Stage.phase] at hs

-- ---------------------------------------------------------------------------
-- Underway
-- ---------------------------------------------------------------------------

/-- The attempt of number `k` was not answered, and the next one is still to come. -/
structure Unanswered (b : Behaviour) (I D : Nat) (start now : Time) (k : Nat) : Prop where
  answer : b.answers (attemptAt I k) = false
  next : now ≤ start + attemptAt I (k + 1)
  deadline : now ≤ start + D

/-- Where the task that brings the worker up stands. -/
inductive Standing (b : Behaviour) (I D : Nat) (endpoint : Endpoint) (start now : Time) (k : Nat)
    (w : Worker) : Prop
  | connecting (hs : w.stage = .connecting ⟨via, endpoint, k, start + D⟩)
      (hnow : now = start + attemptAt I k)
  | pausing (hs : w.stage = .pausing ⟨via, endpoint, k, start + D⟩ (start + attemptAt I (k + 1)))
    (h : Unanswered b I D start now k)
  | noticed (hs : w.stage = .finished) (hg : w.gone = true) (h : Unanswered b I D start now k)

/-- The spawn is open, and the attempt of number `k` was the last. -/
structure Underway (b : Behaviour) (I D : Nat) (r : ReadyWorker) (start : Time) (run : List Moment)
    (w : Worker) (now : Time) (k : Nat) : Prop where
  interval : w.app.settings.appDefaults.healthCheckIntervalMs = I
  outcome : w.entry.outcome = none
  process : ∃ l, w.launched = some l ∧ r = ⟨l.endpoint, l.log, l.process⟩ ∧ l.kills = []
  attempts : Worker.attempts run = (List.range (k + 1)).map fun j =>
    (start + attemptAt I j, r.endpoint)
  tries : b.Tries I D k
  successes : Worker.successes run = []
  settles : ∀ m ∈ run, m.settles = false
  exits : ∀ x ∈ b.exits, now ≤ start + x
  gone : w.gone = true → ∃ x ∈ b.exits, now = start + x
  standing : Standing b I D r.endpoint start now k w

/-- The startup was given up at the deadline: the worker left its table then, and one forced kill
was passed on to the process, then and ever since. -/
structure GivenUp (D : Nat) (r : ReadyWorker) (start : Time) (run : List Moment) (w : Worker) :
    Prop where
  left : ∃ m ∈ run, m.settles = true ∧ m.before.entry.closed = false ∧ m.after.entry.closed = true ∧
    .leave false ∈ m.acts ∧ .kill r.process true ∈ m.acts
  closed : w.entry.closed = true
  killed : ∃ l, w.launched = some l ∧ l.process = r.process ∧ l.kills = [(start + D, true)]

/-- The task has nothing left to try. An exit that it has yet to notice comes before anything that
is due. -/
def Still (w : Worker) (now : Time) : Prop :=
  w.stage.phase = .reaping ∨ w.stage = .finished ∨
    ∃ probe resume, w.stage = .pausing probe resume ∧ w.gone = true ∧ now < resume ∧
    now < probe.deadline

/-- The startup came to its end at `start + t`. -/
structure Ended (b : Behaviour) (I D : Nat) (r : ReadyWorker) (start : Time) (run : List Moment)
    (w : Worker) (now : Time) (t : Nat) (o : Outcome) : Prop where
  ends : b.Ends I D r t o
  outcome : w.entry.outcome = some o
  attempts : ∃ n,
    Worker.attempts run = ((List.range n).map fun j => (start + attemptAt I j, r.endpoint)) ∧
    ∀ j, j < n ↔ b.Tries I D j
  successes : Worker.successes run = if o.isOk then [(start + t, r.endpoint)] else []
  settled : ∃ m ∈ run, m.settles = true
  settles : ∀ m ∈ run, m.settles = true → m.time = start + t ∧ m.after.entry.outcome = some o
  still : w.Still now
  givenUp : o = .error (.startupTimeout r.logFile) → w.stage = .finished ∧ GivenUp D r start run w

/-- A startup is under way, or came to its end. -/
def Tracked (b : Behaviour) (I D : Nat) (r : ReadyWorker) (start : Time) (run : List Moment)
    (w : Worker) (now : Time) : Prop :=
  (∃ k, Underway b I D r start run w now k) ∨ ∃ t o, Ended b I D r start run w now t o

theorem Standing.congr (h : Standing b I D endpoint start now k w) (hs : w'.stage = w.stage)
    (hg : w.gone = true → w'.gone = true) : Standing b I D endpoint start now k w' := by
  cases h with
  | connecting hs' hnow => exact .connecting (hs.trans hs') hnow
  | pausing hs' hno => exact .pausing (hs.trans hs') hno
  | noticed hs' hgone hno => exact .noticed (hs.trans hs') (hg hgone) hno

-- ---------------------------------------------------------------------------
-- One event while the spawn is open
-- ---------------------------------------------------------------------------

theorem success?_eq_none (he : e ≠ .answered true) : (Moment.mk now w e).success? = none := by
  unfold Moment.success?
  split
  · next hev => exact absurd hev he
  · rfl

theorem timely_of_untimed (he : e.timed = false) : w.Timely now e := by
  intro ht
  rw [he] at ht
  cases ht

theorem mem_due_resumed (hs : w.stage = .pausing probe resume) : (resume, .resumed) ∈ w.due := by
  simp [due, hs]

theorem mem_due_overdue (hs : w.stage = .pausing probe resume) :
    (probe.deadline, .overdue) ∈ w.due := by
  simp [due, hs]

/-- The deadline goes first only if the next attempt is due later: if both are due together, the
attempt is listed first. -/
theorem deadline_lt_of_earliest (hs : w.stage = .pausing probe resume)
    (h : earliest? w.due = some (t, .overdue)) : probe.deadline < resume := by
  have hmem := earliest?_mem h
  obtain rfl : t = probe.deadline := by simpa [due, hs] using hmem
  simp only [due, hs, List.cons_append] at h
  unfold earliest? at h
  split at h
  · cases h
  · split at h
    · cases h
    · next hlt =>
      cases h
      exact Nat.lt_of_not_le hlt

theorem earliest_of_deadline_lt (hs : w.stage = .pausing probe resume)
    (hlt : probe.deadline < resume) (htimers : ∀ u ∈ w.entry.timers, probe.deadline ≤ u.1) :
    earliest? w.due = some (probe.deadline, .overdue) := by
  simp only [due, hs, List.cons_append, List.nil_append]
  refine earliest?_cons_of_lt (earliest?_cons_of_le fun d hd => ?_) hlt
  obtain ⟨u, hu, rfl⟩ := List.mem_map.mp hd
  exact htimers u hu

theorem Timely.resumed (h : w.Timely now .resumed) (hs : w.stage = .pausing probe resume) :
    resume ≤ now := by
  obtain ⟨t, ht, hmem⟩ := h rfl
  obtain rfl : t = resume := by simpa [due, hs] using hmem
  exact ht

theorem Timely.overdue (h : w.Timely now .overdue) (hs : w.stage = .pausing probe resume) :
    probe.deadline ≤ now := by
  obtain ⟨t, ht, hmem⟩ := h rfl
  obtain rfl : t = probe.deadline := by simpa [due, hs] using hmem
  exact ht

theorem step_exitNoticed (w : Worker) (now : Time) : (w.step now .exitNoticed).1 = w ∨
    (w.gone = true ∧ (w.step now .exitNoticed).1 = { w with stage := .finished }) := by
  have h := w.step_effect now .exitNoticed
  generalize (w.step now .exitNoticed).1 = w', (w.step now .exitNoticed).2 = acts at h ⊢
  cases h with
  | ignored => exact .inl rfl
  | noticed _ hg => exact .inr ⟨hg, rfl⟩

theorem step_exitHandled (w : Worker) (now : Time) :
    (w.step now .exitHandled).1 = w ∨ ∃ l, w.launched = some l ∧ l.exit.awaited.isSome = true ∧
      (w.step now .exitHandled).1 =
      ({ w with launched := some { l with reaped := true } }.cleanUp l.log).1 := by
  have h := w.step_effect now .exitHandled
  generalize (w.step now .exitHandled).1 = w', (w.step now .exitHandled).2 = acts at h ⊢
  cases h with
  | ignored => exact .inl rfl
  | handled hl hx => exact .inr ⟨_, hl, hx, rfl⟩

theorem exit_eq_pending (hl : w.launched = some l) (hg : w.gone = false) : l.exit = .pending := by
  have hx : l.exit.awaited.isSome = false := by simpa [gone, hl] using hg
  cases he : l.exit with
  | pending => rfl
  | settled | abandoned => simp [he, ExitNotification.awaited] at hx

namespace Underway

theorem phase (h : Underway b I D r start run w now k) :
    w.stage.phase = .probing ∨ w.stage = .finished := by
  cases h.standing with
  | connecting hs => exact .inl (by rw [hs]; rfl)
  | pausing hs => exact .inl (by rw [hs]; rfl)
  | noticed hs => exact .inr hs

/-- No attempt that is yet to come finds the process listening any sooner. -/
theorem first (h : Underway b I D r start run w now k) (hI : 1 ≤ I) (hj : b.First I j) :
    now ≤ start + attemptAt I j ∧ (Unanswered b I D start now k → k < j) := by
  have hle : k ≤ j := by
    refine Nat.le_of_not_lt fun hlt => ?_
    have hno := h.tries.2.1 j hlt
    rw [hj.1] at hno
    cases hno
  have hlt : Unanswered b I D start now k → k < j := by
    intro hno
    refine Nat.lt_of_le_of_ne hle ?_
    rintro rfl
    have hanswer := hno.answer
    rw [hj.1] at hanswer
    cases hanswer
  refine ⟨?_, hlt⟩
  cases h.standing with
  | connecting _ hnow =>
    rw [hnow]
    exact Nat.add_le_add_left ((attemptAt_strictMono hI).monotone hle) _
  | pausing _ hno | noticed _ _ hno =>
    exact hno.next.trans (Nat.add_le_add_left ((attemptAt_strictMono hI).monotone (hlt hno)) _)

theorem deadline (h : Underway b I D r start run w now k) : now ≤ start + D := by
  cases h.standing with
  | connecting _ hnow =>
    rw [hnow]
    exact Nat.add_le_add_left h.tries.1 _
  | pausing _ hno | noticed _ _ hno => exact hno.deadline

theorem late (h : Underway b I D r start run w now k) : w.stage.phase ≠ .early := by
  rcases h.phase with hs | hs <;> rw [hs] <;> decide

theorem settles_append (h : Underway b I D r start run w now k)
    (ho : (w.step now e).1.entry.outcome = none) :
    ∀ m ∈ run ++ [⟨now, w, e⟩], m.settles = false := by
  intro m hm
  rcases List.mem_append.mp hm with hm | hm
  · exact h.settles m hm
  · obtain rfl := List.mem_singleton.mp hm
    simp [Moment.settles, Moment.after, ho]

theorem keep (h : Underway b I D r start run w now k) (happ : (w.step now e).1.app = w.app)
    (ho : (w.step now e).1.entry.outcome = none)
    (hl : ∃ l, (w.step now e).1.launched = some l ∧
      r = ⟨l.endpoint, l.log, l.process⟩ ∧ l.kills = [])
    (hg : (w.step now e).1.gone = true → ∃ x ∈ b.exits, now = start + x)
    (hstanding : Standing b I D r.endpoint start now k (w.step now e).1)
    (hr : ∀ probe resume, w.stage = .pausing probe resume → e ≠ .resumed)
    (he : (Moment.mk now w e).success? = none) :
    Underway b I D r start (run ++ [⟨now, w, e⟩]) (w.step now e).1 now k where
  interval := by rw [happ, h.interval]
  outcome := ho
  process := hl
  attempts := by rw [attempts_append, attempts_eq_nil h.late hr, List.append_nil, h.attempts]
  tries := h.tries
  successes := by rw [successes_append, h.successes, he]; rfl
  settles := h.settles_append ho
  exits := h.exits
  gone := hg
  standing := hstanding

theorem idle (h : Underway b I D r start run w now k) (hsame : (w.step now e).1 = w)
    (hr : ∀ probe resume, w.stage = .pausing probe resume → e ≠ .resumed)
    (he : (Moment.mk now w e).success? = none) :
    Underway b I D r start (run ++ [⟨now, w, e⟩]) (w.step now e).1 now k := by
  refine h.keep ?_ ?_ ?_ ?_ ?_ hr he
  · rw [hsame]
  · rw [hsame, h.outcome]
  · rw [hsame]
    exact h.process
  · rw [hsame]
    exact h.gone
  · rw [hsame]
    exact h.standing

theorem aside (h : Underway b I D r start run w now k) (he : e.aside = true) :
    Underway b I D r start (run ++ [⟨now, w, e⟩]) (w.step now e).1 now k := by
  obtain ⟨happ, hs, ho, hl⟩ := (w.step_effect now e).aside h.phase he
  have hgone : (w.step now e).1.gone = w.gone := by simp only [Worker.gone, hl]
  refine h.keep happ (ho.trans h.outcome) (hl.symm ▸ h.process) (hgone ▸ h.gone)
    (h.standing.congr hs fun hg => hgone.trans hg) ?_ (success?_eq_none ?_)
  · rintro - - - rfl
    cases he
  · rintro rfl
    cases he

theorem exit (h : Underway b I D r start run w now k) (hends : (Moment.mk now w e).ends = true)
    (ha : b.Allows start w now e) :
    Underway b I D r start (run ++ [⟨now, w, e⟩]) (w.step now e).1 now k := by
  obtain ⟨l, hl, hr, hkills⟩ := h.process
  have hexit : ∃ x ∈ b.exits, now = start + x := by
    cases e with
    | exited | abandoned => exact ha h.outcome
    | _ => cases hends
  have hstep : ∃ x, (w.step now e).1 = { w with launched := some { l with exit := x } } := by
    cases e with
    | exited status => exact ⟨(l.exit.resolve status).1, by simp [step, hl]⟩
    | abandoned => exact ⟨l.exit.abandon, by simp [step, hl]⟩
    | _ => cases hends
  have hgone := gone_of_ends hends
  obtain ⟨x, hstep⟩ := hstep
  refine h.keep ?_ ?_ ?_ (fun _ => hexit) (h.standing.congr ?_ fun _ => hgone) ?_
    (success?_eq_none ?_)
  · rw [hstep]
  · rw [hstep, h.outcome]
  · rw [hstep]
    exact ⟨_, rfl, hr, hkills⟩
  · rw [hstep]
  · rintro - - - rfl
    cases hends
  · rintro rfl
    cases hends

theorem settle (h : Underway b I D r start run w now k) (hI : 1 ≤ I) (ht : now = start + t)
    (hends : b.Ends I D r t o) (ho : (w.step now e).1.entry.outcome = some o)
    (hlast : ∀ j, b.Tries I D j → j ≤ k)
    (hr : ∀ probe resume, w.stage = .pausing probe resume → e ≠ .resumed)
    (he : (Moment.mk now w e).success?.toList = if o.isOk then [(now, r.endpoint)] else [])
    (hstill : (w.step now e).1.Still now)
    (hup : o = .error (.startupTimeout r.logFile) → (w.step now e).1.stage = .finished ∧
      GivenUp D r start (run ++ [⟨now, w, e⟩]) (w.step now e).1) :
    Ended b I D r start (run ++ [⟨now, w, e⟩]) (w.step now e).1 now t o where
  ends := hends
  outcome := ho
  attempts := by
    refine ⟨k + 1, ?_, fun j => ⟨fun hj => h.tries.mono hI (Nat.le_of_lt_succ hj),
      fun hj => Nat.lt_succ_of_le (hlast j hj)⟩⟩
    rw [attempts_append, attempts_eq_nil h.late hr, List.append_nil, h.attempts]
  successes := by rw [successes_append, h.successes, he, ht, List.nil_append]
  settled :=
    ⟨_, List.mem_append_right _ List.mem_cons_self, Moment.settles_iff.mpr ⟨h.outcome, o, ho⟩⟩
  settles := by
    intro m hm hs
    rcases List.mem_append.mp hm with hm | hm
    · rw [h.settles m hm] at hs
      cases hs
    · obtain rfl := List.mem_singleton.mp hm
      exact ⟨ht, ho⟩
  still := hstill
  givenUp := hup

theorem refused (h : Underway b I D r start run w now k) (hI : 1 ≤ I)
    (hs : w.stage = .connecting ⟨via, r.endpoint, k, start + D⟩)
    (hnow : now = start + attemptAt I k) (hno : b.answers (attemptAt I k) = false) :
    (w.step now (.answered false)).1.stage =
        .pausing ⟨via, r.endpoint, k, start + D⟩ (start + attemptAt I (k + 1)) ∧
      Underway b I D r start (run ++ [⟨now, w, .answered false⟩])
        (w.step now (.answered false)).1 now k := by
  obtain ⟨l, hl, -⟩ := h.process
  have hresume : now + connectPause w.app.settings.appDefaults.healthCheckIntervalMs k =
      start + attemptAt I (k + 1) := by rw [h.interval, hnow, attemptAt_succ, Nat.add_assoc]
  have hstep : (w.step now (.answered false)).1 =
      { w with
        stage := .pausing ⟨via, r.endpoint, k, start + D⟩ (start + attemptAt I (k + 1)) } := by
    simp [step, hs, hl, hresume]
  have hnext : now ≤ start + attemptAt I (k + 1) := by
    rw [hnow]
    exact Nat.add_le_add_left ((attemptAt_strictMono hI).monotone (Nat.le_succ k)) _
  refine ⟨by rw [hstep], h.keep ?_ ?_ ?_ ?_ ?_ (by simp) (success?_eq_none (by simp))⟩
  · rw [hstep]
  · rw [hstep, h.outcome]
  · rw [hstep]
    exact h.process
  · rw [hstep]
    exact h.gone
  · rw [hstep]
    exact .pausing rfl ⟨hno, hnext, h.deadline⟩

theorem answered (h : Underway b I D r start run w now k) (hI : 1 ≤ I)
    (ha : b.Allows start w now (.answered listening)) :
    Tracked b I D r start (run ++ [⟨now, w, .answered listening⟩])
      (w.step now (.answered listening)).1 now := by
  obtain ⟨l, hl, hr, -⟩ := h.process
  cases h.standing with
  | connecting hs hnow =>
    have hlisten : listening = b.answers (attemptAt I k) := by
      rw [show listening = b.answers (now - start) from ha, hnow, Nat.add_sub_cancel_left]
    cases listening with
    | true =>
      have hstep : (w.step now (.answered true)).1 = w.becomeReady now l := by simp [step, hs, hl]
      refine .inr ⟨attemptAt I k, .ok r, h.settle hI hnow ?_ ?_ ?_ (by simp) ?_ ?_ (by simp)⟩
      · exact .ready ⟨hlisten.symm, h.tries.2.1⟩ h.tries.1 fun x hx =>
          Nat.le_of_lt (h.tries.2.2 x hx)
      · rw [hstep, hr]
        simp [becomeReady, Entry.resolve_outcome, h.outcome]
      · intro j hj
        refine Nat.le_of_not_lt fun hlt => ?_
        have hno := hj.2.1 k hlt
        rw [← hlisten] at hno
        cases hno
      · simp [Moment.success?, hs, Except.isOk, Except.toBool]
      · rw [hstep]
        exact .inl rfl
    | false => exact .inl ⟨k, (h.refused hI hs hnow hlisten.symm).2⟩
  | pausing hs | noticed hs =>
    refine .inl ⟨k, h.idle (by simp [step, hs]) (by simp) ?_⟩
    simp [Moment.success?, hs]

theorem next (h : Underway b I D r start run w now k) (hb : b.Untied I D)
    (hs : w.stage = .pausing ⟨via, r.endpoint, k, start + D⟩ (start + attemptAt I (k + 1)))
    (hno : Unanswered b I D start now k) (hnow : now = start + attemptAt I (k + 1)) :
    Underway b I D r start (run ++ [⟨now, w, .resumed⟩]) (w.step now .resumed).1 now (k + 1) := by
  have hstep : w.step now .resumed =
      ({ w with stage := .connecting ⟨via, r.endpoint, k + 1, start + D⟩ },
        [.connect via r.endpoint]) := by
    simp [step, hs]
  have hattempt : (Moment.mk now w .resumed).attempts =
      [(start + attemptAt I (k + 1), r.endpoint)] := by
    rw [Moment.attempts, Moment.acts, hstep, ← hnow]
    rfl
  rw [hstep]
  constructor
  · exact h.interval
  · exact h.outcome
  · exact h.process
  · rw [attempts_append, hattempt, h.attempts, List.range_succ (n := k + 1), List.map_append]
    rfl
  · refine ⟨Nat.le_of_add_le_add_left (hnow ▸ hno.deadline), fun j hj => ?_, fun x hx => ?_⟩
    · rcases Nat.lt_succ_iff_lt_or_eq.mp hj with hj | rfl
      · exact h.tries.2.1 j hj
      · exact hno.answer
    · refine Nat.lt_of_le_of_ne (Nat.le_of_add_le_add_left (hnow ▸ h.exits x hx)) fun heq => ?_
      exact (hb x hx).2 (k + 1) heq.symm
  · rw [successes_append, h.successes, success?_eq_none (e := .resumed) (by simp)]
    rfl
  · exact h.settles_append (by rw [hstep, h.outcome])
  · exact h.exits
  · exact h.gone
  · exact .connecting rfl hnow

theorem resumed (h : Underway b I D r start run w now k) (hb : b.Untied I D)
    (ht : w.Timely now .resumed) :
    ∃ k, Underway b I D r start (run ++ [⟨now, w, .resumed⟩]) (w.step now .resumed).1 now k := by
  cases h.standing with
  | connecting hs | noticed hs =>
    refine ⟨k, h.idle (by simp [step, hs]) ?_ (success?_eq_none (by simp))⟩
    intro probe resume hpausing
    simp [hs] at hpausing
  | pausing hs hno => exact ⟨k + 1, h.next hb hs hno (Nat.le_antisymm hno.next (ht.resumed hs))⟩

theorem ends_exited (h : Underway b I D r start run w now k) (hI : 1 ≤ I) (hb : b.Untied I D)
    (hx : x ∈ b.exits) (hnow : now = start + x) (hno : Unanswered b I D start now k) :
    b.Ends I D r x (.error (.exitedDuringInit r.logFile)) ∧ x < attemptAt I (k + 1) ∧ x < D := by
  subst hnow
  have hlate : x < D := Nat.lt_of_le_of_ne (Nat.le_of_add_le_add_left hno.deadline) (hb x hx).1
  refine ⟨.exited hx hlate fun j hj => ?_, ?_, hlate⟩
  · exact Nat.lt_of_le_of_ne (Nat.le_of_add_le_add_left (h.first hI hj).1) ((hb x hx).2 j)
  · exact Nat.lt_of_le_of_ne (Nat.le_of_add_le_add_left hno.next) ((hb x hx).2 (k + 1))

theorem running (h : Underway b I D r start run w now k) (hnow : now = start + t)
    (huntied : ∀ x ∈ b.exits, x ≠ t) : w.gone = false := by
  refine Bool.eq_false_iff.mpr fun hg => ?_
  obtain ⟨x, hx, hnow'⟩ := h.gone hg
  exact huntied x hx (Nat.add_left_cancel (hnow'.symm.trans hnow))

theorem unanswered (h : Underway b I D r start run w now k) (hb : b.Untied I D)
    (hg : w.gone = true) : Unanswered b I D start now k := by
  cases h.standing with
  | connecting _ hnow => simp [h.running hnow fun x hx => (hb x hx).2 k] at hg
  | pausing _ hno | noticed _ _ hno => exact hno

theorem exitNoticed (h : Underway b I D r start run w now k) (hb : b.Untied I D) :
    Underway b I D r start (run ++ [⟨now, w, .exitNoticed⟩]) (w.step now .exitNoticed).1 now k := by
  rcases w.step_exitNoticed now with hsame | ⟨hg, hstep⟩
  · exact h.idle hsame (by simp) (success?_eq_none (by simp))
  · refine h.keep ?_ ?_ ?_ ?_ ?_ (by simp) (success?_eq_none (by simp))
    · rw [hstep]
    · rw [hstep, h.outcome]
    · rw [hstep]
      exact h.process
    · rw [hstep]
      exact h.gone
    · rw [hstep]
      exact .noticed rfl hg (h.unanswered hb hg)

theorem exitHandled (h : Underway b I D r start run w now k) (hI : 1 ≤ I) (hb : b.Untied I D) :
    Tracked b I D r start (run ++ [⟨now, w, .exitHandled⟩]) (w.step now .exitHandled).1 now := by
  rcases w.step_exitHandled now with hsame | ⟨l, hl, hx, hstep⟩
  · exact .inl ⟨k, h.idle hsame (by simp) (success?_eq_none (by simp))⟩
  · have hg : w.gone = true := gone_iff.mpr ⟨l, hl, hx⟩
    have hno := h.unanswered hb hg
    obtain ⟨x, hx', hnow⟩ := h.gone hg
    obtain ⟨hends, hnext, hlate⟩ := h.ends_exited hI hb hx' hnow hno
    obtain ⟨k', hl', hr, -⟩ := h.process
    obtain rfl := Option.some.inj (hl.symm.trans hl')
    refine .inr ⟨x, _, h.settle hI hnow hends ?_ ?_ (by simp) ?_ ?_ (by simp)⟩
    · rw [hstep, hr]
      simp [cleanUp, Entry.resolve_outcome, h.outcome]
    · intro j hj
      have hlt : attemptAt I j < attemptAt I (k + 1) := (hj.2.2 x hx').trans hnext
      exact Nat.le_of_lt_succ ((attemptAt_strictMono hI).lt_iff_lt.mp hlt)
    · rw [success?_eq_none (e := .exitHandled) (by simp)]
      rfl
    · rw [hstep]
      cases h.standing with
      | connecting _ hnow' => simp [h.running hnow' fun x hx => (hb x hx).2 k] at hg
      | pausing hs =>
        refine .inr (.inr ⟨_, _, hs, gone_iff.mpr ⟨_, rfl, hx⟩, ?_, ?_⟩)
        · rw [hnow]
          exact Nat.add_lt_add_left hnext _
        · rw [hnow]
          exact Nat.add_lt_add_left hlate _
      | noticed hs => exact .inr (.inl hs)

theorem overdue (h : Underway b I D r start run w now k) (hI : 1 ≤ I) (hb : b.Untied I D)
    (hw : w.Reachable) (ht : w.Timely now .overdue) (ha : b.Allows start w now .overdue) :
    Ended b I D r start (run ++ [⟨now, w, .overdue⟩]) (w.step now .overdue).1 now D
      (.error (.startupTimeout r.logFile)) := by
  obtain ⟨hidle, t, hfirst⟩ := ha
  cases h.standing with
  | connecting hs => exact absurd hs (hidle _)
  | noticed hs =>
    have hmem := earliest?_mem hfirst
    simp [due, hs] at hmem
  | pausing hs hno =>
    have hnow : now = start + D := Nat.le_antisymm hno.deadline (ht.overdue hs)
    have hnext : D < attemptAt I (k + 1) :=
      Nat.lt_of_add_lt_add_left (deadline_lt_of_earliest hs hfirst)
    obtain ⟨l, hl, hr, hkills⟩ := h.process
    have hpending := exit_eq_pending hl (h.running hnow fun x hx => (hb x hx).1)
    have hstep : w.step now .overdue = w.timeOut now := by simp [step, hs]
    have hends : b.Ends I D r D (.error (.startupTimeout r.logFile)) := by
      refine .overdue (fun j hj => ?_) fun x hx => ?_
      · exact hnext.trans_le ((attemptAt_strictMono hI).monotone ((h.first hI hj).2 hno))
      · exact Nat.le_of_add_le_add_left (hnow ▸ h.exits x hx)
    have hkill : l.killed now true = { l with kills := [(start + D, true)] } := by
      simp [Launched.killed, hpending, ExitNotification.hasExited,
        ExitNotification.status, hkills, hnow]
    refine h.settle hI hnow hends ?_ ?_ (by simp) ?_ ?_ fun _ => ⟨?_, ?_⟩
    · rw [hstep, hr]
      simp [timeOut, kill_eq, Entry.resolve_outcome, h.outcome, hl]
    · intro j hj
      exact Nat.le_of_lt_succ ((attemptAt_strictMono hI).lt_iff_lt.mp (hj.1.trans_lt hnext))
    · rw [success?_eq_none (e := .overdue) (by simp)]
      rfl
    · rw [hstep]
      exact .inr (.inl (by simp [timeOut, kill_eq]))
    · rw [hstep]
      simp [timeOut, kill_eq]
    · refine ⟨⟨_, List.mem_append_right _ List.mem_cons_self, ?_, hw.sound.unresolved h.outcome, ?_,
        ?_, ?_⟩, ?_, ?_⟩
      · simp [Moment.settles, Moment.after, h.outcome, hstep, timeOut, kill_eq,
          Entry.resolve_outcome]
      · simp [Moment.after, hstep, timeOut, kill_eq]
      · simp [Moment.acts, hstep, timeOut]
      · rw [Moment.acts, hstep, hr]
        refine List.mem_cons_of_mem _ (mem_kill_acts.mpr ⟨l, hl, ?_, rfl⟩)
        rw [hpending]
        rfl
      · simp [hstep, timeOut, kill_eq]
      · refine ⟨l.killed now true, by simp [hstep, timeOut, kill_eq, hl], ?_, ?_⟩
        · rw [hr, Launched.killed_process]
        · rw [hkill]

theorem happen (h : Underway b I D r start run w now k) (hI : 1 ≤ I) (hb : b.Untied I D)
    (hw : w.Reachable) (ht : w.Timely now e) (ha : b.Allows start w now e) :
    Tracked b I D r start (run ++ [⟨now, w, e⟩]) (w.step now e).1 now := by
  obtain ⟨l, hl, -⟩ := h.process
  cases e with
  | answered listening => exact h.answered hI ha
  | resumed => exact .inl (h.resumed hb ht)
  | overdue => exact .inr ⟨D, _, h.overdue hI hb hw ht ha⟩
  | exited | abandoned => exact .inl ⟨k, h.exit (by simp [Moment.ends, hl]) ha⟩
  | exitNoticed => exact .inl ⟨k, h.exitNoticed hb⟩
  | exitHandled => exact h.exitHandled hI hb
  | kill force =>
    replace ha : w.entry.ready?.isSome = true := ha
    simp [Entry.ready?, h.outcome] at ha
  | begin | allocated | launched | timer | idleNoticed | lingered | acquire | release
  | pushReservation
  | shiftReservation => exact .inl ⟨k, h.aside rfl⟩

theorem exitPending (h : Underway b I D r start run w now k) (hw : w.Reachable)
    (hg : w.gone = true) : w.exitPending = true := by
  obtain ⟨l, hl, hx⟩ := gone_iff.mp hg
  exact exitPending_iff.mpr ⟨l, hl, hx, hw.unreaped h.outcome hl⟩

theorem wait (h : Underway b I D r start run w now k) (hw : w.Reachable) (hrest : w.AtRest)
    (hdue : ∀ d ∈ w.due, later ≤ d.1) (hanswered : ∀ probe, w.stage ≠ .connecting probe)
    (hexit : w.entry.outcome = none → ∀ x ∈ b.exits, later ≤ start + x) :
    Underway b I D r start run w later k := by
  have hgone : w.gone = false := by
    refine Bool.eq_false_iff.mpr fun hg => ?_
    have hpending := h.exitPending hw hg
    rw [hrest.1] at hpending
    cases hpending
  refine { h with
    exits := hexit h.outcome
    gone := fun hg => absurd hg (by simp [hgone])
    standing := ?_ }
  cases h.standing with
  | connecting hs => exact absurd hs (hanswered _)
  | pausing hs hno =>
    exact .pausing hs ⟨hno.answer, hdue _ (mem_due_resumed hs), hdue _ (mem_due_overdue hs)⟩
  | noticed _ hg => simp [hgone] at hg

end Underway

end Worker

end AppHost
