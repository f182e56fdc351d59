import AppHost.Proofs.Worker.Watch

/-!
# Exact idle reaping

A worker that became ready is sent one graceful kill when its idle timer has expired and the linger
period is over, provided that nothing was connected, nor the timer armed again, since it was armed:
no sooner, no later and at no other time.
-/

namespace AppHost

namespace Worker

variable {app : AppSpec} {T : Nat} {history : List Moment} {w : Worker} {now t : Time} {e : Event}
  {m : Moment}

/-- The kill request is sent to a worker that is watched and runs, and at the end of its linger. -/
theorem Life.reap (h : Life app history w now)
    (hT : app.settings.appDefaults.idleTimeoutMs = some T) (hroom : Room history)
    (ht : w.Timely now e) (hlost : ∀ m ∈ history, m.event = .abandoned → m.time ≠ now)
    (hr : (Moment.mk now w e).reaps = true) :
    history.any Moment.readies = true ∧ history.any Moment.ends = false ∧ w.entry.count = 0 ∧
      ∃ s, IdleSince history s ∧ now = s + T + app.settings.appDefaults.idleLingerMs := by
  obtain ⟨rfl, since, l, hs, hx, hc, ha, hl, hexit⟩ := reaps_iff.mp hr
  have hphase : w.stage.phase = .reaping := by rw [hs]; rfl
  have hends : history.any Moment.ends = false := by
    refine Bool.eq_false_iff.mpr fun hends => ?_
    rcases h.vital.known hends with hfin | ⟨m, hm, hev, htime⟩ | ⟨k, hk, hknown⟩
    · simp [hs] at hfin
    · exact hlost m hm hev htime
    · obtain rfl := Option.some.inj (hl.symm.trans hk)
      simp [hexit] at hknown
  refine ⟨h.vital.readied hphase, hends, hc, ?_⟩
  have halert := h.alert hT hroom hphase hends
  have htrack := h.track hT hroom
  have hmarks : w.marks = since :: w.entry.expiries := by simp [marks, hs, Stage.since?]
  -- Every expiry at hand is later than the one the linger is for, so none is.
  have hnone : w.entry.expiries = [] := by
    have hsorted := htrack.sorted
    rw [hmarks] at hsorted
    cases hlast : w.entry.expiries.getLast? with
    | none => exact List.getLast?_eq_none_iff.mp hlast
    | some latest =>
      have hlt := (List.pairwise_cons.mp hsorted).1 _ (List.mem_of_getLast? hlast)
      exact absurd hlt (Nat.not_lt.mpr (hx latest hlast))
  have hidle : ∃ s, IdleSince history s := by
    refine Classical.byContradiction fun hno => ?_
    exact halert.busy (fun s hsince => hno ⟨s, hsince⟩) hc
  obtain ⟨s, hsince⟩ := hidle
  refine ⟨s, hsince, ?_⟩
  rcases halert.idle s hsince with hdue | ⟨-, hlast, hle⟩
  · simp [Entry.idleArmed, hdue] at ha
  · rw [hmarks, hnone] at hlast
    obtain rfl : since = s + T := by simpa using hlast
    obtain ⟨due, hdue, hmem⟩ := ht rfl
    obtain ⟨x, hx, rfl⟩ := mem_due_lingered.mp hmem
    obtain rfl : s + T = x := by simpa [hs] using hx
    rw [h.app_eq] at hdue hle
    exact Nat.le_antisymm hle hdue

theorem Life.reaps_once (h : Life app history w now) :
    (history.filter Moment.reaps).length ≤ 1 := by
  induction h with
  | spawned => simp
  | wait _ _ _ _ _ ih => exact ih
  | @happen history w now e hlife _ ih =>
    rw [List.filter_append, List.length_append]
    cases hr : (Moment.mk now w e).reaps with
    | false => simpa [hr] using ih
    | true =>
      obtain ⟨-, since, l, hs, -⟩ := reaps_iff.mp hr
      have hnone : history.filter Moment.reaps = [] := by
        refine List.filter_eq_nil_iff.mpr fun m hm hr => ?_
        have := hlife.vital.reaped (List.any_eq_true.mpr ⟨m, hm, hr⟩)
        simp [hs] at this
      simp [hnone, hr]

/-- What has happened until `t`, or until the kill. -/
def upTo (history : List Moment) (t : Time) : List Moment :=
  history.takeWhile fun m => m.time ≤ t && !m.reaps

/-- The kill is due at `t`: there was none before, the worker is ready, its process has not exited,
and the timer that was armed last, with nothing acquired since, has run and the linger after it. -/
structure ReapDue (T linger : Nat) (history : List Moment) (t : Time) : Prop where
  first : ∀ m ∈ history, m.reaps = true → t ≤ m.time
  ready : ∃ m ∈ upTo history t, m.readies = true
  running : ∀ m ∈ upTo history t, m.ends = false
  idle : ∃ s, IdleSince (upTo history t) s ∧ t = s + T + linger

/-- The worker is put to use, or out of it. -/
def Moment.active (m : Moment) : Bool := m.readies || m.acquires || m.releases

structure ReapedExactly (T linger : Nat) (history : List Moment) (now : Time) : Prop where
  onTime : ∀ t < now, (∃ m ∈ history, m.reaps = true ∧ m.time = t) ↔ ReapDue T linger history t
  unused : ∀ m ∈ history, m.reaps = true → m.before.entry.connections.tally = 0
  late : ∀ pre m post, history = pre ++ m :: post → m.reaps = true →
    ∀ x ∈ pre, x.active = true → x.time + T + linger ≤ m.time
  once : (history.filter Moment.reaps).length ≤ 1

theorem upTo_append (hpre : ∀ x ∈ pre, x.time ≤ m.time ∧ x.reaps = false) (hm : m.reaps = true) :
    upTo (pre ++ m :: post) m.time = pre := by
  unfold upTo
  rw [List.takeWhile_append_of_pos]
  · simp [hm]
  · intro x hx
    simpa using hpre x hx

theorem upTo_eq (h : ∀ m ∈ history, m.reaps = true → t < m.time) :
    upTo history t = history.takeWhile (·.time ≤ t) := by
  unfold upTo
  induction history with
  | nil => rfl
  | cons m rest ih =>
    have hrest := ih fun x hx => h x (List.mem_cons_of_mem _ hx)
    have hm := h m List.mem_cons_self
    cases hr : m.reaps with
    | false => simp [List.takeWhile_cons, hr, hrest]
    | true => simp [hr, Nat.not_le.mpr (hm hr)]

/-- Nothing puts the worker to use, or out of it, after the timer was armed for the last time. -/
theorem Life.inactive (h : Life app history w now)
    (hT : app.settings.appDefaults.idleTimeoutMs = some T) (hroom : Room history)
    (hidle : IdleSince history s) : ∀ x ∈ history, x.active = true → x.time ≤ s := by
  obtain ⟨pre, m, post, rfl, harms, rfl, hpost⟩ := hidle
  intro x hx hactive
  rcases List.mem_append.mp hx with hx | hx
  · exact h.split.1.times x hx
  · rcases List.mem_cons.mp hx with rfl | hx
    · exact Nat.le_refl _
    · obtain ⟨before, after, rfl⟩ := List.append_of_mem hx
      have hsplit : pre ++ m :: (before ++ x :: after) = (pre ++ m :: before) ++ x :: after := by
        simp
      obtain ⟨hlife, ht⟩ := Life.split (hsplit ▸ h)
      obtain ⟨hxarms, hxacq⟩ := hpost x hx
      have hroom' : Room ((pre ++ m :: before) ++ [x]) := by
        intro y hy
        refine hroom y ?_
        rw [hsplit, List.append_cons]
        exact List.mem_append_left _ hy
      have hsince : IdleSince (pre ++ m :: before) m.time :=
        ⟨pre, m, before, rfl, harms, rfl, fun y hy => hpost y (List.mem_append_left _ hy)⟩
      -- It would find nothing connected, and would arm the timer once more.
      have hcount : x.after.entry.count = 0 :=
        ((hlife.happen _ ht).track hT hroom').last m.time
          (idleSince_append.mpr (.inr ⟨hxarms, hxacq, hsince⟩))
      rw [Moment.arms_eq, hcount, decide_eq_true rfl, Bool.and_true] at hxarms
      rw [Moment.active, hxacq, Bool.or_false, hxarms] at hactive
      cases hactive

theorem Life.alone (h : Life app (pre ++ m :: post) w now) (hm : m.reaps = true) :
    (∀ x ∈ pre, x.reaps = false) ∧ ∀ x ∈ post, x.reaps = false := by
  have honce := h.reaps_once
  rw [List.filter_append, List.filter_cons_of_pos hm, List.length_append, List.length_cons] at honce
  have hpre : pre.filter Moment.reaps = [] := List.eq_nil_of_length_eq_zero (by omega)
  have hpost : post.filter Moment.reaps = [] := List.eq_nil_of_length_eq_zero (by omega)
  rw [List.filter_eq_nil_iff] at hpre hpost
  exact ⟨fun x hx => Bool.eq_false_iff.mpr (hpre x hx),
    fun x hx => Bool.eq_false_iff.mpr (hpost x hx)⟩

/-- The kill comes as the linger of a worker ends that has been idle since `s`. -/
theorem Life.kill (h : Life app (pre ++ m :: post) w now)
    (hT : app.settings.appDefaults.idleTimeoutMs = some T) (hroom : Room (pre ++ m :: post))
    (hties : ∀ a ∈ pre ++ m :: post, ∀ b ∈ pre ++ m :: post,
      a.event = .abandoned → b.event = .lingered → a.time ≠ b.time) (hm : m.reaps = true) :
    pre.any Moment.readies = true ∧ pre.any Moment.ends = false ∧ m.before.entry.count = 0 ∧
      ∃ s, IdleSince pre s ∧ m.time = s + T + app.settings.appDefaults.idleLingerMs := by
  obtain ⟨hlife, ht⟩ := h.split
  have hmem : m ∈ pre ++ m :: post := by simp
  refine hlife.reap hT (fun x hx => hroom x (List.mem_append_left _ hx)) ht ?_ hm
  exact fun a ha hlost => hties a (List.mem_append_left _ ha) m hmem hlost (reaps_iff.mp hm).1

/-- A worker that is due for its kill has had it by the time the clock has moved on. -/
theorem Life.reaped_of_due (h : Life app history w now)
    (hT : app.settings.appDefaults.idleTimeoutMs = some T) (hroom : Room history) (ht : t < now)
    (hdue : ReapDue T app.settings.appDefaults.idleLingerMs history t) :
    ∃ m ∈ history, m.reaps = true ∧ m.time = t := by
  refine Classical.byContradiction fun hno => ?_
  have hlater : ∀ m ∈ history, m.reaps = true → t < m.time := fun m hm hr =>
    Nat.lt_of_le_of_ne (hdue.first m hm hr) fun heq => hno ⟨m, hm, hr, heq.symm⟩
  obtain ⟨v, later, hlt, hcut⟩ := h.cut ht
  obtain ⟨-, ⟨m, hm, hready⟩, hrunning, s, hidle, rfl⟩ := hdue
  rw [upTo_eq hlater] at hm hrunning hidle
  have hbegins := List.takeWhile_prefix (l := history)
    fun m => m.time ≤ s + T + app.settings.appDefaults.idleLingerMs
  have hroom' : Room (history.takeWhile (·.time ≤ s + T + app.settings.appDefaults.idleLingerMs)) :=
    fun x hx => hroom x (hbegins.subset hx)
  have hends : (history.takeWhile
      (·.time ≤ s + T + app.settings.appDefaults.idleLingerMs)).any Moment.ends = false := by
    refine List.any_eq_false.mpr fun x hx => ?_
    simp [hrunning x hx]
  have hphase : v.stage.phase = .reaping := by
    rcases hcut.vital.watched (List.any_eq_true.mpr ⟨m, hm, hready⟩) with hphase | hany | hany
    · exact hphase
    · simp [hends] at hany
    · obtain ⟨x, hx, hr⟩ := List.any_eq_true.mp hany
      have hle := List.mem_takeWhile_imp hx
      exact absurd (hlater x (hbegins.subset hx) hr) (Nat.not_lt.mpr (of_decide_eq_true hle))
  -- Past its time the worker could neither have its timer armed nor be lingering.
  rcases (hcut.alert hT hroom' hphase hends).idle s hidle with harmed | ⟨-, -, hle⟩
  · have hle := ((hcut.track hT hroom').armed _ harmed).1
    exact absurd (Nat.le_trans hle (Nat.le_add_right _ _)) (Nat.not_le.mpr hlt)
  · rw [hcut.app_eq] at hle
    exact absurd hle (Nat.not_le.mpr hlt)

/-- The graceful kill comes when it is due and at no other time: once, never while anything is
connected or reserved, and never sooner than the idle timeout and the linger period after the worker
was last put to use or out of it. The loss of a process's watcher and the end of a linger are taken
to come at different times, as nobody knows which of the two would be seen first. -/
theorem reaped_exactly (h : Life app history w now)
    (hT : app.settings.appDefaults.idleTimeoutMs = some T) (hroom : Room history)
    (hties : ∀ a ∈ history, ∀ b ∈ history, a.event = .abandoned → b.event = .lingered →
      a.time ≠ b.time) : ReapedExactly T app.settings.appDefaults.idleLingerMs history now := by
  constructor
  · intro t ht
    constructor
    · rintro ⟨m, hm, hr, rfl⟩
      obtain ⟨pre, post, rfl⟩ := List.append_of_mem hm
      obtain ⟨hready, hends, -, s, hidle, htime⟩ := h.kill hT hroom hties hr
      obtain ⟨hpre, hpost⟩ := h.alone hr
      have hupto : upTo (pre ++ m :: post) m.time = pre :=
        upTo_append (fun x hx => ⟨h.split.1.times x hx, hpre x hx⟩) hr
      refine ⟨?_, ?_, ?_, s, hupto.symm ▸ hidle, htime⟩
      · intro x hx hxr
        rcases List.mem_append.mp hx with hx | hx
        · simp [hpre x hx] at hxr
        · rcases List.mem_cons.mp hx with rfl | hx
          · exact Nat.le_refl _
          · simp [hpost x hx] at hxr
      · rw [hupto]
        exact List.any_eq_true.mp hready
      · rw [hupto]
        exact fun x hx => Bool.eq_false_iff.mpr (List.any_eq_false.mp hends x hx)
    · exact h.reaped_of_due hT hroom ht
  · intro m hm hr
    obtain ⟨pre, post, rfl⟩ := List.append_of_mem hm
    obtain ⟨-, -, hcount, -⟩ := h.kill hT hroom hties hr
    have hroom' : Room pre := fun x hx => hroom x (List.mem_append_left _ hx)
    exact ((h.split.1.track hT hroom').count_eq_zero_iff).mp hcount
  · rintro pre m post rfl hr x hx hactive
    obtain ⟨-, -, -, s, hidle, htime⟩ := h.kill hT hroom hties hr
    have hroom' : Room pre := fun y hy => hroom y (List.mem_append_left _ hy)
    rw [htime]
    exact Nat.add_le_add_right
      (Nat.add_le_add_right (h.split.1.inactive hT hroom' hidle x hx hactive) T) _
  · exact h.reaps_once

/-- The history of a worker to which these events happen. -/
def record (w : Worker) : List (Time × Event) → List Moment
  | [] => []
  | (now, e) :: rest => ⟨now, w, e⟩ :: (w.step now e).1.record rest

/-- A worker that is never used. -/
def idleHistory : List Moment :=
  (spawned helloApp "w0" []).record [(0, .begin (some 0)),
    (0, .allocated (.ok ⟨.port 40000, ""⟩) ""), (5, .launched (.ok 7)), (30, .answered true),
    (5030, .timer .idle), (5030, .idleNoticed), (10030, .lingered)]

theorem idleHistory_life : ∃ w, Life helloApp idleHistory w 10031 := by
  have h : Life helloApp [] _ 0 := .spawned "w0" [] 0
  have h := (h.happen (.begin (some 0)) nofun).happen (.allocated (.ok ⟨.port 40000, ""⟩) "") nofun
  have h := (h.wait 5 (by decide) ⟨rfl, rfl⟩ (by decide)).happen (.launched (.ok 7)) nofun
  have h := (h.wait 30 (by decide) ⟨rfl, rfl⟩ (by decide)).happen (.answered true) nofun
  have h := (h.wait 5030 (by decide) ⟨rfl, rfl⟩ (by decide)).happen (.timer .idle)
    fun _ => ⟨5030, by decide, mem_due_idle.mpr rfl⟩
  have h := (h.happen .idleNoticed nofun).wait 10030 (by decide) ⟨rfl, rfl⟩ (by decide)
  have h := h.happen .lingered fun _ => ⟨10030, by decide, mem_due_lingered.mpr ⟨5030, rfl, rfl⟩⟩
  exact ⟨_, h.wait 10031 (by decide) ⟨rfl, rfl⟩ (by decide)⟩

theorem reaped_exactly_unused :
    ReapedExactly 5000 5000 idleHistory 10031 ∧ ∃ m ∈ idleHistory, m.reaps = true ∧
      m.time = 10030 := by
  obtain ⟨w, h⟩ := idleHistory_life
  have hroom : Room idleHistory := by
    intro m hm
    revert m
    decide
  have hlost : ∀ m ∈ idleHistory, m.event ≠ .abandoned := by simp [idleHistory, record]
  have hT : helloApp.settings.appDefaults.idleTimeoutMs = some 5000 := by decide
  exact ⟨reaped_exactly h hT hroom fun a ha _ _ ha' => absurd ha' (hlost a ha), by decide⟩

end Worker

end AppHost
