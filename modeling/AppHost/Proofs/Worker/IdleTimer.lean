import AppHost.Proofs.Worker.Life

/-!
# The idle timer through a life

`Beat` tells the few ways in which an event can touch the idle timer, whatever else it does. Two
readings of a history hang on them: when the timer was last armed, and which of its expiries are yet
to be dealt with. `Track` ties both to the entry, at every point of a life.
-/

namespace AppHost

/-- The expiry that the worker is being spared for. -/
def Stage.since? : Stage → Option Time
  | .lingering since => some since
  | _ => none

namespace Worker

/-- The expiries that are yet to be dealt with, oldest first. -/
def marks (w : Worker) : List Time := w.stage.since?.toList ++ w.entry.expiries

variable {T : Nat} {history : List Moment} {w w' : Worker} {now later : Time} {e : Event}
  {m : Moment}

-- ---------------------------------------------------------------------------
-- Beats
-- ---------------------------------------------------------------------------

/-- What a moment does to the idle timer and to the expiries at hand. -/
inductive Beat (T : Nat) (m : Moment) (w' : Worker) : Prop
  | calm (ha : m.arms = false) (hq : m.acquires = false)
    (hc : w'.entry.connections = m.before.entry.connections)
      (hd : w'.entry.idleDue = m.before.entry.idleDue)
    (hm : w'.marks = m.before.marks ∨ w'.marks = m.before.marks.getLast?.toList)
  /-- The worker is done with, or its process is gone. -/
  | ended (ha : m.arms = false) (hq : m.acquires = false)
    (hc : w'.entry.connections = m.before.entry.connections)
    (hd : w'.entry.idleDue = m.before.entry.idleDue ∨ w'.entry.idleDue = none)
    (hm : w'.marks.Sublist m.before.marks) (hend : w'.stage.phase = .ended ∨ m.before.gone = true)
  | spared (ha : m.arms = false) (hq : m.acquires = false)
    (hc : w'.entry.connections = m.before.entry.connections)
      (hd : w'.entry.idleDue = m.before.entry.idleDue)
    (hm : w'.marks = []) (hu : m.before.entry.count ≠ 0 ∨ m.before.entry.idleDue ≠ none)
  | acquired (kind : ConnKind) (ha : m.arms = false) (hq : m.acquires = true)
    (hc : w'.entry.connections = m.before.entry.connections.add kind) (hd : w'.entry.idleDue = none)
    (hm : w'.marks = m.before.marks)
  | armed (ha : m.arms = true) (hc : w'.entry.connections.tally ≤ m.before.entry.connections.tally)
    (hz : w'.entry.count = 0) (hd : w'.entry.idleDue = some (m.time + T))
      (hm : w'.marks = m.before.marks)
  /-- A release, or the worker's becoming ready, with something still connected. -/
  | busy (ha : m.arms = false) (hq : m.acquires = false)
    (hc : w'.entry.connections.tally ≤ m.before.entry.connections.tally) (hz : w'.entry.count ≠ 0)
    (hd : w'.entry.idleDue = m.before.entry.idleDue) (hm : w'.marks = m.before.marks)
  | expired (due : Time) (ha : m.arms = false) (hq : m.acquires = false)
      (he : m.event = .timer .idle)
    (hc : w'.entry.connections = m.before.entry.connections)
      (hdue : m.before.entry.idleDue = some due)
    (hd : w'.entry.idleDue = none) (hm : w'.marks = m.before.marks ++ [m.time])

def Event.answers : Event → Bool
  | .answered true => true
  | _ => false

theorem Effect.readied_of_phase (h : Effect w now e w' acts) (hs : w.stage.phase = .probing)
    (hs' : w'.stage.phase = .reaping) : e.answers = true := by
  cases h with
  | readied => rfl
  | timedOut => simp [timeOut, kill_eq, Stage.phase] at hs'
  | stopped => simp [kill_eq, Stage.phase] at hs'
  | ignored | exited | abandoned | handled | fired | acquired | released | pushed
  | shifted | killed =>
    simp_all [cleanUp, kill_eq]
  | _ => simp_all [Stage.phase]

theorem Moment.arms_eq (m : Moment) :
    m.arms = ((m.readies || m.releases) && decide (m.after.entry.count = 0)) := rfl

theorem beat_of_released {e₀ : Entry} {kind : ConnKind} (hT : w.entry.idleTimeout = some T)
    (hrel : (Moment.mk now w e).releases = !w.entry.ignoresRelease kind)
    (hready : (Moment.mk now w e).readies = false) (hacq : (Moment.mk now w e).acquires = false)
    (h₀ : ∃ rs, e₀ = { w.entry with reservations := rs })
    (hafter : (w.step now e).1 = { w with entry := e₀.release now kind }) :
    Beat T ⟨now, w, e⟩ { w with entry := e₀.release now kind } := by
  obtain ⟨rs, rfl⟩ := h₀
  have harms : (Moment.mk now w e).arms = (!w.entry.ignoresRelease kind &&
      decide (({ w.entry with reservations := rs }.release now kind).count = 0)) := by
    rw [Moment.arms_eq, hready, hrel, Moment.after, hafter]
    rfl
  obtain ⟨hi, heq⟩ | ⟨hi, hz, heq⟩ | ⟨hi, hz, heq⟩ :=
    Entry.release_cases { w.entry with reservations := rs } now kind hT
  all_goals
    replace hi : w.entry.ignoresRelease kind = _ := hi
    rw [hi, heq] at harms
    rw [heq]
  · exact .calm harms hacq rfl rfl (.inl rfl)
  · exact .armed (harms.trans (decide_eq_true hz)) (Connections.tally_remove_le _ _) hz rfl rfl
  · exact .busy (harms.trans (decide_eq_false hz)) hacq (Connections.tally_remove_le _ _) hz rfl rfl

theorem beat_of_effect {acts : List Act} (hT : w.entry.idleTimeout = some T)
    (h : Effect w now e w' acts) (hafter : (w.step now e).1 = w') : Beat T ⟨now, w, e⟩ w' := by
  have hready : e.answers = false → (Moment.mk now w e).readies = false := by
    intro hno
    refine Bool.eq_false_iff.mpr fun hr => ?_
    obtain ⟨hs, hs'⟩ := of_decide_eq_true hr
    exact Bool.eq_false_iff.mp hno (h.readied_of_phase hs (hafter ▸ hs'))
  have harms : e.answers = false → (Moment.mk now w e).releases = false →
      (Moment.mk now w e).arms = false := by
    intro hno hrel
    rw [Moment.arms_eq, hready hno, hrel]
    rfl
  cases h with
  | ignored he =>
    have hr : (Moment.mk now w e).readies = false := by
      simp only [Moment.readies, Moment.after, hafter]
      cases w.stage <;> simp [Stage.phase]
    have hl : (Moment.mk now w e).releases = false := by cases e <;> first | rfl | cases he
    refine .calm ?_ ?_ rfl rfl (.inl rfl)
    · rw [Moment.arms_eq, hr, hl]
      rfl
    · cases e <;> first | rfl | cases he
  | refused | unallocated | unlaunched =>
    refine .ended (harms rfl rfl) rfl ?_ (.inr ?_) ?_ (.inl rfl) <;>
      simp [abandon, cleanUp, marks, Stage.since?]
  | timedOut =>
    refine .ended (harms rfl rfl) rfl ?_ (.inr ?_) ?_ (.inl ?_) <;>
      simp [timeOut, kill_eq, marks, Stage.since?, Stage.phase]
  | noticed =>
    exact .ended (harms rfl rfl) rfl rfl (.inl rfl) (by simp [marks, Stage.since?]) (.inl rfl)
  | handled hl hx hr =>
    refine .ended (harms rfl rfl) rfl ?_ (.inr ?_) ?_ (.inr ?_) <;>
      simp [cleanUp, marks, gone, hl, hx]
  | begun hs | allocated hs | launched hs | unanswered hs | resumed hs =>
    exact .calm (harms rfl rfl) rfl rfl rfl (.inl (by simp [marks, hs, Stage.since?]))
  | exited | abandoned | pushed => exact .calm (harms rfl rfl) rfl rfl rfl (.inl rfl)
  | shifted =>
    obtain ⟨_, h⟩ := w.entry.shiftReservation_frame
    refine .calm (harms rfl rfl) rfl ?_ ?_ (.inl ?_) <;> simp [h, marks]
  | killed =>
    refine .calm (harms rfl rfl) rfl ?_ ?_ (.inl ?_) <;> simp [kill_eq, marks]
  | heard hs hx =>
    exact .calm (harms rfl rfl) rfl rfl rfl (.inl (by simp [marks, hs, hx, Stage.since?]))
  | lingersOn hs hx hlt =>
    refine .calm (harms rfl rfl) rfl rfl rfl (.inr ?_)
    simp [marks, hs, unread, Stage.since?, hx, List.getLast?_cons]
  | spared hs hx hu =>
    refine .spared (harms rfl rfl) rfl rfl rfl (by simp [marks, unread, Stage.since?]) ?_
    simpa [Entry.idleArmed, Option.isSome_iff_ne_none] using hu
  | stopped =>
    refine .ended (harms rfl rfl) rfl ?_ (.inl ?_) ?_ (.inl ?_) <;>
      simp [kill_eq, unread, marks, Stage.since?, Stage.phase]
  | @readied probe l hs hl =>
    have hr : (Moment.mk now w (.answered true)).readies = true := by
      simp [Moment.readies, Moment.after, hafter, becomeReady, hs, Stage.phase]
    have harms : (Moment.mk now w (.answered true)).arms =
        decide ((w.becomeReady now l).entry.count = 0) := by
      rw [Moment.arms_eq, hr, Moment.after, hafter]
      rfl
    have hmarks : w.marks = w.entry.expiries := by simp [marks, hs, Stage.since?]
    obtain ⟨o, ho⟩ := w.entry.resolve_frame (.ok ⟨l.endpoint, l.log, l.process⟩)
    rw [becomeReady, ho] at harms ⊢
    obtain ⟨hz, heq⟩ | ⟨hz, heq⟩ := Entry.armIdle_cases { w.entry with outcome := o } now hT
    all_goals rw [heq] at harms ⊢
    · exact .armed (harms.trans (decide_eq_true hz)) (Nat.le_refl _) hz rfl hmarks.symm
    · exact .busy (harms.trans (decide_eq_false hz)) rfl (Nat.le_refl _) hz rfl hmarks.symm
  | @fired timer =>
    cases timer with
    | reservation id =>
      exact beat_of_released hT rfl (hready rfl) rfl (w.entry.dropReservation_frame id) hafter
    | idle =>
      cases hd : w.entry.idleDue with
      | none =>
        have heq : w.entry.fire now .idle = w.entry := by simp [Entry.fire, Entry.expireIdle, hd]
        rw [heq]
        exact .calm (harms rfl rfl) rfl rfl rfl (.inl rfl)
      | some due =>
        refine .expired due (harms rfl rfl) rfl rfl ?_ hd ?_ ?_ <;>
          simp [Entry.fire, Entry.expireIdle, hd, marks]
  | acquired => exact .acquired _ (harms rfl rfl) rfl rfl rfl rfl
  | released => exact beat_of_released hT rfl (hready rfl) rfl ⟨_, rfl⟩ hafter

-- ---------------------------------------------------------------------------
-- Tracking
-- ---------------------------------------------------------------------------

theorem Effect.idleTimeout (h : Effect w now e w' acts) :
    w'.entry.idleTimeout = w.entry.idleTimeout := by
  cases h with
  | timedOut | stopped | killed => simp [timeOut, kill_eq, unread]
  | acquired | pushed => rfl
  | _ => simp [abandon, cleanUp, becomeReady, unread]

theorem Effect.app (h : Effect w now e w' acts) : w'.app = w.app := by
  cases h with
  | timedOut | stopped | killed => simp [timeOut, kill_eq, unread]
  | _ => rfl

structure Track (T : Nat) (history : List Moment) (w : Worker) (now : Time) : Prop where
  timeout : w.entry.idleTimeout = some T
  room : w.entry.connections.tally < UInt32.size
  armed : ∀ due, w.entry.idleDue = some due → now ≤ due ∧ w.entry.count = 0
  marks : ∀ x ∈ w.marks, x ≤ now ∧ ∀ due, w.entry.idleDue = some due → x < due
  sorted : w.marks.Pairwise (· < ·)
  last : ∀ s, IdleSince history s → w.entry.count = 0

theorem Track.count_eq_zero_iff (h : Track T history w now) :
    w.entry.count = 0 ↔ w.entry.connections.tally = 0 :=
  Connections.total_eq_zero_iff _ h.room

/-- A timer that is armed is armed for its full time, and no expiry is added. -/
theorem Track.keep (h : Track T history w now) (hpos : 0 < T)
    (htimeout : w'.entry.idleTimeout = w.entry.idleTimeout)
    (hroom : w'.entry.connections.tally < UInt32.size) (hmarks : w'.marks.Sublist w.marks)
    (harmed : ∀ due, w'.entry.idleDue = some due → (w.entry.idleDue = some due ∨ due = now + T) ∧
      w'.entry.count = 0)
    (hlast : ∀ s, IdleSince (history ++ [m]) s → w'.entry.count = 0) :
    Track T (history ++ [m]) w' now := by
  refine ⟨htimeout.trans h.timeout, hroom, ?_, ?_, h.sorted.sublist hmarks, hlast⟩
  · intro due hdue
    obtain ⟨hold | rfl, hz⟩ := harmed due hdue
    · exact ⟨(h.armed due hold).1, hz⟩
    · exact ⟨Nat.le_add_right now T, hz⟩
  · intro x hx
    obtain ⟨hle, hlt⟩ := h.marks x (hmarks.subset hx)
    refine ⟨hle, fun due hdue => ?_⟩
    obtain ⟨hold | rfl, -⟩ := harmed due hdue
    · exact hlt due hold
    · exact Nat.lt_of_le_of_lt hle (Nat.lt_add_of_pos_right hpos)

theorem getLast?_sublist (l : List α) : l.getLast?.toList.Sublist l := by
  rcases List.eq_nil_or_concat l with rfl | ⟨xs, x, rfl⟩
  · simp
  · simp

/-- The connections stay, and at most a timer is cancelled or an expiry read. -/
theorem Track.still (h : Track T history w now) (hpos : 0 < T)
    (htimeout : w'.entry.idleTimeout = w.entry.idleTimeout) (ha : m.arms = false)
    (hc : w'.entry.connections = w.entry.connections)
    (hd : w'.entry.idleDue = w.entry.idleDue ∨ w'.entry.idleDue = none)
    (hm : w'.marks.Sublist w.marks) : Track T (history ++ [m]) w' now := by
  refine h.keep hpos htimeout (hc ▸ h.room) hm ?_ ?_
  · intro due hdue
    have hold : w.entry.idleDue = some due := by
      rcases hd with hd | hd
      · exact hd.symm.trans hdue
      · simp [hd] at hdue
    exact ⟨.inl hold, by simpa only [Entry.count, hc] using (h.armed due hold).2⟩
  · intro s hs
    simpa only [Entry.count, hc] using h.last s (hs.before ha)

/-- The timer expires, later than any expiry at hand. -/
theorem Track.expire {due : Time} (h : Track T history w now)
    (htimeout : w'.entry.idleTimeout = w.entry.idleTimeout) (ha : m.arms = false)
    (hc : w'.entry.connections = w.entry.connections)
    (hdue : w.entry.idleDue = some due) (hle : due ≤ now) (hd : w'.entry.idleDue = none)
    (hm : w'.marks = w.marks ++ [now]) : Track T (history ++ [m]) w' now := by
  refine ⟨htimeout.trans h.timeout, hc ▸ h.room, by simp [hd], ?_, ?_, ?_⟩
  · intro y hy
    refine ⟨?_, by simp [hd]⟩
    rw [hm] at hy
    rcases List.mem_append.mp hy with hy | hy
    · exact (h.marks y hy).1
    · exact Nat.le_of_eq (List.mem_singleton.mp hy)
  · rw [hm, List.pairwise_append]
    refine ⟨h.sorted, List.pairwise_singleton _ _, fun y hy z hz => ?_⟩
    obtain rfl := List.mem_singleton.mp hz
    exact Nat.lt_of_lt_of_le ((h.marks y hy).2 due hdue) hle
  · intro s hs
    simpa only [Entry.count, hc] using h.last s (hs.before ha)

theorem Track.happen (h : Track T history w now) (hpos : 0 < T) (ht : w.Timely now e)
    (hroom : (Moment.mk now w e).acquires = true → w.entry.connections.tally + 1 < UInt32.size) :
    Track T (history ++ [⟨now, w, e⟩]) (w.step now e).1 now := by
  have htimeout := (w.step_effect now e).idleTimeout
  cases beat_of_effect h.timeout (w.step_effect now e) rfl with
  | calm ha _ hc hd hm =>
    refine h.still hpos htimeout ha hc (.inl hd) ?_
    rcases hm with hm | hm
    · exact hm ▸ List.Sublist.refl _
    · exact hm ▸ getLast?_sublist _
  | ended ha _ hc hd hm => exact h.still hpos htimeout ha hc hd hm
  | spared ha _ hc hd hm => exact h.still hpos htimeout ha hc (.inl hd) (hm ▸ List.nil_sublist _)
  | acquired kind ha hq hc hd hm =>
    refine h.keep hpos htimeout ?_ (hm ▸ List.Sublist.refl _) (by simp [hd]) ?_
    · rw [hc, Connections.tally_add _ _ (hroom hq)]
      exact hroom hq
    · intro s hs
      rcases idleSince_append.mp hs with ⟨harms, -⟩ | ⟨-, hacq, -⟩
      · simp [ha] at harms
      · simp [hq] at hacq
  | armed _ hc hz hd hm =>
    refine h.keep hpos htimeout (Nat.lt_of_le_of_lt hc h.room) (hm ▸ List.Sublist.refl _)
      ?_ fun _ _ => hz
    intro due hdue
    exact ⟨.inr (Option.some.inj (hdue.symm.trans hd)), hz⟩
  | busy ha _ hc hz hd hm =>
    have hroom' := Nat.lt_of_le_of_lt hc h.room
    -- Nothing was idle before, for a release leaves no more than there was.
    have hbusy : w.entry.count ≠ 0 := by
      intro hzero
      rw [h.count_eq_zero_iff] at hzero
      exact hz ((Connections.total_eq_zero_iff _ hroom').mpr (Nat.le_zero.mp (hzero ▸ hc)))
    refine h.keep hpos htimeout hroom' (hm ▸ List.Sublist.refl _) ?_ ?_
    · exact fun due hdue => absurd (h.armed due (hd.symm.trans hdue)).2 hbusy
    · exact fun s hs => absurd (h.last s (hs.before ha)) hbusy
  | expired due ha _ he hc hdue hd hm =>
    obtain rfl : e = .timer .idle := he
    exact h.expire htimeout ha hc hdue (ht.idle_due hdue) hd hm

theorem Track.wait (h : Track T history w now) (hle : now ≤ later)
    (hdue : ∀ d ∈ w.due, later ≤ d.1) : Track T history w later := by
  refine ⟨h.timeout, h.room, ?_, ?_, h.sorted, h.last⟩
  · intro due hd
    exact ⟨hdue _ (mem_due_idle.mpr hd), (h.armed due hd).2⟩
  · intro x hx
    obtain ⟨hx, hlt⟩ := h.marks x hx
    exact ⟨Nat.le_trans hx hle, hlt⟩

theorem idleTimeoutMs_pos {d : AppDefaults} (h : d.idleTimeoutMs = some T) : 0 < T := by
  unfold AppDefaults.idleTimeoutMs at h
  split at h
  · cases h
  · simp only [Option.some.injEq, AppDefaults.maxIdleTimeoutMs] at h
    omega

/-- No acquisition of the history takes the count of connections beyond what a word holds. -/
def Room (history : List Moment) : Prop :=
  ∀ m ∈ history, m.acquires = true → m.before.entry.connections.tally + 1 < UInt32.size

theorem Life.track {app : AppSpec} (h : Life app history w now)
    (hT : app.settings.appDefaults.idleTimeoutMs = some T) (hroom : Room history) :
    Track T history w now := by
  induction h with
  | spawned id data now =>
    refine ⟨hT, by simp [Worker.spawned, Connections.tally], by simp [Worker.spawned], ?_, ?_, ?_⟩
    · simp [Worker.marks, Worker.spawned, Stage.since?]
    · simp [Worker.marks, Worker.spawned, Stage.since?]
    · exact fun s hs => absurd hs not_idleSince_nil
  | wait _ _ hle _ hdue ih => exact (ih hroom).wait hle hdue
  | happen _ _ ht ih =>
    refine (ih fun m hm => hroom m (List.mem_append_left _ hm)).happen (idleTimeoutMs_pos hT) ht ?_
    exact hroom _ (List.mem_append_right _ List.mem_cons_self)

end Worker

end AppHost
