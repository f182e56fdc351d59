import AppHost.Proofs.Worker.IdleTimer

/-!
# Watching for idleness

`Vital` follows the process and the task that watches for idleness through a history: who has heard
of an exit, and whether the task is still there. `Alert` says what the task has in hand while it
watches a worker with nothing connected: an armed timer, or its expiry and a linger not yet over.
-/

namespace AppHost

namespace ExitNotification

theorem awaited_resolve (n : ExitNotification) (status : ExitStatus) :
    (n.resolve status).1.awaited.isSome = true := by
  cases n <;> rfl

theorem awaited_abandon (n : ExitNotification) : n.abandon.awaited.isSome = true := by
  cases n <;> rfl

end ExitNotification

namespace Worker

variable {app : AppSpec} {T : Nat} {history : List Moment} {w w' : Worker} {now later t : Time}
  {e : Event} {m : Moment}

-- ---------------------------------------------------------------------------
-- The process and the watching task
-- ---------------------------------------------------------------------------

structure Vital (history : List Moment) (w : Worker) (now : Time) : Prop where
  pending : ∀ l, w.launched = some l → l.exit = .pending ∨ history.any Moment.ends = true
  gone : history.any Moment.ends = true → w.gone = true
  /-- The watching task may not have been told yet, when the watcher of the process is lost. -/
  known : history.any Moment.ends = true → w.stage = .finished ∨
    (∃ m ∈ history, m.event = .abandoned ∧ m.time = now) ∨
    ∃ l, w.launched = some l ∧ l.exit.hasExited = true
  readied : w.stage.phase = .reaping → history.any Moment.readies = true
  reaped : history.any Moment.reaps = true → w.stage = .finished
  watched : history.any Moment.readies = true →
    w.stage.phase = .reaping ∨ history.any Moment.ends = true ∨ history.any Moment.reaps = true

theorem gone_iff : w.gone = true ↔ ∃ l, w.launched = some l ∧ l.exit.awaited.isSome = true := by
  cases hl : w.launched <;> simp [gone, hl]

/-- The process is the one before, gone or not as before, or it has just been launched, or its exit
is what happens. -/
theorem Effect.exit (h : Effect w now e w' acts) (hl : w'.launched = some l) :
    l.exit = .pending ∨ (∃ k, w.launched = some k ∧ l.exit = k.exit) ∨
      (Moment.mk now w e).ends = true := by
  cases h with
  | launched =>
    obtain rfl := Option.some.inj hl
    exact .inl rfl
  | timedOut | stopped | killed =>
    simp only [timeOut, kill_eq, Option.map_eq_some_iff] at hl
    obtain ⟨k, hk, rfl⟩ := hl
    exact .inr (.inl ⟨k, hk, Launched.killed_exit k⟩)
  | exited | abandoned =>
    obtain ⟨k, hk, -⟩ := Option.map_eq_some_iff.mp hl
    exact .inr (.inr (by simp [Moment.ends, hk]))
  | handled hk =>
    obtain rfl := Option.some.inj hl
    exact .inr (.inl ⟨_, hk, rfl⟩)
  | _ => exact .inr (.inl ⟨l, hl, rfl⟩)

theorem Effect.finished (h : Effect w now e w' acts) (hs : w.stage = .finished) :
    w'.stage = .finished := by
  cases h with
  | timedOut | stopped | killed => simp_all [kill_eq, Stage.phase]
  | _ => simp_all [cleanUp, Stage.phase]

theorem Effect.reaping (h : Effect w now e w' acts) (hs : w'.stage.phase = .reaping) :
    w.stage.phase = .reaping ∨ w.stage.phase = .probing := by
  cases h with
  | timedOut | stopped | killed => simp_all [timeOut, kill_eq, Stage.phase]
  | _ => simp_all [abandon, cleanUp, becomeReady, Stage.phase]

theorem step_lingered_of_idle (hs : w.stage = .lingering since)
    (hx : ∀ latest, w.entry.expiries.getLast? = some latest → latest ≤ since)
    (hc : w.entry.count = 0) (ha : w.entry.idleArmed = false) :
    w.step now .lingered =
      { w.unread with dropLog := true, stage := .finished }.kill now false := by
  have hstop : w.unread.stopIfIdle now =
      ({ w.unread with dropLog := true, stage := .finished }.kill now false) := by
    replace hc : w.unread.entry.count = 0 := hc
    replace ha : w.unread.entry.idleArmed = false := ha
    simp [stopIfIdle, hc, ha]
  simp only [step, hs, endLinger, Entry.takeExpiries]
  split
  · next latest hlatest =>
    rw [if_neg (Nat.not_lt.mpr (hx latest hlatest))]
    exact hstop
  · exact hstop

/-- When the one kill request is sent: the linger period is over with no later expiry, nothing is
connected, the timer is not armed, and the process is not known to be gone. -/
theorem reaps_iff : (Moment.mk now w e).reaps = true ↔
    e = .lingered ∧ ∃ since l, w.stage = .lingering since ∧
      (∀ latest, w.entry.expiries.getLast? = some latest → latest ≤ since) ∧ w.entry.count = 0 ∧
      w.entry.idleArmed = false ∧ w.launched = some l ∧ l.exit.hasExited = false := by
  constructor
  · intro hr
    have h := w.step_effect now e
    cases e with
    | lingered =>
      replace hr : (w.step now .lingered).2.any Act.graceful = true := hr
      generalize (w.step now .lingered).1 = w', (w.step now .lingered).2 = acts at h hr
      cases h with
      | stopped hs hx hc ha =>
        obtain ⟨act, hact, -⟩ := List.any_eq_true.mp hr
        obtain ⟨l, hl, hexit, -⟩ := mem_kill_acts.mp hact
        exact ⟨rfl, _, l, hs, hx, hc, ha, hl, hexit⟩
      | _ => simp at hr
    | _ => simp [Moment.reaps] at hr
  · rintro ⟨rfl, since, l, hs, hx, hc, ha, hl, hexit⟩
    have hacts : (w.step now .lingered).2 = [.kill l.process false] := by
      rw [step_lingered_of_idle hs hx hc ha]
      simp [kill, unread, hl, hexit]
    simp [Moment.reaps, Moment.acts, hacts, Act.graceful]

theorem Effect.unwatched (h : Effect w now e w' acts) (hw : w.Sound)
    (hs : w.stage.phase = .reaping) :
    w'.stage.phase = .reaping ∨ w.gone = true ∨ (Moment.mk now w e).reaps = true := by
  cases h with
  | noticed _ hg => exact .inr (.inl hg)
  | stopped hs' hx hc ha =>
    obtain ⟨l, hl, -⟩ := hw.attended (.inr hs)
    cases hexit : l.exit.hasExited with
    | false => exact .inr (.inr (reaps_iff.mpr ⟨rfl, _, l, hs', hx, hc, ha, hl, hexit⟩))
    | true =>
      refine .inr (.inl (gone_iff.mpr ⟨l, hl, ?_⟩))
      cases hn : l.exit <;>
        simp_all [ExitNotification.hasExited, ExitNotification.status, ExitNotification.awaited]
  | timedOut | killed => simp_all [kill_eq, Stage.phase]
  | _ => simp_all [cleanUp, Stage.phase]

theorem any_append_singleton (p : Moment → Bool) :
    (history ++ [m]).any p = true ↔ history.any p = true ∨ p m = true := by
  rw [List.any_append, Bool.or_eq_true]
  simp only [List.any_cons, List.any_nil, Bool.or_false]

theorem gone_of_ends (hends : (Moment.mk now w e).ends = true) : (w.step now e).1.gone = true := by
  cases e with
  | exited status =>
    obtain ⟨l, hl : w.launched = some l⟩ := Option.isSome_iff_exists.mp hends
    exact gone_iff.mpr
      ⟨{ l with exit := (l.exit.resolve status).1 }, by simp [step, hl],
        l.exit.awaited_resolve status⟩
  | abandoned =>
    obtain ⟨l, hl : w.launched = some l⟩ := Option.isSome_iff_exists.mp hends
    exact gone_iff.mpr ⟨{ l with exit := l.exit.abandon }, by simp [step, hl],
      l.exit.awaited_abandon⟩
  | _ => cases hends

theorem Vital.known_happen (h : Vital history w now) (hw : w.Sound)
    (hends : (history ++ [Moment.mk now w e]).any Moment.ends = true) :
    (w.step now e).1.stage = .finished ∨
      (∃ m ∈ history ++ [⟨now, w, e⟩], m.event = .abandoned ∧ m.time = now) ∨
      ∃ l, (w.step now e).1.launched = some l ∧ l.exit.hasExited = true := by
  have hbefore : history.any Moment.ends = true → (w.step now e).1.stage = .finished ∨
      (∃ m ∈ history ++ [⟨now, w, e⟩], m.event = .abandoned ∧ m.time = now) ∨
      ∃ l, (w.step now e).1.launched = some l ∧ l.exit.hasExited = true := by
    intro hends
    rcases h.known hends with hs | ⟨m, hm, hlost⟩ | ⟨l, hl, hx⟩
    · exact .inl ((w.step_effect now e).finished hs)
    · exact .inr (.inl ⟨m, List.mem_append_left _ hm, hlost⟩)
    · obtain ⟨l', hl', -, hx', -⟩ := (w.step_effect now e).process hw hl
      exact .inr (.inr ⟨l', hl', hx' hx⟩)
  rcases (any_append_singleton _).mp hends with hends | hends
  · exact hbefore hends
  · cases e with
    | abandoned => exact .inr (.inl ⟨_, List.mem_append_right _ List.mem_cons_self, rfl, rfl⟩)
    | exited status =>
      obtain ⟨l, hl : w.launched = some l⟩ := Option.isSome_iff_exists.mp hends
      cases hx : l.exit with
      | abandoned =>
        -- The watcher was lost before, so nobody will hear of this exit.
        exact hbefore ((h.pending l hl).resolve_left (by simp [hx]))
      | _ =>
        refine .inr (.inr ⟨{ l with exit := (l.exit.resolve status).1 }, by simp [step, hl], ?_⟩)
        simp [hx, ExitNotification.resolve, ExitNotification.hasExited, ExitNotification.status]
    | _ => cases hends

theorem Vital.ends_of_gone (h : Vital history w now) (hg : w.gone = true) :
    history.any Moment.ends = true := by
  obtain ⟨l, hl, hx⟩ := gone_iff.mp hg
  refine (h.pending l hl).resolve_left fun hpending => ?_
  simp [hpending, ExitNotification.awaited] at hx

theorem Vital.watched_happen (h : Vital history w now) (hw : w.Sound)
    (hr : (history ++ [Moment.mk now w e]).any Moment.readies = true) :
    (w.step now e).1.stage.phase = .reaping ∨
      (history ++ [Moment.mk now w e]).any Moment.ends = true ∨
      (history ++ [Moment.mk now w e]).any Moment.reaps = true := by
  simp only [any_append_singleton]
  rcases (any_append_singleton _).mp hr with hr | hr
  · rcases h.watched hr with hphase | hends | hreaps
    · rcases (w.step_effect now e).unwatched hw hphase with hphase | hgone | hreaps
      · exact .inl hphase
      · exact .inr (.inl (.inl (h.ends_of_gone hgone)))
      · exact .inr (.inr (.inr hreaps))
    · exact .inr (.inl (.inl hends))
    · exact .inr (.inr (.inl hreaps))
  · exact .inl (of_decide_eq_true hr).2

theorem Vital.happen (h : Vital history w now) (hw : w.Sound) :
    Vital (history ++ [⟨now, w, e⟩]) (w.step now e).1 now := by
  have heff := w.step_effect now e
  refine ⟨?_, ?_, h.known_happen hw, ?_, ?_, h.watched_happen hw⟩
  · intro l hl
    rw [any_append_singleton]
    obtain hexit | ⟨k, hk, hexit⟩ | hends := heff.exit hl
    · exact .inl hexit
    · exact hexit ▸ (h.pending k hk).imp_right .inl
    · exact .inr (.inr hends)
  · intro hends
    rcases (any_append_singleton _).mp hends with hends | hends
    · obtain ⟨l, hl, hx⟩ := gone_iff.mp (h.gone hends)
      obtain ⟨l', hl', -, -, hx'⟩ := heff.process hw hl
      exact gone_iff.mpr ⟨l', hl', hx' hx⟩
    · exact gone_of_ends hends
  · intro hs
    rw [any_append_singleton]
    rcases heff.reaping hs with hphase | hphase
    · exact .inl (h.readied hphase)
    · exact .inr (decide_eq_true ⟨hphase, hs⟩)
  · intro hr
    rcases (any_append_singleton _).mp hr with hr | hr
    · exact heff.finished (h.reaped hr)
    · obtain ⟨rfl, since, l, hs, hx, hc, ha, -⟩ := reaps_iff.mp hr
      rw [step_lingered_of_idle hs hx hc ha, kill_eq]

/-- A task that watches the process ends as soon as the process is gone. -/
theorem AtRest.finished (hrest : w.AtRest) (hw : w.Sound) (hg : w.gone = true) :
    w.stage = .finished := by
  have hpending := hrest.2
  unfold pending? at hpending
  unfold gone at hg
  cases hs : w.stage with
  | finished => rfl
  | queued => simp [hs] at hpending
  | allocating | launching => simp [(hw.early (by rw [hs]; rfl)).1] at hg
  | _ => simp [hs, hg] at hpending

theorem Vital.wait (h : Vital history w now) (hw : w.Sound) (hrest : w.AtRest) :
    Vital history w later :=
  ⟨h.pending, h.gone, fun hends => .inl (hrest.finished hw (h.gone hends)), h.readied,
    h.reaped, h.watched⟩

theorem Life.vital (h : Life app history w now) : Vital history w now := by
  induction h with
  | spawned => constructor <;> simp [Worker.spawned, Stage.phase]
  | wait _ hlife _ hrest _ ih => exact ih.wait hlife.reachable.sound hrest
  | happen _ hlife _ ih => exact ih.happen hlife.reachable.sound

-- ---------------------------------------------------------------------------
-- What the watching task knows
-- ---------------------------------------------------------------------------

/-- The last expiry at hand is that of the timer armed at `s`, and the linger is not over. -/
def Lingers (T : Nat) (w : Worker) (now s : Time) : Prop :=
  w.entry.idleDue = none ∧ w.marks.getLast? = some (s + T) ∧
    now ≤ s + T + w.app.settings.appDefaults.idleLingerMs

/-- What holds while a worker is watched and its process runs. -/
structure Alert (T : Nat) (history : List Moment) (w : Worker) (now : Time) : Prop where
  idle : ∀ s, IdleSince history s → w.entry.idleDue = some (s + T) ∨ w.Lingers T now s
  busy : (∀ s, ¬IdleSince history s) → w.entry.count ≠ 0

theorem alert_of_busy (h : Track T history w now) (hc : w.entry.count ≠ 0) :
    Alert T history w now :=
  ⟨fun s hs => absurd (h.last s hs) hc, fun _ => hc⟩

theorem Alert.carry (h : Alert T history w now) (ha : m.arms = false) (hq : m.acquires = false)
    (hc : w'.entry.connections = w.entry.connections)
    (hidle : ∀ s, IdleSince history s → w.entry.idleDue = some (s + T) ∨ w.Lingers T now s →
      w'.entry.idleDue = some (s + T) ∨ w'.Lingers T now s) : Alert T (history ++ [m]) w' now := by
  have hquiet : ∀ s, IdleSince (history ++ [m]) s ↔ IdleSince history s := by
    intro s
    rw [idleSince_append]
    simp [ha, hq]
  constructor
  · intro s hs
    rw [hquiet] at hs
    exact hidle s hs (h.idle s hs)
  · intro hnone
    simp only [Entry.count, hc]
    exact h.busy fun s hs => hnone s ((hquiet s).mpr hs)

theorem alert_happen (hwatch : w.stage.phase = .reaping → Alert T history w now)
    (h : Track T history w now) (h' : Track T (history ++ [⟨now, w, e⟩]) (w.step now e).1 now)
    (ht : w.Timely now e)
    (hroom : (Moment.mk now w e).acquires = true → w.entry.connections.tally + 1 < UInt32.size)
    (hs : (w.step now e).1.stage.phase = .reaping) (hrunning : w.gone = false) :
    Alert T (history ++ [⟨now, w, e⟩]) (w.step now e).1 now := by
  have heff := w.step_effect now e
  -- A worker that has only now become ready, without arming its timer, has something connected.
  have hstart : (Moment.mk now w e).arms = false →
      (Alert T history w now → Alert T (history ++ [⟨now, w, e⟩]) (w.step now e).1 now) →
      Alert T (history ++ [⟨now, w, e⟩]) (w.step now e).1 now := by
    intro ha hold
    rcases heff.reaping hs with hphase | hphase
    · exact hold (hwatch hphase)
    · have hready : (Moment.mk now w e).readies = true := decide_eq_true ⟨hphase, hs⟩
      rw [Moment.arms_eq, hready, Bool.true_or, Bool.true_and] at ha
      exact alert_of_busy h' (of_decide_eq_false ha)
  cases beat_of_effect h.timeout heff rfl with
  | calm ha hq hc hd hm =>
    have hlast : (w.step now e).1.marks.getLast? = w.marks.getLast? := by
      rcases hm with hm | hm
      · rw [hm]
      · rw [hm]
        cases w.marks.getLast? <;> rfl
    refine hstart ha fun hold => hold.carry ha hq hc fun s _ hidle => ?_
    rwa [Lingers, hd, hlast, heff.app]
  | ended _ _ _ _ _ hend =>
    rcases hend with hend | hgone
    · simp [hs] at hend
    · simp [hrunning] at hgone
  | spared ha hq hc hd hm hu =>
    refine hstart ha fun hold => hold.carry ha hq hc fun s hsince hidle => ?_
    rcases hidle with hdue | ⟨hnone, -⟩
    · exact .inl (hd.trans hdue)
    · exact absurd (h.last s hsince) (hu.resolve_right (not_not_intro hnone))
  | acquired kind ha hq hc hd hm =>
    refine alert_of_busy h' ?_
    rw [Ne, h'.count_eq_zero_iff, hc, Connections.tally_add _ _ (hroom hq)]
    exact Nat.succ_ne_zero _
  | armed ha hc hz hd hm =>
    constructor
    · intro s hsince
      rcases idleSince_append.mp hsince with ⟨-, rfl⟩ | ⟨hno, -⟩
      · exact .inl hd
      · simp [ha] at hno
    · exact fun hnone => absurd (idleSince_append.mpr (.inl ⟨ha, rfl⟩)) (hnone now)
  | busy ha hq hc hz hd hm => exact alert_of_busy h' hz
  | expired due ha hq he hc hdue hd hm =>
    obtain rfl : e = .timer .idle := he
    refine hstart ha fun hold => hold.carry ha hq hc fun s _ hidle => .inr ?_
    rcases hidle with hdue' | ⟨hnone, -⟩
    · have hnow : now = s + T := Nat.le_antisymm (h.armed _ hdue').1 (ht.idle_due hdue')
      refine ⟨hd, ?_, ?_⟩
      · rw [hm, List.getLast?_concat]
        exact congrArg some hnow
      · exact Nat.le_trans (Nat.le_of_eq hnow) (Nat.le_add_right _ _)
    · simp [hnone] at hdue

theorem Alert.wait (h : Alert T history w now) (ht : Track T history w now) (hrest : w.AtRest)
    (hdue : ∀ d ∈ w.due, later ≤ d.1) (hs : w.stage.phase = .reaping) :
    Alert T history w later := by
  refine ⟨fun s hsince => (h.idle s hsince).imp_right ?_, h.busy⟩
  rintro ⟨hnone, hlast, -⟩
  refine ⟨hnone, hlast, ?_⟩
  cases hstage : w.stage with
  | watching =>
    -- An expiry that is at hand is read before the clock moves.
    have hpending := hrest.2
    cases hx : w.entry.expiries with
    | nil => simp [marks, hstage, Stage.since?, hx] at hlast
    | cons =>
      simp only [pending?, hstage, hx, List.isEmpty_cons, Bool.false_eq_true, if_false] at hpending
      split at hpending <;> cases hpending
  | lingering since =>
    have hle : later ≤ since + w.app.settings.appDefaults.idleLingerMs :=
      hdue _ (mem_due_lingered.mpr ⟨since, hstage, rfl⟩)
    have hmarks : w.marks = since :: w.entry.expiries := by simp [marks, hstage, Stage.since?]
    have hle' : since ≤ s + T := by
      have hsorted := ht.sorted
      rw [hmarks] at hsorted hlast
      rcases List.mem_cons.mp (List.mem_of_getLast? hlast) with heq | hmem
      · exact Nat.le_of_eq heq.symm
      · exact Nat.le_of_lt ((List.pairwise_cons.mp hsorted).1 _ hmem)
    exact Nat.le_trans hle (Nat.add_le_add_right hle' _)
  | _ => simp [hstage, Stage.phase] at hs

theorem Vital.running (h : Vital history w now) (hends : history.any Moment.ends = false) :
    w.gone = false :=
  Bool.eq_false_iff.mpr fun hg => Bool.eq_false_iff.mp hends (h.ends_of_gone hg)

theorem Life.app_eq (h : Life app history w now) : w.app = app := by
  induction h with
  | spawned => rfl
  | wait _ _ _ _ _ ih => exact ih
  | @happen _ w now e _ _ ih => exact (w.step_effect now e).app.trans ih

theorem Room.append (h : Room (history ++ [m])) :
    Room history ∧ (m.acquires = true → m.before.entry.connections.tally + 1 < UInt32.size) :=
  ⟨fun x hx => h x (List.mem_append_left _ hx), h m (List.mem_append_right _ List.mem_cons_self)⟩

theorem Life.alert (h : Life app history w now)
    (hT : app.settings.appDefaults.idleTimeoutMs = some T) (hroom : Room history)
    (hs : w.stage.phase = .reaping) (hends : history.any Moment.ends = false) :
    Alert T history w now := by
  induction h with
  | spawned => cases hs
  | wait _ hlife _ hrest hdue ih =>
    exact (ih hroom hs hends).wait (hlife.track hT hroom) hrest hdue hs
  | @happen history w now e hlife ht ih =>
    have hends' : history.any Moment.ends = false := by
      rw [List.any_append, Bool.or_eq_false_iff] at hends
      exact hends.1
    exact alert_happen (fun hphase => ih hroom.append.1 hphase hends')
      (hlife.track hT hroom.append.1)
      ((hlife.happen _ ht).track hT hroom) ht hroom.append.2 hs (hlife.vital.running hends')

end Worker

end AppHost
