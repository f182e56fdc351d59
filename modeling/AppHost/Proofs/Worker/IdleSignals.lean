import AppHost.Proofs.Worker.Life

/-!
# When an entry says that it is idle

An entry is used in any order, and its timers fire as they fall due. `idle_signals` reads off the
history of these uses what comes through the channel of its idle timer: the instants at which the
timer has been armed for its full time, with nothing acquired and no other arming meanwhile, and no
others.
-/

namespace AppHost

theorem Connections.tally_eq_zero_iff (c : Connections) : c.tally = 0 ↔ c = {} := by
  obtain ⟨http, sock, pending⟩ := c
  simp [tally, ← UInt32.toNat_inj, and_assoc]

namespace Entry

-- ---------------------------------------------------------------------------
-- Uses
-- ---------------------------------------------------------------------------

/-- What can be done to an entry short of closing it. -/
inductive Use where
  | acquire (kind : ConnKind)
  | release (kind : ConnKind)
  | startIdle
  | pushReservation (timeout : Nat)
  | shiftReservation
  | expire (timer : Timer)
  | read
  | resolve (outcome : Outcome)

def use (e : Entry) (now : Time) : Use → Entry
  | .acquire kind => e.acquire kind
  | .release kind => e.release now kind
  | .startIdle => e.armIdle now
  | .pushReservation timeout => e.pushReservation now timeout
  | .shiftReservation => e.shiftReservation.1
  | .expire timer => e.fire now timer
  | .read => e.takeExpiries.1
  | .resolve outcome => (e.resolve outcome).1

structure Moment where
  time : Time
  before : Entry
  use : Use

namespace Moment

def after (m : Moment) : Entry := m.before.use m.time m.use

def received (m : Moment) : List Time := m.after.expiries.drop m.before.expiries.length

def acquires (m : Moment) : Bool :=
  match m.use with
  | .acquire _ => true
  | _ => false

/-- The idle timer is started, or a connection is given up and that counts. -/
def starts (m : Moment) : Bool :=
  match m.use with
  | .startIdle => true
  | .release kind => !m.before.ignoresRelease kind
  | .expire (.reservation _) => !m.before.ignoresRelease .pending
  | _ => false

/-- Nothing is left connected, and the idle timer starts afresh. -/
def arms (m : Moment) : Bool := m.starts && m.after.connections = {}

def Timely (m : Moment) : Prop :=
  m.use = .expire .idle → ∀ due, m.before.idleDue = some due → due ≤ m.time

end Moment

/-- An entry with its history, from its beginning to a point in time. The clock does not move past
the time at which a timer is due. -/
inductive Timeline (idleTimeout : Option Nat) : List Moment → Entry → Time → Prop
  | new (id : String) (data : List (String × Json)) (now : Time) :
      Timeline idleTimeout [] { id, data, idleTimeout } now
  | wait (later : Time) (h : Timeline idleTimeout history e now) (hle : now ≤ later)
      (hdue : ∀ d ∈ e.timers, later ≤ d.1) :
    Timeline idleTimeout history e later
  | use (u : Use) (h : Timeline idleTimeout history e now) (ht : (Moment.mk now e u).Timely) :
    Timeline idleTimeout (history ++ [⟨now, e, u⟩]) (e.use now u) now

/-- What becomes of an entry from some state and time on. -/
inductive Onward (e₀ : Entry) (t₀ : Time) : List Moment → Entry → Time → Prop
  | start : Onward e₀ t₀ [] e₀ t₀
  | wait (later : Time) (h : Onward e₀ t₀ history e now) (hle : now ≤ later)
      (hdue : ∀ d ∈ e.timers, later ≤ d.1) :
    Onward e₀ t₀ history e later
  | use (u : Use) (h : Onward e₀ t₀ history e now) (ht : (Moment.mk now e u).Timely) :
    Onward e₀ t₀ (history ++ [⟨now, e, u⟩]) (e.use now u) now

/-- The idle timer was last armed at `s`, and nothing has been acquired since. -/
def IdleSince (history : List Moment) (s : Time) : Prop :=
  ∃ pre m post, history = pre ++ m :: post ∧ m.arms = true ∧ m.time = s ∧
    ∀ x ∈ post, x.arms = false ∧ x.acquires = false

/-- It happens by `t`, and it is not that `t` is received. -/
def Moment.precedes (t : Time) (m : Moment) : Bool := m.time ≤ t && !m.received.contains t

/-- What had happened when `t` was received, or when the clock went past `t` if it was not. -/
def upTo (history : List Moment) (t : Time) : List Moment := history.takeWhile (·.precedes t)

/-- No acquisition takes the count of connections beyond what a word holds. -/
def Room (history : List Moment) : Prop :=
  ∀ m ∈ history, m.acquires = true → m.before.connections.tally + 1 < UInt32.size

instance (history : List Moment) : Decidable (Room history) := by
  unfold Room
  infer_instance

variable {idleTimeout : Option Nat} {T : Nat} {history : List Moment} {e : Entry} {now : Time}
  {m : Moment}

-- ---------------------------------------------------------------------------
-- Beats
-- ---------------------------------------------------------------------------

inductive Beat (T : Nat) (m : Moment) : Prop
  | calm (ha : m.arms = false) (hq : m.acquires = false) (hr : m.received = [])
    (hc : m.after.connections = m.before.connections) (hd : m.after.idleDue = m.before.idleDue)
  | acquired (kind : ConnKind) (ha : m.arms = false) (hq : m.acquires = true) (hr : m.received = [])
    (hc : m.after.connections = m.before.connections.add kind) (hd : m.after.idleDue = none)
  | armed (ha : m.arms = true) (hr : m.received = []) (hc : m.after.connections = {})
    (hd : m.after.idleDue = some (m.time + T))
  /-- A release, or a start of the timer, with something still connected. -/
  | busy (ha : m.arms = false) (hq : m.acquires = false) (hr : m.received = [])
    (hc : m.after.connections.tally ≤ m.before.connections.tally) (hz : m.after.connections ≠ {})
    (hd : m.after.idleDue = m.before.idleDue)
  | expired (due : Time) (ha : m.arms = false) (hq : m.acquires = false)
      (hr : m.received = [m.time])
    (hc : m.after.connections = m.before.connections) (hu : m.use = .expire .idle)
      (hdue : m.before.idleDue = some due)
    (hd : m.after.idleDue = none)

theorem use_idleTimeout (e : Entry) (now : Time) (u : Use) :
    (e.use now u).idleTimeout = e.idleTimeout := by
  cases u with
  | acquire | pushReservation | read => rfl
  | _ => simp [use]

theorem Moment.received_of_expiries (h : m.after.expiries = m.before.expiries) :
    m.received = [] := by
  rw [Moment.received, h, List.drop_length]

/-- A count of nothing is no connections, short of an overflow. -/
theorem count_eq_zero_iff (h : e.connections.tally < UInt32.size) :
    e.count = 0 ↔ e.connections = {} :=
  (e.connections.total_eq_zero_iff h).trans e.connections.tally_eq_zero_iff

theorem beat_of_armed (e₀ : Entry) (hT : e₀.idleTimeout = some T)
    (hroom : e₀.connections.tally < UInt32.size) (hafter : m.after = e₀.armIdle m.time)
    (hstarts : m.starts = true) (hq : m.acquires = false) (hx : e₀.expiries = m.before.expiries)
    (hd : e₀.idleDue = m.before.idleDue) (hc : e₀.connections.tally ≤ m.before.connections.tally) :
    Beat T m := by
  have harms : m.arms = decide (m.after.connections = {}) := by
    rw [Moment.arms, hstarts, Bool.true_and]
  obtain ⟨hz, heq⟩ | ⟨hz, heq⟩ := armIdle_cases e₀ m.time hT
  all_goals rw [heq] at hafter
  · have hnone : m.after.connections = {} := by rw [hafter, (count_eq_zero_iff hroom).mp hz]
    refine .armed (harms.trans (decide_eq_true hnone)) (Moment.received_of_expiries ?_) hnone ?_ <;>
      simp [hafter, hx]
  · have hsome : m.after.connections ≠ {} := by
      rw [hafter]; exact fun hnone => hz ((count_eq_zero_iff hroom).mpr hnone)
    refine .busy (harms.trans (decide_eq_false hsome)) hq (Moment.received_of_expiries ?_)
      ?_ hsome ?_ <;>
      simp [hafter, hx, hd, hc]

theorem beat_of_released (rs : List Reservation) (hT : m.before.idleTimeout = some T)
    (hroom : m.before.connections.tally < UInt32.size)
    (hafter : m.after = { m.before with reservations := rs }.release m.time kind)
    (hstarts : m.starts = !m.before.ignoresRelease kind) (hq : m.acquires = false) : Beat T m := by
  unfold release at hafter
  split at hafter
  · next hignored =>
    replace hignored : m.before.ignoresRelease kind = true := hignored
    refine .calm ?_ hq (Moment.received_of_expiries ?_) ?_ ?_ <;>
      simp [Moment.arms, hstarts, hignored, hafter]
  · next hcounts =>
    replace hcounts : ¬m.before.ignoresRelease kind = true := hcounts
    have hle := m.before.connections.tally_remove_le kind
    exact beat_of_armed
      { m.before with connections := m.before.connections.remove kind, reservations := rs }
      hT (Nat.lt_of_le_of_lt hle hroom) hafter (by simpa [hstarts] using hcounts) hq rfl rfl hle

theorem Moment.beat (m : Moment) (hT : m.before.idleTimeout = some T)
    (hroom : m.before.connections.tally < UInt32.size) : Beat T m := by
  obtain ⟨now, e, u⟩ := m
  cases u with
  | acquire kind => exact .acquired kind rfl rfl (received_of_expiries rfl) rfl rfl
  | release kind => exact beat_of_released e.reservations hT hroom rfl rfl rfl
  | startIdle => exact beat_of_armed e hT hroom rfl rfl rfl rfl rfl (Nat.le_refl _)
  | pushReservation => exact .calm rfl rfl (received_of_expiries rfl) rfl rfl
  | read => exact .calm rfl rfl List.drop_nil rfl rfl
  | shiftReservation =>
    obtain ⟨rs, h⟩ := e.shiftReservation_frame
    refine .calm rfl rfl (received_of_expiries ?_) ?_ ?_ <;> simp [Moment.after, Entry.use, h]
  | resolve outcome =>
    refine .calm rfl rfl (received_of_expiries ?_) ?_ ?_ <;> simp [Moment.after, Entry.use]
  | expire timer =>
    cases timer with
    | reservation id =>
      obtain ⟨rs, h⟩ := e.dropReservation_frame id
      refine beat_of_released rs hT hroom ?_ rfl rfl
      simp [Moment.after, Entry.use, fire, expireReservation, h]
    | idle =>
      cases hdue : e.idleDue with
      | none =>
        have hafter : (Moment.mk now e (.expire .idle)).after = e := by
          simp [Moment.after, Entry.use, fire, expireIdle, hdue]
        exact .calm rfl rfl (received_of_expiries (by rw [hafter])) (by rw [hafter])
          (by rw [hafter])
      | some due =>
        refine .expired due rfl rfl ?_ ?_ rfl hdue ?_ <;>
          simp [Moment.received, Moment.after, Entry.use, fire, expireIdle, hdue]

-- ---------------------------------------------------------------------------
-- The last arming
-- ---------------------------------------------------------------------------

theorem idleSince_append :
    IdleSince (history ++ [m]) s ↔
      (m.arms = true ∧ m.time = s) ∨
      (m.arms = false ∧ m.acquires = false ∧ IdleSince history s) := by
  simpa only [IdleSince, and_assoc] using exists_last_append
    (p := fun m => m.arms = true ∧ m.time = s)
    (q := fun m : Moment => m.arms = false ∧ m.acquires = false)

theorem IdleSince.before (h : IdleSince (history ++ [m]) s) (ha : m.arms = false) :
    m.acquires = false ∧ IdleSince history s := by
  rcases idleSince_append.mp h with ⟨harms, -⟩ | ⟨-, h⟩
  · simp [ha] at harms
  · exact h

theorem not_idleSince_nil : ¬IdleSince [] s := by
  rintro ⟨pre, m, post, h, -⟩
  simp at h

-- ---------------------------------------------------------------------------
-- Tracking
-- ---------------------------------------------------------------------------

structure Track (T : Nat) (history : List Moment) (e : Entry) (now : Time) : Prop where
  timeout : e.idleTimeout = some T
  room : e.connections.tally < UInt32.size
  times : ∀ m ∈ history, m.time ≤ now
  /-- An armed timer has been armed for its full time, and is not overdue. -/
  armed : ∀ due, e.idleDue = some due → now ≤ due ∧ ∃ s, IdleSince history s ∧ due = s + T
  /-- An entry that is idle has its timer armed, or has said so already. -/
  idle : ∀ s, IdleSince history s →
    e.connections = {} ∧ (e.idleDue = some (s + T) ∨ ∃ m ∈ history, s + T ∈ m.received)

/-- What is received is the time, and it is the time that the timer was armed for. -/
theorem Track.received (h : Track T history m.before m.time) (ht : m.Timely)
    (hmem : t ∈ m.received) : t = m.time ∧ m.before.idleDue = some t := by
  cases m.beat h.timeout h.room with
  | calm _ _ hr | acquired _ _ _ hr | armed _ hr | busy _ _ hr =>
    rw [hr] at hmem
    cases hmem
  | expired due _ _ hr _ hu hdue =>
    rw [hr] at hmem
    obtain rfl := List.mem_singleton.mp hmem
    obtain rfl : due = m.time := Nat.le_antisymm (ht hu due hdue) (h.armed due hdue).1
    exact ⟨rfl, hdue⟩

theorem Track.happen (h : Track T history m.before m.time) (ht : m.Timely)
    (hroom : m.acquires = true → m.before.connections.tally + 1 < UInt32.size) :
    Track T (history ++ [m]) m.after m.time := by
  have htimeout : m.after.idleTimeout = some T :=
    (m.before.use_idleTimeout m.time m.use).trans h.timeout
  have htimes : ∀ x ∈ history ++ [m], x.time ≤ m.time := by
    intro x hx
    rcases List.mem_append.mp hx with hx | hx
    · exact h.times x hx
    · exact Nat.le_of_eq (congrArg Moment.time (List.mem_singleton.mp hx))
  cases m.beat h.timeout h.room with
  | calm ha hq hr hc hd =>
    refine ⟨htimeout, hc ▸ h.room, htimes, fun due hdue => ?_, fun s hs => ?_⟩
    · obtain ⟨hle, s, hs, rfl⟩ := h.armed due (hd.symm.trans hdue)
      exact ⟨hle, s, idleSince_append.mpr (.inr ⟨ha, hq, hs⟩), rfl⟩
    · obtain ⟨hnone, hdue | ⟨x, hx, htold⟩⟩ := h.idle s (hs.before ha).2
      · exact ⟨hc.trans hnone, .inl (hd.trans hdue)⟩
      · exact ⟨hc.trans hnone, .inr ⟨x, List.mem_append_left _ hx, htold⟩⟩
  | acquired kind ha hq hr hc hd =>
    refine ⟨htimeout, ?_, htimes, by simp [hd], fun s hs => ?_⟩
    · rw [hc, Connections.tally_add _ kind (hroom hq)]
      exact hroom hq
    · exact absurd (hs.before ha).1 (by simp [hq])
  | armed ha hr hc hd =>
    refine ⟨htimeout, by simp [hc, Connections.tally], htimes, fun due hdue => ?_, fun s hs => ?_⟩
    · obtain rfl := Option.some.inj (hd.symm.trans hdue)
      exact ⟨Nat.le_add_right _ T, m.time, idleSince_append.mpr (.inl ⟨ha, rfl⟩), rfl⟩
    · rcases idleSince_append.mp hs with ⟨-, rfl⟩ | ⟨hcalm, -⟩
      · exact ⟨hc, .inl hd⟩
      · simp [ha] at hcalm
  | busy ha hq hr hc hz hd =>
    -- Nothing was idle before, for a release leaves no more than there was.
    have hbusy : ∀ s, ¬IdleSince history s := by
      intro s hs
      rw [(h.idle s hs).1] at hc
      exact hz ((Connections.tally_eq_zero_iff _).mp (Nat.le_zero.mp hc))
    refine ⟨htimeout, Nat.lt_of_le_of_lt hc h.room, htimes, fun due hdue => ?_, fun s hs => ?_⟩
    · obtain ⟨-, s, hs, -⟩ := h.armed due (hd.symm.trans hdue)
      exact absurd hs (hbusy s)
    · exact absurd (hs.before ha).2 (hbusy s)
  | expired due ha hq hr hc hu hdue hd =>
    refine ⟨htimeout, hc ▸ h.room, htimes, by simp [hd], fun s hs => ?_⟩
    obtain ⟨hnone, hdue' | ⟨x, hx, htold⟩⟩ := h.idle s (hs.before ha).2
    · obtain rfl : due = m.time := Nat.le_antisymm (ht hu due hdue) (h.armed due hdue).1
      refine ⟨hc.trans hnone, .inr ⟨m, by simp, ?_⟩⟩
      simp [hr, ← Option.some.inj (hdue.symm.trans hdue')]
    · exact ⟨hc.trans hnone, .inr ⟨x, List.mem_append_left _ hx, htold⟩⟩

theorem Track.wait (h : Track T history e now) (hle : now ≤ later)
    (hdue : ∀ d ∈ e.timers, later ≤ d.1) : Track T history e later := by
  refine ⟨h.timeout, h.room, fun m hm => Nat.le_trans (h.times m hm) hle, fun due hd => ?_, h.idle⟩
  exact ⟨hdue (due, .idle) (by simp [timers, hd]), (h.armed due hd).2⟩

theorem Track.start (hT : e.idleTimeout = some T) (hroom : e.connections.tally < UInt32.size)
    (hd : e.idleDue = none) (now : Time) : Track T [] e now :=
  ⟨hT, hroom, by simp, by simp [hd], fun s hs => absurd hs not_idleSince_nil⟩

section
variable {e₀ : Entry} {t₀ : Time}

theorem Onward.track (h : Onward e₀ t₀ history e now) (hstart : Track T [] e₀ t₀)
    (hroom : Room history) : Track T history e now := by
  induction h with
  | start => exact hstart
  | wait later _ hle hdue ih => exact (ih hroom).wait hle hdue
  | @use history e now u _ ht ih =>
    exact (ih fun m hm => hroom m (List.mem_append_left _ hm)).happen ht (hroom _ (by simp))

theorem Onward.split (h : Onward e₀ t₀ (pre ++ m :: post) e now) :
    Onward e₀ t₀ pre m.before m.time ∧ m.Timely := by
  generalize hhist : pre ++ m :: post = history at h
  induction h generalizing post with
  | start => simp at hhist
  | wait _ _ _ _ ih => exact ih hhist
  | use _ hbefore ht ih =>
    obtain ⟨rfl, rfl, -⟩ | ⟨rest, rfl, hpre⟩ := append_cons_eq_append_singleton.mp hhist
    · exact ⟨hbefore, ht⟩
    · exact ih hpre

-- ---------------------------------------------------------------------------
-- What is received
-- ---------------------------------------------------------------------------

theorem Onward.sound (h : Onward e₀ t₀ (pre ++ m :: post) e now) (hstart : Track T [] e₀ t₀)
    (hroom : Room (pre ++ m :: post)) (hmem : t ∈ m.received) :
    t = m.time ∧ ∃ s, IdleSince pre s ∧ t = s + T := by
  obtain ⟨hbefore, ht⟩ := h.split
  have htrack := hbefore.track hstart fun x hx => hroom x (List.mem_append_left _ hx)
  obtain ⟨htime, hdue⟩ := htrack.received ht hmem
  exact ⟨htime, (htrack.armed t hdue).2⟩

theorem Moment.precedes_iff : m.precedes t = true ↔ m.time ≤ t ∧ t ∉ m.received := by
  simp [Moment.precedes]

theorem upTo_append (hlt : t < m.time) : upTo (history ++ [m]) t = upTo history t := by
  have hlast : [m].takeWhile (·.precedes t) = [] :=
    List.takeWhile_cons_of_neg fun hm => Nat.not_le_of_lt hlt (Moment.precedes_iff.mp hm).1
  rw [upTo, List.takeWhile_append, hlast, List.append_nil]
  split
  · next hall => exact (List.IsPrefix.eq_of_length (List.takeWhile_prefix _) hall).symm
  · rfl

/-- The clock is about to go past `t`. -/
theorem Onward.signals_at (h : Onward e₀ t₀ history e now) (hstart : Track T [] e₀ t₀)
    (hroom : Room history) (hnow : now ≤ t) (hlate : ∀ d ∈ e.timers, t < d.1) :
    (∃ m ∈ history, t ∈ m.received) ↔ ∃ s, IdleSince (upTo history t) s ∧ t = s + T := by
  have htrack := h.track hstart hroom
  have hhist : upTo history t ++ history.dropWhile (·.precedes t) = history :=
    List.takeWhile_append_dropWhile
  cases hrest : history.dropWhile (·.precedes t) with
  | nil =>
    have hnever : ∀ m ∈ history, t ∉ m.received :=
      fun m hm => (Moment.precedes_iff.mp (List.dropWhile_eq_nil_iff.mp hrest m hm)).2
    rw [hrest, List.append_nil] at hhist
    rw [hhist]
    constructor
    · rintro ⟨m, hm, hmem⟩
      exact absurd hmem (hnever m hm)
    · rintro ⟨s, hs, rfl⟩
      -- Idle for so long and not told of it, the entry would have its timer due by now.
      rcases (htrack.idle s hs).2 with hdue | htold
      · exact absurd (hlate (s + T, .idle) (by simp [timers, hdue])) (Nat.lt_irrefl _)
      · exact htold
  | cons m post =>
    have hfirst : m.precedes t = false := by
      simpa [hrest] using List.head?_dropWhile_not (·.precedes t) history
    rw [hrest] at hhist
    have hm : m ∈ history := hhist ▸ by simp
    have hmem : t ∈ m.received := by
      have htime := Nat.le_trans (htrack.times m hm) hnow
      rw [← Bool.not_eq_true, Moment.precedes_iff] at hfirst
      exact Classical.not_not.mp fun hnot => hfirst ⟨htime, hnot⟩
    rw [← hhist] at h hroom
    exact ⟨fun _ => (h.sound hstart hroom hmem).2, fun _ => ⟨m, hm, hmem⟩⟩

theorem Onward.signals (h : Onward e₀ t₀ history e now) (hstart : Track T [] e₀ t₀)
    (hroom : Room history) (hlt : t < now) :
    (∃ m ∈ history, t ∈ m.received) ↔ ∃ s, IdleSince (upTo history t) s ∧ t = s + T := by
  induction h with
  | start => simp [upTo, not_idleSince_nil]
  | @wait history e now later hbefore hle hdue ih =>
    by_cases hnow : t < now
    · exact ih hroom hnow
    · exact hbefore.signals_at hstart hroom (Nat.le_of_not_lt hnow) fun d hd =>
        Nat.lt_of_lt_of_le hlt (hdue d hd)
  | @use history e now u hbefore ht ih =>
    have hroom' : Room history := fun m hm => hroom m (List.mem_append_left _ hm)
    have hlast : t ∉ (Moment.mk now e u).received := fun hmem =>
      Nat.ne_of_lt hlt ((hbefore.track hstart hroom').received ht hmem).1
    rw [upTo_append (m := ⟨now, e, u⟩) hlt, ← ih hroom' hlt]
    simp [or_and_right, exists_or, hlast]

end

theorem Timeline.onward (h : Timeline idleTimeout history e now) :
    ∃ id data t₀, Onward { id, data, idleTimeout } t₀ history e now := by
  induction h with
  | new id data now => exact ⟨id, data, now, .start⟩
  | wait later _ hle hdue ih =>
    obtain ⟨id, data, t₀, h⟩ := ih
    exact ⟨id, data, t₀, h.wait later hle hdue⟩
  | use u _ ht ih =>
    obtain ⟨id, data, t₀, h⟩ := ih
    exact ⟨id, data, t₀, h.use u ht⟩

theorem Track.new (id : String) (data : List (String × Json)) (now : Time) :
    Track T [] { id, data, idleTimeout := some T } now :=
  .start rfl (by simp [Connections.tally]) rfl now

theorem Timeline.track (h : Timeline (some T) history e now) (hroom : Room history) :
    Track T history e now := by
  obtain ⟨id, data, t₀, h⟩ := h.onward
  exact h.track (.new id data t₀) hroom

theorem Timeline.sound (h : Timeline (some T) (pre ++ m :: post) e now)
    (hroom : Room (pre ++ m :: post)) (hmem : t ∈ m.received) :
    t = m.time ∧ ∃ s, IdleSince pre s ∧ t = s + T := by
  obtain ⟨id, data, t₀, h⟩ := h.onward
  exact h.sound (.new id data t₀) hroom hmem

theorem Timeline.signals (h : Timeline (some T) history e now) (hroom : Room history)
    (hlt : t < now) :
    (∃ m ∈ history, t ∈ m.received) ↔ ∃ s, IdleSince (upTo history t) s ∧ t = s + T := by
  obtain ⟨id, data, t₀, h⟩ := h.onward
  exact h.signals (.new id data t₀) hroom hlt

/-- An idle timer that is not armed says nothing, whatever is done. -/
theorem Moment.received_of_unarmed (hd : m.before.idleDue = none) : m.received = [] := by
  obtain ⟨now, e, u⟩ := m
  replace hd : e.idleDue = none := hd
  cases u with
  | acquire | pushReservation => exact received_of_expiries rfl
  | read => exact List.drop_nil
  | release kind =>
    obtain ⟨c, due, h⟩ := e.release_frame now kind
    exact received_of_expiries (by simp [after, Entry.use, h])
  | startIdle =>
    obtain ⟨due, h⟩ := e.armIdle_frame now
    exact received_of_expiries (by simp [after, Entry.use, h])
  | shiftReservation =>
    obtain ⟨rs, h⟩ := e.shiftReservation_frame
    exact received_of_expiries (by simp [after, Entry.use, h])
  | resolve outcome => exact received_of_expiries (e.resolve_expiries outcome)
  | expire timer =>
    cases timer with
    | reservation id =>
      obtain ⟨rs, hdrop⟩ := e.dropReservation_frame id
      obtain ⟨c, due, h⟩ := (e.dropReservation id).release_frame now .pending
      refine received_of_expiries ?_
      change ((e.dropReservation id).release now .pending).expiries = e.expiries
      rw [h, hdrop]
    | idle => exact received_of_expiries (by simp [after, Entry.use, fire, expireIdle, hd])

theorem armIdle_unlimited (hT : e.idleTimeout = none) (now : Time) : e.armIdle now = e := by
  unfold armIdle
  simp [hT]

theorem release_unlimited (hT : e.idleTimeout = none) (now : Time) (kind : ConnKind) :
    ∃ c, e.release now kind = { e with connections := c } := by
  unfold release
  split
  · exact ⟨e.connections, rfl⟩
  · exact ⟨_, armIdle_unlimited (e := { e with connections := e.connections.remove kind }) hT now⟩

theorem use_unlimited (hT : e.idleTimeout = none) (hd : e.idleDue = none) (now : Time) (u : Use) :
    (e.use now u).idleDue = none := by
  cases u with
  | acquire => rfl
  | pushReservation | read => exact hd
  | release kind =>
    obtain ⟨c, h⟩ := release_unlimited hT now kind
    simp [use, h, hd]
  | startIdle => simp [use, armIdle_unlimited hT, hd]
  | shiftReservation =>
    obtain ⟨rs, h⟩ := e.shiftReservation_frame
    simp [use, h, hd]
  | resolve outcome => simp [use, hd]
  | expire timer =>
    cases timer with
    | reservation id =>
      obtain ⟨rs, hdrop⟩ := e.dropReservation_frame id
      obtain ⟨c, h⟩ :=
        release_unlimited (e := e.dropReservation id) (by simp [hdrop, hT]) now .pending
      rw [show e.use now (.expire (.reservation id)) = _ from h, hdrop]
      exact hd
    | idle => simp [use, fire, expireIdle, hd]

theorem Timeline.silent (h : Timeline none history e now) :
    e.idleTimeout = none ∧ e.idleDue = none ∧ ∀ m ∈ history, m.received = [] := by
  induction h with
  | new => simp
  | wait _ _ _ _ ih => exact ih
  | @use history e now u _ _ ih =>
    obtain ⟨hT, hd, hsilent⟩ := ih
    have hquiet : (Moment.mk now e u).received = [] := Moment.received_of_unarmed hd
    exact ⟨(e.use_idleTimeout now u).trans hT, use_unlimited hT hd now u,
      List.forall_mem_append.mpr ⟨hsilent, List.forall_mem_singleton.mpr hquiet⟩⟩

structure IdleSignals (idleTimeout : Option Nat) (history : List Moment) (e : Entry) (now : Time) :
    Prop where
  /-- What has been received by now is the instants at which the entry had been idle for the
  timeout. -/
  signals : ∀ T, idleTimeout = some T → ∀ t < now,
    (∃ m ∈ history, t ∈ m.received) ↔ ∃ s, IdleSince (upTo history t) s ∧ t = s + T
  /-- An instant is received when it has come. -/
  punctual : ∀ m ∈ history, ∀ t ∈ m.received, t = m.time
  unused : e.idleArmed = true → e.connections.http = 0 ∧ e.connections.sock = 0 ∧
    e.connections.pending = 0
  silent : idleTimeout = none → ∀ m ∈ history, m.received = []

theorem idle_signals (h : Timeline idleTimeout history e now) (hroom : Room history) :
    IdleSignals idleTimeout history e now := by
  cases idleTimeout with
  | none =>
    obtain ⟨-, hd, hsilent⟩ := h.silent
    exact ⟨nofun, fun m hm t ht => by simp [hsilent m hm] at ht,
      fun harmed => by simp [idleArmed, hd] at harmed, fun _ => hsilent⟩
  | some T =>
    refine ⟨?_, fun m hm t hmem => ?_, fun harmed => ?_, nofun⟩
    · intro _ hT t hlt
      obtain rfl := Option.some.inj hT
      exact h.signals hroom hlt
    · obtain ⟨pre, post, rfl⟩ := List.append_of_mem hm
      exact (h.sound hroom hmem).1
    · obtain ⟨due, hdue⟩ := Option.isSome_iff_exists.mp harmed
      have htrack := h.track hroom
      obtain ⟨-, s, hs, -⟩ := htrack.armed due hdue
      simp [(htrack.idle s hs).1]

def freshEntry : Entry := { id := "w0", idleTimeout := some 5000 }

/-- The timer is started, and a request comes and goes. -/
def servedEntry : Entry :=
  ((freshEntry.use 0 .startIdle).use 1000 (.acquire .http)).use 2000 (.release .http)

def servedHistory : List Moment :=
  [⟨0, freshEntry, .startIdle⟩, ⟨1000, freshEntry.use 0 .startIdle, .acquire .http⟩,
    ⟨2000, (freshEntry.use 0 .startIdle).use 1000 (.acquire .http), .release .http⟩,
    ⟨7000, servedEntry, .expire .idle⟩]

theorem servedTimeline :
    Timeline (some 5000) servedHistory (servedEntry.use 7000 (.expire .idle)) 7001 := by
  have hnew : Timeline (some 5000) [] freshEntry 0 := .new "w0" [] 0
  have hstart := hnew.use .startIdle (by simp [Moment.Timely])
  have hacquire :=
    (hstart.wait 1000 (by decide) (by decide +kernel)).use (.acquire .http)
      (by simp [Moment.Timely])
  have hrelease :=
    (hacquire.wait 2000 (by decide) (by decide +kernel)).use (.release .http)
      (by simp [Moment.Timely])
  have hexpire := (hrelease.wait 7000 (by decide) (by decide +kernel)).use (.expire .idle) ?_
  · exact hexpire.wait 7001 (by decide) (by decide +kernel)
  · rintro - due hdue
    have hdue' : servedEntry.idleDue = some 7000 := by decide +kernel
    exact Nat.le_of_eq (Option.some.inj (hdue.symm.trans hdue'))

theorem idle_signals_served :
    IdleSignals (some 5000) servedHistory (servedEntry.use 7000 (.expire .idle)) 7001 ∧
      servedHistory.flatMap Moment.received = [7000] :=
  ⟨idle_signals servedTimeline (by decide +kernel), by decide +kernel⟩

end Entry

end AppHost
