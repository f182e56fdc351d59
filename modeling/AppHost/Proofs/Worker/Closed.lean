import AppHost.Proofs.Worker.IdleSignals

/-!
# After an entry has been closed

Releases that come late, reservations that lapse, and whatever else is still done to an entry that
has left its table find it closed. `closed_unless_started` says what they leave alone: nothing is
taken from the counts, and the idle timer stays silent as long as nobody starts it. Starting it is
not held back by the closing.
-/

namespace AppHost

namespace Entry

-- ---------------------------------------------------------------------------
-- One use
-- ---------------------------------------------------------------------------

def Moment.acquired? (m : Moment) : Option ConnKind :=
  match m.use with
  | .acquire kind => some kind
  | _ => none

/-- The idle timer is started by hand, and nothing holds it back. -/
def Moment.starter (m : Moment) : Bool :=
  match m.use with
  | .startIdle => m.before.count = 0 && m.before.idleTimeout.isSome
  | _ => false

def acquisitions (history : List Moment) (kind : ConnKind) : Nat :=
  (history.filterMap Moment.acquired?).count kind

variable {e e₀ : Entry} {t₀ now : Time} {history : List Moment} {m : Moment}

theorem Moment.acquires_eq (m : Moment) : m.acquires = m.acquired?.isSome := by
  obtain ⟨now, e, u⟩ := m
  cases u <;> rfl

theorem use_closed (e : Entry) (now : Time) (u : Use) : (e.use now u).closed = e.closed := by
  cases u with
  | acquire | pushReservation | read => rfl
  | _ => simp [use]

theorem release_of_closed (h : e.closed = true) (now : Time) (kind : ConnKind) :
    e.release now kind = e := by
  simp [release, ignoresRelease, h]

theorem expireReservation_of_closed (h : e.closed = true) (now : Time) (id : UInt64) :
    e.expireReservation now id = e.dropReservation id := by
  obtain ⟨rs, hdrop⟩ := e.dropReservation_frame id
  exact release_of_closed (by simp [hdrop, h]) now .pending

theorem Moment.connections_of_closed (h : m.before.closed = true) :
    m.after.connections = match m.acquired? with
      | some kind => m.before.connections.add kind
      | none => m.before.connections := by
  obtain ⟨now, e, u⟩ := m
  replace h : e.closed = true := h
  cases u with
  | acquire | pushReservation | read => rfl
  | release kind => exact congrArg connections (release_of_closed h now kind)
  | startIdle => exact e.armIdle_connections now
  | shiftReservation => exact e.shiftReservation_connections
  | resolve outcome => exact e.resolve_connections outcome
  | expire timer =>
    cases timer with
    | reservation id =>
      obtain ⟨rs, hdrop⟩ := e.dropReservation_frame id
      simp [after, Entry.use, fire, expireReservation_of_closed h, hdrop, acquired?]
    | idle =>
      obtain ⟨due, xs, hexpire⟩ := e.expireIdle_frame now
      simp [after, Entry.use, fire, hexpire, acquired?]

theorem Moment.unarmed_of_closed (h : m.before.closed = true) (hd : m.before.idleDue = none)
    (hs : m.starter = false) : m.after.idleDue = none := by
  obtain ⟨now, e, u⟩ := m
  replace h : e.closed = true := h
  replace hd : e.idleDue = none := hd
  cases u with
  | acquire => rfl
  | pushReservation | read => exact hd
  | release kind => exact (congrArg idleDue (release_of_closed h now kind)).trans hd
  | startIdle =>
    -- Something is connected, or idleness is not limited.
    change (e.armIdle now).idleDue = none
    cases hT : e.idleTimeout <;> simp_all [starter, armIdle]
  | shiftReservation =>
    obtain ⟨rs, hshift⟩ := e.shiftReservation_frame
    exact (congrArg idleDue hshift).trans hd
  | resolve outcome => exact (e.resolve_idleDue outcome).trans hd
  | expire timer =>
    cases timer with
    | reservation id =>
      obtain ⟨rs, hdrop⟩ := e.dropReservation_frame id
      exact (congrArg idleDue ((expireReservation_of_closed h now id).trans hdrop)).trans hd
    | idle => simp [after, Entry.use, fire, expireIdle, hd]

theorem Moment.armed_of_starter (hs : m.starter = true) : m.after.idleArmed = true := by
  obtain ⟨now, e, u⟩ := m
  cases u with
  | startIdle =>
    simp only [starter, Bool.and_eq_true, decide_eq_true_eq] at hs
    obtain ⟨T, hT⟩ := Option.isSome_iff_exists.mp hs.2
    simp [after, Entry.use, armIdle, hs.1, hT, idleArmed]
  | _ => simp [starter] at hs

theorem Moment.arms_of_closed (h : m.before.closed = true) (ha : m.arms = true) :
    m.use = .startIdle := by
  obtain ⟨now, e, u⟩ := m
  replace h : e.closed = true := h
  cases u with
  | startIdle => rfl
  | expire timer => cases timer <;> simp [arms, starts, ignoresRelease, h] at ha
  | _ => simp [arms, starts, ignoresRelease, h] at ha

-- ---------------------------------------------------------------------------
-- From the closing on
-- ---------------------------------------------------------------------------

theorem Onward.closed (h : Onward e₀ t₀ history e now) (hclosed : e₀.closed = true) :
    e.closed = true ∧ ∀ m ∈ history, m.before.closed = true := by
  induction h with
  | start => exact ⟨hclosed, by simp⟩
  | wait _ _ _ _ ih => exact ih
  | @use history e now u _ _ ih =>
    exact ⟨(e.use_closed now u).trans ih.1,
      List.forall_mem_append.mpr ⟨ih.2, List.forall_mem_singleton.mpr ih.1⟩⟩

theorem acquisitions_append (history : List Moment) (m : Moment) (kind : ConnKind) :
    acquisitions (history ++ [m]) kind = acquisitions history kind + if m.acquired? = some kind then
      1 else 0 := by
  rw [acquisitions, List.filterMap_append, List.count_append]
  cases hm : m.acquired? <;> simp [hm, acquisitions, List.count_singleton]

/-- The counts are words: a count that is full starts again from zero. -/
theorem Onward.counted (h : Onward e₀ t₀ history e now) (hclosed : e₀.closed = true)
    (kind : ConnKind) :
    e.connections.count kind = e₀.connections.count kind + .ofNat (acquisitions history kind) := by
  induction h with
  | start => simp [acquisitions]
  | wait _ _ _ _ ih => exact ih
  | @use history e now u hbefore _ ih =>
    have hafter := Moment.connections_of_closed (m := ⟨now, e, u⟩) (hbefore.closed hclosed).1
    change (Moment.after ⟨now, e, u⟩).connections.count kind = _
    rw [hafter, acquisitions_append]
    -- Only an acquisition counts, and only among those of its kind.
    cases hm : (Moment.mk now e u).acquired? with
    | none => simpa using ih
    | some k =>
      by_cases hk : kind = k
      · subst hk
        simp [Connections.add, Connections.count_set, ih, UInt32.ofNat_add, UInt32.add_assoc]
      · simpa [Connections.add, Connections.count_set, hk, Ne.symm hk] using ih

theorem Moment.count_le_of_closed (h : m.before.closed = true)
    (hroom : m.acquires = true → m.before.connections.tally + 1 < UInt32.size) (kind : ConnKind) :
    m.before.connections.count kind ≤ m.after.connections.count kind := by
  rw [connections_of_closed h]
  cases hm : m.acquired? with
  | none => exact UInt32.le_refl _
  | some k =>
    have hadd := m.before.connections.toNat_count_add k kind (hroom (by simp [acquires_eq, hm]))
    exact UInt32.le_iff_toNat_le.mpr (hadd.symm ▸ Nat.le_add_right ..)

/-- Nothing but a start of the timer can break the silence. -/
theorem Onward.quiet (h : Onward e₀ t₀ history e now) (hclosed : e₀.closed = true)
    (hd : e₀.idleDue = none) (hs : ∀ m ∈ history, m.starter = false) :
    e.idleDue = none ∧ ∀ m ∈ history, m.after.idleArmed = false ∧ m.received = [] := by
  induction h with
  | start => exact ⟨hd, by simp⟩
  | wait _ _ _ _ ih => exact ih hs
  | @use history e now u hbefore _ ih =>
    obtain ⟨hunarmed, hquiet⟩ := ih fun m hm => hs m (List.mem_append_left _ hm)
    have hafter :=
      Moment.unarmed_of_closed (m := ⟨now, e, u⟩) (hbefore.closed hclosed).1 hunarmed
        (hs _ (by simp))
    refine ⟨hafter, List.forall_mem_append.mpr ⟨hquiet, List.forall_mem_singleton.mpr ⟨?_, ?_⟩⟩⟩
    · simp [idleArmed, hafter]
    · exact Moment.received_of_unarmed hunarmed

/-- What holds of an entry that was closed at `t₀`, in the state `e₀`. -/
structure AfterClose (e₀ : Entry) (history : List Moment) (e : Entry) (now : Time) : Prop where
  closed : e.closed = true
  counted : ∀ kind, e.connections.count kind = e₀.connections.count kind +
    .ofNat (acquisitions history kind)
  grows : Room history →
    ∀ m ∈ history, ∀ kind, m.before.connections.count kind ≤ m.after.connections.count kind
  quiet : (∀ m ∈ history, m.after.idleArmed = false ∧ m.received = []) ↔
    ∀ m ∈ history, m.starter = false
  arms : ∀ m ∈ history, m.arms = true → m.use = .startIdle
  /-- Started, the timer of a closed entry goes on like that of an open one. -/
  signals : ∀ T, e₀.idleTimeout = some T → e₀.connections.tally < UInt32.size →
    Room history → ∀ t < now,
    (∃ m ∈ history, t ∈ m.received) ↔ ∃ s, IdleSince (upTo history t) s ∧ t = s + T

/-- Whatever is done to a closed entry, its counts never go down, and it is quiet if and only if its
idle timer is not started by hand while nothing is connected. -/
theorem closed_unless_started (e₀ : Entry) (t₀ : Time) (h : Onward e₀.close t₀ history e now) :
    AfterClose e₀ history e now where
  closed := (h.closed rfl).1
  counted := h.counted rfl
  grows hroom m hm := Moment.count_le_of_closed ((h.closed rfl).2 m hm) (hroom m hm)
  quiet := by
    refine ⟨fun hquiet m hm => ?_, fun hs => (h.quiet rfl rfl hs).2⟩
    rw [← Bool.not_eq_true]
    intro hstarter
    exact absurd ((hquiet m hm).1.symm.trans (Moment.armed_of_starter hstarter)) nofun
  arms m hm := Moment.arms_of_closed ((h.closed rfl).2 m hm)
  signals T hT htally hroom t hlt :=
    h.signals (Track.start (e := e₀.close) hT htally rfl t₀) hroom hlt

/-- A session is open, and a connection reserved. -/
def busyEntry : Entry := ((freshEntry.acquire .sock).acquire .pending).pushReservation 0 1000

/-- Too late, the session ends, another reservation is made, and the worker's start arrives; the
reservation lapses, and a request is counted. -/
def lateHistory : List Moment :=
  let e := busyEntry.close
  let reserved := e.pushReservation 20 50
  [⟨10, e, .release .sock⟩, ⟨20, e, .pushReservation 50⟩, ⟨30, reserved, .startIdle⟩,
    ⟨70, reserved, .expire (.reservation 1)⟩, ⟨80, reserved.dropReservation 1, .acquire .http⟩]

def lateEntry : Entry :=
  { busyEntry.close with
    connections := { http := 1, sock := 1, pending := 1 }
    nextReservation := 2 }

theorem lateOnward : Onward busyEntry.close 0 lateHistory lateEntry 9000 := by
  have hclose : Onward busyEntry.close 0 [] busyEntry.close 0 := .start
  have hrelease :=
    (hclose.wait 10 (by decide) (by decide +kernel)).use (.release .sock) (by simp [Moment.Timely])
  have hreserve :=
    (hrelease.wait 20 (by decide) (by decide +kernel)).use (.pushReservation 50)
      (by simp [Moment.Timely])
  have hstart :=
    (hreserve.wait 30 (by decide) (by decide +kernel)).use .startIdle (by simp [Moment.Timely])
  have hlapse :=
    (hstart.wait 70 (by decide) (by decide +kernel)).use (.expire (.reservation 1))
      (by simp [Moment.Timely])
  have hacquire :=
    (hlapse.wait 80 (by decide) (by decide +kernel)).use (.acquire .http) (by simp [Moment.Timely])
  exact hacquire.wait 9000 (by decide) (by decide +kernel)

theorem closed_unless_started_late :
    AfterClose busyEntry lateHistory lateEntry 9000 ∧ ∀ m ∈ lateHistory, m.starter = false :=
  ⟨closed_unless_started busyEntry 0 lateOnward, by decide +kernel⟩

def startedHistory : List Moment :=
  [⟨0, freshEntry.close, .startIdle⟩, ⟨5000, freshEntry.close.armIdle 0, .expire .idle⟩]

theorem startedOnward :
    Onward freshEntry.close 0 startedHistory
      ((freshEntry.close.armIdle 0).expireIdle 5000) 5000 := by
  have hclose : Onward freshEntry.close 0 [] freshEntry.close 0 := .start
  have hstart := hclose.use .startIdle (by simp [Moment.Timely])
  refine (hstart.wait 5000 (by decide) (by decide +kernel)).use (.expire .idle) ?_
  rintro - due hdue
  have hdue' : (freshEntry.close.armIdle 0).idleDue = some 5000 := by decide +kernel
  exact Nat.le_of_eq (Option.some.inj (hdue.symm.trans hdue'))

/-- Starting the timer does not ask whether the entry has been closed meanwhile. -/
theorem closed_entry_signals :
    ¬∀ e₀ t₀ history e now, Onward (close e₀) t₀ history e now → ∀ m ∈ history,
    (∀ kind, m.before.connections.count kind ≤ m.after.connections.count kind) ∧
      m.after.idleArmed = false ∧ m.received = [] := by
  intro h
  have hquiet :=
    h freshEntry 0 startedHistory _ 5000 startedOnward ⟨5000, freshEntry.close.armIdle 0,
      .expire .idle⟩
      (by simp [startedHistory])
  exact absurd hquiet.2.2 (by decide +kernel)

end Entry

end AppHost
