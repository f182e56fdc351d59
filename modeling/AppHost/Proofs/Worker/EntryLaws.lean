import AppHost.Worker.Entry

/-!
# Laws of worker entries

Each operation on an entry changes a few of its fields and leaves the others alone; a `_frame`
law says which. Connections are counted in words: `Connections.tally` is the number they stand
for, and the laws on it hold below the word's bound.
-/

namespace AppHost

-- ---------------------------------------------------------------------------
-- Counting
-- ---------------------------------------------------------------------------

namespace Connections

def tally (c : Connections) : Nat := c.http.toNat + c.sock.toNat + c.pending.toNat

theorem count_le_tally (c : Connections) (kind : ConnKind) : (c.count kind).toNat ≤ c.tally := by
  cases kind <;> simp only [count, tally] <;> omega

theorem toNat_total (c : Connections) (h : c.tally < UInt32.size) : c.total.toNat = c.tally := by
  simp only [tally, UInt32.size] at h
  simp only [total, tally, UInt32.toNat_add]
  omega

theorem toNat_total_le (c : Connections) : c.total.toNat ≤ c.tally := by
  simp only [total, tally, UInt32.toNat_add]
  omega

theorem total_eq_zero_iff (c : Connections) (h : c.tally < UInt32.size) :
    c.total = 0 ↔ c.tally = 0 := by
  rw [← c.toNat_total h, ← UInt32.toNat_inj]
  rfl

theorem tally_set (c : Connections) (kind : ConnKind) (n : UInt32) :
    (c.set kind n).tally + (c.count kind).toNat = c.tally + n.toNat := by
  cases kind <;> simp only [set, count, tally] <;> omega

theorem count_set (c : Connections) (kind other : ConnKind) (n : UInt32) :
    (c.set kind n).count other = if other = kind then n else c.count other := by
  cases kind <;> cases other <;> simp [set, count]

theorem toNat_count_succ (c : Connections) (kind : ConnKind) (h : c.tally + 1 < UInt32.size) :
    (c.count kind + 1).toNat = (c.count kind).toNat + 1 := by
  unfold UInt32.size at h
  have hle := c.count_le_tally kind
  rw [UInt32.toNat_add]
  simp
  omega

theorem toNat_count_pred (c : Connections) (kind : ConnKind) (h : c.count kind ≠ 0) :
    (c.count kind - 1).toNat = (c.count kind).toNat - 1 := by
  have hne : (c.count kind).toNat ≠ 0 := fun hzero => h (UInt32.toNat_inj.mp hzero)
  rw [UInt32.toNat_sub_of_le]
  · rfl
  · rw [UInt32.le_iff_toNat_le]
    simp
    omega

theorem toNat_count_add (c : Connections) (kind other : ConnKind) (h : c.tally + 1 < UInt32.size) :
    ((c.add kind).count other).toNat = (c.count other).toNat + if other = kind then 1 else 0 := by
  rw [add, count_set]
  split
  · next heq =>
    subst heq
    exact c.toNat_count_succ other h
  · rfl

theorem toNat_count_remove (c : Connections) (kind other : ConnKind) :
    ((c.remove kind).count other).toNat =
      (c.count other).toNat - if other = kind then 1 else 0 := by
  unfold remove
  split
  · next hzero =>
    split
    · next heq => simp [heq, hzero]
    · rfl
  · next hpos =>
    rw [count_set]
    split
    · next heq =>
      subst heq
      exact c.toNat_count_pred other hpos
    · rfl

theorem tally_add (c : Connections) (kind : ConnKind) (h : c.tally + 1 < UInt32.size) :
    (c.add kind).tally = c.tally + 1 := by
  have hset := c.tally_set kind (c.count kind + 1)
  rw [c.toNat_count_succ kind h] at hset
  rw [add]
  omega

theorem tally_add_le (c : Connections) (kind : ConnKind) : (c.add kind).tally ≤ c.tally + 1 := by
  have hset := c.tally_set kind (c.count kind + 1)
  have hadd : (c.count kind + 1).toNat ≤ (c.count kind).toNat + 1 := by
    rw [UInt32.toNat_add]
    exact Nat.mod_le _ _
  rw [add]
  omega

theorem tally_remove (c : Connections) (kind : ConnKind) :
    (c.remove kind).tally = c.tally - (if c.count kind = 0 then 0 else 1) := by
  unfold remove
  split
  · rfl
  · next hpos =>
    have hset := c.tally_set kind (c.count kind - 1)
    have hle := c.count_le_tally kind
    have hne : (c.count kind).toNat ≠ 0 := fun h => hpos (UInt32.toNat_inj.mp h)
    rw [c.toNat_count_pred kind hpos] at hset
    omega

theorem tally_remove_le (c : Connections) (kind : ConnKind) : (c.remove kind).tally ≤ c.tally := by
  rw [tally_remove]
  omega

end Connections

namespace Entry

-- ---------------------------------------------------------------------------
-- What each operation leaves alone
-- ---------------------------------------------------------------------------

theorem armIdle_frame (e : Entry) (now : Time) :
    ∃ due, e.armIdle now = { e with idleDue := due } := by
  unfold armIdle
  split
  · exact ⟨e.idleDue, rfl⟩
  · split
    · exact ⟨e.idleDue, rfl⟩
    · exact ⟨_, rfl⟩

theorem release_frame (e : Entry) (now : Time) (kind : ConnKind) :
    ∃ c due, e.release now kind = { e with connections := c, idleDue := due } := by
  unfold release
  split
  · exact ⟨e.connections, e.idleDue, rfl⟩
  · obtain ⟨due, h⟩ := armIdle_frame { e with connections := e.connections.remove kind } now
    exact ⟨_, due, h⟩

theorem dropReservation_frame (e : Entry) (id : UInt64) :
    ∃ rs, e.dropReservation id = { e with reservations := rs } := by
  unfold dropReservation
  split
  · exact ⟨e.reservations, rfl⟩
  · split
    · exact ⟨_, rfl⟩
    · exact ⟨_, rfl⟩

theorem shiftReservation_frame (e : Entry) :
    ∃ rs, e.shiftReservation.1 = { e with reservations := rs } := by
  unfold shiftReservation
  split
  · exact ⟨e.reservations, rfl⟩
  · exact ⟨_, rfl⟩

theorem expireIdle_frame (e : Entry) (now : Time) :
    ∃ due xs, e.expireIdle now = { e with idleDue := due, expiries := xs } := by
  unfold expireIdle
  split
  · exact ⟨_, _, rfl⟩
  · exact ⟨e.idleDue, e.expiries, rfl⟩

theorem fire_frame (e : Entry) (now : Time) (timer : Timer) :
    ∃ c due rs xs, e.fire now timer =
      { e with connections := c, idleDue := due, reservations := rs, expiries := xs } := by
  cases timer with
  | reservation id =>
    obtain ⟨rs, hd⟩ := e.dropReservation_frame id
    obtain ⟨c, due, hr⟩ := release_frame (e.dropReservation id) now .pending
    refine ⟨c, due, rs, e.expiries, ?_⟩
    rw [fire, expireReservation, hr, hd]
  | idle =>
    obtain ⟨due, xs, h⟩ := e.expireIdle_frame now
    exact ⟨e.connections, due, e.reservations, xs, h⟩

theorem resolve_frame (e : Entry) (outcome : Outcome) :
    ∃ o, (e.resolve outcome).1 = { e with outcome := o } := by
  unfold resolve
  split
  · exact ⟨_, rfl⟩
  · exact ⟨e.outcome, rfl⟩

section
variable (e : Entry) (now : Time) (kind : ConnKind) (timer : Timer) (outcome : Outcome)

@[simp] theorem acquire_closed : (e.acquire kind).closed = e.closed := rfl
@[simp] theorem acquire_outcome : (e.acquire kind).outcome = e.outcome := rfl
@[simp] theorem pushReservation_closed (timeout : Nat) :
    (e.pushReservation now timeout).closed = e.closed := rfl
@[simp] theorem pushReservation_outcome (timeout : Nat) :
    (e.pushReservation now timeout).outcome = e.outcome := rfl
@[simp] theorem pushReservation_connections (timeout : Nat) :
    (e.pushReservation now timeout).connections = e.connections := rfl
@[simp] theorem close_closed : e.close.closed = true := rfl
@[simp] theorem close_outcome : e.close.outcome = e.outcome := rfl
@[simp] theorem close_connections : e.close.connections = e.connections := rfl

@[simp] theorem close_idleDue : e.close.idleDue = none := rfl
@[simp] theorem close_expiries : e.close.expiries = e.expiries := rfl
@[simp] theorem close_idleTimeout : e.close.idleTimeout = e.idleTimeout := rfl

@[simp] theorem acquire_id : (e.acquire kind).id = e.id := rfl
@[simp] theorem pushReservation_id (timeout : Nat) : (e.pushReservation now timeout).id = e.id :=
  rfl
@[simp] theorem close_id : e.close.id = e.id := rfl

@[simp] theorem armIdle_id : (e.armIdle now).id = e.id := by
  obtain ⟨_, h⟩ := e.armIdle_frame now
  rw [h]

@[simp] theorem release_id : (e.release now kind).id = e.id := by
  obtain ⟨_, _, h⟩ := e.release_frame now kind
  rw [h]

@[simp] theorem shiftReservation_id : e.shiftReservation.1.id = e.id := by
  obtain ⟨_, h⟩ := e.shiftReservation_frame
  rw [h]

@[simp] theorem fire_id : (e.fire now timer).id = e.id := by
  obtain ⟨_, _, _, _, h⟩ := e.fire_frame now timer
  rw [h]

@[simp] theorem resolve_id : (e.resolve outcome).1.id = e.id := by
  obtain ⟨_, h⟩ := e.resolve_frame outcome
  rw [h]

@[simp] theorem armIdle_closed : (e.armIdle now).closed = e.closed := by
  obtain ⟨_, h⟩ := e.armIdle_frame now
  rw [h]

@[simp] theorem armIdle_outcome : (e.armIdle now).outcome = e.outcome := by
  obtain ⟨_, h⟩ := e.armIdle_frame now
  rw [h]

@[simp] theorem armIdle_connections : (e.armIdle now).connections = e.connections := by
  obtain ⟨_, h⟩ := e.armIdle_frame now
  rw [h]

@[simp] theorem release_closed : (e.release now kind).closed = e.closed := by
  obtain ⟨_, _, h⟩ := e.release_frame now kind
  rw [h]

@[simp] theorem release_outcome : (e.release now kind).outcome = e.outcome := by
  obtain ⟨_, _, h⟩ := e.release_frame now kind
  rw [h]

@[simp] theorem shiftReservation_closed : e.shiftReservation.1.closed = e.closed := by
  obtain ⟨_, h⟩ := e.shiftReservation_frame
  rw [h]

@[simp] theorem shiftReservation_outcome : e.shiftReservation.1.outcome = e.outcome := by
  obtain ⟨_, h⟩ := e.shiftReservation_frame
  rw [h]

@[simp] theorem fire_closed : (e.fire now timer).closed = e.closed := by
  obtain ⟨_, _, _, _, h⟩ := e.fire_frame now timer
  rw [h]

@[simp] theorem fire_outcome : (e.fire now timer).outcome = e.outcome := by
  obtain ⟨_, _, _, _, h⟩ := e.fire_frame now timer
  rw [h]

@[simp] theorem resolve_closed : (e.resolve outcome).1.closed = e.closed := by
  obtain ⟨_, h⟩ := e.resolve_frame outcome
  rw [h]

@[simp] theorem resolve_idleDue : (e.resolve outcome).1.idleDue = e.idleDue := by
  obtain ⟨_, h⟩ := e.resolve_frame outcome
  rw [h]

@[simp] theorem resolve_expiries : (e.resolve outcome).1.expiries = e.expiries := by
  obtain ⟨_, h⟩ := e.resolve_frame outcome
  rw [h]

@[simp] theorem resolve_idleTimeout : (e.resolve outcome).1.idleTimeout = e.idleTimeout := by
  obtain ⟨_, h⟩ := e.resolve_frame outcome
  rw [h]

@[simp] theorem armIdle_idleTimeout : (e.armIdle now).idleTimeout = e.idleTimeout := by
  obtain ⟨_, h⟩ := e.armIdle_frame now
  rw [h]

@[simp] theorem release_idleTimeout : (e.release now kind).idleTimeout = e.idleTimeout := by
  obtain ⟨_, _, h⟩ := e.release_frame now kind
  rw [h]

@[simp] theorem shiftReservation_idleTimeout :
    e.shiftReservation.1.idleTimeout = e.idleTimeout := by
  obtain ⟨_, h⟩ := e.shiftReservation_frame
  rw [h]

@[simp] theorem fire_idleTimeout : (e.fire now timer).idleTimeout = e.idleTimeout := by
  obtain ⟨_, _, _, _, h⟩ := e.fire_frame now timer
  rw [h]

@[simp] theorem shiftReservation_connections :
    e.shiftReservation.1.connections = e.connections := by
  obtain ⟨_, h⟩ := e.shiftReservation_frame
  rw [h]

@[simp] theorem resolve_connections : (e.resolve outcome).1.connections = e.connections := by
  obtain ⟨_, h⟩ := e.resolve_frame outcome
  rw [h]

end

/-- The first outcome stays. -/
theorem resolve_outcome (e : Entry) (outcome : Outcome) :
    (e.resolve outcome).1.outcome = some (e.outcome.getD outcome) := by
  unfold resolve
  split <;> simp_all

@[simp] theorem resolve_outcome_ne_none (e : Entry) (outcome : Outcome) :
    (e.resolve outcome).1.outcome ≠ none := by
  simp [resolve_outcome]

/-- A failure that comes too late does not undo a success, and makes none. -/
theorem resolve_error_ok (e : Entry) (failure : Failure) :
    (e.resolve (.error failure)).1.outcome = some (.ok r) ↔ e.outcome = some (.ok r) := by
  rw [resolve_outcome]
  cases e.outcome <;> simp

-- ---------------------------------------------------------------------------
-- Only an acquire adds connections
-- ---------------------------------------------------------------------------

theorem tally_release_le (e : Entry) (now : Time) (kind : ConnKind) :
    (e.release now kind).connections.tally ≤ e.connections.tally := by
  unfold release
  split
  · exact Nat.le_refl _
  · rw [armIdle_connections]
    exact e.connections.tally_remove_le kind

theorem tally_fire_le (e : Entry) (now : Time) (timer : Timer) :
    (e.fire now timer).connections.tally ≤ e.connections.tally := by
  cases timer with
  | reservation id =>
    obtain ⟨rs, hd⟩ := e.dropReservation_frame id
    rw [fire, expireReservation, hd]
    exact tally_release_le { e with reservations := rs } now .pending
  | idle =>
    obtain ⟨due, xs, h⟩ := e.expireIdle_frame now
    simp [fire, h]

-- ---------------------------------------------------------------------------
-- Arming the idle timer
-- ---------------------------------------------------------------------------

theorem armIdle_cases (e : Entry) (now : Time) (hT : e.idleTimeout = some T) :
    (e.count = 0 ∧ e.armIdle now = { e with idleDue := some (now + T) }) ∨
      (e.count ≠ 0 ∧ e.armIdle now = e) := by
  unfold armIdle
  split
  · next h => exact .inr ⟨h, rfl⟩
  · next h => exact .inl ⟨by simpa using h, by simp [hT]⟩

/-- A release is ignored, or leaves nothing connected and arms the idle timer, or leaves
something. -/
theorem release_cases (e : Entry) (now : Time) (kind : ConnKind) (hT : e.idleTimeout = some T) :
    (e.ignoresRelease kind = true ∧ e.release now kind = e) ∨
      (e.ignoresRelease kind = false ∧ (e.connections.remove kind).total = 0 ∧
        e.release now kind =
          { e with connections := e.connections.remove kind, idleDue := some (now + T) }) ∨
      (e.ignoresRelease kind = false ∧ (e.connections.remove kind).total ≠ 0 ∧
        e.release now kind = { e with connections := e.connections.remove kind }) := by
  unfold release
  split
  · next h => exact .inl ⟨h, rfl⟩
  · next h =>
    have h : e.ignoresRelease kind = false := by simpa using h
    obtain ⟨hz, heq⟩ | ⟨hz, heq⟩ :=
      armIdle_cases { e with connections := e.connections.remove kind } now hT
    · exact .inr (.inl ⟨h, hz, heq⟩)
    · exact .inr (.inr ⟨h, hz, heq⟩)

end Entry

end AppHost
