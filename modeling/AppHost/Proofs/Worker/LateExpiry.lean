import AppHost.Proofs.Worker.ReleaseTimers

/-!
# Release timers that fire too late

A session that claims a reservation cancels its timer, but a timer that has begun to fire is past
cancelling. Its expiry then finds nothing in the queue, and gives up a connection all the same.
`late_expiry_releases` says what this comes to: nothing if no connection is reserved, and otherwise
another reservation, which stays in the queue without a connection of its own. In any run the
reservations that are queued and not counted are no more than the expiries that came late.
-/

namespace AppHost

namespace Entry

variable {e : Entry} {id : UInt64}

def Unqueued (e : Entry) (id : UInt64) : Prop := ∀ r ∈ e.reservations, r.id ≠ id

instance (e : Entry) (id : UInt64) : Decidable (e.Unqueued id) :=
  inferInstanceAs (Decidable (∀ r ∈ e.reservations, r.id ≠ id))

def reserved (e : Entry) : Nat := (e.connections.count .pending).toNat

-- ---------------------------------------------------------------------------
-- One expiry
-- ---------------------------------------------------------------------------

theorem release_connections (h : e.closed = false) (now : Time) (kind : ConnKind) :
    (e.release now kind).connections = e.connections.remove kind := by
  unfold release
  split
  · next hignored =>
    simp only [ignoresRelease, h, Bool.false_or, Bool.and_eq_true, decide_eq_true_eq] at hignored
    obtain ⟨rfl, hzero⟩ := hignored
    exact (if_pos hzero).symm
  · exact armIdle_connections _ now

theorem release_reserved (h : e.closed = false) (now : Time) :
    (e.release now .pending).reserved = e.reserved - 1 := by
  rw [reserved, release_connections h, Connections.toNat_count_remove, if_pos rfl, reserved]

theorem expireReservation_unqueued (h : e.Unqueued id) (now : Time) :
    e.expireReservation now id = e.release now .pending := by
  rw [expireReservation, dropReservation_missed h]

theorem ignoresRelease_iff (h : e.closed = false) :
    e.ignoresRelease .pending = true ↔ e.reserved = 0 := by
  simp [ignoresRelease, h, reserved, Connections.count, ← UInt32.toNat_inj]

/-- What the expiry of a timer that is off the queue does to an open entry. -/
structure LateExpiry (e : Entry) (now : Time) (id : UInt64) : Prop where
  unchanged : e.expireReservation now id = e ↔ e.reserved = 0
  queue : (e.expireReservation now id).reservations = e.reservations
  connections : (e.expireReservation now id).connections = e.connections.remove .pending
  /-- The idle timer starts if the last connection is taken. -/
  idle : ∀ T, e.idleTimeout = some T → (e.expireReservation now id).idleDue =
    if e.reserved ≠ 0 ∧ (e.connections.remove .pending).total = 0 then some (now + T) else e.idleDue
  unlimited : e.idleTimeout = none → (e.expireReservation now id).idleDue = e.idleDue

theorem release_idleDue (hopen : e.closed = false) (now : Time) (hT : e.idleTimeout = some T) :
    (e.release now .pending).idleDue =
      if e.reserved ≠ 0 ∧ (e.connections.remove .pending).total = 0 then some (now + T)
      else e.idleDue := by
  obtain ⟨hignored, heq⟩ | ⟨hignored, hlast, heq⟩ | ⟨hignored, hmore, heq⟩ :=
    release_cases e now .pending hT
  · rw [heq, if_neg fun hlast => hlast.1 ((ignoresRelease_iff hopen).mp hignored)]
  · have hreserved : e.reserved ≠ 0 := fun hzero => by
      simp [(ignoresRelease_iff hopen).mpr hzero] at hignored
    rw [heq, if_pos ⟨hreserved, hlast⟩]
  · rw [heq, if_neg fun hlast => hmore hlast.2]

theorem lateExpiry (hopen : e.closed = false) (h : e.Unqueued id) (now : Time) :
    e.LateExpiry now id where
  unchanged := by
    rw [expireReservation_unqueued h now]
    constructor
    · intro hsame
      have hreserved := release_reserved hopen now
      rw [hsame] at hreserved
      omega
    · intro hzero
      rw [release, if_pos ((ignoresRelease_iff hopen).mpr hzero)]
  queue := by rw [expireReservation_reservations, dropReservation_missed h]
  connections := by rw [expireReservation_unqueued h now, release_connections hopen]
  idle T hT := by rw [expireReservation_unqueued h now, release_idleDue hopen now hT]
  unlimited hT := by
    obtain ⟨_, hrelease⟩ := release_unlimited hT now .pending
    rw [expireReservation_unqueued h now, hrelease]

-- ---------------------------------------------------------------------------
-- An expiry and a claim
-- ---------------------------------------------------------------------------

theorem openSession_reservations (e : Entry) (now : Time) :
    (e.openSession now).reservations = e.reservations.tail := by
  cases hqueue : e.reservations with
  | nil => rw [openSession_unreserved e now hqueue]; exact hqueue
  | cons r rest => rw [openSession_reserved e now hqueue, release_reservations]; rfl

theorem openSession_closed (e : Entry) (now : Time) : (e.openSession now).closed = e.closed := by
  cases hqueue : e.reservations with
  | nil => rw [openSession_unreserved e now hqueue, acquire_closed]
  | cons r rest => rw [openSession_reserved e now hqueue, release_closed]; rfl

theorem reserved_openSession (hopen : e.closed = false) (now : Time) :
    (e.openSession now).reserved = e.reserved - if e.reservations = [] then 0 else 1 := by
  cases hqueue : e.reservations with
  | nil => rw [openSession_unreserved e now hqueue]; rfl
  | cons r rest =>
    rw [openSession_reserved e now hqueue, if_neg (List.cons_ne_nil r rest)]
    exact release_reserved (e := { e.acquire .sock with reservations := rest }) hopen now

/-- When a timer fires, as seen from the session that is opening. -/
inductive Arrival where
  | beforeShift
  | beforeRelease
  | afterRelease
  deriving DecidableEq

/-- A session opens, and a release timer fires meanwhile. -/
def contend (e : Entry) (now : Time) (id : UInt64) : Arrival → Entry
  | .beforeShift => (e.expireReservation now id).openSession now
  | .beforeRelease =>
    let (e, reserved) := (e.acquire .sock).shiftReservation
    let e := e.expireReservation now id
    if reserved then e.release now .pending else e
  | .afterRelease => (e.openSession now).expireReservation now id

/-- From `e` to `e'`, one connection is given up for each reservation that leaves the queue. -/
def EachOnce (e e' : Entry) : Prop :=
  e'.reserved + (e.reservations.length - e'.reservations.length) = e.reserved

instance (e e' : Entry) : Decidable (e.EachOnce e') :=
  inferInstanceAs (Decidable (_ = _))

/-- The oldest reservation lapses while a session opens. -/
structure Contention (e : Entry) (now : Time) (r : Reservation) (rest : List Reservation) :
    Prop where
  /-- The session takes the next one, if there is one. -/
  early : (e.contend now r.id .beforeShift).reservations = rest.tail ∧
    (e.contend now r.id .beforeShift).reserved = e.reserved - 1 - if rest = [] then 0 else 1
  late : ∀ arrival ≠ .beforeShift, (e.contend now r.id arrival).reservations = rest ∧
    (e.contend now r.id arrival).reserved = e.reserved - 2
  once : ∀ arrival, e.EachOnce (e.contend now r.id arrival) ↔
    arrival = .beforeShift ∨ e.reserved = 1

variable {r : Reservation} {rest : List Reservation}

theorem expireReservation_oldest (hqueue : e.reservations = r :: rest) (now : Time) :
    e.expireReservation now r.id = ({ e with reservations := rest } : Entry).release now
      .pending := by
  simp [expireReservation, dropReservation, hqueue]

theorem contend_early (hopen : e.closed = false) (hqueue : e.reservations = r :: rest)
    (now : Time) :
    (e.contend now r.id .beforeShift).reservations = rest.tail ∧
      (e.contend now r.id .beforeShift).reserved = e.reserved - 1 - if rest = [] then 0 else 1 := by
  rw [contend, expireReservation_oldest hqueue, openSession_reservations, reserved_openSession,
    release_reservations, release_reserved]
  · exact ⟨rfl, rfl⟩
  · exact hopen
  · exact (release_closed ..).trans hopen

/-- Both the expiry and the session give up a connection. -/
theorem contend_late_eq (hqueue : e.reservations = r :: rest) (hids : ∀ s ∈ rest, s.id ≠ r.id)
    (now : Time) {arrival : Arrival} (hlate : arrival ≠ .beforeShift) :
    e.contend now r.id arrival =
      (({ e.acquire .sock with reservations := rest } : Entry).release now .pending).release now
        .pending := by
  cases arrival with
  | beforeShift => exact absurd rfl hlate
  | beforeRelease =>
    have hshift : (e.acquire .sock).shiftReservation =
        ({ e.acquire .sock with reservations := rest }, true) := by
      simp [shiftReservation, acquire, hqueue]
    have hunqueued : ({ e.acquire .sock with reservations := rest } : Entry).Unqueued r.id := hids
    simp only [contend, hshift, if_true, expireReservation_unqueued hunqueued]
  | afterRelease =>
    rw [contend, openSession_reserved e now hqueue, expireReservation_unqueued]
    intro s hs
    rw [release_reservations] at hs
    exact hids s hs

theorem contend_late (hopen : e.closed = false) (hqueue : e.reservations = r :: rest)
    (hids : ∀ s ∈ rest, s.id ≠ r.id) (now : Time) (arrival : Arrival)
    (hlate : arrival ≠ .beforeShift) :
    (e.contend now r.id arrival).reservations = rest ∧
      (e.contend now r.id arrival).reserved = e.reserved - 2 := by
  have hfirst := release_reserved (e := { e.acquire .sock with reservations := rest }) hopen now
  rw [contend_late_eq hqueue hids now hlate, release_reservations, release_reservations,
    release_reserved, hfirst]
  · exact ⟨rfl, Nat.sub_sub ..⟩
  · exact (release_closed ..).trans hopen

theorem contention (hopen : e.closed = false) (hqueue : e.reservations = r :: rest)
    (hids : ∀ s ∈ rest, s.id ≠ r.id) (hcounted : rest.length < e.reserved) (now : Time) :
    e.Contention now r rest where
  early := contend_early hopen hqueue now
  late := contend_late hopen hqueue hids now
  once arrival := by
    by_cases hlate : arrival = .beforeShift
    · subst hlate
      obtain ⟨hrest, hreserved⟩ := contend_early hopen hqueue now
      rw [EachOnce, hrest, hreserved, hqueue]
      cases rest with
      | nil =>
        simp at hcounted ⊢
        omega
      | cons s rest =>
        simp at hcounted ⊢
        omega
    · obtain ⟨hrest, hreserved⟩ := contend_late hopen hqueue hids now arrival hlate
      rw [EachOnce, hrest, hreserved, hqueue, List.length_cons]
      simp only [hlate, false_or]
      omega

-- ---------------------------------------------------------------------------
-- A run
-- ---------------------------------------------------------------------------

/-- When a deed can be done: a timer fires on time if it is in the queue. -/
def Deed.Able (e : Entry) : Deed → Prop
  | .reserve _ => e.Spare ∧ e.Unqueued e.nextReservation
  | .connect | .beginRequest => e.Spare
  | .lapse id => ∃ r ∈ e.reservations, r.id = id
  | .disconnect | .endRequest => True

/-- An open entry and the number of expiries that have come too late. -/
inductive Contested : Entry → Nat → Prop
  | new (id : String) (data : List (String × Json)) (idleTimeout : Option Nat) :
      Contested { id, data, idleTimeout } 0
  | aside {e : Entry} (idleDue : Option Time) (expiries : List Time) (outcome : Option Outcome)
      (h : Contested e late) :
    Contested { e with idleDue, expiries, outcome } late
  | happen {e : Entry} (now : Time) (d : Deed) (h : Contested e late) (hd : d.Able e) :
      Contested (e.perform now d) late
  | tooLate {e : Entry} (now : Time) (id : UInt64) (h : Contested e late) (hid : e.Unqueued id) :
    Contested (e.expireReservation now id) (late + 1)

/-- What is reserved is queued, and what is queued is reserved but for one reservation a late
expiry. -/
structure Covered (e : Entry) (late : Nat) : Prop where
  opened : e.closed = false
  ids : (e.reservations.map (·.id)).Nodup
  queued : e.reserved ≤ e.reservations.length
  short : e.reservations.length ≤ e.reserved + late

variable {late : Nat}

theorem Covered.step {e' : Entry} (h : e.Covered late) (hopen : e'.closed = false)
    (hids : (e'.reservations.map (·.id)).Nodup)
    (hcounts : (e'.reservations.length = e.reservations.length ∧ e'.reserved = e.reserved) ∨
      (e'.reservations.length = e.reservations.length + 1 ∧ e'.reserved = e.reserved + 1) ∨
      (e'.reservations.length + 1 = e.reservations.length ∧ e'.reserved = e.reserved - 1)) :
    e'.Covered late := by
  have hqueued := h.queued
  have hshort := h.short
  refine ⟨hopen, hids, ?_, ?_⟩
  · omega
  · omega

theorem Covered.reserve (h : e.Covered late) (now : Time) (timeout : Nat) (hroom : e.Spare)
    (hfresh : e.Unqueued e.nextReservation) :
    ((e.acquire .pending).pushReservation now timeout).Covered late := by
  have hreserved := e.connections.toNat_count_add .pending .pending hroom
  refine h.step h.opened ?_ (.inr (.inl ⟨?_, hreserved⟩))
  · simp only [pushReservation, acquire, List.map_append, List.nodup_append]
    refine ⟨h.ids, List.nodup_singleton _, ?_⟩
    rintro _ hold _ hnew rfl
    obtain ⟨r, hr, hid⟩ := List.mem_map.mp hold
    exact hfresh r hr (hid.trans (List.mem_singleton.mp hnew))
  · simp [pushReservation, acquire]

theorem Covered.connect (h : e.Covered late) (now : Time) : (e.openSession now).Covered late := by
  have hreserved := reserved_openSession h.opened now
  refine h.step ((e.openSession_closed now).trans h.opened) ?_ ?_
  · rw [openSession_reservations]
    exact h.ids.sublist ((List.tail_sublist _).map _)
  · rw [openSession_reservations, hreserved]
    cases e.reservations with
    | nil => exact .inl ⟨rfl, rfl⟩
    | cons r rest => exact .inr (.inr ⟨rfl, rfl⟩)

theorem Covered.lapse (h : e.Covered late) (now : Time) (hr : r ∈ e.reservations) :
    (e.expireReservation now r.id).Covered late := by
  obtain ⟨rs, hdrop⟩ := e.dropReservation_frame r.id
  have hfilter := e.dropReservation_eq r.id h.ids
  have hqueue := e.expireReservation_reservations now r.id
  have hreserved :=
    release_reserved (e := e.dropReservation r.id) (by rw [hdrop]; exact h.opened) now
  rw [hfilter] at hqueue
  refine h.step ?_ (hqueue ▸ h.ids.sublist (List.filter_sublist.map _)) (.inr (.inr ⟨?_, ?_⟩))
  · rw [expireReservation, release_closed, hdrop]
    exact h.opened
  · rw [hqueue]
    exact length_filter_ne h.ids (List.mem_map_of_mem hr)
  · rw [expireReservation, hreserved, hdrop]
    rfl

theorem Covered.release (h : e.Covered late) (now : Time) {kind : ConnKind}
    (hkind : ConnKind.pending ≠ kind) : (e.release now kind).Covered late := by
  refine h.step ((e.release_closed now kind).trans h.opened) ?_ (.inl ⟨?_, ?_⟩)
  · rw [release_reservations]
    exact h.ids
  · rw [release_reservations]
  · rw [reserved, release_connections h.opened, Connections.toNat_count_remove, if_neg hkind]
    rfl

theorem Covered.perform (h : e.Covered late) (now : Time) (d : Deed) (hd : d.Able e) :
    (e.perform now d).Covered late := by
  cases d with
  | reserve timeout => exact h.reserve now timeout hd.1 hd.2
  | connect => exact h.connect now
  | disconnect => exact h.release now nofun
  | lapse id =>
    obtain ⟨r, hr, rfl⟩ := hd
    exact h.lapse now hr
  | beginRequest => exact h.step h.opened h.ids (.inl ⟨rfl, rfl⟩)
  | endRequest => exact h.release now nofun

theorem Contested.covered (h : Contested e late) : e.Covered late := by
  induction h with
  | new => constructor <;> simp [reserved, Connections.count]
  | aside _ _ _ _ ih => exact ⟨ih.opened, ih.ids, ih.queued, ih.short⟩
  | happen now d _ hd ih => exact ih.perform now d hd
  | @tooLate late e now id _ hid ih =>
    have hqueue := (lateExpiry ih.opened hid now).queue
    have hreserved : (e.expireReservation now id).reserved = e.reserved - 1 := by
      rw [expireReservation_unqueued hid, release_reserved ih.opened]
    have hqueued := ih.queued
    have hshort := ih.short
    refine ⟨?_, hqueue ▸ ih.ids, ?_, ?_⟩
    · rw [expireReservation_unqueued hid, release_closed, ih.opened]
    · rw [hqueue, hreserved]
      omega
    · rw [hqueue, hreserved]
      omega

/-- A late expiry gives up whatever is reserved. -/
theorem late_expiry_releases (e : Entry) (hopen : e.closed = false) (now : Time) :
    (∀ id, e.Unqueued id → e.LateExpiry now id) ∧
      (∀ r rest, e.reservations = r :: rest → (∀ s ∈ rest, s.id ≠ r.id) → rest.length < e.reserved →
        e.Contention now r rest) ∧
      ∀ late, Contested e late →
      e.reserved ≤ e.reservations.length ∧ e.reservations.length ≤ e.reserved + late := by
  refine ⟨fun id hid => lateExpiry hopen hid now, fun r rest hqueue hids hcounted => ?_,
    fun late h => ?_⟩
  · exact contention hopen hqueue hids hcounted now
  · exact ⟨h.covered.queued, h.covered.short⟩

/-- Two reservations, to be given up at different times. -/
def twoReserved : Entry :=
  ({ id := "w0", idleTimeout := some 5000 } : Entry).perform 0 (.reserve 1000) |>.perform 0
    (.reserve 5000)

theorem twoReserved_contested : Contested twoReserved 0 := by
  have hnew : Contested { id := "w0", idleTimeout := some 5000 } 0 := .new "w0" [] (some 5000)
  have hfirst := hnew.happen 0 (.reserve 1000) ⟨by decide, by decide⟩
  exact hfirst.happen 0 (.reserve 5000) ⟨by decide, by decide⟩

theorem late_expiry_releases_two :
    twoReserved.closed = false ∧ (twoReserved.openSession 1000).closed = false ∧
      (twoReserved.openSession 1000).LateExpiry 1000 0 ∧
      twoReserved.Contention 1000 ⟨0, 1000⟩ [⟨1, 5000⟩] ∧
      twoReserved.reserved = twoReserved.reservations.length := by
  obtain ⟨-, hcontention, hcounted⟩ := late_expiry_releases twoReserved (by decide) 1000
  obtain ⟨hle, hge⟩ := hcounted 0 twoReserved_contested
  refine ⟨by decide, by decide, ?_, hcontention _ _ (by decide) (by decide) (by decide),
    Nat.le_antisymm hle hge⟩
  exact (late_expiry_releases (twoReserved.openSession 1000) (by decide) 1000).1 0 (by decide)

/-- The first timer fires as the session cancels it: the second reservation is given up as well,
though it stays queued, and the worker is idle as soon as the session is over. -/
theorem cancelled_timer_releases :
    (¬∀ e now id, Contested e 0 → e.Unqueued id →
      (e.expireReservation now id).connections = e.connections ∧
      (e.expireReservation now id).reservations = e.reservations ∧
      (e.expireReservation now id).idleDue = e.idleDue) ∧
    (¬∀ arrival, twoReserved.EachOnce (twoReserved.contend 1000 0 arrival)) ∧
    ((twoReserved.openSession 1000).closeSession 1500).idleArmed = false ∧
    ((twoReserved.contend 1000 0 .afterRelease).closeSession 1500).idleArmed = true ∧
    (twoReserved.contend 1000 0 .afterRelease).reservations = [⟨1, 5000⟩] := by
  refine ⟨fun h => ?_, fun h => ?_, by decide, by decide, by decide⟩
  · have hopened := twoReserved_contested.happen 1000 .connect (by decide : twoReserved.Spare)
    exact absurd (h _ 1000 0 hopened (by decide)).1 (by decide)
  · exact absurd (h .afterRelease) (by decide)

end Entry

end AppHost
