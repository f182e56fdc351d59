import AppHost.Proofs.Worker.Effects
import Mathlib.Data.List.Perm.Basic
import Mathlib.Data.List.Nodup

/-!
# Sessions and reservations accounted for

`Books` are what one would keep by hand of a worker's sessions: those that are open, and the
reservations that were made, claimed, have lapsed or are outstanding. `Kept` keeps them beside an
entry through anything that can happen to it while it is open, in any order; a release timer fires
if it is still queued, and when it is due.

`accounts_exact`: the entry's counters and its queue of timers always agree with the books.
-/

namespace AppHost

namespace Entry

theorem release_open (e : Entry) (now : Time) (kind : ConnKind)
    (h : e.ignoresRelease kind = false) :
    ∃ due, e.release now kind =
      { e with connections := e.connections.remove kind, idleDue := due } := by
  obtain ⟨due, hdue⟩ := armIdle_frame { e with connections := e.connections.remove kind } now
  exact ⟨due, by simp [release, h, hdue]⟩

theorem openSession_unreserved (e : Entry) (now : Time) (h : e.reservations = []) :
    e.openSession now = e.acquire .sock := by
  simp [openSession, shiftReservation, acquire, h]

theorem openSession_reserved (e : Entry) (now : Time) (h : e.reservations = r :: rest) :
    e.openSession now = ({ e.acquire .sock with reservations := rest } : Entry).release now
      .pending := by
  simp [openSession, shiftReservation, acquire, h]

theorem dropReservation_eq (e : Entry) (id : UInt64) (h : (e.reservations.map (·.id)).Nodup) :
    (e.dropReservation id).reservations = e.reservations.filter (·.id ≠ id) := by
  unfold dropReservation
  split
  · next hnil => simp [hnil]
  · next oldest rest hcons =>
    split
    · next hid =>
      rw [hcons, List.map_cons, List.nodup_cons, List.mem_map] at h
      rw [hcons, List.filter_cons_of_neg (by simpa using hid)]
      refine (List.filter_eq_self.mpr fun r hr => ?_).symm
      simpa using fun heq : r.id = id => h.1 ⟨r, hr, heq.trans hid.symm⟩
    · rfl

-- ---------------------------------------------------------------------------
-- Books
-- ---------------------------------------------------------------------------

structure Booking where
  number : Nat
  due : Time
  deriving DecidableEq, Repr

def Booking.timer (x : Booking) : Reservation := { id := .ofNat x.number, due := x.due }

structure Books where
  now : Time
  sessions : Nat := 0
  /-- Every reservation, in the order they were made. -/
  made : List Booking := []
  outstanding : List Booking := []
  claimed : List Booking := []
  /-- With the times at which they were given up. -/
  lapsed : List (Booking × Time) := []
  deriving Repr

/-- What is done with the connections of a worker. -/
inductive Deed where
  | reserve (timeout : Nat)
  | connect
  | disconnect
  /-- A release timer fires. -/
  | lapse (id : UInt64)
  | beginRequest
  | endRequest

namespace Books

def reserve (b : Books) (timeout : Nat) : Books :=
  let x : Booking := { number := b.made.length, due := b.now + timeout }
  { b with made := b.made ++ [x], outstanding := b.outstanding ++ [x] }

/-- A session takes over the oldest reservation. -/
def connect (b : Books) : Books :=
  { b with
    sessions := b.sessions + 1
    outstanding := b.outstanding.tail
    claimed := b.claimed ++ b.outstanding.head?.toList }

def lapse (b : Books) (id : UInt64) : Books :=
  { b with
    outstanding := b.outstanding.filter (·.timer.id ≠ id)
    lapsed := b.lapsed ++ (b.outstanding.filter (·.timer.id = id)).map (·, b.now) }

def enter (b : Books) : Deed → Books
  | .reserve timeout => b.reserve timeout
  | .connect => b.connect
  | .disconnect => { b with sessions := b.sessions - 1 }
  | .lapse id => b.lapse id
  | .beginRequest | .endRequest => b

end Books

def perform (e : Entry) (now : Time) : Deed → Entry
  | .reserve timeout => (e.acquire .pending).pushReservation now timeout
  | .connect => e.openSession now
  | .disconnect => e.closeSession now
  | .lapse id => e.expireReservation now id
  | .beginRequest => e.acquire .http
  | .endRequest => e.release now .http

def Spare (e : Entry) : Prop := e.connections.tally + 1 < UInt32.size

instance (e : Entry) : Decidable e.Spare :=
  inferInstanceAs (Decidable (e.connections.tally + 1 < UInt32.size))

/-- When a deed can be done. The number for a release timer is not in use, which can happen only
after all have been (`Kept.fresh`). A timer fires if it is in the queue: a cancelled one does
not. -/
def Deed.Possible (e : Entry) (b : Books) : Deed → Prop
  | .reserve _ => e.Spare ∧ ∀ r ∈ e.reservations, r.id ≠ e.nextReservation
  | .connect | .beginRequest => e.Spare
  | .disconnect => 0 < b.sessions
  | .lapse id => ∃ due ≤ b.now, ({ id, due } : Reservation) ∈ e.reservations
  | .endRequest => True

/-- An open entry and the books kept of it since it was made. No release timer is passed over, and
whatever becomes of the idle timer, its expiries and the outcome is left out. -/
inductive Kept : Entry → Books → Prop
  | new (id : String) (data : List (String × Json)) (idleTimeout : Option Nat) (now : Time) :
    Kept { id, data, idleTimeout } { now }
  | wait (later : Time) (h : Kept e b) (hle : b.now ≤ later)
      (hdue : ∀ r ∈ e.reservations, later ≤ r.due) :
    Kept e { b with now := later }
  | aside (idleDue : Option Time) (expiries : List Time) (outcome : Option Outcome) (h : Kept e b) :
    Kept { e with idleDue, expiries, outcome } b
  | happen (d : Deed) (h : Kept e b) (hd : d.Possible e b) : Kept (e.perform b.now d) (b.enter d)

-- ---------------------------------------------------------------------------
-- The entry agrees with the books
-- ---------------------------------------------------------------------------

structure Balanced (e : Entry) (b : Books) : Prop where
  opened : e.closed = false
  room : e.connections.tally < UInt32.size
  sock : (e.connections.count .sock).toNat = b.sessions
  pending : (e.connections.count .pending).toNat = b.outstanding.length
  queue : e.reservations = b.outstanding.map Booking.timer
  next : e.nextReservation = .ofNat b.made.length
  ids : (b.outstanding.map (·.timer.id)).Nodup

variable {e : Entry} {b : Books} {kind : ConnKind}

theorem Balanced.ids_queue (h : e.Balanced b) : (e.reservations.map (·.id)).Nodup := by
  simpa [h.queue, Function.comp_def] using h.ids

theorem Balanced.reserve (h : e.Balanced b) (timeout : Nat) (hroom : e.Spare)
    (hfresh : ∀ r ∈ e.reservations, r.id ≠ e.nextReservation) :
    ((e.acquire .pending).pushReservation b.now timeout).Balanced (b.reserve timeout) := by
  have hcount := fun other => e.connections.toNat_count_add .pending other hroom
  constructor
  · exact h.opened
  · exact (e.connections.tally_add .pending hroom).symm ▸ hroom
  · exact (hcount .sock).trans h.sock
  · refine (hcount .pending).trans ?_
    simp [Books.reserve, h.pending]
  · simp [pushReservation, acquire, Books.reserve, Booking.timer, h.queue, h.next]
  · simp [pushReservation, acquire, Books.reserve, h.next, UInt64.ofNat_add]
  · have hnew : ∀ x ∈ b.outstanding, x.timer.id ≠ .ofNat b.made.length := by
      intro x hx
      rw [← h.next]
      exact hfresh x.timer (h.queue ▸ List.mem_map_of_mem hx)
    have hids := h.ids
    simp only [Booking.timer] at hids hnew
    simpa [Books.reserve, List.nodup_append, Booking.timer, hids] using hnew

theorem Balanced.acquire (h : e.Balanced b) (hroom : e.Spare) (hkind : kind ≠ .pending) :
    (e.acquire kind).Balanced
      { b with sessions := b.sessions + if kind = .sock then 1 else 0 } := by
  have hadd := fun other => e.connections.toNat_count_add kind other hroom
  refine ⟨h.opened, (e.connections.tally_add kind hroom).symm ▸ hroom, ?_, ?_, h.queue,
    h.next, h.ids⟩
  · refine (hadd .sock).trans ?_
    simp [h.sock, eq_comm]
  · refine (hadd .pending).trans ?_
    simp [h.pending, hkind.symm]

theorem Balanced.release (h : e.Balanced b) (now : Time) (hkind : kind ≠ .pending) :
    (e.release now kind).Balanced
      { b with sessions := b.sessions - if kind = .sock then 1 else 0 } := by
  obtain ⟨due, heq⟩ := release_open e now kind (by simp [ignoresRelease, h.opened, hkind])
  have hremove := fun other => e.connections.toNat_count_remove kind other
  rw [heq]
  refine ⟨h.opened, Nat.lt_of_le_of_lt (e.connections.tally_remove_le kind) h.room, ?_, ?_, h.queue,
    h.next, h.ids⟩
  · refine (hremove .sock).trans ?_
    simp [h.sock, eq_comm]
  · refine (hremove .pending).trans ?_
    simp [h.pending, hkind.symm]

theorem Balanced.giveUp {b' : Books} (h : e.Balanced b) (now : Time)
    (hsessions : b'.sessions = b.sessions) (hmade : b'.made = b.made)
    (hsub : b'.outstanding.Sublist b.outstanding)
    (hlength : b'.outstanding.length + 1 = b.outstanding.length) :
    (({ e with reservations := b'.outstanding.map Booking.timer } : Entry).release
      now .pending).Balanced b' := by
  have hpending := h.pending
  have hne : e.connections.pending ≠ 0 := by
    intro hzero
    simp only [Connections.count, hzero] at hpending
    exact absurd (hlength.trans hpending.symm) (Nat.succ_ne_zero _)
  obtain ⟨due, heq⟩ :=
    release_open { e with reservations := b'.outstanding.map Booking.timer } now .pending
      (by simp [ignoresRelease, h.opened, hne])
  have hremove := fun other => e.connections.toNat_count_remove .pending other
  rw [heq]
  refine ⟨h.opened, Nat.lt_of_le_of_lt (e.connections.tally_remove_le .pending) h.room, ?_, ?_, rfl,
    ?_, h.ids.sublist (hsub.map _)⟩
  · exact (hremove .sock).trans (h.sock.trans hsessions.symm)
  · refine (hremove .pending).trans ?_
    simp only [if_true]
    omega
  · exact hmade ▸ h.next

theorem Balanced.connect (h : e.Balanced b) (hroom : e.Spare) :
    (e.openSession b.now).Balanced b.connect := by
  have hcounted : (e.acquire .sock).Balanced { b with sessions := b.sessions + 1 } :=
    h.acquire hroom (by simp)
  cases hout : b.outstanding with
  | nil =>
    rw [openSession_unreserved e b.now (by simp [h.queue, hout])]
    simpa [Books.connect, hout] using hcounted
  | cons x rest =>
    rw [openSession_reserved e b.now (by rw [h.queue, hout, List.map_cons])]
    have hrest : b.connect.outstanding = rest := by simp [Books.connect, hout]
    rw [← hrest]
    exact hcounted.giveUp b.now rfl rfl (List.tail_sublist _) (by simp [hrest, hout])

theorem length_filter_ne {f : α → β} [DecidableEq β] {l : List α} (hn : (l.map f).Nodup)
    (ha : a ∈ l.map f) : (l.filter (f · ≠ a)).length + 1 = l.length := by
  have hone : l.countP (fun x => f x == a) = 1 := by
    have hcount := List.count_eq_one_of_mem hn ha
    rwa [List.count_eq_countP, List.countP_map] at hcount
  have hsplit := List.length_eq_countP_add_countP (fun x => f x == a) (l := l)
  rw [hsplit, hone, ← List.countP_eq_length_filter, Nat.add_comm]
  simp

theorem Balanced.lapse (h : e.Balanced b) (hr : r ∈ e.reservations) :
    (e.expireReservation b.now r.id).Balanced (b.lapse r.id) := by
  obtain ⟨rs, hdrop⟩ := e.dropReservation_frame r.id
  have hrs : rs = (b.outstanding.filter (·.timer.id ≠ r.id)).map Booking.timer := by
    have heq := e.dropReservation_eq r.id h.ids_queue
    rw [hdrop, h.queue, List.filter_map] at heq
    exact heq
  have hmem : r.id ∈ b.outstanding.map (·.timer.id) := by
    rw [h.queue] at hr
    obtain ⟨x, hx, rfl⟩ := List.mem_map.mp hr
    exact List.mem_map.mpr ⟨x, hx, rfl⟩
  have hlapse : (b.lapse r.id).outstanding = b.outstanding.filter (·.timer.id ≠ r.id) := rfl
  rw [expireReservation, hdrop, hrs, ← hlapse]
  refine h.giveUp b.now rfl rfl ?_ ?_
  · exact List.filter_sublist
  · exact length_filter_ne h.ids hmem

theorem Balanced.perform (h : e.Balanced b) (d : Deed) (hd : d.Possible e b) :
    (e.perform b.now d).Balanced (b.enter d) := by
  cases d with
  | reserve timeout => exact h.reserve timeout hd.1 hd.2
  | connect => exact h.connect hd
  | disconnect => exact h.release b.now (by simp)
  | lapse id =>
    obtain ⟨due, -, hr⟩ := hd
    exact h.lapse hr
  | beginRequest => exact h.acquire hd (by simp)
  | endRequest => exact h.release b.now (by simp)

theorem Kept.balanced (h : Kept e b) : e.Balanced b := by
  induction h with
  | new => constructor <;> simp [Connections.count, Connections.tally, UInt32.size]
  | wait _ _ _ _ ih | aside _ _ _ _ ih =>
    exact ⟨ih.opened, ih.room, ih.sock, ih.pending, ih.queue, ih.next, ih.ids⟩
  | happen d _ hd ih => exact ih.perform d hd

-- ---------------------------------------------------------------------------
-- The books are in order
-- ---------------------------------------------------------------------------

namespace Books

structure Sound (b : Books) : Prop where
  settled : (b.claimed ++ b.lapsed.map (·.1) ++ b.outstanding).Perm b.made
  numbered : b.made.map (·.number) = List.range b.made.length
  ordered : b.outstanding.Sublist b.made
  onTime : ∀ x ∈ b.lapsed, x.2 = x.1.due
  ahead : ∀ x ∈ b.outstanding, b.now ≤ x.due

theorem Sound.reserve (h : b.Sound) (timeout : Nat) : (b.reserve timeout).Sound := by
  constructor
  · simpa [Books.reserve] using h.settled.append_right _
  · simp [Books.reserve, h.numbered, List.range_succ]
  · exact h.ordered.append_right _
  · exact h.onTime
  · intro x hx
    rcases List.mem_append.mp hx with hx | hx
    · exact h.ahead x hx
    · obtain rfl := List.mem_singleton.mp hx
      exact Nat.le_add_right _ _

theorem Sound.connect (h : b.Sound) : b.connect.Sound := by
  refine ⟨?_, h.numbered, (List.tail_sublist _).trans h.ordered, h.onTime,
    fun x hx => h.ahead x (List.mem_of_mem_tail hx)⟩
  have hsettled := h.settled
  cases hout : b.outstanding with
  | nil => simpa [Books.connect, hout] using hsettled
  | cons x rest =>
    refine List.Perm.trans ?_ hsettled
    simp only [Books.connect, hout, List.head?_cons, Option.toList_some, List.tail_cons,
      List.append_assoc, List.singleton_append]
    exact List.perm_middle.symm.append_left _

theorem Sound.lapse (h : b.Sound) (hids : (b.outstanding.map (·.timer.id)).Nodup) {r : Reservation}
    (hr : r ∈ b.outstanding.map Booking.timer) (hdue : r.due ≤ b.now) : (b.lapse r.id).Sound := by
  obtain ⟨y, hy, rfl⟩ := List.mem_map.mp hr
  refine ⟨?_, h.numbered, List.filter_sublist.trans h.ordered, ?_,
    fun x hx => h.ahead x (List.mem_of_mem_filter hx)⟩
  · refine List.Perm.trans ?_ h.settled
    have hparts :=
      List.filter_append_perm (fun x : Booking => decide (x.timer.id = y.timer.id)) b.outstanding
    simpa [Books.lapse, Function.comp_def] using hparts.append_left
      (b.claimed ++ b.lapsed.map (·.1))
  · intro x hx
    rcases List.mem_append.mp hx with hx | hx
    · exact h.onTime x hx
    · obtain ⟨z, hz, rfl⟩ := List.mem_map.mp hx
      obtain ⟨hout, hid⟩ := List.mem_filter.mp hz
      obtain rfl : z = y := List.inj_on_of_nodup_map hids hout hy (of_decide_eq_true hid)
      exact Nat.le_antisymm (h.ahead z hout) hdue

end Books

theorem Kept.sound (h : Kept e b) : b.Sound := by
  induction h with
  | new => constructor <;> simp
  | aside _ _ _ _ ih => exact ih
  | wait later hkept _ hdue ih =>
    refine ⟨ih.settled, ih.numbered, ih.ordered, ih.onTime, fun x hx => ?_⟩
    exact hdue x.timer (hkept.balanced.queue ▸ List.mem_map_of_mem hx)
  | @happen e b d hkept hd ih =>
    cases d with
    | reserve timeout => exact ih.reserve timeout
    | connect => exact ih.connect
    | lapse id =>
      obtain ⟨due, hle, hr⟩ := hd
      exact ih.lapse hkept.balanced.ids (hkept.balanced.queue ▸ hr) hle
    | disconnect | beginRequest | endRequest =>
      exact ⟨ih.settled, ih.numbered, ih.ordered, ih.onTime, ih.ahead⟩

/-- The number of the next release timer is not in use while not all numbers have been. -/
theorem Kept.fresh (h : Kept e b) (hmade : b.made.length < UInt64.size) :
    ∀ r ∈ e.reservations, r.id ≠ e.nextReservation := by
  intro r hr heq
  unfold UInt64.size at hmade
  rw [h.balanced.queue] at hr
  obtain ⟨x, hx, rfl⟩ := List.mem_map.mp hr
  have hlt : x.number < b.made.length := by
    rw [← List.mem_range, ← h.sound.numbered]
    exact List.mem_map_of_mem (h.sound.ordered.subset hx)
  rw [h.balanced.next] at heq
  have hnat := congrArg UInt64.toNat heq
  simp only [Booking.timer, UInt64.toNat_ofNat'] at hnat
  rw [Nat.mod_eq_of_lt, Nat.mod_eq_of_lt] at hnat
  all_goals omega

-- ---------------------------------------------------------------------------
-- What the host does
-- ---------------------------------------------------------------------------

def Deed.events (e : Entry) : Deed → List Worker.Event
  | .reserve timeout => [.acquire .pending, .pushReservation timeout]
  | .connect => Worker.Event.sessionOpens (!e.reservations.isEmpty)
  | .disconnect => Worker.Event.sessionCloses
  | .lapse id => [.timer (.reservation id)]
  | .beginRequest => [.acquire .http]
  | .endRequest => [.release .http]

end Entry

namespace Worker

/-- The worker after these events, one right after the other. -/
def undergo (w : Worker) (now : Time) (events : List Event) : Worker :=
  events.foldl (fun w e => (w.step now e).1) w

/-- A deed is done by its events, which leave the rest of the worker as it was. -/
theorem undergo_events (w : Worker) (now : Time) (d : Entry.Deed) :
    w.undergo now (d.events w.entry) = { w with entry := w.entry.perform now d } := by
  cases d with
  | connect =>
    cases hqueue : w.entry.reservations with
    | nil =>
      simp [undergo, Entry.Deed.events, Event.sessionOpens, step, Entry.perform, hqueue,
        Entry.openSession_unreserved, Entry.shiftReservation, Entry.acquire]
    | cons r rest =>
      simp [undergo, Entry.Deed.events, Event.sessionOpens, step, Entry.perform, hqueue,
        Entry.openSession_reserved w.entry now hqueue, Entry.shiftReservation, Entry.acquire]
  | _ => rfl

end Worker

namespace Entry

/-- A session is connected, and the idle timer is not armed. -/
structure Engaged (e : Entry) : Prop where
  room : e.connections.tally < UInt32.size
  session : 0 < (e.connections.count .sock).toNat
  unarmed : e.idleDue = none

variable {e : Entry}

theorem Engaged.count_ne_zero (h : e.Engaged) : e.count ≠ 0 := by
  intro hzero
  have htally := (e.connections.total_eq_zero_iff h.room).mp hzero
  have hle := e.connections.count_le_tally .sock
  have hpos := h.session
  omega

theorem engaged_acquire (h : e.Spare) : (e.acquire .sock).Engaged := by
  refine ⟨(e.connections.tally_add .sock h).symm ▸ h, ?_, rfl⟩
  rw [acquire, e.connections.toNat_count_add .sock .sock h]
  exact Nat.succ_pos _

theorem Engaged.shift (h : e.Engaged) : e.shiftReservation.1.Engaged := by
  obtain ⟨rs, heq⟩ := e.shiftReservation_frame
  rw [heq]
  exact ⟨h.room, h.session, h.unarmed⟩

theorem Engaged.release (h : e.Engaged) (now : Time) : (e.release now .pending).Engaged := by
  have hremoved : ({ e with connections := e.connections.remove .pending } : Entry).Engaged := by
    refine ⟨Nat.lt_of_le_of_lt (e.connections.tally_remove_le .pending) h.room, ?_, h.unarmed⟩
    rw [e.connections.toNat_count_remove .pending .sock]
    exact h.session
  unfold Entry.release
  split
  · exact h
  · rwa [armIdle, if_pos hremoved.count_ne_zero]

/-- While a session opens, from its first step on, the worker does not look idle. -/
theorem engaged_opening {w : Worker} (h : w.entry.Spare) (now : Time) (reserved : Bool) (k : Nat) :
    (w.undergo now ((Worker.Event.sessionOpens reserved).take (k + 1))).entry.Engaged := by
  have hacquired := engaged_acquire h
  rcases k with _ | _ | k
  · exact hacquired
  · exact hacquired.shift
  · rw [List.take_of_length_le (by cases reserved <;> simp [Worker.Event.sessionOpens])]
    cases reserved with
    | false => exact hacquired.shift
    | true => exact hacquired.shift.release now

-- ---------------------------------------------------------------------------
-- The accounts
-- ---------------------------------------------------------------------------

structure Accounted (e : Entry) (b : Books) : Prop where
  sock : e.connections.sock.toNat = b.sessions
  pending : e.connections.pending.toNat = b.outstanding.length
  timers : e.reservations = b.outstanding.map Booking.timer
  /-- Every reservation was claimed, or has lapsed, or is outstanding: just one of these, and
  once. -/
  settled : (b.claimed ++ b.lapsed.map (·.1) ++ b.outstanding).Perm b.made
  distinct : b.made.Nodup
  oldest : b.outstanding.Sublist b.made
  onTime : ∀ x ∈ b.lapsed, x.2 = x.1.due
  ahead : ∀ x ∈ b.outstanding, b.now ≤ x.due
  /-- Step by step, a session that opens leaves the worker in use and the idle timer off. -/
  opening : e.Spare → ∀ w : Worker, w.entry = e → ∀ k > 0,
    let v := w.undergo b.now ((Deed.connect.events e).take k)
    v.entry.count ≠ 0 ∧ v.entry.idleArmed = false

theorem accounts_exact (h : Kept e b) : e.Accounted b := by
  have hbalanced := h.balanced
  have hsound := h.sound
  refine ⟨hbalanced.sock, hbalanced.pending, hbalanced.queue, hsound.settled, ?_, hsound.ordered,
    hsound.onTime, hsound.ahead, ?_⟩
  · refine List.Nodup.of_map (·.number) ?_
    rw [hsound.numbered]
    exact List.nodup_range
  · rintro hroom w rfl k hk
    obtain ⟨k, rfl⟩ := Nat.exists_eq_succ_of_ne_zero (Nat.ne_of_gt hk)
    have hopening := engaged_opening hroom b.now (!w.entry.reservations.isEmpty) k
    exact ⟨hopening.count_ne_zero, by simp [idleArmed, Deed.events, hopening.unarmed]⟩

/-- Of two reservations a session claims the first, and the second lapses. -/
theorem accounts_exact_pair :
    ∃ e b, Kept e b ∧ e.Accounted b ∧ b.now = 2000 ∧ b.made = [⟨0, 4000⟩, ⟨1, 2000⟩] ∧
      b.claimed = [⟨0, 4000⟩] ∧ b.lapsed = [(⟨1, 2000⟩, 2000)] ∧ e.connections = { sock := 1 } := by
  have h : Kept _ _ := .new "w0" [] (some 5000) 0
  have h := h.happen (.reserve 4000) ⟨by decide, by decide⟩
  have h := h.happen (.reserve 2000) ⟨by decide, by decide⟩
  have h := h.happen .connect (by decide : Spare _)
  have h := h.wait 2000 (by decide) (by decide)
  have h := h.happen (.lapse 1) ⟨2000, by decide, by decide⟩
  exact ⟨_, _, h, accounts_exact h, rfl, rfl, rfl, rfl, rfl⟩

end Entry

end AppHost
