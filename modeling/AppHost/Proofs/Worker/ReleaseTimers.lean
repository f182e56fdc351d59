import AppHost.Proofs.Worker.Accounts
import AppHost.Proofs.Worker.IdleSignals
import Mathlib.Data.List.Induction

/-!
# The queue of release timers

Reservations are claimed from the front of the queue and lapse wherever they stand in it, and a
close clears it. A `Ledger` keeps every release timer that was ever set, with what has become of it,
and is read off the history alone; the entry keeps the timers that are still waiting, and no more.

`queue_ordered`: whatever is done to an entry, and at whatever times, its queue is the part of the
ledger that is still waiting, in the order in which the timers were set. Their numbers are words, so
this holds until all of them have been used.
-/

namespace AppHost

namespace Entry

-- ---------------------------------------------------------------------------
-- Histories
-- ---------------------------------------------------------------------------

/-- Whatever can be done to an entry. A release timer may fire at any time, late or early. -/
inductive Change where
  | use (u : Use)
  | close

def Change.sets : Change → Bool
  | .use (.pushReservation _) => true
  | _ => false

def change (e : Entry) (now : Time) : Change → Entry
  | .use u => e.use now u
  | .close => e.close

def after (e : Entry) (history : List (Time × Change)) : Entry :=
  history.foldl (fun e c => e.change c.1 c.2) e

-- ---------------------------------------------------------------------------
-- The ledger
-- ---------------------------------------------------------------------------

inductive Fate where
  | waiting
  | fired
  /-- By a session that claimed the reservation, or by the close. -/
  | cancelled
  deriving DecidableEq, Repr

/-- A release timer that was set, numbered from zero. -/
structure ReleaseTimer where
  number : Nat
  due : Time
  fate : Fate := .waiting
  deriving DecidableEq, Repr

namespace ReleaseTimer

def reservation (t : ReleaseTimer) : Reservation := { id := .ofNat t.number, due := t.due }

/-- What has become of a timer stays so. -/
def settle (fate : Fate) (t : ReleaseTimer) : ReleaseTimer :=
  if t.fate = .waiting then { t with fate } else t

end ReleaseTimer

/-- Every timer that was set, oldest first. -/
abbrev Ledger := List ReleaseTimer

namespace Ledger

def set (l : Ledger) (due : Time) : Ledger := l ++ [{ number := l.length, due }]

def cancelOldest : Ledger → Ledger
  | [] => []
  | t :: rest => if t.fate = .waiting then t.settle .cancelled :: rest else t :: cancelOldest rest

def fire (l : Ledger) (id : UInt64) : Ledger :=
  l.map fun t => if t.reservation.id = id then t.settle .fired else t

def cancelAll (l : Ledger) : Ledger := l.map (·.settle .cancelled)

def note (l : Ledger) (now : Time) : Change → Ledger
  | .use (.pushReservation timeout) => l.set (now + timeout)
  | .use .shiftReservation => l.cancelOldest
  | .use (.expire (.reservation id)) => l.fire id
  | .close => l.cancelAll
  | _ => l

def ofHistory (history : List (Time × Change)) : Ledger :=
  history.foldl (fun l c => l.note c.1 c.2) []

def waiting (l : Ledger) : List ReleaseTimer := l.filter (·.fate = .waiting)

def queue (l : Ledger) : List Reservation := l.waiting.map (·.reservation)

-- ---------------------------------------------------------------------------
-- What each change does to the ledger
-- ---------------------------------------------------------------------------

variable {l : Ledger}

theorem queue_set (l : Ledger) (due : Time) :
    (l.set due).queue = l.queue ++ [{ id := .ofNat l.length, due }] := by
  simp [set, queue, waiting, ReleaseTimer.reservation]

theorem queue_cancelOldest (l : Ledger) : l.cancelOldest.queue = l.queue.tail := by
  induction l with
  | nil => rfl
  | cons t rest ih =>
    by_cases ht : t.fate = .waiting
    · simp [cancelOldest, queue, waiting, ReleaseTimer.settle, ht]
    · simpa [cancelOldest, queue, waiting, ht] using ih

theorem queue_fire (l : Ledger) (id : UInt64) : (l.fire id).queue = l.queue.filter (·.id ≠ id) := by
  induction l with
  | nil => rfl
  | cons t rest ih =>
    have ih' : ((rest.map fun t => if t.reservation.id = id then t.settle .fired else t).filter
        (·.fate = .waiting)).map (·.reservation) =
      ((rest.filter (·.fate = .waiting)).map (·.reservation)).filter (·.id ≠ id) := ih
    by_cases hid : t.reservation.id = id <;> by_cases ht : t.fate = .waiting <;>
      simp_all [fire, queue, waiting, ReleaseTimer.settle]

theorem queue_cancelAll (l : Ledger) : l.cancelAll.queue = [] := by
  simp only [cancelAll, queue, waiting, List.map_eq_nil_iff, List.filter_eq_nil_iff, List.mem_map]
  rintro _ ⟨t, -, rfl⟩
  by_cases ht : t.fate = .waiting <;> simp [ReleaseTimer.settle, ht]

@[simp] theorem number_settle (fate : Fate) (t : ReleaseTimer) :
    (t.settle fate).number = t.number := by
  unfold ReleaseTimer.settle
  split <;> rfl

theorem numbers_cancelOldest (l : Ledger) : l.cancelOldest.map (·.number) = l.map (·.number) := by
  induction l with
  | nil => rfl
  | cons t rest ih => by_cases ht : t.fate = .waiting <;> simp [cancelOldest, ht, ih]

theorem numbers_fire (l : Ledger) (id : UInt64) :
    (l.fire id).map (·.number) = l.map (·.number) := by
  rw [fire, List.map_map]
  refine List.map_congr_left fun t _ => ?_
  simp only [Function.comp_apply]
  split
  · exact number_settle _ t
  · rfl

theorem numbers_cancelAll (l : Ledger) : l.cancelAll.map (·.number) = l.map (·.number) := by
  simp [cancelAll, Function.comp_def]

/-- The timers are numbered in the order in which they were set. -/
def Numbered (l : Ledger) : Prop := l.map (·.number) = List.range l.length

theorem numbers_note (l : Ledger) (now : Time) (c : Change) :
    (l.note now c).map (·.number) = l.map (·.number) ++ if c.sets then [l.length] else [] := by
  cases c with
  | close => simpa [Change.sets, note] using l.numbers_cancelAll
  | use u =>
    cases u with
    | pushReservation timeout => simp [Change.sets, note, set]
    | shiftReservation => simpa [Change.sets, note] using l.numbers_cancelOldest
    | expire timer =>
      cases timer with
      | reservation id => simpa [Change.sets, note] using l.numbers_fire id
      | idle => simp [Change.sets, note]
    | _ => simp [Change.sets, note]

theorem length_note (l : Ledger) (now : Time) (c : Change) :
    (l.note now c).length = l.length + if c.sets then 1 else 0 := by
  have hlength := congrArg List.length (l.numbers_note now c)
  simp only [List.length_map, List.length_append] at hlength
  rw [hlength]
  split <;> rfl

theorem Numbered.note (h : l.Numbered) (now : Time) (c : Change) : (l.note now c).Numbered := by
  rw [Numbered, numbers_note, length_note, h]
  split
  · exact List.range_succ.symm
  · simp

theorem Numbered.lt (h : l.Numbered) (ht : t ∈ l) : t.number < l.length := by
  rw [← List.mem_range, ← h]
  exact List.mem_map_of_mem ht

theorem Numbered.pairwise (h : l.Numbered) : l.Pairwise (·.number < ·.number) :=
  List.pairwise_map.mp (h ▸ List.pairwise_lt_range)

/-- As long as there are numbers left, a later timer has a larger one. -/
theorem Numbered.increasing (h : l.Numbered) (hfew : l.length ≤ UInt64.size) :
    l.Pairwise (·.reservation.id < ·.reservation.id) := by
  refine h.pairwise.imp_of_mem fun {s t} hs ht hlt => ?_
  have hword : ∀ x ∈ l, x.reservation.id.toNat = x.number := fun x hx =>
    (UInt64.toNat_ofNat' ..).trans (Nat.mod_eq_of_lt (Nat.lt_of_lt_of_le (h.lt hx) hfew))
  rwa [UInt64.lt_iff_toNat_lt, hword s hs, hword t ht]

theorem Numbered.eq_of_id (h : l.Numbered) (hfew : l.length ≤ UInt64.size) {s t : ReleaseTimer}
    (hs : s ∈ l) (ht : t ∈ l) (hid : s.reservation.id = t.reservation.id) : s = t :=
  List.inj_on_of_nodup_map (List.pairwise_map.mpr ((h.increasing hfew).imp UInt64.ne_of_lt)) hs ht
    hid

/-- The oldest timer that is waiting is the first that is. -/
theorem Numbered.waiting_oldest (h : l.Numbered) (ht : t ∈ l) (hwaiting : t.fate = .waiting)
    (holdest : ∀ s ∈ l, s.fate = .waiting → t.number ≤ s.number) :
    ∃ rest, l.waiting = t :: rest := by
  have hmem : t ∈ l.waiting := List.mem_filter.mpr ⟨ht, decide_eq_true hwaiting⟩
  have hpairwise : l.waiting.Pairwise (·.number < ·.number) :=
    h.pairwise.sublist List.filter_sublist
  cases hqueue : l.waiting with
  | nil => simp [hqueue] at hmem
  | cons s rest =>
    rw [hqueue] at hmem hpairwise
    obtain rfl | hrest := List.mem_cons.mp hmem
    · exact ⟨rest, rfl⟩
    · have hs : s ∈ l.waiting := hqueue ▸ List.mem_cons_self
      obtain ⟨hs, hfate⟩ := List.mem_filter.mp hs
      exact absurd (holdest s hs (of_decide_eq_true hfate))
        (Nat.not_le.mpr (List.rel_of_pairwise_cons hpairwise hrest))

theorem Numbered.queue_increasing (h : l.Numbered) (hfew : l.length ≤ UInt64.size) :
    l.queue.Pairwise (·.id < ·.id) :=
  List.pairwise_map.mpr ((h.increasing hfew).sublist List.filter_sublist)

end Ledger

-- ---------------------------------------------------------------------------
-- The entry agrees with the ledger
-- ---------------------------------------------------------------------------

/-- The entry keeps the timers that are waiting, and the number of the next one. -/
structure Agrees (e : Entry) (l : Ledger) : Prop where
  queue : e.reservations = l.queue
  next : e.nextReservation = .ofNat l.length

variable {e : Entry} {l : Ledger}

theorem Agrees.mem_iff (h : e.Agrees l) :
    r ∈ e.reservations ↔ ∃ t ∈ l, t.fate = .waiting ∧ t.reservation = r := by
  simp [h.queue, Ledger.queue, Ledger.waiting, and_assoc]

theorem Agrees.toNat_next (h : e.Agrees l) (hfew : l.length < UInt64.size) :
    e.nextReservation.toNat = l.length := by
  rw [h.next]
  exact (UInt64.toNat_ofNat' ..).trans (Nat.mod_eq_of_lt hfew)

theorem Agrees.ids (h : e.Agrees l) (hn : l.Numbered) (hfew : l.length ≤ UInt64.size) :
    (e.reservations.map (·.id)).Nodup := by
  rw [h.queue]
  exact List.pairwise_map.mpr ((hn.queue_increasing hfew).imp UInt64.ne_of_lt)

theorem expireReservation_reservations (e : Entry) (now : Time) (id : UInt64) :
    (e.expireReservation now id).reservations = (e.dropReservation id).reservations :=
  release_reservations _ now .pending

/-- A timer is taken off the queue wherever it stands, and the others keep their order. -/
theorem dropReservation_middle (hids : (e.reservations.map (·.id)).Nodup)
    (hqueue : e.reservations = pre ++ r :: post) :
    (e.dropReservation r.id).reservations = pre ++ post := by
  rw [e.dropReservation_eq r.id hids, hqueue, List.filter_append, List.filter_cons_of_neg (by simp),
    ← List.filter_append]
  rw [hqueue, List.map_append, List.map_cons, List.nodup_middle, ← List.map_append,
    List.nodup_cons] at hids
  refine List.filter_eq_self.mpr fun x hx => decide_eq_true fun heq => ?_
  exact hids.1 (heq ▸ List.mem_map_of_mem hx)

theorem dropReservation_missed {id : UInt64} (hmissed : ∀ r ∈ e.reservations, r.id ≠ id) :
    e.dropReservation id = e := by
  unfold dropReservation
  split
  · rfl
  · next oldest rest hqueue =>
    have hall : e.reservations.filter (·.id ≠ id) = e.reservations :=
      List.filter_eq_self.mpr fun r hr => decide_eq_true (hmissed r hr)
    rw [if_neg (hmissed oldest (hqueue ▸ List.mem_cons_self)), hall]

theorem shiftReservation_reservations (e : Entry) :
    e.shiftReservation.1.reservations = e.reservations.tail := by
  unfold shiftReservation
  split <;> simp_all

theorem change_nextReservation (e : Entry) (now : Time) (c : Change) :
    (e.change now c).nextReservation = e.nextReservation + if c.sets then 1 else 0 := by
  cases c with
  | close => simp [change, close, Change.sets]
  | use u =>
    cases u with
    | acquire | read => simp [change, use, acquire, takeExpiries, Change.sets]
    | pushReservation => simp [change, use, pushReservation, Change.sets]
    | release kind =>
      obtain ⟨_, _, h⟩ := e.release_frame now kind
      simp [change, use, h, Change.sets]
    | startIdle =>
      obtain ⟨_, h⟩ := e.armIdle_frame now
      simp [change, use, h, Change.sets]
    | shiftReservation =>
      obtain ⟨_, h⟩ := e.shiftReservation_frame
      simp [change, use, h, Change.sets]
    | expire timer =>
      obtain ⟨_, _, _, _, h⟩ := e.fire_frame now timer
      simp [change, use, h, Change.sets]
    | resolve outcome =>
      obtain ⟨_, h⟩ := e.resolve_frame outcome
      simp [change, use, h, Change.sets]

theorem Agrees.change (h : e.Agrees l) (hn : l.Numbered) (hfew : l.length ≤ UInt64.size)
    (now : Time) (c : Change) : (e.change now c).Agrees (l.note now c) := by
  refine ⟨?_, ?_⟩
  · cases c with
    | close => exact l.queue_cancelAll.symm
    | use u =>
      cases u with
      | acquire | read => exact h.queue
      | release kind => exact (e.release_reservations now kind).trans h.queue
      | startIdle => exact (e.armIdle_reservations now).trans h.queue
      | pushReservation timeout =>
        refine Eq.trans ?_ (l.queue_set (now + timeout)).symm
        simp [Entry.change, use, pushReservation, h.queue, h.next]
      | shiftReservation =>
        refine e.shiftReservation_reservations.trans ?_
        rw [h.queue]
        exact l.queue_cancelOldest.symm
      | expire timer =>
        cases timer with
        | reservation id =>
          refine (e.expireReservation_reservations now id).trans ?_
          rw [e.dropReservation_eq id (h.ids hn hfew), h.queue]
          exact (l.queue_fire id).symm
        | idle =>
          obtain ⟨_, _, hexpire⟩ := e.expireIdle_frame now
          exact (congrArg reservations hexpire).trans h.queue
      | resolve outcome =>
        obtain ⟨_, hresolve⟩ := e.resolve_frame outcome
        exact (congrArg reservations hresolve).trans h.queue
  · rw [change_nextReservation, h.next, Ledger.length_note]
    split
    · exact (UInt64.ofNat_add ..).symm
    · simp

theorem length_ofHistory_le (history : List (Time × Change)) (c : Time × Change) :
    (Ledger.ofHistory history).length ≤ (Ledger.ofHistory (history ++ [c])).length := by
  rw [Ledger.ofHistory, Ledger.ofHistory, List.foldl_append, List.foldl_cons, List.foldl_nil,
    Ledger.length_note]
  exact Nat.le_add_right ..

/-- The ledger and the entry go through a history side by side. -/
theorem agrees_after (id : String) (data : List (String × Json)) (idleTimeout : Option Nat)
    (history : List (Time × Change)) (hfew : (Ledger.ofHistory history).length ≤ UInt64.size) :
    (after { id, data, idleTimeout } history).Agrees (Ledger.ofHistory history) ∧
      (Ledger.ofHistory history).Numbered := by
  induction history using List.reverseRecOn with
  | nil => exact ⟨⟨rfl, rfl⟩, rfl⟩
  | append_singleton history c ih =>
    have hbefore := Nat.le_trans (length_ofHistory_le history c) hfew
    obtain ⟨hagrees, hnumbered⟩ := ih hbefore
    rw [after, Ledger.ofHistory, List.foldl_append, List.foldl_append]
    exact ⟨hagrees.change hnumbered hbefore c.1 c.2, hnumbered.note c.1 c.2⟩

-- ---------------------------------------------------------------------------
-- The order of the queue
-- ---------------------------------------------------------------------------

def settings (history : List (Time × Change)) : Nat := history.countP (·.2.sets)

theorem length_ofHistory (history : List (Time × Change)) :
    (Ledger.ofHistory history).length = settings history := by
  induction history using List.reverseRecOn with
  | nil => rfl
  | append_singleton history c ih =>
    rw [settings, List.countP_append, ← settings, ← ih, List.countP_singleton, Ledger.ofHistory,
      List.foldl_append, List.foldl_cons, List.foldl_nil, Ledger.length_note]
    rfl

/-- An entry's queue, by the ledger of its timers. -/
structure QueueOrdered (e : Entry) (l : Ledger) : Prop where
  increasing : (e.reservations.map (·.id)).Pairwise (· < ·)
  below : ∀ r ∈ e.reservations, r.id < e.nextReservation
  next : e.nextReservation.toNat = l.length
  /-- Of all timers that were set just one has the number, and it has neither fired nor been
  cancelled. -/
  owned : ∀ r ∈ e.reservations, ∃ t ∈ l, t.fate = .waiting ∧ t.reservation = r ∧
    ∀ s ∈ l, s.reservation.id = r.id → s = t
  kept : ∀ t ∈ l, t.fate = .waiting → t.reservation ∈ e.reservations
  expired : ∀ pre r post, e.reservations = pre ++ r :: post → ∀ now,
    (e.expireReservation now r.id).reservations = pre ++ post
  /-- The expiry of a timer that is off the queue finds nothing there. -/
  missed : ∀ id, (∀ r ∈ e.reservations, r.id ≠ id) →
    ∀ now, (e.expireReservation now id).reservations = e.reservations
  shifted : ∀ t ∈ l, t.fate = .waiting → (∀ s ∈ l, s.fate = .waiting → t.number ≤ s.number) →
    e.shiftReservation.2 = true ∧
    e.reservations = t.reservation :: e.shiftReservation.1.reservations
  spent : (∀ t ∈ l, t.fate ≠ .waiting) → e.shiftReservation = (e, false)

theorem queue_ordered (id : String) (data : List (String × Json)) (idleTimeout : Option Nat)
    (history : List (Time × Change)) (hfew : settings history < UInt64.size) :
    QueueOrdered (after { id, data, idleTimeout } history) (.ofHistory history) := by
  rw [← length_ofHistory] at hfew
  obtain ⟨hagrees, hnumbered⟩ := agrees_after id data idleTimeout history hfew.le
  generalize after { id, data, idleTimeout } history = e at hagrees
  generalize Ledger.ofHistory history = l at *
  have hids := hagrees.ids hnumbered hfew.le
  have hnext := hagrees.toNat_next hfew
  refine { increasing := ?_, below := fun r hr => ?_, next := hnext, owned := fun r hr => ?_,
           kept := fun t ht hwaiting => hagrees.mem_iff.mpr ⟨t, ht, hwaiting, rfl⟩,
           expired := fun pre r post hqueue now => ?_, missed := fun id hmissed now => ?_,
           shifted := fun t ht hwaiting holdest => ?_, spent := fun hspent => ?_ }
  · rw [hagrees.queue]
    exact List.pairwise_map.mpr (hnumbered.queue_increasing hfew.le)
  · obtain ⟨t, ht, -, rfl⟩ := hagrees.mem_iff.mp hr
    rw [UInt64.lt_iff_toNat_lt, hnext]
    exact Nat.lt_of_le_of_lt (Nat.mod_le ..) (hnumbered.lt ht)
  · obtain ⟨t, ht, hwaiting, rfl⟩ := hagrees.mem_iff.mp hr
    exact ⟨t, ht, hwaiting, rfl, fun s hs hid => hnumbered.eq_of_id hfew.le hs ht hid⟩
  · rw [expireReservation_reservations]
    exact dropReservation_middle hids hqueue
  · rw [expireReservation_reservations, dropReservation_missed hmissed]
  · obtain ⟨rest, hrest⟩ := hnumbered.waiting_oldest ht hwaiting holdest
    have hqueue : e.reservations = t.reservation :: rest.map (·.reservation) := by
      rw [hagrees.queue, Ledger.queue, hrest, List.map_cons]
    simp [shiftReservation, hqueue]
  · have hempty : e.reservations = [] := List.eq_nil_iff_forall_not_mem.mpr fun r hr => by
      obtain ⟨t, ht, hwaiting, -⟩ := hagrees.mem_iff.mp hr
      exact hspent t ht hwaiting
    simp [shiftReservation, hempty]

/-- Of three timers the second fires from the middle of the queue; a session claims the first, which
fires all the same. -/
def threeTimers : List (Time × Change) :=
  [(0, .use (.pushReservation 5000)), (0, .use (.pushReservation 1000)),
    (10, .use (.pushReservation 3000)), (1000, .use (.expire (.reservation 1))),
    (5000, .use .shiftReservation), (5000, .use (.expire (.reservation 0)))]

theorem queue_ordered_three :
    settings threeTimers < UInt64.size ∧
      QueueOrdered (after { id := "w0", idleTimeout := some 5000 } threeTimers)
      (.ofHistory threeTimers) ∧
      (Ledger.ofHistory threeTimers).map (·.fate) = [.cancelled, .fired, .waiting] :=
  ⟨by decide, queue_ordered "w0" [] (some 5000) threeTimers (by decide), by decide⟩

end Entry

end AppHost
