import AppHost.Exit
import Mathlib.Data.List.Induction

/-!
# Everybody learns of an exit

Any number of tasks may wait for one exit, each from whenever it likes. A task that finds nothing to
be told goes to sleep, and what happens to the channel wakes it. `exit_shared` follows the channel
and the tasks through every order of reports, of the reporting party's leaving, of tasks that begin
to wait and of tasks that are run: no task sleeps through the news, and the news is the same for
all.
-/

namespace AppHost

structure ExitWaiter where
  /-- It is about to be run, having begun just now or been woken. -/
  awake : Bool := true
  answer : Option ExitStatus := none
  deriving DecidableEq, Repr

namespace ExitWaiter

def wake (w : ExitWaiter) : ExitWaiter := if w.answer.isNone then { w with awake := true } else w

def run (w : ExitWaiter) (n : ExitNotification) : ExitWaiter :=
  if w.awake then { awake := false, answer := n.awaited } else w

end ExitWaiter

/-- A channel and those who wait at it, in the order of their coming. -/
structure Vigil where
  channel : ExitChannel := {}
  waiters : List ExitWaiter := []
  deriving DecidableEq, Repr

namespace Vigil

inductive Event where
  | report (status : ExitStatus)
  | leave
  | join
  /-- The task of this number is run, if it is about to be. -/
  | run (number : Nat)
  deriving DecidableEq, Repr

def Event.status? : Event → Option ExitStatus
  | .report status => some status
  | _ => none

/-- Only what changes the channel wakes those who wait at it. -/
def happen (v : Vigil) : Event → Vigil
  | .report status =>
    let r := v.channel.report status
    { channel := r.1, waiters := if r.2 = some true then v.waiters.map (·.wake) else v.waiters }
  | .leave =>
    let r := v.channel.leave
    { channel := r.1, waiters := if r.2 then v.waiters.map (·.wake) else v.waiters }
  | .join => { v with waiters := v.waiters ++ [{}] }
  | .run number => { v with waiters := v.waiters.modify number (·.run v.channel.notification) }

def after (es : List Event) : Vigil := es.foldl happen {}

def left (es : List Event) : Bool := es.contains .leave

/-- The first status that is reported. A party that has left reports nothing. -/
def reported? (es : List Event) : Option ExitStatus :=
  (es.takeWhile (· ≠ .leave)).findSome? Event.status?

def news? (es : List Event) : Option ExitStatus :=
  match reported? es with
  | some status => some status
  | none => if left es then some .synthetic else none

variable {es later : List Event} {v : Vigil} {e : Event} {w : ExitWaiter} {s t : ExitStatus}
  {n : Nat}

-- ---------------------------------------------------------------------------
-- The channel
-- ---------------------------------------------------------------------------

theorem after_append (es : List Event) (e : Event) : after (es ++ [e]) = (after es).happen e := by
  simp [after]

theorem left_append (es : List Event) (e : Event) :
    left (es ++ [e]) = (left es || decide (e = .leave)) := by
  simp [left, eq_comm]

theorem reported?_append (es : List Event) (e : Event) :
    reported? (es ++ [e]) = (reported? es).or (if left es then none else e.status?) := by
  induction es with
  | nil => cases e <;> rfl
  | cons first es ih =>
    by_cases hfirst : first = .leave
    · simp [reported?, left, hfirst]
    · have hleft : left (first :: es) = left es := by simp [left, Ne.symm hfirst]
      simp only [reported?, List.cons_append, ne_eq, hfirst, not_false_eq_true, decide_true,
        List.takeWhile_cons_of_pos, List.findSome?_cons, hleft] at ih ⊢
      cases first.status? with
      | none => simpa using ih
      | some => rfl

theorem channel_after (es : List Event) :
    (after es).channel = {
      notification := match reported? es with
        | some status => .settled status
        | none => if left es then .abandoned else .pending
      watched := !left es } := by
  induction es using List.reverseRecOn with
  | nil => rfl
  | append_singleton es e ih =>
    rw [after_append, reported?_append, left_append]
    cases e with
    | join | run =>
      cases hr : reported? es <;> cases hl : left es <;> simp_all [happen, Event.status?]
    | report status =>
      cases hr : reported? es <;> cases hl : left es <;>
        simp_all [happen, ExitChannel.report, ExitNotification.resolve, Event.status?]
    | leave =>
      cases hr : reported? es <;> cases hl : left es <;>
        simp_all [happen, ExitChannel.leave, ExitNotification.abandon, Event.status?]

theorem status_after (es : List Event) : (after es).channel.notification.status = reported? es := by
  rw [channel_after]
  cases reported? es <;> cases left es <;> rfl

theorem awaited_after (es : List Event) : (after es).channel.notification.awaited = news? es := by
  rw [channel_after, news?]
  cases reported? es <;> cases left es <;> rfl

theorem report_after (es : List Event) (s : ExitStatus) :
    ((after es).channel.report s).2 = if left es then none else some (reported? es).isNone := by
  rw [channel_after]
  cases reported? es <;> cases left es <;> rfl

theorem report_of_reported (h : reported? es = some t) :
    ((after es).channel.report s).1 = (after es).channel := by
  rw [channel_after, h]
  cases left es <;> rfl

theorem happen_report_of_reported (h : reported? es = some t) :
    (after es).happen (.report s) = after es := by
  have hreply := report_after es s
  have hsame : ((after es).channel.report s).2 ≠ some true := by
    rw [hreply, h]
    cases left es <;> simp
  simp only [happen, report_of_reported h, if_neg hsame]

theorem reported?_stays (h : reported? es = some s) : reported? (es ++ later) = some s := by
  induction later using List.reverseRecOn with
  | nil => simpa using h
  | append_singleton later e ih => rw [← List.append_assoc, reported?_append, ih, Option.some_or]

-- ---------------------------------------------------------------------------
-- Those who wait
-- ---------------------------------------------------------------------------

/-- What an event leaves to be told if nothing has happened before it. -/
def Event.news? : Event → Option ExitStatus
  | .report status => some status
  | .leave => some .synthetic
  | _ => none

theorem news?_append (es : List Event) (e : Event) : news? (es ++ [e]) = (news? es).or e.news? := by
  rw [news?, news?, reported?_append, left_append]
  cases hr : reported? es <;> cases hl : left es <;> cases e <;> simp [Event.status?, Event.news?]

theorem news?_stays (h : news? es = some s) (e : Event) : news? (es ++ [e]) = some s := by
  rw [news?_append, h, Option.some_or]

/-- Whoever is not about to be run knows what there is to know, and whoever is knows nothing yet. -/
structure Abreast (es : List Event) (w : ExitWaiter) : Prop where
  asleep : w.awake = false → w.answer = news? es
  awake : w.awake = true → w.answer = none

theorem Abreast.congr (h : Abreast es w) (hnews : news? later = news? es) : Abreast later w :=
  ⟨fun ha => (h.asleep ha).trans hnews.symm, h.awake⟩

theorem Abreast.ended (h : Abreast es w) (hs : w.answer = some s) :
    w.awake = false ∧ news? es = some s := by
  cases ha : w.awake with
  | true => simp [h.awake ha] at hs
  | false => exact ⟨rfl, (h.asleep ha).symm.trans hs⟩

theorem Abreast.wake (h : Abreast es w) (e : Event) : Abreast (es ++ [e]) w.wake := by
  cases hw : w.answer with
  | none => exact ⟨by simp [ExitWaiter.wake, hw], by simp [ExitWaiter.wake, hw]⟩
  | some s =>
    obtain ⟨ha, hnews⟩ := h.ended hw
    refine ⟨fun _ => ?_, ?_⟩
    · simp [ExitWaiter.wake, hw, news?_stays hnews e]
    · simp [ExitWaiter.wake, hw, ha]

theorem Abreast.run (h : Abreast es w) : Abreast es (w.run (after es).channel.notification) := by
  unfold ExitWaiter.run
  split
  · exact ⟨fun _ => awaited_after es, nofun⟩
  · exact h

/-- A channel that does not change has nothing new to tell. -/
theorem all_abreast (es : List Event) : ∀ w ∈ (after es).waiters, Abreast es w := by
  induction es using List.reverseRecOn with
  | nil => simp [after]
  | append_singleton es e ih =>
    intro w hw
    rw [after_append] at hw
    cases e with
    | report status =>
      simp only [happen] at hw
      split at hw
      · obtain ⟨x, hx, rfl⟩ := List.mem_map.mp hw
        exact (ih x hx).wake _
      · next hsame =>
        refine (ih w hw).congr ?_
        rw [report_after] at hsame
        rw [news?_append, news?]
        cases hr : reported? es <;> cases hl : left es <;> simp_all
    | leave =>
      simp only [happen, ExitChannel.leave, channel_after] at hw
      cases hl : left es with
      | false =>
        rw [hl] at hw
        obtain ⟨x, hx, rfl⟩ := List.mem_map.mp hw
        exact (ih x hx).wake _
      | true =>
        rw [hl] at hw
        refine (ih w hw).congr ?_
        rw [news?_append, news?, hl]
        cases reported? es <;> rfl
    | join =>
      rcases List.mem_append.mp hw with hw | hw
      · exact (ih w hw).congr (by simp [news?_append, Event.news?])
      · obtain rfl := List.mem_singleton.mp hw
        exact ⟨nofun, fun _ => rfl⟩
    | run number =>
      have hnews : news? (es ++ [.run number]) = news? es := by simp [news?_append, Event.news?]
      obtain ⟨i, hi⟩ := List.mem_iff_getElem?.mp hw
      rw [happen, List.getElem?_modify] at hi
      obtain ⟨x, hx, rfl⟩ := Option.map_eq_some_iff.mp hi
      have hx := ih x (List.mem_of_getElem? hx)
      split
      · exact hx.run.congr hnews
      · exact hx.congr hnews

/-- Whoever has ended is left alone. -/
theorem happen_ended (e : Event) (hn : v.waiters[n]? = some w) (hs : w.answer = some s)
    (ha : w.awake = false) : (v.happen e).waiters[n]? = some w := by
  have hwake : w.wake = w := by simp [ExitWaiter.wake, hs]
  have hrun (x : ExitNotification) : w.run x = w := by simp [ExitWaiter.run, ha]
  cases e with
  | report status =>
    simp only [happen]
    split <;> simp [hn, hwake]
  | leave =>
    simp only [happen]
    split <;> simp [hn, hwake]
  | join =>
    obtain ⟨hlt, -⟩ := List.getElem?_eq_some_iff.mp hn
    simp [happen, List.getElem?_append_left hlt, hn]
  | run number =>
    simp only [happen, List.getElem?_modify, hn, Option.map_eq_map, Option.map_some]
    split <;> simp [hrun]

theorem length_after (es : List Event) : (after es).waiters.length = es.count .join := by
  induction es using List.reverseRecOn with
  | nil => rfl
  | append_singleton es e ih =>
    rw [after_append, List.count_append, ← ih]
    cases e with
    | report | leave =>
      simp only [happen]
      split <;> simp
    | join | run => simp [happen]

/-- One exit, and one account of it for everybody. -/
structure Shared (es : List Event) : Prop where
  status : ∀ later s, reported? es = some s →
    (after (es ++ later)).channel.notification.status = some s
  unsettled : reported? es = none → (after es).channel.notification.status = none
  /-- A report is answered by whether it was the first; there is no answer when nobody is left to
  make one. -/
  reply : ∀ s, ((after es).channel.report s).2 =
    if left es then none else some (reported? es).isNone
  late : reported? es ≠ none → ∀ s, (after es).happen (.report s) = after es
  waiters : (after es).waiters.length = es.count .join
  /-- Whoever is not about to be run has ended if there is news, and waits if there is none. -/
  prompt : ∀ w ∈ (after es).waiters, w.awake = false → w.answer = news? es
  run : ∀ (n : Nat) (w : ExitWaiter), (after es).waiters[n]? = some w → w.awake = true →
    w.answer = none ∧
      ((after es).happen (.run n)).waiters[n]? = some { awake := false, answer := news? es }
  same : ∀ w ∈ (after es).waiters, ∀ s, w.answer = some s → news? es = some s
  stays : ∀ (n : Nat) (w : ExitWaiter), (after es).waiters[n]? = some w → w.answer ≠ none →
    ∀ later, (after (es ++ later)).waiters[n]? = some w

end Vigil

/-- In whichever order an exit is reported, once or more often, the reporting party leaves, and any
number of tasks begin to wait and are run. -/
theorem Vigil.exit_shared (es : List Vigil.Event) : Vigil.Shared es where
  status later s h := by rw [status_after, reported?_stays h]
  unsettled h := by rw [status_after, h]
  reply := report_after es
  late h s := by
    obtain ⟨t, ht⟩ := Option.ne_none_iff_exists'.mp h
    exact happen_report_of_reported ht
  waiters := length_after es
  prompt w hw := (all_abreast es w hw).asleep
  run n w hn ha := by
    refine ⟨(all_abreast es w (List.mem_of_getElem? hn)).awake ha, ?_⟩
    simp [happen, hn, ExitWaiter.run, ha, awaited_after]
  same w hw s hs := ((all_abreast es w hw).ended hs).2
  stays n w hn hs later := by
    obtain ⟨s, hs⟩ := Option.ne_none_iff_exists'.mp hs
    have ha := ((all_abreast es w (List.mem_of_getElem? hn)).ended hs).1
    induction later using List.reverseRecOn with
    | nil => simpa using hn
    | append_singleton later e ih =>
      rw [← List.append_assoc, after_append]
      exact happen_ended e ih hs ha

end AppHost
