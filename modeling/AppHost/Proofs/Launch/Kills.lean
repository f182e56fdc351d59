import AppHost.Child
import Mathlib.Data.List.Basic

/-!
# Two stages of a kill

Any number of kills may be under way at once, each with a second stage of its own, while the worker
reports numbers and exits whenever it likes. `kills_in_stages` counts the signals of such a run:
what has been sent is what each kill sends by itself, no second stage is lost or comes twice, and
the exit puts an end to all of them.
-/

namespace AppHost

namespace Child

-- ---------------------------------------------------------------------------
-- Runs
-- ---------------------------------------------------------------------------

inductive Step where
  | kill (force : Bool)
  | report (pid : UInt32)
  | exited (status : ExitStatus)
  deriving DecidableEq, Repr

def fresh (pid : UInt32) (gracePeriod : Nat) : Child := { spawnedPid := pid, gracePeriod }

def perform (c : Child) (now : Time) : Step → Child
  | .kill force => c.kill now force
  | .report pid => c.report pid
  | .exited status => c.exited status

/-- Lets the second stages happen that are due by `limit`, each when it is due. They fall due in the
order of their kills, all of which have the same grace period. -/
def elapse (c : Child) (limit : Time) : Child :=
  (c.escalations.filter (·.due ≤ limit)).foldl (fun c e => c.escalate e.due e) c

def run (c : Child) (now : Time) : List (Time × Step) → Child
  | [] => c.elapse now
  | x :: rest => ((c.elapse x.1).perform x.1 x.2).run now rest

-- ---------------------------------------------------------------------------
-- What each kill sends
-- ---------------------------------------------------------------------------

def Step.isExit : Step → Bool
  | .exited _ => true
  | _ => false

def Step.report? : Step → Option UInt32
  | .report pid => some pid
  | _ => none

def hasExitIn (steps : List (Time × Step)) : Bool := steps.any (·.2.isExit)

/-- The number that the worker reported last. Zero is no number, and stands for that of the
child. -/
def knownPid (spawned : UInt32) (steps : List (Time × Step)) : UInt32 :=
  match (steps.filterMap (·.2.report?)).getLast? with
  | some pid => if pid = 0 then spawned else pid
  | none => spawned

/-- The time has come by `now`, and the process has not exited by then. -/
def comesDue (now : Time) (later : List (Time × Step)) (due : Time) : Bool :=
  due ≤ now && later.all fun x => !x.2.isExit || due ≤ x.1

/-- What a step sends, at once and later, after the steps `pre` and with the steps `later` to
come. -/
def signalsOf (spawned : UInt32) (gracePeriod : Nat) (now : Time) (pre : List (Time × Step))
    (x : Time × Step) (later : List (Time × Step)) : List SentSignal :=
  let target := systemPid (knownPid spawned pre)
  match x.2 with
  | .kill force =>
    if hasExitIn pre then []
    else if force then [⟨x.1, target, .term⟩]
    else ⟨x.1, target, .int⟩ ::
      if comesDue now later (x.1 + gracePeriod) then [⟨x.1 + gracePeriod, target, .term⟩] else []
  | _ => []

/-- The signals of the steps that come after `pre`, step by step. -/
def signals (spawned : UInt32) (gracePeriod : Nat) (now : Time) (pre : List (Time × Step)) :
    List (Time × Step) → List SentSignal
  | [] => []
  | x :: later =>
    signalsOf spawned gracePeriod now pre x later ++
      signals spawned gracePeriod now (pre ++ [x]) later

variable {c : Child} {spawned : UInt32} {gracePeriod : Nat} {now t : Time} {x : Time × Step}
  {pre rest steps : List (Time × Step)}

-- ---------------------------------------------------------------------------
-- Time passes
-- ---------------------------------------------------------------------------

def secondStage (e : Escalation) : SentSignal := ⟨e.due, e.target, .term⟩

theorem foldl_escalate (es : List Escalation) (h : c.exit.hasExited = false) :
    es.foldl (fun c e => c.escalate e.due e) c =
      { c with escalations := c.escalations.diff es, sent := c.sent ++ es.map secondStage } := by
  induction es generalizing c with
  | nil => simp
  | cons e es ih =>
    have hstep : c.escalate e.due e =
        { c with escalations := c.escalations.erase e, sent := c.sent ++ [secondStage e] } := by
      simp [escalate, h, send, secondStage]
    rw [List.foldl_cons, hstep]
    refine (ih ?_).trans ?_
    · exact h
    · simp

theorem diff_filter (es : List Escalation) (p : Escalation → Bool) :
    es.diff (es.filter p) = es.filter (!p ·) := by
  induction es with
  | nil => rfl
  | cons e es ih =>
    cases hp : p e with
    | true => simp [hp, ih]
    | false =>
      have hnot : e ∉ es.filter p := fun hmem => by simp [hp] at hmem
      simp [hp, List.cons_diff_of_not_mem hnot, ih]

theorem elapse_running (h : c.exit.hasExited = false) (limit : Time) :
    c.elapse limit = { c with
      escalations := c.escalations.filter fun e => !decide (e.due ≤ limit)
      sent := c.sent ++ (c.escalations.filter (·.due ≤ limit)).map secondStage } := by
  rw [elapse, foldl_escalate _ h, diff_filter]

theorem elapse_idle (h : c.escalations = []) (limit : Time) : c.elapse limit = c := by
  simp [elapse, h]

-- ---------------------------------------------------------------------------
-- One step
-- ---------------------------------------------------------------------------

/-- The state of a child after some steps, but for what it has sent and has still to send. -/
structure Follows (spawned : UInt32) (gracePeriod : Nat) (pre : List (Time × Step)) (c : Child) :
    Prop where
  own : c.spawnedPid = spawned
  grace : c.gracePeriod = gracePeriod
  pid : c.pid = knownPid spawned pre
  exited : c.exit.hasExited = hasExitIn pre
  watched : c.exit ≠ .abandoned
  calm : c.exit.hasExited = true → c.escalations = []

theorem follows_fresh (spawned : UInt32) (gracePeriod : Nat) :
    Follows spawned gracePeriod [] (fresh spawned gracePeriod) := by
  constructor <;>
    simp [fresh, pid, knownPid, hasExitIn, ExitNotification.hasExited, ExitNotification.status]

theorem Follows.elapse (h : Follows spawned gracePeriod pre c) (limit : Time) :
    Follows spawned gracePeriod pre (c.elapse limit) := by
  cases hx : c.exit.hasExited with
  | true => rwa [elapse_idle (h.calm hx)]
  | false =>
    rw [elapse_running hx]
    exact ⟨h.own, h.grace, h.pid, h.exited, h.watched, fun hx' => absurd (hx.symm.trans hx') nofun⟩

theorem kill_exited (h : c.exit.hasExited = true) (now : Time) (force : Bool) :
    c.kill now force = c := by
  simp [kill, h]

theorem kill_running (h : c.exit.hasExited = false) (now : Time) (force : Bool) :
    c.kill now force = { c with
      escalations := c.escalations ++ if force then [] else [⟨now + c.gracePeriod, systemPid c.pid⟩]
      sent := c.sent ++ [⟨now, systemPid c.pid, if force then .term else .int⟩] } := by
  cases force <;> simp [kill, h, send]

theorem hasExitIn_append (pre : List (Time × Step)) (x : Time × Step) :
    hasExitIn (pre ++ [x]) = (hasExitIn pre || x.2.isExit) := by
  simp [hasExitIn]

theorem knownPid_append (pre : List (Time × Step)) (x : Time × Step) :
    knownPid spawned (pre ++ [x]) = match x.2.report? with
      | some pid => if pid = 0 then spawned else pid
      | none => knownPid spawned pre := by
  rw [knownPid, List.filterMap_append]
  cases hx : x.2.report? <;> simp [hx, knownPid]

theorem Follows.perform (h : Follows spawned gracePeriod pre c) (x : Time × Step) :
    Follows spawned gracePeriod (pre ++ [x]) (c.perform x.1 x.2) := by
  obtain ⟨t, s⟩ := x
  cases s with
  | kill force =>
    have hpid : knownPid spawned (pre ++ [(t, .kill force)]) = knownPid spawned pre :=
      knownPid_append pre _
    have hexit : hasExitIn (pre ++ [(t, .kill force)]) = hasExitIn pre := by
      simp [hasExitIn_append, Step.isExit]
    cases hx : c.exit.hasExited with
    | true =>
      rw [Child.perform, kill_exited hx]
      exact ⟨h.own, h.grace, h.pid.trans hpid.symm, h.exited.trans hexit.symm, h.watched, h.calm⟩
    | false =>
      rw [Child.perform, kill_running hx]
      exact ⟨h.own, h.grace, h.pid.trans hpid.symm, h.exited.trans hexit.symm, h.watched,
        fun hx' => absurd (hx.symm.trans hx') nofun⟩
  | report pid =>
    refine ⟨h.own, h.grace, ?_, ?_, h.watched, h.calm⟩
    · simp [knownPid_append, Step.report?, Child.perform, Child.report, Child.pid, h.own]
    · simp [hasExitIn_append, Step.isExit, Child.perform, Child.report, h.exited]
  | exited status =>
    have hpid : knownPid spawned (pre ++ [(t, .exited status)]) = knownPid spawned pre :=
      knownPid_append pre _
    have hresolve : (c.exit.resolve status).1.hasExited = true ∧
        (c.exit.resolve status).1 ≠ .abandoned := by
      have hwatched := h.watched
      cases hx : c.exit <;>
        simp_all [ExitNotification.resolve, ExitNotification.hasExited, ExitNotification.status]
    refine ⟨h.own, h.grace, h.pid.trans hpid.symm, ?_, hresolve.2, fun _ => rfl⟩
    simp [Child.perform, Child.exited, hresolve.1, hasExitIn_append, Step.isExit]

/-- What is still to come from the second stages that are under way. -/
def outstanding (c : Child) (now : Time) (later : List (Time × Step)) : List SentSignal :=
  (c.escalations.filter fun e => comesDue now later e.due).map secondStage

theorem comesDue_of_le (hnow : t ≤ now) (hlater : ∀ x ∈ rest, t ≤ x.1) (hdue : due ≤ t) :
    comesDue now rest due = true := by
  simp only [comesDue, Bool.and_eq_true, decide_eq_true_eq, List.all_eq_true, Bool.or_eq_true]
  exact ⟨Nat.le_trans hdue hnow, fun x hx => .inr (Nat.le_trans hdue (hlater x hx))⟩

theorem filter_comesDue (es : List Escalation) (hnow : t ≤ now) (hlater : ∀ x ∈ rest, t ≤ x.1) :
    (es.filter fun e => comesDue now rest e.due).Perm
      (es.filter (·.due ≤ t) ++
        (es.filter fun e => !decide (e.due ≤ t)).filter fun e => comesDue now rest e.due) := by
  have hsplit := List.filter_append_perm (fun e => decide (e.due ≤ t))
    (es.filter fun e => comesDue now rest e.due)
  refine hsplit.symm.trans (List.Perm.of_eq ?_)
  congr 1
  · rw [List.filter_filter]
    refine List.filter_congr fun e _ => ?_
    by_cases hdue : e.due ≤ t
    · simp [hdue, comesDue_of_le hnow hlater hdue]
    · simp [hdue]
  · rw [List.filter_filter, List.filter_filter]
    exact List.filter_congr fun e _ => Bool.and_comm ..

theorem comesDue_cons (hx : x.2.isExit = false) :
    comesDue now (x :: rest) due = comesDue now rest due := by
  simp [comesDue, hx]

/-- What has been sent and what is still to come stay together the same as time goes by. -/
theorem elapse_signals (h : Follows spawned gracePeriod pre c) (hnow : t ≤ now)
    (hlater : ∀ x ∈ rest, t ≤ x.1) :
    ((c.elapse t).sent ++ (c.elapse t).outstanding now rest).Perm
      (c.sent ++ c.outstanding now rest) := by
  cases hx : c.exit.hasExited with
  | true => rw [elapse_idle (h.calm hx)]
  | false =>
    have hsplit := (filter_comesDue c.escalations hnow hlater).map secondStage
    rw [elapse_running hx, outstanding, List.append_assoc, ← List.map_append]
    exact hsplit.symm.append_left c.sent

theorem elapse_due (h : Follows spawned gracePeriod pre c) :
    ∀ e ∈ (c.elapse t).escalations, t < e.due := by
  cases hx : c.exit.hasExited with
  | true => simp [elapse_idle (h.calm hx), h.calm hx]
  | false => simp [elapse_running hx]

theorem perform_signals (h : Follows spawned gracePeriod pre c)
    (hdue : ∀ e ∈ c.escalations, x.1 < e.due) :
    ((c.perform x.1 x.2).sent ++ (c.perform x.1 x.2).outstanding now rest).Perm
      (c.sent ++ c.outstanding now (x :: rest) ++
        signalsOf spawned gracePeriod now pre x rest) := by
  obtain ⟨t, s⟩ := x
  cases s with
  | kill force =>
    have hcons : c.outstanding now ((t, .kill force) :: rest) = c.outstanding now rest := by
      simp [outstanding, comesDue_cons (x := (t, .kill force)) rfl]
    rw [hcons]
    cases hx : c.exit.hasExited with
    | true =>
      have hexit : hasExitIn pre = true := h.exited.symm.trans hx
      simp [Child.perform, kill_exited hx, signalsOf, hexit]
    | false =>
      have hexit : hasExitIn pre = false := h.exited.symm.trans hx
      let first : SentSignal := ⟨t, systemPid (knownPid spawned pre), if force then .term else .int⟩
      let second : List Escalation :=
        if force then [] else [⟨t + gracePeriod, systemPid (knownPid spawned pre)⟩]
      have hsignals : signalsOf spawned gracePeriod now pre (t, .kill force) rest =
          first :: (second.filter fun e => comesDue now rest e.due).map secondStage := by
        cases force with
        | true => simp [signalsOf, hexit, first, second]
        | false =>
          cases hdue : comesDue now rest (t + gracePeriod) <;>
            simp [signalsOf, hexit, first, second, hdue, secondStage]
      have hkill : c.perform t (.kill force) =
          { c with escalations := c.escalations ++ second, sent := c.sent ++ [first] } := by
        rw [Child.perform, kill_running hx, h.pid, h.grace]
      rw [hkill, hsignals]
      simpa [outstanding] using (List.perm_middle (a := first)).symm.append_left c.sent
  | report pid =>
    simp [Child.perform, Child.report, outstanding,
      comesDue_cons (x := (t, .report pid)) rfl, signalsOf]
  | exited status =>
    -- What was still to come is called off.
    have hnone : c.outstanding now ((t, .exited status) :: rest) = [] := by
      simp only [outstanding, List.map_eq_nil_iff, List.filter_eq_nil_iff]
      intro e he
      simp [comesDue, Step.isExit, Nat.not_le_of_lt (hdue e he)]
    rw [hnone]
    simp [Child.perform, Child.exited, outstanding, signalsOf]

-- ---------------------------------------------------------------------------
-- Whole runs
-- ---------------------------------------------------------------------------

theorem run_signals (h : Follows spawned gracePeriod pre c) (hsorted : steps.Pairwise (·.1 ≤ ·.1))
    (hnow : ∀ x ∈ steps, x.1 ≤ now) :
    (c.run now steps).sent.Perm (c.sent ++ c.outstanding now steps ++
      signals spawned gracePeriod now pre steps) := by
  induction steps generalizing c pre with
  | nil =>
    have hnone : (c.elapse now).outstanding now [] = [] := by
      simp only [outstanding, List.map_eq_nil_iff, List.filter_eq_nil_iff]
      intro e he
      simp [comesDue, Nat.not_le_of_lt (elapse_due h e he)]
    have hall : ((c.elapse now).sent ++ (c.elapse now).outstanding now []).Perm
        (c.sent ++ c.outstanding now []) :=
      elapse_signals h (Nat.le_refl now) nofun
    rw [hnone, List.append_nil] at hall
    simpa [run, signals] using hall
  | cons x rest ih =>
    obtain ⟨hx, hsorted⟩ := List.pairwise_cons.mp hsorted
    have hxnow := hnow x List.mem_cons_self
    let here := c.elapse x.1
    have helapse :
        (here.sent ++ here.outstanding now (x :: rest)).Perm
          (c.sent ++ c.outstanding now (x :: rest)) :=
      elapse_signals h hxnow fun y hy =>
        (List.mem_cons.mp hy).elim (fun heq => heq ▸ Nat.le_refl _) (hx y)
    have hperform :
        ((here.perform x.1 x.2).sent ++ (here.perform x.1 x.2).outstanding now rest).Perm
        (here.sent ++ here.outstanding now (x :: rest) ++
          signalsOf spawned gracePeriod now pre x rest) :=
      perform_signals (h.elapse x.1) (elapse_due h)
    have hrest :=
      ih ((h.elapse x.1).perform x) hsorted fun y hy => hnow y (List.mem_cons_of_mem x hy)
    rw [run, signals, ← List.append_assoc]
    exact hrest.trans ((hperform.trans (helapse.append_right _)).append_right _)

theorem run_append (c : Child) (now : Time) (pre rest : List (Time × Step)) (x : Time × Step) :
    c.run now (pre ++ x :: rest) = ((c.run x.1 pre).perform x.1 x.2).run now rest := by
  induction pre generalizing c with
  | nil => rfl
  | cons y pre ih => exact ih _

theorem Follows.run (h : Follows spawned gracePeriod pre c) (now : Time)
    (steps : List (Time × Step)) :
    Follows spawned gracePeriod (pre ++ steps) (c.run now steps) := by
  induction steps generalizing c pre with
  | nil => simpa [Child.run] using h.elapse now
  | cons x rest ih => simpa [Child.run] using ih ((h.elapse x.1).perform x)

theorem run_exited (h : Follows spawned gracePeriod pre c) (hexit : hasExitIn pre = true)
    (now : Time) (steps : List (Time × Step)) : (c.run now steps).sent = c.sent := by
  have hx := h.exited.trans hexit
  induction steps generalizing c pre with
  | nil => rw [run, elapse_idle (h.calm hx)]
  | cons x rest ih =>
    have hnext := h.perform x
    have hexit' : hasExitIn (pre ++ [x]) = true := by simp [hasExitIn_append, hexit]
    rw [run, elapse_idle (h.calm hx), ih hnext hexit' (hnext.exited.trans hexit')]
    cases hs : x.2 with
    | kill force => rw [perform, kill_exited hx]
    | report | exited => rfl

theorem mem_signals {s : SentSignal} (hmem : s ∈ signals spawned gracePeriod now pre steps) :
    ∃ x ∈ steps, s.time = x.1 ∨ s.time = x.1 + gracePeriod := by
  induction steps generalizing pre with
  | nil => cases hmem
  | cons x rest ih =>
    rcases List.mem_append.mp hmem with hmem | hmem
    · refine ⟨x, List.mem_cons_self, ?_⟩
      unfold signalsOf at hmem
      grind
    · obtain ⟨y, hy, htime⟩ := ih hmem
      exact ⟨y, List.mem_cons_of_mem x hy, htime⟩

/-- The record of what has been sent by `t`, and the queue of what is to come after it, are in order
of time. -/
structure Timed (gracePeriod : Nat) (t : Time) (c : Child) : Prop where
  grace : c.gracePeriod = gracePeriod
  sent : c.sent.Pairwise (·.time ≤ ·.time)
  past : ∀ s ∈ c.sent, s.time ≤ t
  queue : c.escalations.Pairwise (·.due ≤ ·.due)
  future : ∀ e ∈ c.escalations, t ≤ e.due ∧ e.due ≤ t + gracePeriod

theorem Timed.elapse {later : Time} (h : Timed gracePeriod t c)
    (hf : Follows spawned gracePeriod pre c) (hle : t ≤ later) :
    Timed gracePeriod later (c.elapse later) := by
  cases hx : c.exit.hasExited with
  | true =>
    rw [elapse_idle (hf.calm hx)]
    exact ⟨h.grace, h.sent, fun s hs => Nat.le_trans (h.past s hs) hle, h.queue,
      by simp [hf.calm hx]⟩
  | false =>
    have hsent : ∀ s ∈ (c.escalations.filter (·.due ≤ later)).map secondStage,
        t ≤ s.time ∧ s.time ≤ later := by
      intro s hs
      obtain ⟨e, he, rfl⟩ := List.mem_map.mp hs
      obtain ⟨hmem, hdue⟩ := List.mem_filter.mp he
      exact ⟨(h.future e hmem).1, of_decide_eq_true hdue⟩
    rw [elapse_running hx]
    refine ⟨h.grace, ?_, ?_, h.queue.filter _, ?_⟩
    · refine List.pairwise_append.mpr ⟨h.sent,
        (h.queue.filter _).map secondStage fun _ _ hdue => hdue, ?_⟩
      exact fun a ha b hb => Nat.le_trans (h.past a ha) (hsent b hb).1
    · intro s hs
      rcases List.mem_append.mp hs with hs | hs
      · exact Nat.le_trans (h.past s hs) hle
      · exact (hsent s hs).2
    · intro e he
      obtain ⟨hmem, hdue⟩ := List.mem_filter.mp he
      simp only [Bool.not_eq_true', decide_eq_false_iff_not] at hdue
      exact ⟨Nat.le_of_not_le hdue,
        Nat.le_trans (h.future e hmem).2 (Nat.add_le_add_right hle gracePeriod)⟩

theorem Timed.perform (h : Timed gracePeriod x.1 c) :
    Timed gracePeriod x.1 (c.perform x.1 x.2) := by
  obtain ⟨t, s⟩ := x
  cases s with
  | kill force =>
    cases hx : c.exit.hasExited with
    | true => rwa [Child.perform, kill_exited hx]
    | false =>
      have hlast :
          ∀ e ∈ (if force then [] else [Escalation.mk (t + c.gracePeriod) (systemPid c.pid)]),
          e.due = t + gracePeriod := by
        cases force <;> simp [h.grace]
      rw [Child.perform, kill_running hx]
      refine ⟨h.grace, ?_, ?_, ?_, ?_⟩
      · exact List.pairwise_append.mpr ⟨h.sent, List.pairwise_singleton .., fun a ha b hb => by
          rw [List.mem_singleton.mp hb]; exact h.past a ha⟩
      · intro s hs
        rcases List.mem_append.mp hs with hs | hs
        · exact h.past s hs
        · obtain rfl := List.mem_singleton.mp hs
          exact Nat.le_refl t
      · refine List.pairwise_append.mpr ⟨h.queue, ?_, fun a ha b hb => ?_⟩
        · cases force <;> simp
        · exact hlast b hb ▸ (h.future a ha).2
      · intro e he
        rcases List.mem_append.mp he with he | he
        · exact h.future e he
        · rw [hlast e he]
          exact ⟨Nat.le_add_right t gracePeriod, Nat.le_refl _⟩
  | report => exact ⟨h.grace, h.sent, h.past, h.queue, h.future⟩
  | exited => exact ⟨h.grace, h.sent, h.past, List.Pairwise.nil, nofun⟩

theorem Timed.run (h : Timed gracePeriod t c) (hf : Follows spawned gracePeriod pre c)
    (hsorted : steps.Pairwise (·.1 ≤ ·.1)) (hlater : ∀ x ∈ steps, t ≤ x.1)
    (hnow : ∀ x ∈ steps, x.1 ≤ now) (hle : t ≤ now) : Timed gracePeriod now (c.run now steps) := by
  induction steps generalizing c pre t with
  | nil => exact h.elapse hf hle
  | cons x rest ih =>
    obtain ⟨hx, hsorted⟩ := List.pairwise_cons.mp hsorted
    have helapse := h.elapse hf (hlater x List.mem_cons_self)
    exact ih helapse.perform ((hf.elapse x.1).perform x) hsorted hx
      (fun y hy => hnow y (List.mem_cons_of_mem x hy)) (hnow x List.mem_cons_self)

/-- What has been sent by `now` to a child that is killed, reports and exits as the steps say. -/
structure Staged (spawned : UInt32) (gracePeriod : Nat) (now : Time) (steps : List (Time × Step)) :
    Prop where
  signals : ((fresh spawned gracePeriod).run now steps).sent.Perm
    (signals spawned gracePeriod now [] steps)
  ordered : ((fresh spawned gracePeriod).run now steps).sent.Pairwise (·.time ≤ ·.time)
  /-- What has been sent by the time of the exit is all there will be. -/
  quiet : ∀ pre t status post, steps = pre ++ (t, .exited status) :: post →
    ((fresh spawned gracePeriod).run now steps).sent =
      ((fresh spawned gracePeriod).run t pre).sent
  /-- Nothing is sent at the very time of the exit, unless a kill or its second stage falls together
  with it. -/
  early : ∀ pre t status post, steps = pre ++ (t, .exited status) :: post →
    (∀ x ∈ pre, x.1 ≠ t ∧ x.1 + gracePeriod ≠ t) →
      ∀ s ∈ ((fresh spawned gracePeriod).run now steps).sent, s.time < t

/-- However many kills overlap, each has its own signals and no others are sent. A kill that is not
forced sends its second stage, to where it sent the first, exactly if the process has not exited a
grace period later. -/
theorem kills_in_stages (spawned : UInt32) (gracePeriod : Nat) (now : Time)
    (steps : List (Time × Step)) (hsorted : steps.Pairwise (·.1 ≤ ·.1))
    (hnow : ∀ x ∈ steps, x.1 ≤ now) : Staged spawned gracePeriod now steps := by
  let child := fresh spawned gracePeriod
  have hfresh := follows_fresh spawned gracePeriod
  have htimed : Timed gracePeriod 0 child :=
    ⟨rfl, List.Pairwise.nil, nofun, List.Pairwise.nil, nofun⟩
  have quiet : ∀ pre t status post, steps = pre ++ (t, .exited status) :: post →
      (child.run now steps).sent = (child.run t pre).sent := by
    rintro pre t status post rfl
    rw [run_append,
      run_exited ((hfresh.run t pre).perform (t, .exited status))
        (by simp [hasExitIn, Step.isExit])]
    rfl
  refine ⟨?_, ?_, quiet, ?_⟩
  · simpa [fresh, outstanding] using run_signals hfresh hsorted hnow
  · exact (htimed.run hfresh hsorted (fun _ _ => Nat.zero_le _) hnow (Nat.zero_le _)).sent
  · rintro pre t status post rfl hties s hs
    rw [quiet pre t status post rfl] at hs
    obtain ⟨hpre, -, hlast⟩ := List.pairwise_append.mp hsorted
    have hpast : ∀ x ∈ pre, x.1 ≤ t := fun x hx => hlast x hx _ List.mem_cons_self
    have hle := (htimed.run hfresh hpre (fun _ _ => Nat.zero_le _) hpast (Nat.zero_le _)).past s hs
    have hmem := (run_signals hfresh hpre hpast).subset hs
    obtain ⟨x, hx, htime⟩ := mem_signals (by simpa [fresh, outstanding] using hmem)
    refine Nat.lt_of_le_of_ne hle ?_
    rcases htime with htime | htime
    · exact htime ▸ (hties x hx).1
    · exact htime ▸ (hties x hx).2

/-- Two kills overlap, and the worker says which process it is in between. It exits before the
second grace period is over. -/
def overlapping : List (Time × Step) :=
  [(10, .kill false), (20, .report 4243), (30, .kill false), (1020, .exited (.killedBy .term)),
    (1100, .kill true)]

theorem kills_in_stages_overlapping :
    overlapping.Pairwise (·.1 ≤ ·.1) ∧ (∀ x ∈ overlapping, x.1 ≤ 2000) ∧
      Staged 4242 1000 2000 overlapping ∧
      signals 4242 1000 2000 [] overlapping = [⟨10, 4242, .int⟩, ⟨1010, 4242, .term⟩,
      ⟨30, 4243, .int⟩] :=
  ⟨by decide, by decide,
    kills_in_stages 4242 1000 2000 overlapping (by decide) (by decide), by decide +kernel⟩

end Child

end AppHost
