import AppHost.Child
import AppHost.Launch.Report
import Mathlib.Data.List.Induction

/-!
# Whom the signals reach

A worker says itself which process it is, in a number of 32 bits, and the signals that are meant for
it go to that number read as a signed one. `signals_directed` follows every signal back to the kill
request that it comes from and to the lines that had been read by then: signals go astray exactly
when a worker that has reported a number of the upper half is asked to stop.
-/

namespace AppHost

namespace Child

theorem systemPid_ne_zero {pid : UInt32} (h : pid ≠ 0) : systemPid pid ≠ 0 := by
  have hne : pid.toNat ≠ 0 := fun hzero => h (UInt32.toNat_inj.mp hzero)
  have hlt := pid.toNat_lt
  unfold systemPid
  split <;> omega

theorem systemPid_pos_iff {pid : UInt32} (h : pid ≠ 0) :
    0 < systemPid pid ↔ pid.toNat < 2147483648 := by
  have hne : pid.toNat ≠ 0 := fun hzero => h (UInt32.toNat_inj.mp hzero)
  have hlt := pid.toNat_lt
  unfold systemPid
  split <;> omega

@[simp] theorem kill_reportedPid (c : Child) (now : Time) (force : Bool) :
    (c.kill now force).reportedPid = c.reportedPid := by
  unfold kill
  split
  · rfl
  · cases force <;> rfl

@[simp] theorem kill_spawnedPid (c : Child) (now : Time) (force : Bool) :
    (c.kill now force).spawnedPid = c.spawnedPid := by
  unfold kill
  split
  · rfl
  · cases force <;> rfl

@[simp] theorem escalate_reportedPid (c : Child) (now : Time) (e : Escalation) :
    (c.escalate now e).reportedPid = c.reportedPid := by
  unfold escalate
  dsimp only
  split <;> rfl

@[simp] theorem escalate_spawnedPid (c : Child) (now : Time) (e : Escalation) :
    (c.escalate now e).spawnedPid = c.spawnedPid := by
  unfold escalate
  dsimp only
  split <;> rfl

theorem mem_sent_kill {c : Child} {x : SentSignal} :
    x ∈ (c.kill now force).sent ↔
      x ∈ c.sent ∨
      (c.isRunning = true ∧ x = ⟨now, systemPid c.pid, if force then .term else .int⟩) := by
  unfold kill isRunning
  cases c.exit.hasExited <;> cases force <;> simp [send]

theorem mem_escalations_kill {c : Child} {e : Escalation} :
    e ∈ (c.kill now force).escalations ↔
      e ∈ c.escalations ∨
      (c.isRunning = true ∧ force = false ∧ e = ⟨now + c.gracePeriod, systemPid c.pid⟩) := by
  unfold kill isRunning
  cases c.exit.hasExited <;> cases force <;> simp [send]

theorem mem_sent_escalate {c : Child} {x : SentSignal} {e : Escalation}
    (h : x ∈ (c.escalate now e).sent) : x ∈ c.sent ∨ x.target = e.target := by
  unfold escalate at h
  dsimp only at h
  split at h
  · exact .inl h
  · rcases List.mem_append.mp h with h | h
    · exact .inl h
    · exact .inr (congrArg SentSignal.target (List.mem_singleton.mp h))

theorem sent_escalate {c : Child} {x : SentSignal} (e : Escalation) (h : x ∈ c.sent) :
    x ∈ (c.escalate now e).sent := by
  unfold escalate
  dsimp only
  split
  · exact h
  · exact List.mem_append_left _ h

theorem escalations_escalate {c : Child} {d e : Escalation}
    (h : d ∈ (c.escalate now e).escalations) : d ∈ c.escalations := by
  unfold escalate at h
  dsimp only at h
  split at h <;> exact List.mem_of_mem_erase h

end Child

namespace Launch

-- ---------------------------------------------------------------------------
-- Supervision
-- ---------------------------------------------------------------------------

/-- A worker's process, and how far its output has been read. -/
structure Supervisor where
  child : Child
  scan : Scan := {}

namespace Supervisor

inductive Event where
  | line (text : String)
  | kill (force : Bool)
  | escalate (e : Escalation)
  | exited (status : ExitStatus)

def happen (s : Supervisor) (now : Time) : Event → Supervisor
  | .line text =>
    let scan := s.scan.line text
    { child := s.child.report scan.pid, scan }
  | .kill force => { s with child := s.child.kill now force }
  | .escalate e => if e ∈ s.child.escalations then { s with child := s.child.escalate now e } else s
  | .exited status => { s with child := s.child.exited status }

def run (spawned : UInt32) (gracePeriod : Nat) (es : List (Time × Event)) : Supervisor :=
  es.foldl (fun s e => s.happen e.1 e.2) { child := { spawnedPid := spawned, gracePeriod } }

def linesOf (es : List (Time × Event)) : List String :=
  es.filterMap fun
    | (_, .line text) => some text
    | _ => none

/-- The number that the worker has reported last, or that of the child that was spawned. -/
def inForce (spawned : UInt32) (es : List (Time × Event)) : UInt32 :=
  let reported := (Scan.lines {} (linesOf es)).pid
  if reported = 0 then spawned else reported

/-- The process was asked to stop while it was running and this was its number, as far as was
known. -/
def Asked (spawned : UInt32) (gracePeriod : Nat) (es : List (Time × Event)) (pid : UInt32) : Prop :=
  ∃ pre now force post, es = pre ++ (now, .kill force) :: post ∧
    (run spawned gracePeriod pre).child.isRunning = true ∧ inForce spawned pre = pid

variable {spawned : UInt32} {gracePeriod : Nat} {es : List (Time × Event)} {pid : UInt32}
  {e : Time × Event}

theorem run_append (spawned : UInt32) (gracePeriod : Nat) (es : List (Time × Event))
    (e : Time × Event) :
    run spawned gracePeriod (es ++ [e]) = (run spawned gracePeriod es).happen e.1 e.2 := by
  simp [run]

theorem Asked.append (h : Asked spawned gracePeriod es pid) (later : List (Time × Event)) :
    Asked spawned gracePeriod (es ++ later) pid := by
  obtain ⟨pre, now, force, post, rfl, hrest⟩ := h
  exact ⟨pre, now, force, post ++ later, by simp, hrest⟩

theorem asked_append :
    Asked spawned gracePeriod (es ++ [e]) pid ↔
      Asked spawned gracePeriod es pid ∨ ((∃ force, e.2 = .kill force) ∧
        (run spawned gracePeriod es).child.isRunning = true ∧ inForce spawned es = pid) := by
  constructor
  · rintro ⟨pre, now, force, post, hes, hrest⟩
    obtain ⟨rfl, rfl, -⟩ | ⟨rest, -, rfl⟩ := append_cons_eq_append_singleton.mp hes.symm
    · exact .inr ⟨⟨force, rfl⟩, hrest⟩
    · exact .inl ⟨pre, now, force, rest, rfl, hrest⟩
  · rintro (h | ⟨⟨force, he⟩, hrest⟩)
    · exact h.append [e]
    · exact ⟨es, e.1, force, [], by rw [← he], hrest⟩

-- ---------------------------------------------------------------------------
-- Where signals come from
-- ---------------------------------------------------------------------------

structure Track (spawned : UInt32) (gracePeriod : Nat) (es : List (Time × Event)) (s : Supervisor) :
    Prop where
  own : s.child.spawnedPid = spawned
  reported : s.child.reportedPid = s.scan.pid
  scan : s.scan = Scan.lines {} (linesOf es)
  sent : ∀ x ∈ s.child.sent, ∃ pid, Asked spawned gracePeriod es pid ∧
    x.target = Child.systemPid pid
  /-- A second stage goes where the first one went. -/
  coming : ∀ d ∈ s.child.escalations, ∃ pid, Asked spawned gracePeriod es pid ∧
    d.target = Child.systemPid pid
  asked : ∀ pid, Asked spawned gracePeriod es pid →
    ∃ x ∈ s.child.sent, x.target = Child.systemPid pid

theorem Track.pid_eq {s : Supervisor} (h : Track spawned gracePeriod es s) :
    s.child.pid = inForce spawned es := by
  rw [Child.pid, h.reported, h.own, h.scan, inForce]

theorem Track.nil (spawned : UInt32) (gracePeriod : Nat) :
    Track spawned gracePeriod [] (run spawned gracePeriod []) where
  own := rfl
  reported := rfl
  scan := rfl
  sent x hx := nomatch hx
  coming d hd := nomatch hd
  asked pid h := by
    obtain ⟨pre, now, force, post, hes, -⟩ := h
    simp at hes

/-- Nobody is asked to stop by an event that is no kill, so it is enough that no signal goes to a
new place. -/
theorem Track.snoc {s t : Supervisor} (h : Track spawned gracePeriod es s)
    (hkill : ∀ force, e.2 ≠ .kill force) (hown : t.child.spawnedPid = s.child.spawnedPid)
    (hreported : t.child.reportedPid = t.scan.pid)
    (hscan : t.scan = Scan.lines {} (linesOf (es ++ [e])))
    (hsent : ∀ x ∈ t.child.sent, x ∈ s.child.sent ∨ ∃ d ∈ s.child.escalations, x.target = d.target)
    (hkept : ∀ x ∈ s.child.sent, x ∈ t.child.sent)
    (hcoming : ∀ d ∈ t.child.escalations, d ∈ s.child.escalations) :
    Track spawned gracePeriod (es ++ [e]) t where
  own := hown.trans h.own
  reported := hreported
  scan := hscan
  sent x hx := by
    rcases hsent x hx with hx | ⟨d, hd, htarget⟩
    · obtain ⟨pid, hasked, htarget⟩ := h.sent x hx
      exact ⟨pid, hasked.append [e], htarget⟩
    · obtain ⟨pid, hasked, hd⟩ := h.coming d hd
      exact ⟨pid, hasked.append [e], htarget.trans hd⟩
  coming d hd := by
    obtain ⟨pid, hasked, htarget⟩ := h.coming d (hcoming d hd)
    exact ⟨pid, hasked.append [e], htarget⟩
  asked pid hasked := by
    rcases asked_append.mp hasked with hasked | ⟨⟨force, he⟩, -⟩
    · obtain ⟨x, hx, htarget⟩ := h.asked pid hasked
      exact ⟨x, hkept x hx, htarget⟩
    · exact absurd he (hkill force)

theorem Track.kill (h : Track spawned gracePeriod es (run spawned gracePeriod es)) (now : Time)
    (force : Bool) :
    Track spawned gracePeriod (es ++ [(now, .kill force)])
      ((run spawned gracePeriod es).happen now (.kill force)) where
  own := by rw [happen, Child.kill_spawnedPid, h.own]
  reported := by rw [happen, Child.kill_reportedPid, h.reported]
  scan := by simpa [happen, linesOf] using h.scan
  sent x hx := by
    rcases Child.mem_sent_kill.mp hx with hx | ⟨hrunning, rfl⟩
    · obtain ⟨pid, hasked, htarget⟩ := h.sent x hx
      exact ⟨pid, hasked.append _, htarget⟩
    · exact ⟨_, asked_append.mpr (.inr ⟨⟨force, rfl⟩, hrunning, h.pid_eq.symm⟩), rfl⟩
  coming d hd := by
    rcases Child.mem_escalations_kill.mp hd with hd | ⟨hrunning, -, rfl⟩
    · obtain ⟨pid, hasked, htarget⟩ := h.coming d hd
      exact ⟨pid, hasked.append _, htarget⟩
    · exact ⟨_, asked_append.mpr (.inr ⟨⟨force, rfl⟩, hrunning, h.pid_eq.symm⟩), rfl⟩
  asked pid hasked := by
    rcases asked_append.mp hasked with hasked | ⟨-, hrunning, rfl⟩
    · obtain ⟨x, hx, htarget⟩ := h.asked pid hasked
      exact ⟨x, Child.mem_sent_kill.mpr (.inl hx), htarget⟩
    · exact ⟨_, Child.mem_sent_kill.mpr (.inr ⟨hrunning, rfl⟩), congrArg Child.systemPid h.pid_eq⟩

theorem track (spawned : UInt32) (gracePeriod : Nat) (es : List (Time × Event)) :
    Track spawned gracePeriod es (run spawned gracePeriod es) := by
  -- Backwards, since what was asked for depends on what had been read by then.
  induction es using List.reverseRecOn with
  | nil => exact .nil spawned gracePeriod
  | append_singleton es e ih =>
    rw [run_append]
    obtain ⟨now, e⟩ := e
    cases e with
    | kill force => exact ih.kill now force
    | line text =>
      refine ih.snoc (by simp) rfl rfl ?_ (fun x hx => .inl hx) (fun x hx => hx) (fun d hd => hd)
      simp [happen, linesOf, Scan.lines, ih.scan]
    | escalate d =>
      -- A second stage that nobody asked for, or that the exit has called off, does nothing.
      by_cases hd : d ∈ (run spawned gracePeriod es).child.escalations
      · rw [happen, if_pos hd]
        refine ih.snoc (by simp) (Child.escalate_spawnedPid ..) ?_ ?_ ?_
          (fun x hx => Child.sent_escalate d hx) (fun d hd => Child.escalations_escalate hd)
        · rw [Child.escalate_reportedPid, ih.reported]
        · simpa [linesOf] using ih.scan
        · intro x hx
          rcases Child.mem_sent_escalate hx with hx | htarget
          · exact .inl hx
          · exact .inr ⟨d, hd, htarget⟩
      · rw [happen, if_neg hd]
        exact ih.snoc (by simp) rfl ih.reported (by simpa [linesOf] using ih.scan)
          (fun x hx => .inl hx)
          (fun x hx => hx) (fun d hd => hd)
    | exited status =>
      exact ih.snoc (by simp) rfl ih.reported (by simpa [happen, linesOf] using ih.scan)
        (fun x hx => .inl hx)
        (fun x hx => hx) (fun d hd => nomatch hd)

theorem inForce_ne_zero (h : spawned ≠ 0) (es : List (Time × Event)) : inForce spawned es ≠ 0 := by
  unfold inForce
  dsimp only
  split
  · exact h
  · assumption

/-- A number of the upper half can only have come from the worker. -/
theorem inForce_lt (h : spawned.toNat < 2147483648)
    (hlines : (Scan.lines {} (linesOf es)).pid.toNat < 2147483648) :
    (inForce spawned es).toNat < 2147483648 := by
  unfold inForce
  dsimp only
  split
  · exact h
  · exact hlines

structure Directed (spawned : UInt32) (gracePeriod : Nat) (es : List (Time × Event)) : Prop where
  targets : ∀ x ∈ (run spawned gracePeriod es).child.sent,
    x.target ≠ 0 ∧ ∃ pid, Asked spawned gracePeriod es pid ∧ x.target = Child.systemPid pid
  asked : ∀ pid, Asked spawned gracePeriod es pid →
    ∃ x ∈ (run spawned gracePeriod es).child.sent, x.target = Child.systemPid pid
  one_process : (∀ x ∈ (run spawned gracePeriod es).child.sent, 0 < x.target) ↔
    ∀ pid, Asked spawned gracePeriod es pid → pid.toNat < 2147483648
  /-- As long as the worker reports numbers of the lower half, when it is asked to stop is no
  matter. -/
  reports : (∀ pre, pre <+: es → (Scan.lines {} (linesOf pre)).pid.toNat < 2147483648) →
    ∀ x ∈ (run spawned gracePeriod es).child.sent, 0 < x.target

/-- A signal is for one process exactly if no worker that has reported a number of the upper half is
asked to stop. The number of the child itself does no harm. -/
theorem signals_directed (spawned : UInt32) (gracePeriod : Nat) (es : List (Time × Event))
    (hpos : 0 < spawned) (hlt : spawned.toNat < 2147483648) : Directed spawned gracePeriod es := by
  have hne : spawned ≠ 0 := (UInt32.ne_of_lt hpos).symm
  have track := track spawned gracePeriod es
  have asked_ne : ∀ pid, Asked spawned gracePeriod es pid → pid ≠ 0 := by
    rintro pid ⟨pre, now, force, post, -, -, rfl⟩
    exact inForce_ne_zero hne pre
  -- Each signal has its kill and each kill its signal, so the one sign decides the other.
  have one_process : (∀ x ∈ (run spawned gracePeriod es).child.sent, 0 < x.target) ↔
      ∀ pid, Asked spawned gracePeriod es pid → pid.toNat < 2147483648 := by
    constructor
    · intro hall pid hasked
      obtain ⟨x, hx, htarget⟩ := track.asked pid hasked
      exact (Child.systemPid_pos_iff (asked_ne pid hasked)).mp (htarget ▸ hall x hx)
    · intro hall x hx
      obtain ⟨pid, hasked, htarget⟩ := track.sent x hx
      exact htarget ▸ (Child.systemPid_pos_iff (asked_ne pid hasked)).mpr (hall pid hasked)
  refine { targets := fun x hx => ?_, asked := track.asked, one_process,
           reports := fun hreports => ?_ }
  · obtain ⟨pid, hasked, htarget⟩ := track.sent x hx
    exact ⟨htarget ▸ Child.systemPid_ne_zero (asked_ne pid hasked), pid, hasked, htarget⟩
  · refine one_process.mpr fun pid hasked => ?_
    obtain ⟨pre, now, force, post, rfl, -, rfl⟩ := hasked
    exact inForce_lt hlt (hreports pre (List.prefix_append ..))

/-- A worker reports the highest number there is, is asked to stop, and does not mind. -/
def everybody : List (Time × Event) :=
  [(10, .line "worker_launch_info: \x7b\"pid\":4294967295\x7d"), (20, .kill false),
    (1020, .escalate ⟨1020, -1⟩)]

theorem signals_directed_everybody : (0 : UInt32) < 4242 ∧ UInt32.toNat 4242 < 2147483648 ∧
    Directed 4242 1000 everybody :=
  ⟨by decide, by decide, signals_directed 4242 1000 everybody (by decide) (by decide)⟩

/-- Minus one stands for every process of the host. -/
theorem signals_for_everybody :
    ¬∀ (spawned : UInt32) (gracePeriod : Nat) (es : List (Time × Event)), 0 < spawned →
      spawned.toNat < 2147483648 → ∀ x ∈ (run spawned gracePeriod es).child.sent, 0 < x.target := by
  have hsent : (run 4242 1000 everybody).child.sent = [⟨20, -1, .int⟩, ⟨1020, -1, .term⟩] := by
    decide +kernel
  intro h
  have := h 4242 1000 everybody (by decide) (by decide) ⟨20, -1, .int⟩ (by simp [hsent])
  exact absurd this (by decide)

end Supervisor

end Launch

end AppHost
