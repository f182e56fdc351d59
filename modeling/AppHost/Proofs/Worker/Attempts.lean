import AppHost.Worker.Basic
import Mathlib.Order.WellFounded

/-!
# Connect attempts and what comes of them

A starting worker is tried at fixed times after its launch: `attemptAt` lists them. What comes of it
is up to the process, that is, to when it begins to listen and when it ends: `Behaviour.Ends` says
how the startup ends, and when. It ends in exactly one way.
-/

namespace AppHost

-- ---------------------------------------------------------------------------
-- When attempts are made
-- ---------------------------------------------------------------------------

/-- When the attempt of this number is made, counted from the launch. The first twelve pauses are
those of the ramp, as far as they are not above the interval; all others are the interval. -/
def attemptAt (interval : Nat) : Nat → Nat
  | 0 => 0
  | k + 1 =>
    attemptAt interval k + if h : k < 12 then min (connectRamp.get ⟨k, h⟩) interval else interval

theorem connectPause_eq (interval k : Nat) :
    connectPause interval k =
      if h : k < 12 then min (connectRamp.get ⟨k, h⟩) interval else interval := by
  unfold connectPause
  split
  · next h =>
    obtain ⟨hlt, rfl⟩ := List.getElem?_eq_some_iff.mp h
    rw [dif_pos (show k < 12 from hlt), List.get_eq_getElem]
  · next h =>
    have hge : ¬k < 12 := Nat.not_lt.mpr (List.getElem?_eq_none_iff.mp h)
    rw [dif_neg hge]

theorem attemptAt_succ (interval k : Nat) :
    attemptAt interval (k + 1) = attemptAt interval k + connectPause interval k := by
  rw [connectPause_eq, attemptAt]

example :
    (List.range 10).map (attemptAt 150) = [0, 50, 100, 200, 300, 400, 500, 600, 750, 900] := by
  decide

theorem connectPause_pos (hI : 1 ≤ interval) (k : Nat) : 0 < connectPause interval k := by
  have hramp : ∀ pause ∈ connectRamp, 0 < pause := by decide
  unfold connectPause
  split
  · next h => exact Nat.lt_min.mpr ⟨hramp _ (List.mem_of_getElem? h), hI⟩
  · exact hI

theorem attemptAt_strictMono (hI : 1 ≤ interval) : StrictMono (attemptAt interval) := by
  refine strictMono_nat_of_lt_succ fun k => ?_
  rw [attemptAt_succ]
  exact Nat.lt_add_of_pos_right (connectPause_pos hI k)

theorem le_attemptAt (hI : 1 ≤ interval) (k : Nat) : k ≤ attemptAt interval k :=
  StrictMono.le_apply (attemptAt_strictMono hI)

-- ---------------------------------------------------------------------------
-- What the process does
-- ---------------------------------------------------------------------------

/-- What a process does of its own accord, counted from its launch: when it begins to listen, and
when it ends, if it ever does. -/
structure Behaviour where
  listens : Option Nat
  exits : Option Nat

namespace Behaviour

def answers (b : Behaviour) (t : Nat) : Bool := b.listens.any (· ≤ t)

def First (b : Behaviour) (interval k : Nat) : Prop :=
  b.answers (attemptAt interval k) = true ∧ ∀ j < k, b.answers (attemptAt interval j) = false

/-- The attempt of this number is made: it comes in time, after none that was answered, and while
the process runs. -/
def Tries (b : Behaviour) (interval initTimeout k : Nat) : Prop :=
  attemptAt interval k ≤ initTimeout ∧ (∀ j < k, b.answers (attemptAt interval j) = false) ∧
    ∀ e ∈ b.exits, attemptAt interval k < e

/-- How a startup ends, and when: with the exit of the process, if that is the first to come; with
the first attempt that is answered, if that comes in time; or with the deadline. -/
inductive Ends (b : Behaviour) (interval initTimeout : Nat) (r : ReadyWorker) : Nat → Outcome → Prop
  | exited (he : b.exits = some e) (hlate : e < initTimeout)
    (hfirst : ∀ k, b.First interval k → e < attemptAt interval k) :
    Ends b interval initTimeout r e (.error (.exitedDuringInit r.logFile))
  | ready (hk : b.First interval k) (hlate : attemptAt interval k ≤ initTimeout)
    (he : ∀ e ∈ b.exits, attemptAt interval k ≤ e) :
    Ends b interval initTimeout r (attemptAt interval k) (.ok r)
  | overdue (hlate : ∀ k, b.First interval k → initTimeout < attemptAt interval k)
    (he : ∀ e ∈ b.exits, initTimeout ≤ e) :
    Ends b interval initTimeout r initTimeout (.error (.startupTimeout r.logFile))

/-- The process does not end at the deadline, nor at the time of an attempt. -/
def Untied (b : Behaviour) (interval initTimeout : Nat) : Prop :=
  ∀ e ∈ b.exits, e ≠ initTimeout ∧ ∀ k, e ≠ attemptAt interval k

variable {b : Behaviour} {interval initTimeout j k t u : Nat} {r : ReadyWorker} {o o' : Outcome}

theorem First.unique (h : b.First interval j) (h' : b.First interval k) : j = k := by
  rcases Nat.lt_trichotomy j k with hlt | heq | hlt
  · have hno := h'.2 j hlt
    rw [h.1] at hno
    cases hno
  · exact heq
  · have hno := h.2 k hlt
    rw [h'.1] at hno
    cases hno

theorem Tries.mono (h : b.Tries interval initTimeout k) (hI : 1 ≤ interval) (hjk : j ≤ k) :
    b.Tries interval initTimeout j := by
  have hle : attemptAt interval j ≤ attemptAt interval k := (attemptAt_strictMono hI).monotone hjk
  exact ⟨hle.trans h.1, fun i hi => h.2.1 i (Nat.lt_of_lt_of_le hi hjk),
    fun e he => hle.trans_lt (h.2.2 e he)⟩

theorem Tries.lt (h : b.Tries interval initTimeout k) (hI : 1 ≤ interval) : k < initTimeout + 1 :=
  Nat.lt_succ_of_le ((le_attemptAt hI k).trans h.1)

theorem Ends.unique (h : b.Ends interval initTimeout r t o)
    (h' : b.Ends interval initTimeout r u o') : t = u ∧ o = o' := by
  cases h with
  | exited he hlate hfirst =>
    cases h' with
    | exited he' => exact ⟨Option.some.inj (he.symm.trans he'), rfl⟩
    | ready hk _ he' => exact absurd (hfirst _ hk) (Nat.not_lt.mpr (he' _ he))
    | overdue _ he' => exact absurd hlate (Nat.not_lt.mpr (he' _ he))
  | ready hk hlate he =>
    cases h' with
    | exited he' _ hfirst => exact absurd (hfirst _ hk) (Nat.not_lt.mpr (he _ he'))
    | ready hk' => exact ⟨by rw [hk.unique hk'], rfl⟩
    | overdue hlate' => exact absurd hlate (Nat.not_le.mpr (hlate' _ hk))
  | overdue hlate he =>
    cases h' with
    | exited he' hlate' => exact absurd hlate' (Nat.not_lt.mpr (he _ he'))
    | ready hk hlate' => exact absurd hlate' (Nat.not_le.mpr (hlate _ hk))
    | overdue => exact ⟨rfl, rfl⟩

end Behaviour

end AppHost
