import AppHost.Endpoint.Port
import Mathlib.Data.Nat.Find
import Mathlib.Order.Monotone.Basic

/-!
# Ports in a row

However the system answers attempts to bind a port, successive allocations share the outcomes out
among themselves: `allocs_shares`. Each begins where the one before it stopped, goes on to the first
outcome that is not a port in use, and answers with that; six ports in use in a row are all it
takes.
-/

namespace AppHost.Bind

variable {next : Nat → Bind} {retries made first : Nat}

/-- The answer of a call that an attempt with this outcome settles. A port is all there is to its
endpoint's address. -/
def answer : Bind → Except Failure Nat
  | .bound port => .ok port
  | .refused error => .error (.io error)

theorem alloc_of_inUse (h : next made = inUse) (retries : Nat) :
    alloc next (retries + 1) made = alloc next retries (made + 1) := by
  rw [alloc, h]
  simp [inUse]

theorem alloc_last (h : next made = inUse) :
    alloc next 0 made = (.error .noFreePort, made + 1) := by
  rw [alloc, h]
  simp [inUse]

theorem alloc_of_ne (h : next made ≠ inUse) (retries : Nat) :
    alloc next retries made = ((next made).answer, made + 1) := by
  unfold alloc
  cases hnext : next made with
  | bound port => rfl
  | refused error =>
    have herror : error ≠ .addressInUse := by
      rintro rfl
      exact h hnext
    simp [herror, answer]

theorem inUse_tail {k : Nat} (hbusy : ∀ i < k + 1, next (made + i) = inUse) :
    next made = inUse ∧ ∀ i < k, next (made + 1 + i) = inUse := by
  refine ⟨hbusy 0 (by omega), fun i hi => ?_⟩
  rw [Nat.add_right_comm]
  exact hbusy (i + 1) (by omega)

/-- A call goes on to the first outcome that is not a port in use, if it may. -/
theorem alloc_settled {k : Nat} (hk : k ≤ retries) (hbusy : ∀ i < k, next (made + i) = inUse)
    (hfree : next (made + k) ≠ inUse) :
    alloc next retries made = ((next (made + k)).answer, made + (k + 1)) := by
  induction k generalizing retries made with
  | zero => exact alloc_of_ne hfree retries
  | succ k ih =>
    obtain ⟨rest, rfl⟩ : ∃ rest, retries = rest + 1 := ⟨retries - 1, by omega⟩
    obtain ⟨hfirst, hrest⟩ := inUse_tail hbusy
    have hshift : made + 1 + k = made + (k + 1) := by omega
    rw [alloc_of_inUse hfirst, ih (by omega) hrest (by rwa [hshift]), hshift]
    congr 1
    omega

theorem alloc_exhausted (hbusy : ∀ i < retries + 1, next (made + i) = inUse) :
    alloc next retries made = (.error .noFreePort, made + (retries + 1)) := by
  induction retries generalizing made with
  | zero => exact alloc_last (hbusy 0 (by omega))
  | succ rest ih =>
    obtain ⟨hfirst, hrest⟩ := inUse_tail hbusy
    rw [alloc_of_inUse hfirst, ih hrest]
    congr 1
    omega

theorem alloc_span (next : Nat → Bind) (retries made : Nat) :
    made < (alloc next retries made).2 ∧ (alloc next retries made).2 ≤ made + retries + 1 := by
  by_cases hbusy : next made = inUse
  · cases retries with
    | zero => simp [alloc_last hbusy]
    | succ rest =>
      have h := alloc_span next rest (made + 1)
      rw [alloc_of_inUse hbusy]
      omega
  · simp [alloc_of_ne hbusy]

/-- A call that begins with the outcome numbered `first`. Its result is the answer and the number of
attempts that have been made when it is given. -/
structure Call (next : Nat → Bind) (first : Nat) (result : Except Failure Nat × Nat) : Prop where
  span : first < result.2 ∧ result.2 ≤ first + 6
  settled : ∀ k ≤ 5, (∀ i < k, next (first + i) = inUse) → next (first + k) ≠ inUse →
    result = ((next (first + k)).answer, first + (k + 1))
  exhausted : (∀ k ≤ 5, next (first + k) = inUse) → result = (.error .noFreePort, first + 6)

theorem alloc_call (next : Nat → Bind) (first : Nat) :
    Call next first (alloc next maxRetries first) where
  span := alloc_span next maxRetries first
  settled _ hk hbusy hfree := alloc_settled hk hbusy hfree
  exhausted hbusy := alloc_exhausted fun i hi => hbusy i (Nat.le_of_lt_succ hi)

/-- The attempts made before each of the calls that follow one another. -/
def begins (next : Nat → Bind) (made : Nat) : (call : Nat) → Nat
  | 0 => made
  | call + 1 => begins next (alloc next maxRetries made).2 call

theorem begins_succ (next : Nat → Bind) (made call : Nat) :
    begins next made (call + 1) = (alloc next maxRetries (begins next made call)).2 := by
  induction call generalizing made with
  | zero => rfl
  | succ call ih => exact ih _

theorem begins_strictMono (next : Nat → Bind) (made : Nat) : StrictMono (begins next made) := by
  refine strictMono_nat_of_lt_succ fun call => ?_
  rw [begins_succ]
  exact (alloc_span next maxRetries _).1

@[simp] theorem length_allocs (next : Nat → Bind) (made calls : Nat) :
    (allocs next made calls).length = calls := by
  induction calls generalizing made with
  | zero => rfl
  | succ calls ih => simp [allocs, ih]

theorem allocs_getElem? {calls i : Nat} {result : Except Failure Nat × Nat}
    (h : (allocs next made calls)[i]? = some result) :
    result = alloc next maxRetries (begins next made i) := by
  induction calls generalizing made i with
  | zero => simp [allocs] at h
  | succ calls ih =>
    cases i with
    | zero => simpa [allocs, begins, eq_comm] using h
    | succ i =>
      have hrest : (allocs next (alloc next maxRetries made).2 calls)[i]? = some result := h
      rw [begins]
      exact ih hrest

/-- Calls in a row, of which each uses the outcomes from its own `first` up to the next one's. -/
structure Shares (next : Nat → Bind) (first : Nat → Nat)
    (results : List (Except Failure Nat × Nat)) : Prop where
  start : first 0 = 0
  call : ∀ i result, results[i]? = some result →
    Call next (first i) result ∧ result.2 = first (i + 1)
  once : ∀ n < first results.length, ∃! i, i < results.length ∧ first i ≤ n ∧ n < first (i + 1)

theorem allocs_shares (next : Nat → Bind) (calls : Nat) :
    (allocs next 0 calls).length = calls ∧ ∃ first, Shares next first (allocs next 0 calls) := by
  have hmono := begins_strictMono next 0
  refine ⟨length_allocs next 0 calls, begins next 0,
    { start := rfl, call := fun i result h => ?_, once := fun n hn => ?_ }⟩
  · rw [allocs_getElem? h, begins_succ]
    exact ⟨alloc_call next _, rfl⟩
  · rw [length_allocs] at hn ⊢
    -- The call is the last of them that begins with the outcome or before it.
    let i := Nat.findGreatest (fun i => begins next 0 i ≤ n) calls
    have hbefore : begins next 0 i ≤ n :=
      Nat.findGreatest_spec (P := fun i => begins next 0 i ≤ n) (Nat.zero_le calls) (Nat.zero_le n)
    have hlast : i < calls := hmono.lt_iff_lt.mp (hbefore.trans_lt hn)
    have hafter : n < begins next 0 (i + 1) := not_le.mp
      (Nat.findGreatest_is_greatest (P := fun i => begins next 0 i ≤ n) (Nat.lt_succ_self i) hlast)
    refine ⟨i, ⟨hlast, hbefore, hafter⟩, fun j ⟨_, hj, hj'⟩ => ?_⟩
    have hle : j < i + 1 := hmono.lt_iff_lt.mp (hj.trans_lt hafter)
    have hge : i < j + 1 := hmono.lt_iff_lt.mp (hbefore.trans_lt hj')
    omega

end AppHost.Bind
