/-!
# The clock

Time is a count of milliseconds. Timers are lists of due times with what each one is for; of two
that are due together the one listed first goes first.

A history lists what happened, the latest last. What is known of one is proved from its last element
backwards: that element is the one in question, or the question was settled before it.
-/

namespace AppHost

abbrev Time := Nat

def earliest? : List (Time × α) → Option (Time × α)
  | [] => none
  | t :: rest =>
    match earliest? rest with
    | none => some t
    | some u => if t.1 ≤ u.1 then some t else some u

theorem earliest?_mem {timers : List (Time × α)} {t : Time × α} (h : earliest? timers = some t) :
    t ∈ timers := by
  induction timers with
  | nil => simp [earliest?] at h
  | cons a rest ih =>
    unfold earliest? at h
    split at h
    · simp_all
    · split at h <;> simp_all

theorem earliest?_eq_none {timers : List (Time × α)} : earliest? timers = none ↔ timers = [] := by
  cases timers with
  | nil => simp [earliest?]
  | cons a rest =>
    unfold earliest?
    split
    · simp
    · split <;> simp

theorem earliest?_le {timers : List (Time × α)} {t u : Time × α} (h : earliest? timers = some t)
    (hu : u ∈ timers) : t.1 ≤ u.1 := by
  induction timers generalizing t with
  | nil => simp at hu
  | cons a rest ih =>
    unfold earliest? at h
    split at h
    · next hrest =>
      obtain rfl := earliest?_eq_none.1 hrest
      simp_all
    · next v hrest =>
      rcases List.mem_cons.1 hu with rfl | hu
      · split at h
        · simp_all
        · next hle =>
          cases h
          exact Nat.le_of_lt (Nat.lt_of_not_le hle)
      · have := ih hrest hu
        split at h
        · next hle =>
          cases h
          exact Nat.le_trans hle this
        · cases h
          exact this

theorem earliest?_cons_of_le {t : Time × α} (h : ∀ u ∈ rest, t.1 ≤ u.1) :
    earliest? (t :: rest) = some t := by
  unfold earliest?
  split
  · rfl
  · next u hu => exact if_pos (h u (earliest?_mem hu))

theorem earliest?_cons_of_lt {t u : Time × α} (h : earliest? rest = some u) (hlt : u.1 < t.1) :
    earliest? (t :: rest) = some u := by
  simp only [earliest?, h]
  exact if_neg (Nat.not_le.mpr hlt)

theorem append_cons_eq_append_singleton {pre post l : List α} {x y : α} :
    pre ++ x :: post = l ++ [y] ↔
      (pre = l ∧ x = y ∧ post = []) ∨ ∃ rest, post = rest ++ [y] ∧ pre ++ x :: rest = l := by
  constructor
  · intro h
    rcases List.eq_nil_or_concat post with rfl | ⟨rest, z, rfl⟩
    · obtain ⟨rfl, hx⟩ := List.append_inj' h rfl
      exact .inl ⟨rfl, (List.cons.inj hx).1, rfl⟩
    · rw [List.concat_eq_append, ← List.cons_append, ← List.append_assoc] at h
      obtain ⟨hl, hz⟩ := List.append_inj' h rfl
      exact .inr ⟨rest, by rw [List.concat_eq_append, hz], hl⟩
  · rintro (⟨rfl, rfl, rfl⟩ | ⟨rest, rfl, rfl⟩)
    · rfl
    · simp

/-- The last element of this kind, at the end of a longer list. -/
theorem exists_last_append {l : List α} {y : α} {p q : α → Prop} :
    (∃ pre x post, l ++ [y] = pre ++ x :: post ∧ p x ∧ ∀ z ∈ post, q z) ↔
      p y ∨ (q y ∧ ∃ pre x post, l = pre ++ x :: post ∧ p x ∧ ∀ z ∈ post, q z) := by
  constructor
  · rintro ⟨pre, x, post, hl, hx, hpost⟩
    obtain ⟨-, rfl, -⟩ | ⟨rest, rfl, rfl⟩ := append_cons_eq_append_singleton.mp hl.symm
    · exact .inl hx
    · exact .inr ⟨hpost y (by simp), pre, x, rest, rfl, hx, fun z hz => hpost z (by simp [hz])⟩
  · rintro (hy | ⟨hy, pre, x, rest, rfl, hx, hrest⟩)
    · exact ⟨l, y, [], rfl, hy, by simp⟩
    · refine ⟨pre, x, rest ++ [y], by simp, hx, fun z hz => ?_⟩
      rcases List.mem_append.mp hz with hz | hz
      · exact hrest z hz
      · exact List.mem_singleton.mp hz ▸ hy

end AppHost
