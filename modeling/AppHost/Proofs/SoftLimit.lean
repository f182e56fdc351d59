import AppHost.Registry

/-!
# The soft limit, exactly

Although it is computed in binary floating point, the soft limit is the one that whole numbers give:
`softLimit_eq`. So a limit that is set never turns into none, and the soft limit is never above the
hard one.
-/

namespace AppHost

namespace Decimal

theorem Ratio.round_near (num : Nat) {den : Nat} (h : 0 < den) :
    2 * num ≤ 2 * (den * Ratio.round ⟨num, den⟩) + den ∧
      2 * (den * Ratio.round ⟨num, den⟩) ≤ 2 * num + den := by
  have hdiv := Nat.div_add_mod num den
  have hlt := Nat.mod_lt num h
  unfold round
  simp only
  split
  · omega
  · split
    · rw [Nat.mul_add]
      omega
    · split
      · omega
      · rw [Nat.mul_add]
        omega

theorem Ratio.scale_neg (r : Ratio) (base k : Nat) (hk : 0 < k) :
    r.scale base (-(k : Int)) = { r with den := r.den * Nat.pow base k } := by
  unfold scale
  rw [if_neg (by omega)]
  simp

theorem Ratio.scale_pos (r : Ratio) (base k : Nat) :
    r.scale base k = { r with num := r.num * Nat.pow base k } := by
  unfold scale
  rw [if_pos (by omega)]
  simp

namespace Binary64

/-- What lies well within the format's range is rounded to a finite number. -/
theorem ofRatio_finite (negative : Bool) (r : Ratio) (hnum : r.num ≠ 0)
    (hlow : -1074 ≤ (r.num.log2 : Int) - r.den.log2 - 53)
    (hhigh : (r.num.log2 : Int) - r.den.log2 - 51 ≤ 971) :
    ∃ q : Int, q ≤ (r.num.log2 : Int) - r.den.log2 - 51 ∧
      ofRatio negative r = .finite negative (r.scale 2 (-q)).round q := by
  have hround : ∀ q : Int, -1074 ≤ q → q ≤ 971 →
      (if 971 < max q (-1074) then Binary64.infinite negative
        else .finite negative (r.scale 2 (-max q (-1074))).round (max q (-1074))) =
      .finite negative (r.scale 2 (-q)).round q := by
    intro q hle hge
    rw [show max q (-1074) = q by omega, if_neg (by omega)]
  unfold ofRatio
  rw [if_neg hnum]
  simp only
  split
  · exact ⟨_, by omega, hround _ hlow (by omega)⟩
  · split
    · exact ⟨_, by omega, hround _ (by omega) (by omega)⟩
    · exact ⟨_, by omega, hround _ (by omega) (by omega)⟩

end Binary64

end Decimal

open Decimal

/-- The factor is a little more than four fifths. -/
theorem product_eq (hard : Nat) :
    (Binary64.whole hard).mul (.ofRatio false ⟨4, 5⟩) =
      .ofRatio false ⟨hard * 7205759403792794, 9007199254740992⟩ := by
  have hfactor : Binary64.ofRatio false ⟨4, 5⟩ = .finite false 7205759403792794 (-53) := by decide
  rw [hfactor, Binary64.whole, Binary64.mul]
  simp [Ratio.scale]

theorem ofRatio_product (hpos : 0 < hard) (h : hard < UInt32.size) :
    ∃ k : Nat, 20 ≤ k ∧
      Binary64.ofRatio false ⟨hard * 7205759403792794, 9007199254740992⟩ =
      .finite false (Ratio.round ⟨hard * 7205759403792794 * Nat.pow 2 k, 9007199254740992⟩)
      (-(k : Int)) := by
  unfold UInt32.size at h
  have hnum : hard * 7205759403792794 ≠ 0 := by omega
  have hlog : (hard * 7205759403792794).log2 < 85 := (Nat.log2_lt hnum).mpr (by omega)
  have hden : Nat.log2 9007199254740992 = 53 := by decide
  obtain ⟨q, hq, heq⟩ :=
    Binary64.ofRatio_finite false ⟨hard * 7205759403792794, 9007199254740992⟩ hnum
      (by simp only [hden]; omega) (by simp only [hden]; omega)
  simp only [hden] at hq
  obtain ⟨k, rfl⟩ : ∃ k : Nat, q = -(k : Int) := ⟨q.natAbs, by omega⟩
  refine ⟨k, by omega, ?_⟩
  rw [heq, Int.neg_neg, Ratio.scale_pos]

theorem magnitude?_neg (hk : 0 < k) (m : Nat) :
    Binary64.magnitude? (.finite false m (-((k : Nat) : Int))) = some ⟨m, Nat.pow 2 k⟩ := by
  rw [Binary64.magnitude?, Ratio.scale_neg _ _ _ hk, Nat.one_mul]

/-- A number next to the product, on a grid of steps no coarser than `2 ^ -20`, is far enough from
the middle between two whole numbers. -/
theorem roundHalfUp_near {hard m k : Nat} (h : hard < UInt32.size) (hk : 20 ≤ k)
    (hlow : 2 * (hard * 7205759403792794 * Nat.pow 2 k) ≤
      2 * (9007199254740992 * m) + 9007199254740992)
    (hhigh : 2 * (9007199254740992 * m) ≤
      2 * (hard * 7205759403792794 * Nat.pow 2 k) + 9007199254740992) :
    Ratio.roundHalfUp ⟨m, Nat.pow 2 k⟩ = (8 * hard + 5) / 10 := by
  have hstep : 1048576 ≤ Nat.pow 2 k := Nat.pow_le_pow_right (show 0 < 2 by decide) hk
  generalize Nat.pow 2 k = step at *
  generalize hn : (8 * hard + 5) / 10 = n
  have hbelow : 10 * (n * step) ≤ 8 * (hard * step) + 4 * step := by
    have := Nat.mul_le_mul_right step (show 10 * n ≤ 8 * hard + 4 by omega)
    simpa only [Nat.add_mul, Nat.mul_assoc] using this
  have habove : 8 * (hard * step) ≤ 10 * (n * step) + 4 * step := by
    have := Nat.mul_le_mul_right step (show 8 * hard ≤ 10 * n + 4 by omega)
    simpa only [Nat.add_mul, Nat.mul_assoc] using this
  have hsize : hard * step ≤ 4294967296 * step := Nat.mul_le_mul_right step (Nat.le_of_lt h)
  rw [Nat.mul_right_comm] at hlow hhigh
  generalize hard * step = p at *
  simp only [Ratio.roundHalfUp]
  refine Nat.div_eq_of_lt_le ?_ ?_
  · rw [Nat.mul_left_comm]
    omega
  · rw [Nat.mul_left_comm, Nat.succ_mul n step]
    omega

/-- Stated of the function itself: at an argument, unfolding it sets the kernel to multiply. -/
theorem eightyPercent_def : eightyPercent = fun hard =>
    match ((Binary64.whole hard).mul (.ofRatio false ⟨4, 5⟩)).magnitude? with
    | some product => product.roundHalfUp
    | none => 0 := rfl

/-- Eighty percent is what it would be without the rounding of the factor and of the product. -/
theorem eightyPercent_eq (h : hard < UInt32.size) : eightyPercent hard = (8 * hard + 5) / 10 := by
  rcases Nat.eq_zero_or_pos hard with rfl | hpos
  · decide
  · obtain ⟨k, hk, heq⟩ := ofRatio_product hpos h
    have hnear :=
      Ratio.round_near (hard * 7205759403792794 * Nat.pow 2 k) (show 0 < 9007199254740992 by decide)
    have hm := magnitude?_neg (k := k) (by omega)
      (Ratio.round ⟨hard * 7205759403792794 * Nat.pow 2 k, 9007199254740992⟩)
    simp only [eightyPercent_def, product_eq, heq, hm]
    exact roundHalfUp_near h hk hnear.1 hnear.2

theorem softLimit_eq (h : hard < UInt32.size) :
    softLimit hard = if hard = 0 then 0 else min ((8 * hard + 5) / 10) (max (hard - 10) 2) := by
  rw [softLimit, eightyPercent_eq h]

theorem softLimit_pos (hpos : 0 < hard) (h : hard < UInt32.size) : 0 < softLimit hard := by
  rw [softLimit_eq h, if_neg (by omega)]
  omega

theorem softLimit_le (h : hard < UInt32.size) : softLimit hard ≤ hard := by
  rw [softLimit_eq h]
  split <;> omega

namespace Policy

variable {app : AppSpec} {url : Option String}

/-- A limited application's requests are held to some limit, and to none above the hard one. -/
theorem limitFor_bounds (hpos : 0 < app.settings.scheduler.maxRequests)
    (h : app.settings.scheduler.maxRequests < UInt32.size) :
    0 < limitFor app url ∧ limitFor app url ≤ app.settings.scheduler.maxRequests := by
  unfold limitFor
  simp only
  split
  · exact ⟨softLimit_pos hpos h, softLimit_le h⟩
  · exact ⟨hpos, Nat.le_refl _⟩

end Policy

end AppHost
