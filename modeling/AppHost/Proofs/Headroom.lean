import AppHost.Proofs.SoftLimit

/-!
# The room above the soft limit

The soft limit keeps new sessions from taking the last places. `softLimit_headroom` says by how
much, for every hard limit of 32 bits, and what follows for the requests: whoever may start a
session may do anything else, and nobody loses by a higher limit.
-/

namespace AppHost

/-- Whether one more fits. Zero sets no limit. -/
def UnderLimit (limit connections : Nat) : Prop := 0 < limit → connections < limit

/-- The second limit lets in whatever the first does. -/
def NoStricter (limit limit' : Nat) : Prop := limit' = 0 ∨ 0 < limit ∧ limit ≤ limit'

theorem NoStricter.refl (limit : Nat) : NoStricter limit limit :=
  (Nat.eq_zero_or_pos limit).imp id fun hpos => ⟨hpos, Nat.le_refl limit⟩

theorem UnderLimit.mono {limit limit' connections : Nat} (h : UnderLimit limit connections)
    (hlimit : NoStricter limit limit') : UnderLimit limit' connections := by
  intro hpos
  obtain hnone | ⟨hpos', hle⟩ := hlimit
  · omega
  · exact Nat.lt_of_lt_of_le (h hpos') hle

-- ---------------------------------------------------------------------------
-- The limit
-- ---------------------------------------------------------------------------

theorem softLimit_eq_zero (h : hard < UInt32.size) : softLimit hard = 0 ↔ hard = 0 := by
  refine ⟨fun hzero => ?_, fun hzero => by rw [hzero]; rfl⟩
  obtain hnone | hpos := Nat.eq_zero_or_pos hard
  · exact hnone
  · exact absurd hzero (Nat.ne_of_gt (softLimit_pos hpos h))

theorem softLimit_add_ten (hten : 12 ≤ hard) (h : hard < UInt32.size) :
    softLimit hard + 10 ≤ hard := by
  rw [softLimit_eq h, if_neg (by omega)]
  omega

theorem softLimit_mono {lower : Nat} (hle : lower ≤ hard) (h : hard < UInt32.size) :
    softLimit lower ≤ softLimit hard := by
  rw [softLimit_eq (Nat.lt_of_le_of_lt hle h), softLimit_eq h]
  split
  · omega
  · rw [if_neg (by omega)]
    omega

theorem softLimit_noStricter (h : hard < UInt32.size) : NoStricter (softLimit hard) hard := by
  obtain rfl | hpos := Nat.eq_zero_or_pos hard
  · exact .inl rfl
  · exact .inr ⟨softLimit_pos hpos h, softLimit_le h⟩

theorem NoStricter.softLimit {lower : Nat} (hlimit : NoStricter lower hard)
    (h : hard < UInt32.size) : NoStricter (softLimit lower) (softLimit hard) := by
  obtain rfl | ⟨hpos, hle⟩ := hlimit
  · exact .inl rfl
  · exact .inr ⟨softLimit_pos hpos (Nat.lt_of_le_of_lt hle h), softLimit_mono hle h⟩

-- ---------------------------------------------------------------------------
-- Admission
-- ---------------------------------------------------------------------------

def AppSpec.limitedTo (app : AppSpec) (hard : Nat) : AppSpec :=
  { app with settings := { app.settings with scheduler := { maxRequests := hard } } }

namespace Policy

variable {p : Policy} {app : AppSpec} {url : Option String} {id : String}

/-- The request is not turned away, be it sent to a worker that there is or to a new one. -/
def Admits (p : Policy) (app : AppSpec) (url : Option String) (id : String) : Prop :=
  ∃ ref, (p.admission app url id).2 = .ok ref

def connections (p : Policy) (ref : WorkerRef) : Nat :=
  ((p.pool.worker? ref).map (·.entry.count.toNat)).getD 0

theorem admits_iff :
    p.Admits app url id ↔
      p.retired = false ∧ ∀ ref, p.pool.first? = some ref →
      UnderLimit (limitFor app url) (p.connections ref) := by
  unfold Admits admission
  split
  · next hretired => simp [hretired]
  · next hretired =>
    split
    · next hfirst => simp [hretired, hfirst]
    · next ref hfirst =>
      simp only [hretired, hfirst, Option.some.injEq, forall_eq', true_and]
      unfold UnderLimit connections
      split
      · next hfull => simpa using hfull
      · next hfree => simpa using hfree

/-- With a limit that is no stricter no request is turned away that was not before. -/
theorem Admits.mono {app' : AppSpec} {url' : Option String} (h : p.Admits app url id)
    (hlimit : NoStricter (limitFor app url) (limitFor app' url')) : p.Admits app' url' id := by
  obtain ⟨hlive, hroom⟩ := admits_iff.mp h
  exact admits_iff.mpr ⟨hlive, fun ref hfirst => (hroom ref hfirst).mono hlimit⟩

theorem limitFor_session (h : app.settings.scheduler.maxRequests < UInt32.size)
    (url : Option String) : NoStricter (limitFor app (some "/")) (limitFor app url) := by
  unfold limitFor
  dsimp only
  rw [if_pos rfl]
  split
  · exact .refl _
  · exact softLimit_noStricter h

theorem limitFor_limitedTo {lower : Nat} (hlimit : NoStricter lower hard) (h : hard < UInt32.size)
    (app : AppSpec) (url : Option String) :
    NoStricter (limitFor (app.limitedTo lower) url) (limitFor (app.limitedTo hard) url) := by
  unfold limitFor
  dsimp only [AppSpec.limitedTo]
  split
  · exact hlimit.softLimit h
  · exact hlimit

end Policy

/-- What is known of a hard limit and its soft one. -/
structure Headroom (hard : Nat) : Prop where
  /-- The binary product is rounded to the number that the exact one would be. -/
  product : eightyPercent hard = (8 * hard + 5) / 10
  value : (softLimit hard : Int) = if hard = 0 then 0
    else min ((8 * (hard : Int) + 5) / 10) (max ((hard : Int) - 10) 2)
  unlimited : softLimit hard = 0 ↔ hard = 0
  within : 0 < hard → 1 ≤ softLimit hard ∧ softLimit hard ≤ hard
  ten : 12 ≤ hard → softLimit hard + 10 ≤ hard
  monotone : ∀ lower ≤ hard, softLimit lower ≤ softLimit hard
  /-- Who may start a session may make any other request. -/
  others : ∀ (p : Policy) (app : AppSpec) (url : Option String) (id : String),
    app.settings.scheduler.maxRequests = hard → p.Admits app (some "/") id → p.Admits app url id
  /-- No request is lost by a higher limit, unless there was none. -/
  raised : ∀ (p : Policy) (app : AppSpec) (url : Option String) (id : String) (lower : Nat),
    NoStricter lower hard → p.Admits (app.limitedTo lower) url id →
    p.Admits (app.limitedTo hard) url id

theorem softLimit_headroom (h : hard < UInt32.size) : Headroom hard where
  product := eightyPercent_eq h
  value := by
    rw [softLimit_eq h]
    split <;> omega
  unlimited := softLimit_eq_zero h
  within hpos := ⟨softLimit_pos hpos h, softLimit_le h⟩
  ten hten := softLimit_add_ten hten h
  monotone _ hle := softLimit_mono hle h
  others _ _ url _ hlimit hadmits := hadmits.mono (Policy.limitFor_session (hlimit ▸ h) url)
  raised _ app url _ _ hlimit hadmits := hadmits.mono (Policy.limitFor_limitedTo hlimit h app url)

theorem softLimit_headroom_fifteen : 15 < UInt32.size ∧ Headroom 15 :=
  ⟨by decide, softLimit_headroom (by decide)⟩

end AppHost
