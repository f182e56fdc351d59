import AppHost.Proofs.Registry.Reports
import Mathlib.Data.List.Basic

/-!
# One key's share of a registry

A registry serves all keys from one map, one queue of reports and one transport. `Registry.only`
keeps what belongs to one key and numbers its policies afresh. What happens to the registry happens
in the same way to a registry that has nothing but this share, or does not concern it at all.
-/

namespace AppHost

-- ---------------------------------------------------------------------------
-- Picking from a list
-- ---------------------------------------------------------------------------

/-- Where an element of a list stands among those that are picked from it. -/
def place (f : α → Bool) (l : List α) (i : Nat) : Nat := (l.take i).countP f

section
variable {f : α → Bool} {l : List α} {i : Nat} {a b : α}

theorem getElem?_filter (h : l[i]? = some a) (ha : f a = true) :
    (l.filter f)[place f l i]? = some a := by
  induction l generalizing i with
  | nil => cases h
  | cons x l ih =>
    cases i with
    | zero =>
      cases h
      simp [place, ha]
    | succ i => cases hx : f x <;> simpa [place, hx] using ih h

theorem filter_set_of_pos (h : l[i]? = some a) (ha : f a = true) (hb : f b = true) :
    (l.set i b).filter f = (l.filter f).set (place f l i) b := by
  induction l generalizing i with
  | nil => cases h
  | cons x l ih =>
    cases i with
    | zero =>
      cases h
      simp [place, ha, hb]
    | succ i => cases hx : f x <;> simpa [place, hx] using ih h

theorem filter_set_of_neg (h : l[i]? = some a) (ha : f a = false) (hb : f b = false) :
    (l.set i b).filter f = l.filter f := by
  induction l generalizing i with
  | nil => cases h
  | cons x l ih =>
    cases i with
    | zero =>
      cases h
      simp [ha, hb]
    | succ i => cases hx : f x <;> simpa [hx] using ih h

theorem map_set_of_eq {f : α → β} (h : l[i]? = some a) (hb : f b = f a) :
    (l.set i b).map f = l.map f := by
  obtain ⟨hlt, rfl⟩ := List.getElem?_eq_some_iff.mp h
  rw [List.map_set, hb, ← List.map_set, List.set_getElem_self]

theorem place_length : place f l l.length = (l.filter f).length := by
  rw [place, List.take_length, List.countP_eq_length_filter]

theorem place_stable {m : List α} (h : l <+: m) (hi : i ≤ l.length) :
    place f m i = place f l i := by
  obtain ⟨rest, rfl⟩ := h
  rw [place, place, List.take_append_of_le_length hi]

end

-- ---------------------------------------------------------------------------
-- The share
-- ---------------------------------------------------------------------------

namespace Registry

def keys (r : Registry) : List String := r.policies.map (·.pool.key)

/-- A policy's number among those of this key. -/
def rank (r : Registry) (k : String) (ref : PolicyRef) : PolicyRef := place (· = k) r.keys ref

/-- What there is of this key. -/
def only (r : Registry) (k : String) : Registry where
  transport := r.transport
  policies := r.policies.filter (·.pool.key = k)
  current := (r.current.filter (·.1 = k)).map fun c => (c.1, r.rank k c.2)
  vacancies := r.vacancies.filter (· = k)

/-- The map holds policies under their own keys. -/
def Keyed (r : Registry) : Prop := ∀ c ∈ r.current, r.keys[c.2]? = some c.1

def share (r : Registry) (k : String) (acts : List Act) : List Act :=
  (acts.filter fun a => r.keys[a.policy]? = some k).map fun a =>
    { a with policy := r.rank k a.policy }

variable {r s : Registry} {k key : String} {ref : PolicyRef} {p q : Policy}

theorem rank_eq (r : Registry) (k : String) (ref : PolicyRef) :
    r.rank k ref = place (fun p : Policy => decide (p.pool.key = k)) r.policies ref := by
  simp [rank, place, keys, ← List.map_take, List.countP_map, Function.comp_def]

theorem keys_of_policy (hp : r.policy? ref = some p) : r.keys[ref]? = some p.pool.key := by
  rw [policy?] at hp
  simp [keys, hp]

theorem policy_of_keys (h : r.keys[ref]? = some key) :
    ∃ p, r.policy? ref = some p ∧ p.pool.key = key := by
  simpa [keys, policy?] using h

theorem only_policy? (hp : r.policy? ref = some p) (hk : p.pool.key = k) :
    (r.only k).policy? (r.rank k ref) = some p := by
  rw [rank_eq]
  exact getElem?_filter hp (decide_eq_true hk)

theorem rank_congr (h : s.keys = r.keys) (k : String) : s.rank k = r.rank k := by
  funext ref
  rw [rank, rank, h]

theorem rank_stable (h : r.keys <+: s.keys) (href : r.keys[ref]? = some key) :
    s.rank k ref = r.rank k ref :=
  place_stable h (Nat.le_of_lt (List.getElem?_eq_some_iff.mp href).1)

theorem keys_set (hp : r.policy? ref = some p) (hs : s.policies = r.policies.set ref q)
    (hq : q.pool.key = p.pool.key) : s.keys = r.keys := by
  rw [keys, hs, map_set_of_eq (f := fun p : Policy => p.pool.key) hp hq, keys]

/-- The share of a registry of which only this much is known. -/
theorem only_eq (hkeys : s.keys = r.keys) : s.only k =
    { transport := s.transport
      policies := s.policies.filter (·.pool.key = k)
      current := (s.current.filter (·.1 = k)).map fun c => (c.1, r.rank k c.2)
      vacancies := s.vacancies.filter (· = k) } := by
  rw [only, rank_congr hkeys]

theorem only_setPolicy (hp : r.policy? ref = some p) (hk : p.pool.key = k) (hq : q.pool.key = k) :
    (r.setPolicy ref q).only k = (r.only k).setPolicy (r.rank k ref) q := by
  have hset :=
    filter_set_of_pos (f := fun p : Policy => decide (p.pool.key = k)) hp (decide_eq_true hk)
      (decide_eq_true hq)
  rw [only_eq (keys_set hp rfl (hq.trans hk.symm)), rank_eq]
  simp only [setPolicy, only, hset]

theorem only_setPolicy_other (hp : r.policy? ref = some p) (hk : p.pool.key ≠ k)
    (hq : q.pool.key = p.pool.key) : (r.setPolicy ref q).only k = r.only k := by
  have hset :=
    filter_set_of_neg (f := fun p : Policy => decide (p.pool.key = k)) hp (decide_eq_false hk)
      (decide_eq_false (hq ▸ hk))
  rw [only_eq (keys_set hp rfl hq)]
  simp only [setPolicy, only, hset]

theorem mem_current_of_lookup (h : r.lookup? key = some ref) : (key, ref) ∈ r.current := by
  obtain ⟨l₁, l₂, hsplit, -⟩ := List.lookup_eq_some_iff.mp h
  simp [hsplit]

theorem Keyed.policy_key (hr : r.Keyed) (hl : r.lookup? key = some ref)
    (hp : r.policy? ref = some p) : p.pool.key = key := by
  have hkey := hr _ (mem_current_of_lookup hl)
  rw [keys_of_policy hp] at hkey
  exact Option.some.inj hkey

theorem only_lookup? (r : Registry) (k : String) :
    (r.only k).lookup? k = (r.lookup? k).map (r.rank k) := by
  simp only [lookup?, only]
  induction r.current with
  | nil => rfl
  | cons c l ih =>
    obtain ⟨a, ref⟩ := c
    by_cases ha : a = k
    · simp [ha]
    · simpa [ha, List.lookup_cons, beq_false_of_ne (Ne.symm ha)] using ih

-- ---------------------------------------------------------------------------
-- Requests
-- ---------------------------------------------------------------------------

theorem policyFor_keys (r : Registry) (key : String) : r.keys <+: (r.policyFor key).1.keys := by
  unfold policyFor
  split
  · exact List.prefix_refl _
  · simp [keys]

theorem Keyed.rank_current (hr : r.Keyed) (h : r.keys <+: s.keys) :
    (r.current.filter (·.1 = k)).map (fun c => (c.1, s.rank k c.2)) =
      (r.current.filter (·.1 = k)).map fun c => (c.1, r.rank k c.2) :=
  List.map_congr_left fun c hc => by rw [rank_stable h (hr c (List.mem_filter.mp hc).1)]

theorem rank_length (h : r.keys <+: s.keys) :
    s.rank k r.policies.length = (r.only k).policies.length := by
  have hlength : r.policies.length = r.keys.length := by simp [keys]
  rw [rank, hlength, place_stable h (Nat.le_refl _), ← hlength, ← rank, rank_eq, place_length]
  rfl

theorem only_policyFor (hr : r.Keyed) (k : String) :
    (r.policyFor k).1.only k = ((r.only k).policyFor k).1 ∧
      (r.policyFor k).1.rank k (r.policyFor k).2 = ((r.only k).policyFor k).2 := by
  have hprefix := r.policyFor_keys k
  have hlookup := r.only_lookup? k
  unfold policyFor at hprefix ⊢
  rw [hlookup]
  cases hl : r.lookup? k with
  | some ref => exact ⟨rfl, rfl⟩
  | none =>
    simp only [hl, Option.map_none] at hprefix ⊢
    have hrank := rank_length (k := k) hprefix
    refine ⟨?_, hrank⟩
    simp [only, hr.rank_current hprefix, hrank]

theorem only_policyFor_other (hr : r.Keyed) (hk : key ≠ k) :
    (r.policyFor key).1.only k = r.only k := by
  have hprefix := r.policyFor_keys key
  unfold policyFor at hprefix ⊢
  cases hl : r.lookup? key with
  | some ref => rfl
  | none =>
    simp only [hl] at hprefix ⊢
    simp [only, hr.rank_current hprefix, hk]

theorem admissionAt_of_policy (hp : r.policy? ref = some p) (app : AppSpec) (url : Option String)
    (id : String) :
    r.admissionAt ref app url id = (r.setPolicy ref (p.admission app url id).1,
      (p.admission app url id).2) := by
  simp [admissionAt, hp]

theorem admission_key (p : Policy) (app : AppSpec) (url : Option String) (id : String) :
    (p.admission app url id).1.pool.key = p.pool.key := by
  unfold Policy.admission
  split
  · rfl
  · split
    · rfl
    · dsimp only
      split <;> rfl

theorem only_admissionAt (hp : r.policy? ref = some p) (hk : p.pool.key = k) (app : AppSpec)
    (url : Option String) (id : String) :
    (r.only k).admissionAt (r.rank k ref) app url id =
      ((r.admissionAt ref app url id).1.only k, (r.admissionAt ref app url id).2) := by
  rw [admissionAt_of_policy hp, admissionAt_of_policy (only_policy? hp hk),
    only_setPolicy hp hk ((admission_key p app url id).trans hk)]

theorem only_admissionAt_other (hp : r.policy? ref = some p) (hk : p.pool.key ≠ k) (app : AppSpec)
    (url : Option String) (id : String) : (r.admissionAt ref app url id).1.only k = r.only k := by
  rw [admissionAt_of_policy hp, only_setPolicy_other hp hk (admission_key p app url id)]

-- ---------------------------------------------------------------------------
-- Pools
-- ---------------------------------------------------------------------------

def asked (ref : PolicyRef) (acts : List Pool.Act) : List Act :=
  acts.filterMap fun
    | .ask worker act => some { policy := ref, worker, act }
    | .vacant => none

theorem file_eq (r : Registry) (ref : PolicyRef) (key : String) (acts : List Pool.Act) :
    r.file ref key acts = ({ r with vacancies := r.vacancies ++ Pool.reported key acts },
      asked ref acts) := by
  induction acts generalizing r with
  | nil => simp [file, asked]
  | cons act acts ih => cases act <;> simp [file, asked, ih]

theorem withPool_eq (hp : r.policy? ref = some p) (step : Pool → Pool × List Pool.Act) :
    r.withPool ref step =
      ({ r.setPolicy ref { p with pool := (step p.pool).1 } with
          vacancies := r.vacancies ++ Pool.reported p.pool.key (step p.pool).2 },
          asked ref (step p.pool).2) := by
  rw [withPool_of_policy step hp, file_eq]
  rfl

section
variable {step : Pool → Pool × List Pool.Act}

theorem withPool_keys (r : Registry) (ref : PolicyRef) (hstep : ∀ p, (step p).1.key = p.key) :
    (r.withPool ref step).1.keys = r.keys := by
  cases hp : r.policy? ref with
  | none => rw [withPool_of_none step hp]
  | some p =>
    rw [withPool_eq hp]
    exact keys_set (q := { p with pool := (step p.pool).1 }) hp rfl (hstep p.pool)

theorem share_asked (hp : r.policy? ref = some p) (hk : p.pool.key = k) (acts : List Pool.Act) :
    r.share k (asked ref acts) = asked (r.rank k ref) acts := by
  have hkey : r.keys[ref]? = some k := hk ▸ keys_of_policy hp
  induction acts with
  | nil => rfl
  | cons act acts ih =>
    cases act with
    | vacant => exact ih
    | ask worker act => simpa [share, asked, hkey] using ih

theorem share_asked_other (hp : r.policy? ref = some p) (hk : p.pool.key ≠ k)
    (acts : List Pool.Act) : r.share k (asked ref acts) = [] := by
  have hkey : r.keys[ref]? = some p.pool.key := keys_of_policy hp
  induction acts with
  | nil => rfl
  | cons act acts ih =>
    cases act with
    | vacant => exact ih
    | ask worker act => simpa [share, asked, hkey, hk] using ih

theorem reported_filter (key k : String) (acts : List Pool.Act) :
    (Pool.reported key acts).filter (· = k) = if key = k then Pool.reported key acts else [] := by
  split
  · next h => exact List.filter_eq_self.mpr fun x hx => by simp [Pool.eq_of_mem_reported hx, h]
  · next h => exact List.filter_eq_nil_iff.mpr fun x hx => by simp [Pool.eq_of_mem_reported hx, h]

theorem only_withPool (hp : r.policy? ref = some p) (hk : p.pool.key = k)
    (hstep : ∀ p, (step p).1.key = p.key) :
    (r.only k).withPool (r.rank k ref) step =
      ((r.withPool ref step).1.only k, r.share k (r.withPool ref step).2) := by
  rw [withPool_eq hp, withPool_eq (only_policy? hp hk),
    ← only_setPolicy hp hk ((hstep p.pool).trans hk), share_asked hp hk]
  simp only [only, setPolicy, List.filter_append, reported_filter, hk, if_true]
  rfl

theorem only_withPool_other (hp : r.policy? ref = some p) (hk : p.pool.key ≠ k)
    (hstep : ∀ p, (step p).1.key = p.key) :
    (r.withPool ref step).1.only k = r.only k ∧ r.share k (r.withPool ref step).2 = [] := by
  rw [withPool_eq hp]
  refine ⟨?_, share_asked_other hp hk _⟩
  rw [← only_setPolicy_other (q := { p with pool := (step p.pool).1 }) hp hk (hstep p.pool)]
  simp only [only, setPolicy, List.filter_append, reported_filter, hk, if_false, List.append_nil]
  rfl

end

theorem readVacancy_spared {rest : List String} (hv : r.vacancies = key :: rest)
    (hspared : ∀ ref p, r.lookup? key = some ref → r.policy? ref = some p → p.pool.size ≠ 0) :
    r.readVacancy = { r with vacancies := rest } := by
  have hlookup : ({ r with vacancies := rest } : Registry).lookup? key = r.lookup? key := rfl
  have hpolicy : ({ r with vacancies := rest } : Registry).policy? = r.policy? := rfl
  simp only [readVacancy, hv, hlookup, hpolicy]
  cases hl : r.lookup? key with
  | none => rfl
  | some ref =>
    cases hp : r.policy? ref with
    | none => simp [hp]
    | some p => simp [hp, Policy.retireIfVacant, hspared ref p hl hp]

theorem readVacancy_dropped {rest : List String} (hv : r.vacancies = key :: rest)
    (hl : r.lookup? key = some ref) (hp : r.policy? ref = some p) (hsize : p.pool.size = 0) :
    r.readVacancy =
      { transport := r.transport
        policies := r.policies.set ref { p with retired := true }
        current := r.current.filter (·.1 ≠ key)
        vacancies := rest } := by
  have hlookup : ({ r with vacancies := rest } : Registry).lookup? key = r.lookup? key := rfl
  have hpolicy : ({ r with vacancies := rest } : Registry).policy? = r.policy? := rfl
  simp [readVacancy, hv, hlookup, hpolicy, hl, hp, Policy.retireIfVacant, hsize, setPolicy]

theorem readVacancy_keys (r : Registry) : r.readVacancy.keys = r.keys := by
  cases hv : r.vacancies with
  | nil => simp [readVacancy, hv]
  | cons key rest =>
    by_cases hdrop : ∃ ref p, r.lookup? key = some ref ∧ r.policy? ref = some p ∧ p.pool.size = 0
    · obtain ⟨ref, p, hl, hp, hsize⟩ := hdrop
      exact keys_set (q := { p with retired := true }) hp
        (by rw [readVacancy_dropped hv hl hp hsize]) rfl
    · rw [readVacancy_spared hv fun ref p hl hp hsize => hdrop ⟨ref, p, hl, hp, hsize⟩]
      rfl

theorem only_readVacancy (hr : r.Keyed) (hv : r.vacancies.head? = some k) :
    (r.only k).readVacancy = r.readVacancy.only k := by
  obtain ⟨rest, hv⟩ : ∃ rest, r.vacancies = k :: rest := by
    cases hvac : r.vacancies with
    | nil => simp [hvac] at hv
    | cons a rest => exact ⟨rest, by simpa [hvac] using hv⟩
  have hv' : (r.only k).vacancies = k :: rest.filter (· = k) := by simp [only, hv]
  by_cases hdrop : ∃ ref p, r.lookup? k = some ref ∧ r.policy? ref = some p ∧ p.pool.size = 0
  · obtain ⟨ref, p, hl, hp, hsize⟩ := hdrop
    have hk : p.pool.key = k := hr.policy_key hl hp
    have hl' : (r.only k).lookup? k = some (r.rank k ref) := by
      rw [only_lookup?, hl, Option.map_some]
    have hset :=
      filter_set_of_pos (f := fun p : Policy => decide (p.pool.key = k))
        (b := { p with retired := true })
        hp (decide_eq_true hk) (decide_eq_true hk)
    rw [only_eq r.readVacancy_keys, readVacancy_dropped hv hl hp hsize,
      readVacancy_dropped hv' hl' (only_policy? hp hk) hsize, hset, ← rank_eq]
    simp [only, List.filter_map, Function.comp_def]
  · have hspared : ∀ ref p, r.lookup? k = some ref → r.policy? ref = some p → p.pool.size ≠ 0 :=
      fun ref p hl hp hsize => hdrop ⟨ref, p, hl, hp, hsize⟩
    rw [readVacancy_spared hv hspared, readVacancy_spared hv']
    · rfl
    · intro ref p hl hp
      rw [only_lookup?] at hl
      obtain ⟨a, ha, rfl⟩ := Option.map_eq_some_iff.mp hl
      obtain ⟨q, hq, hk⟩ := policy_of_keys (hr _ (mem_current_of_lookup ha))
      rw [only_policy? hq hk] at hp
      obtain rfl := Option.some.inj hp
      exact hspared a q ha hq

theorem only_readVacancy_other (hr : r.Keyed) (hv : r.vacancies.head? ≠ some k) :
    r.readVacancy.only k = r.only k := by
  cases hvac : r.vacancies with
  | nil => simp [readVacancy, hvac]
  | cons key rest =>
    have hk : key ≠ k := by
      rintro rfl
      simp [hvac] at hv
    by_cases hdrop : ∃ ref p, r.lookup? key = some ref ∧ r.policy? ref = some p ∧ p.pool.size = 0
    · obtain ⟨ref, p, hl, hp, hsize⟩ := hdrop
      have hkey : p.pool.key = key := hr.policy_key hl hp
      have hset :=
        filter_set_of_neg (f := fun p : Policy => decide (p.pool.key = k))
          (b := { p with retired := true })
          hp (decide_eq_false (hkey ▸ hk)) (decide_eq_false (hkey ▸ hk))
      rw [only_eq r.readVacancy_keys, readVacancy_dropped hvac hl hp hsize, hset]
      have hcurrent : (r.current.filter (·.1 ≠ key)).filter (·.1 = k) =
          r.current.filter (·.1 = k) := by
        rw [List.filter_filter]
        refine List.filter_congr fun c _ => ?_
        by_cases hc : c.1 = k <;> simp [hc, Ne.symm hk]
      simp only [hcurrent]
      simp [only, hvac, hk]
    · rw [readVacancy_spared hvac fun ref p hl hp hsize => hdrop ⟨ref, p, hl, hp, hsize⟩]
      rw [only_eq (s := { r with vacancies := rest }) (r := r) rfl]
      simp [only, hvac, hk]

def sweep (step : Pool → Pool × List Pool.Act) (entries : List (String × PolicyRef))
    (s : Registry × List Act) : Registry × List Act :=
  entries.foldl (fun s c => ((s.1.withPool c.2 step).1, s.2 ++ (s.1.withPool c.2 step).2)) s

theorem sweep_cons (step : Pool → Pool × List Pool.Act) (c : String × PolicyRef)
    (entries : List (String × PolicyRef)) (s : Registry) (acts : List Act) :
    sweep step (c :: entries) (s, acts) = sweep step entries ((s.withPool c.2 step).1,
      acts ++ (s.withPool c.2 step).2) := rfl

theorem sweep_keys {step : Pool → Pool × List Pool.Act} (hstep : ∀ p, (step p).1.key = p.key)
    (entries : List (String × PolicyRef)) (s : Registry × List Act) :
    (sweep step entries s).1.keys = s.1.keys := by
  refine List.foldlRecOn (motive := fun t : Registry × List Act => t.1.keys = s.1.keys)
    entries _ rfl ?_
  exact fun t ht c _ => (withPool_keys t.1 c.2 hstep).trans ht

theorem share_append (r : Registry) (k : String) (acts₁ acts₂ : List Act) :
    r.share k (acts₁ ++ acts₂) = r.share k acts₁ ++ r.share k acts₂ := by
  simp [share]

theorem share_congr (h : s.keys = r.keys) (k : String) : s.share k = r.share k := by
  funext acts
  rw [share, share, h, rank_congr h]

theorem only_sweep {step : Pool → Pool × List Pool.Act} (hstep : ∀ p, (step p).1.key = p.key)
    {entries : List (String × PolicyRef)} (hentries : ∀ c ∈ entries, r.keys[c.2]? = some c.1)
    (hs : s.keys = r.keys) (acts : List Act) :
    sweep step ((entries.filter (·.1 = k)).map fun c => (c.1, r.rank k c.2)) (s.only k,
      r.share k acts) =
      ((sweep step entries (s, acts)).1.only k, r.share k (sweep step entries (s, acts)).2) := by
  induction entries generalizing s acts with
  | nil => rfl
  | cons c entries ih =>
    obtain ⟨key, ref⟩ := c
    have hentry : s.keys[ref]? = some key := hs ▸ hentries _ List.mem_cons_self
    have hentries : ∀ c ∈ entries, r.keys[c.2]? = some c.1 :=
      fun c hc => hentries c (List.mem_cons_of_mem _ hc)
    obtain ⟨p, hp, hkey⟩ := policy_of_keys hentry
    have ih := ih hentries ((withPool_keys s ref hstep).trans hs) (acts ++ (s.withPool ref step).2)
    by_cases hk : key = k
    · have hwith := only_withPool hp (hkey.trans hk) hstep
      rw [rank_congr hs, share_congr hs] at hwith
      rw [List.filter_cons_of_pos (by simpa using hk), List.map_cons, sweep_cons, sweep_cons, hwith,
        ← share_append]
      exact ih
    · obtain ⟨honly, hshare⟩ := only_withPool_other hp (fun h => hk (hkey.symm.trans h)) hstep
      rw [share_congr hs] at hshare
      rw [honly, share_append, hshare, List.append_nil] at ih
      rw [List.filter_cons_of_neg (by simpa using hk), sweep_cons]
      exact ih

theorem sweep_fst (step : Pool → Pool × List Pool.Act) (entries : List (String × PolicyRef))
    (s : Registry) (acts : List Act) :
    (sweep step entries (s, acts)).1 = entries.foldl (fun s c => (s.withPool c.2 step).1) s := by
  induction entries generalizing s acts with
  | nil => rfl
  | cons c entries ih => exact ih _ _

def switch (transport : TransportRef) (p : Pool) : Pool × List Pool.Act :=
  ({ p with transport := some transport }, [])

theorem switch_key (transport : TransportRef) (p : Pool) : (switch transport p).1.key = p.key := rfl

theorem setTransport_eq (r : Registry) (transport : TransportRef) :
    r.setTransport transport =
      (sweep (switch transport) r.current ({ r with transport := some transport }, [])).1 := by
  rw [sweep_fst, setTransport]
  refine List.foldl_ext _ _ _ fun s c _ => ?_
  cases hp : s.policy? c.2 with
  | none => rw [withPool_of_none _ hp]
  | some p =>
    rw [withPool_of_policy _ hp]
    rfl

theorem only_setTransport (hr : r.Keyed) (transport : TransportRef) :
    (r.only k).setTransport transport = (r.setTransport transport).only k := by
  have hsweep :=
    only_sweep (k := k) (switch_key transport) hr
      (s := { r with transport := some transport }) rfl []
  rw [setTransport_eq, setTransport_eq]
  exact congrArg Prod.fst hsweep

theorem shutdown_key (p : Pool) (now : Time) : (p.shutdown now).1.key = p.key :=
  Pool.run_key ((p.shutdown_own now).lift id fun _ _ h => h.calm.next)

theorem shutdown_keys (r : Registry) (now : Time) : (r.shutdown now).1.keys = r.keys :=
  sweep_keys (fun p => shutdown_key p now) r.current (r, [])

theorem setTransport_keys (r : Registry) (transport : TransportRef) :
    (r.setTransport transport).keys = r.keys := by
  rw [setTransport_eq]
  exact sweep_keys (switch_key transport) r.current _

theorem only_shutdown (hr : r.Keyed) (now : Time) :
    (r.only k).shutdown now = ((r.shutdown now).1.only k, r.share k (r.shutdown now).2) :=
  only_sweep (fun p => shutdown_key p now) hr rfl []

theorem admissionAt_keys (r : Registry) (ref : PolicyRef) (app : AppSpec) (url : Option String)
    (id : String) : (r.admissionAt ref app url id).1.keys = r.keys := by
  cases hp : r.policy? ref with
  | none => simp [admissionAt, hp]
  | some p =>
    rw [admissionAt_of_policy hp]
    exact keys_set hp rfl (admission_key p app url id)

-- ---------------------------------------------------------------------------
-- Keys stay
-- ---------------------------------------------------------------------------

/-- A policy keeps its number and its key, and the map holds it under that key. -/
theorem Move.keyed (h : Move Pool.Next r s) (hr : r.Keyed) : r.keys <+: s.keys ∧ s.Keyed := by
  cases h with
  | quiet hp hc =>
    have hkeys : s.keys = r.keys := by rw [keys, keys, hp]
    exact ⟨hkeys ▸ List.prefix_refl _, fun c hmem => hkeys ▸ hr c (hc ▸ hmem)⟩
  | created key transport hl hp hc =>
    have hkeys : s.keys = r.keys ++ [key] := by simp [keys, hp]
    refine ⟨hkeys ▸ List.prefix_append _ _, fun c hmem => ?_⟩
    rw [hc] at hmem
    rw [hkeys]
    rcases List.mem_append.mp hmem with hmem | hmem
    · rw [List.getElem?_append_left (List.getElem?_eq_some_iff.mp (hr c hmem)).1]
      exact hr c hmem
    · obtain rfl := List.mem_singleton.mp hmem
      simp [keys]
  | served ref p q hp hq _ hs hc =>
    have hkeys : s.keys = r.keys := keys_set hp hs (Pool.run_key hq)
    exact ⟨hkeys ▸ List.prefix_refl _, fun c hmem => hkeys ▸ hr c (hc ▸ hmem)⟩
  | dropped key ref p _ hp _ hs hc =>
    have hkeys : s.keys = r.keys := keys_set hp hs rfl
    refine ⟨hkeys ▸ List.prefix_refl _, fun c hmem => hkeys ▸ hr c ?_⟩
    exact (List.mem_filter.mp (hc ▸ hmem)).1

theorem run_keyed (h : Relation.ReflTransGen Next r s) (hr : r.Keyed) :
    r.keys <+: s.keys ∧ s.Keyed := by
  have hmoves := run_moves h
  clear h
  induction hmoves with
  | refl => exact ⟨List.prefix_refl _, hr⟩
  | tail _ hmove ih =>
    obtain ⟨hkeys, hkeyed⟩ := hmove.keyed ih.2
    exact ⟨ih.1.trans hkeys, hkeyed⟩

theorem keys_stable (h : r.keys <+: s.keys) (href : r.keys[ref]? = some key) :
    s.keys[ref]? = some key := by
  obtain ⟨rest, heq⟩ := h
  rw [← heq, List.getElem?_append_left (List.getElem?_eq_some_iff.mp href).1]
  exact href

end Registry

end AppHost
