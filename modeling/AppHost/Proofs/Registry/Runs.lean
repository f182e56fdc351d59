import AppHost.Proofs.Pool.Runs
import AppHost.Registry

/-!
# Runs of a registry

Requests look policies up and come to them, at once or much later; workers live and die; reports of
empty tables are read. `Move` says what any of this does to the policies and to the map that holds
the registered ones, and `Registry.Sound` is kept by every move: a policy is in the map exactly as
long as it is not retired, under its own key, and no policy's table lists more than one worker.
-/

namespace AppHost

open Relation (ReflTransGen)

structure Policy.Sound (p : Policy) : Prop where
  pool : p.pool.Sound
  single : p.pool.table.length ≤ 1
  retired : p.retired = true → p.pool.table = []

namespace Policy

theorem sound_new (key : String) (transport : Option TransportRef) :
    ({ pool := { key, transport } } : Policy).Sound :=
  ⟨Pool.sound_new key transport, Nat.zero_le 1, nofun⟩

theorem Sound.serve {p : Policy} {q : Pool} (hp : p.Sound) (hq : ReflTransGen Pool.Next p.pool q)
    (hfit : q.table.length ≤ p.pool.table.length ∨ p.retired = false ∧ q.table.length ≤ 1) :
    { p with pool := q }.Sound := by
  refine ⟨hp.pool.run hq, ?_, ?_⟩
  · rcases hfit with hle | ⟨-, hle⟩
    · exact Nat.le_trans hle hp.single
    · exact hle
  · intro hretired
    rcases hfit with hle | ⟨hlive, -⟩
    · rw [hp.retired hretired] at hle
      exact List.eq_nil_of_length_eq_zero (Nat.le_zero.mp hle)
    · simp [hlive] at hretired

end Policy

namespace Registry

/-- One thing that can happen to a registry. An admission may come to any policy, however long
after it was looked up. -/
inductive Next (r : Registry) : Registry → Prop
  | lookup (key : String) : Next r (r.policyFor key).1
  | admission (ref : PolicyRef) (app : AppSpec) (url : Option String) (id : String) :
    Next r (r.admissionAt ref app url id).1
  | step (now : Time) (ref : PolicyRef) (worker : WorkerRef) (event : Worker.Event) :
    Next r (r.step now ref worker event).1
  | readVacancy : Next r r.readVacancy
  | setTransport (transport : TransportRef) : Next r (r.setTransport transport)
  | shutdown (now : Time) : Next r (r.shutdown now).1

def Reachable (r : Registry) : Prop := ∃ transport, ReflTransGen Next { transport } r

theorem Reachable.trans {r s : Registry} (hr : r.Reachable) (h : ReflTransGen Next r s) :
    s.Reachable := by
  obtain ⟨transport, hr⟩ := hr
  exact ⟨transport, hr.trans h⟩

theorem advance_next (r : Registry) (app : AppSpec) (url : Option String) (id : String)
    (q : Request) : ReflTransGen Next r (r.advance app url id q).1 := by
  cases q with
  | seeking => exact .single (.lookup app.key)
  | found ref =>
    simp only [advance]
    split <;> exact .single (.admission ref app url id)
  | answered => exact .refl

theorem advance_denied {r : Registry} {app : AppSpec} {url : Option String} {id : String}
    (h : (r.admissionAt a app url id).2 = .error .retired) :
    r.advance app url id (.found a) = ((r.admissionAt a app url id).1, .seeking) := by
  simp [advance, h]

theorem advance_admitted {r : Registry} {app : AppSpec} {url : Option String} {id : String}
    (h : (r.admissionAt a app url id).2 ≠ .error .retired) :
    r.advance app url id (.found a) =
      ((r.admissionAt a app url id).1, .answered a (r.admissionAt a app url id).2) := by
  unfold advance
  dsimp only
  split
  · next heq => exact absurd heq h
  · rfl

-- ---------------------------------------------------------------------------
-- The registry's own operations
-- ---------------------------------------------------------------------------

section
variable {r : Registry} {ref x : PolicyRef} {p q : Policy} {key : String} {acts : List Pool.Act}

@[simp] theorem file_policies : (r.file ref key acts).1.policies = r.policies := by
  induction acts generalizing r with
  | nil => rfl
  | cons act acts ih => cases act <;> simp [file, ih]

@[simp] theorem file_current : (r.file ref key acts).1.current = r.current := by
  induction acts generalizing r with
  | nil => rfl
  | cons act acts ih => cases act <;> simp [file, ih]

theorem mem_file_acts {worker : WorkerRef} {act : Worker.Act} (h : .ask worker act ∈ acts) :
    ⟨ref, worker, act⟩ ∈ (r.file ref key acts).2 := by
  induction acts generalizing r with
  | nil => cases h
  | cons a acts ih =>
    cases a with
    | vacant => exact ih (by simpa using h)
    | ask v b =>
      rcases List.mem_cons.mp h with heq | h
      · cases heq
        exact List.mem_cons_self
      · exact List.mem_cons_of_mem _ (ih h)

theorem withPool_of_policy (step : Pool → Pool × List Pool.Act) (hp : r.policy? ref = some p) :
    r.withPool ref step =
      (r.setPolicy ref { p with pool := (step p.pool).1 }).file ref p.pool.key (step p.pool).2 := by
  simp [withPool, hp]

theorem withPool_of_none (step : Pool → Pool × List Pool.Act) (hp : r.policy? ref = none) :
    r.withPool ref step = (r, []) := by
  simp [withPool, hp]

@[simp] theorem step_current (now : Time) (worker : WorkerRef) (event : Worker.Event) :
    (r.step now ref worker event).1.current = r.current := by
  cases hp : r.policy? ref with
  | none => rw [step, withPool_of_none _ hp]
  | some p => simp [step, withPool_of_policy _ hp, setPolicy]

theorem policy?_set (hp : r.policy? ref = some p) {s : Registry}
    (hs : s.policies = r.policies.set ref q) :
    s.policy? x = if x = ref then some q else r.policy? x := by
  have hlt : ref < r.policies.length := (List.getElem?_eq_some_iff.mp hp).1
  simp only [policy?, hs, List.getElem?_set, hlt]
  split <;> simp_all [eq_comm]

theorem setPolicy_self (hp : r.policy? ref = some p) : r.setPolicy ref p = r := by
  obtain ⟨hlt, rfl⟩ := List.getElem?_eq_some_iff.mp hp
  simp [setPolicy]

theorem policy?_append {s : Registry} (hs : s.policies = r.policies ++ [q]) :
    s.policy? x = if x = r.policies.length then some q else r.policy? x := by
  simp only [policy?, hs]
  split
  · next h => simp [h]
  · next h =>
    rcases Nat.lt_or_gt_of_ne h with hlt | hgt
    · rw [List.getElem?_append_left hlt]
    · rw [List.getElem?_eq_none (Nat.le_of_lt hgt), List.getElem?_eq_none]
      rw [List.length_append]
      exact hgt

theorem policy?_step (now : Time) (worker : WorkerRef) (event : Worker.Event)
    (hp : r.policy? ref = some p) :
    (r.step now ref worker event).1.policy? x =
      if x = ref then some { p with pool := (p.pool.step now worker event).1 } else r.policy? x :=
  policy?_set hp (by simp [step, withPool_of_policy _ hp, setPolicy])

theorem policy?_lt (hp : r.policy? ref = some p) : ref < r.policies.length :=
  (List.getElem?_eq_some_iff.mp hp).1

end

-- ---------------------------------------------------------------------------
-- Moves
-- ---------------------------------------------------------------------------

/-- What can become of the policies and the map, if pools go on by `R`. -/
inductive Move (R : Pool → Pool → Prop) (r s : Registry) : Prop
  | quiet (hp : s.policies = r.policies) (hc : s.current = r.current)
  | created (key : String) (transport : Option TransportRef) (hl : r.lookup? key = none)
    (hp : s.policies = r.policies ++ [{ pool := { key, transport } }])
    (hc : s.current = r.current ++ [(key, r.policies.length)])
  /-- One policy's pool goes on. Its table gains a worker only if the policy is not retired and the
  table was empty. -/
  | served (ref : PolicyRef) (p : Policy) (q : Pool) (hr : r.policy? ref = some p)
    (hq : ReflTransGen R p.pool q)
    (hfit : q.table.length ≤ p.pool.table.length ∨ p.retired = false ∧ q.table.length ≤ 1)
    (hp : s.policies = r.policies.set ref { p with pool := q }) (hc : s.current = r.current)
  | dropped (key : String) (ref : PolicyRef) (p : Policy) (hl : r.lookup? key = some ref)
    (hr : r.policy? ref = some p) (hempty : p.pool.table = [])
    (hp : s.policies = r.policies.set ref { p with retired := true })
    (hc : s.current = r.current.filter (·.1 ≠ key))

theorem Move.mono {R S : Pool → Pool → Prop} {r s : Registry} (hR : ∀ p q, R p q → S p q)
    (h : Move R r s) : Move S r s := by
  cases h with
  | quiet hp hc => exact .quiet hp hc
  | created key transport hl hp hc => exact .created key transport hl hp hc
  | served ref p q hr hq hfit hp hc => exact .served ref p q hr (hq.lift id hR) hfit hp hc
  | dropped key ref p hl hr hempty hp hc => exact .dropped key ref p hl hr hempty hp hc

theorem policyFor_move (r : Registry) (key : String) : Move Pool.Own r (r.policyFor key).1 := by
  unfold policyFor
  split
  · exact .quiet rfl rfl
  · next hl => exact .created key _ hl rfl rfl

theorem admissionAt_move (r : Registry) (ref : PolicyRef) (app : AppSpec) (url : Option String)
    (id : String) : Move Pool.Own r (r.admissionAt ref app url id).1 := by
  unfold admissionAt
  cases hp : r.policy? ref with
  | none => exact .quiet rfl rfl
  | some p =>
    have hsame : Move Pool.Own r (r.setPolicy ref p) :=
      .served ref p p.pool hp .refl (.inl (Nat.le_refl _)) rfl rfl
    simp only [Policy.admission]
    split
    · exact hsame
    · next hretired =>
      split
      · next hfirst =>
        refine .served ref p _ hp (.single (.spawn app id []))
          (.inr ⟨by simpa using hretired, ?_⟩) rfl rfl
        have hnil : p.pool.table = [] := by simpa [Pool.first?] using hfirst
        simp [Pool.spawn, hnil]
      · split <;> exact hsame

theorem withPool_move {R : Pool → Pool → Prop} (r : Registry) (ref : PolicyRef)
    (step : Pool → Pool × List Pool.Act) (hnext : ∀ p, ReflTransGen R p (step p).1)
    (hfit : ∀ p, (step p).1.table.length ≤ p.table.length) : Move R r (r.withPool ref step).1 := by
  cases hp : r.policy? ref with
  | none => exact .quiet (by rw [withPool_of_none step hp]) (by rw [withPool_of_none step hp])
  | some p =>
    refine .served ref p _ hp (hnext p.pool) (.inl (hfit p.pool)) ?_ ?_ <;>
      simp [withPool_of_policy step hp, setPolicy]

theorem step_move (r : Registry) (now : Time) (ref : PolicyRef) (worker : WorkerRef)
    (event : Worker.Event) : Move Pool.Next r (r.step now ref worker event).1 :=
  withPool_move r ref _ (fun _ => .single (.step now worker event))
    fun p => (p.step_table now worker event).length_le

theorem step_move_calm (r : Registry) (now : Time) (ref : PolicyRef) (worker : WorkerRef)
    (event : Worker.Event) (h : ∀ kind, event ≠ .acquire kind) :
    Move Pool.Calm r (r.step now ref worker event).1 :=
  withPool_move r ref _ (fun _ => .single (.step now worker event h))
    fun p => (p.step_table now worker event).length_le

theorem readVacancy_move (r : Registry) : Move Pool.Own r r.readVacancy := by
  unfold readVacancy
  split
  · exact .quiet rfl rfl
  · next key rest hv =>
    simp only
    split
    · exact .quiet rfl rfl
    · next ref hl =>
      split
      · exact .quiet rfl rfl
      · next p hp =>
        simp only [Policy.retireIfVacant]
        split
        · next hsize =>
          exact .dropped key ref p hl hp (List.eq_nil_of_length_eq_zero hsize) rfl rfl
        · exact .quiet rfl rfl

theorem setTransport_moves (r : Registry) (transport : TransportRef) :
    ReflTransGen (Move Pool.Own) r (r.setTransport transport) := by
  refine List.foldlRecOn (motive := ReflTransGen (Move Pool.Own) r) r.current _
    (.single (.quiet rfl rfl)) ?_
  intro s hs c _
  split
  · exact hs
  · next p hp =>
    exact hs.tail
      (.served c.2 p _ hp (.single (.setTransport transport)) (.inl (Nat.le_refl _)) rfl rfl)

theorem shutdown_moves (r : Registry) (now : Time) :
    ReflTransGen (Move Pool.Own) r (r.shutdown now).1 := by
  refine List.foldlRecOn
    (motive := fun s : Registry × List Act => ReflTransGen (Move Pool.Own) r s.1)
    r.current _ .refl ?_
  intro s hs c _
  exact hs.tail (withPool_move s.1 c.2 _ (fun p => p.shutdown_own now)
    fun p => (p.shutdown_table now).length_le)

theorem Next.moves {r s : Registry} (h : Next r s) : ReflTransGen (Move Pool.Next) r s := by
  have hmono : ∀ a b, Move Pool.Own a b → Move Pool.Next a b :=
    fun _ _ => Move.mono fun _ _ hown => hown.calm.next
  cases h with
  | lookup key => exact .single (hmono _ _ (policyFor_move r key))
  | admission ref app url id => exact .single (hmono _ _ (admissionAt_move r ref app url id))
  | step now ref worker event => exact .single (step_move r now ref worker event)
  | readVacancy => exact .single (hmono _ _ (readVacancy_move r))
  | setTransport transport => exact (setTransport_moves r transport).lift id hmono
  | shutdown now => exact (shutdown_moves r now).lift id hmono

theorem run_moves {r s : Registry} (h : ReflTransGen Next r s) :
    ReflTransGen (Move Pool.Next) r s := by
  induction h with
  | refl => exact .refl
  | tail _ hstep ih => exact ih.trans hstep.moves

theorem advance_moves (r : Registry) (app : AppSpec) (url : Option String) (id : String)
    (q : Request) : ReflTransGen (Move Pool.Own) r (r.advance app url id q).1 := by
  cases q with
  | seeking => exact .single (policyFor_move r app.key)
  | found ref =>
    simp only [advance]
    split <;> exact .single (admissionAt_move r ref app url id)
  | answered => exact .refl

-- ---------------------------------------------------------------------------
-- What policies keep
-- ---------------------------------------------------------------------------

theorem Move.keeps {r s : Registry} (h : Move Pool.Next r s) (hp : r.policy? a = some p) :
    ∃ q, s.policy? a = some q ∧ q.pool.key = p.pool.key ∧
      (p.retired = true → q.retired = true) := by
  cases h with
  | quiet hs => exact ⟨p, by rw [policy?, hs]; exact hp, rfl, id⟩
  | created _ _ _ hs =>
    exact ⟨p, by rw [policy?_append hs, if_neg (Nat.ne_of_lt (policy?_lt hp)), hp], rfl, id⟩
  | served b v q hv hq _ hs =>
    rw [policy?_set hv hs]
    split
    · next hab =>
      subst hab
      obtain rfl : p = v := by simpa [hp] using hv
      exact ⟨_, rfl, Pool.run_key hq, id⟩
    · exact ⟨p, hp, rfl, id⟩
  | dropped _ b v _ hv _ hs =>
    rw [policy?_set hv hs]
    split
    · next hab =>
      subst hab
      obtain rfl : p = v := by simpa [hp] using hv
      exact ⟨_, rfl, rfl, fun _ => rfl⟩
    · exact ⟨p, hp, rfl, id⟩

theorem run_keeps {r s : Registry} (h : ReflTransGen Next r s) (hp : r.policy? a = some p) :
    ∃ q, s.policy? a = some q ∧ q.pool.key = p.pool.key ∧
      (p.retired = true → q.retired = true) := by
  have hmoves := run_moves h
  clear h
  induction hmoves with
  | refl => exact ⟨p, hp, rfl, id⟩
  | tail _ hmove ih =>
    obtain ⟨q, hq, hkey, hq'⟩ := ih
    obtain ⟨v, hv, hvkey, hv'⟩ := hmove.keeps hq
    exact ⟨v, hv, hvkey.trans hkey, hv' ∘ hq'⟩

-- ---------------------------------------------------------------------------
-- Soundness
-- ---------------------------------------------------------------------------

structure Sound (r : Registry) : Prop where
  policies : ∀ ref p, r.policy? ref = some p → p.Sound
  current : ∀ key ref, r.lookup? key = some ref →
    ∃ p, r.policy? ref = some p ∧ p.pool.key = key ∧ p.retired = false
  live : ∀ ref p, r.policy? ref = some p → p.retired = false → r.lookup? p.pool.key = some ref

variable {r s : Registry}

theorem lookup?_append (hc : s.current = r.current ++ [(key, ref)]) :
    s.lookup? k = (r.lookup? k).or (if k = key then some ref else none) := by
  simp only [lookup?, hc, List.lookup_append]
  by_cases hk : k = key
  · simp [hk]
  · simp [List.lookup_cons, hk, beq_false_of_ne hk]

theorem lookup?_filter (hc : s.current = r.current.filter (·.1 ≠ key)) :
    s.lookup? k = if k = key then none else r.lookup? k := by
  simp only [lookup?, hc]
  induction r.current with
  | nil => simp
  | cons c cs ih =>
    obtain ⟨a, ref⟩ := c
    by_cases ha : a = key
    · rw [List.filter_cons_of_neg (by simp [ha]), ih]
      split
      · rfl
      · next hk => simp [List.lookup_cons, beq_false_of_ne (ha ▸ hk)]
    · rw [List.filter_cons_of_pos (by simp [ha])]
      by_cases hk : k = a
      · simp [hk, ha]
      · simp only [List.lookup_cons, beq_false_of_ne hk, ih]

theorem Sound.created {transport : Option TransportRef} (hr : r.Sound) (hl : r.lookup? key = none)
    (hp : s.policies = r.policies ++ [{ pool := { key, transport } }])
    (hc : s.current = r.current ++ [(key, r.policies.length)]) : s.Sound := by
  have hpolicy := fun x => policy?_append (x := x) hp
  have hlookup := fun k => lookup?_append (k := k) hc
  constructor
  · intro ref p h
    rw [hpolicy] at h
    split at h
    · cases h
      exact Policy.sound_new key transport
    · exact hr.policies ref p h
  · intro k ref h
    rw [hlookup] at h
    cases hk : r.lookup? k with
    | some x =>
      obtain rfl : x = ref := by simpa [hk] using h
      obtain ⟨p, hp, hrest⟩ := hr.current k x hk
      exact ⟨p, by rw [hpolicy, if_neg (Nat.ne_of_lt (policy?_lt hp)), hp], hrest⟩
    | none =>
      obtain ⟨rfl, rfl⟩ : k = key ∧ r.policies.length = ref := by simpa [hk] using h
      exact ⟨_, by rw [hpolicy, if_pos rfl], rfl, rfl⟩
  · intro ref p h hlive
    rw [hpolicy] at h
    rw [hlookup]
    split at h
    · next href =>
      cases h
      simp [hl, href]
    · simp [hr.live ref p h hlive]

theorem Sound.served (hr : r.Sound) (hp : r.policy? ref = some p)
    (hq : ReflTransGen Pool.Next p.pool q)
    (hfit : q.table.length ≤ p.pool.table.length ∨ p.retired = false ∧ q.table.length ≤ 1)
    (hs : s.policies = r.policies.set ref { p with pool := q }) (hc : s.current = r.current) :
    s.Sound := by
  have hpolicy := fun x => policy?_set (x := x) hp hs
  have hlookup : s.lookup? = r.lookup? := by
    funext k
    simp [lookup?, hc]
  have hkey : q.key = p.pool.key := Pool.run_key hq
  constructor
  · intro x v h
    rw [hpolicy] at h
    split at h
    · cases h
      exact (hr.policies ref p hp).serve hq hfit
    · exact hr.policies x v h
  · intro k x h
    rw [hlookup] at h
    obtain ⟨v, hv, hk, hlive⟩ := hr.current k x h
    by_cases hx : x = ref
    · subst hx
      obtain rfl : p = v := by simpa [hp] using hv
      exact ⟨{ p with pool := q }, by rw [hpolicy, if_pos rfl], hkey.trans hk, hlive⟩
    · exact ⟨v, by rw [hpolicy, if_neg hx, hv], hk, hlive⟩
  · intro x v h hlive
    rw [hpolicy] at h
    rw [hlookup]
    split at h
    · next hx =>
      cases h
      subst hx
      exact hkey ▸ hr.live x p hp hlive
    · exact hr.live x v h hlive

theorem Sound.dropped (hr : r.Sound) (hl : r.lookup? key = some ref) (hp : r.policy? ref = some p)
    (hempty : p.pool.table = []) (hs : s.policies = r.policies.set ref { p with retired := true })
    (hc : s.current = r.current.filter (·.1 ≠ key)) : s.Sound := by
  have hpolicy := fun x => policy?_set (x := x) hp hs
  have hlookup := fun k => lookup?_filter (k := k) hc
  have hkey : p.pool.key = key := by
    obtain ⟨v, hv, hk, -⟩ := hr.current key ref hl
    obtain rfl : p = v := by simpa [hp] using hv
    exact hk
  constructor
  · intro x v h
    rw [hpolicy] at h
    split at h
    · cases h
      have hsound := hr.policies ref p hp
      exact ⟨hsound.pool, hsound.single, fun _ => hempty⟩
    · exact hr.policies x v h
  · intro k x h
    rw [hlookup] at h
    split at h
    · cases h
    · next hk =>
      obtain ⟨v, hv, hvk, hlive⟩ := hr.current k x h
      refine ⟨v, ?_, hvk, hlive⟩
      -- The dropped policy had another key.
      rw [hpolicy, if_neg, hv]
      rintro rfl
      obtain rfl : p = v := by simpa [hp] using hv
      exact hk (hvk.symm.trans hkey)
  · intro x v h hlive
    rw [hpolicy] at h
    rw [hlookup]
    split at h
    · cases h
      cases hlive
    · next hx =>
      have hcur := hr.live x v h hlive
      rw [if_neg, hcur]
      intro hk
      rw [hk, hl] at hcur
      exact hx (Option.some.inj hcur).symm

theorem Move.sound (h : Move Pool.Next r s) (hr : r.Sound) : s.Sound := by
  cases h with
  | quiet hp hc =>
    have hpolicy : s.policy? = r.policy? := by
      funext x
      simp [policy?, hp]
    have hlookup : s.lookup? = r.lookup? := by
      funext k
      simp [lookup?, hc]
    constructor
    · exact hpolicy ▸ hr.policies
    · rw [hpolicy, hlookup]
      exact hr.current
    · rw [hpolicy, hlookup]
      exact hr.live
  | created key transport hl hp hc => exact hr.created hl hp hc
  | served ref p q hp hq hfit hs hc => exact hr.served hp hq hfit hs hc
  | dropped key ref p hl hp hempty hs hc => exact hr.dropped hl hp hempty hs hc

theorem moves_sound (h : ReflTransGen (Move Pool.Next) r s) (hr : r.Sound) : s.Sound := by
  induction h with
  | refl => exact hr
  | tail _ hmove ih => exact hmove.sound ih

theorem Reachable.sound (h : r.Reachable) : r.Sound := by
  obtain ⟨transport, hr⟩ := h
  refine moves_sound (run_moves hr) ?_
  constructor <;> simp [policy?, lookup?]

theorem Reachable.pool {p : Policy} (h : r.Reachable) (hp : r.policy? a = some p) :
    p.pool.Reachable := by
  obtain ⟨transport, hr⟩ := h
  have hmoves := run_moves hr
  clear hr
  induction hmoves generalizing a p with
  | refl => simp [policy?] at hp
  | @tail r _ _ hmove ih =>
    cases hmove with
    | quiet hs => exact ih (by rwa [policy?, hs] at hp)
    | created key transport _ hs =>
      rw [policy?_append hs] at hp
      split at hp
      · cases hp
        exact ⟨key, transport, .refl⟩
      · exact ih hp
    | served b v q hv hq _ hs =>
      rw [policy?_set hv hs] at hp
      split at hp
      · cases hp
        exact (ih hv).trans hq
      · exact ih hp
    | dropped _ b v _ hv _ hs =>
      rw [policy?_set hv hs] at hp
      split at hp
      · cases hp
        exact ih (p := v) hv
      · exact ih hp

/-- What every event keeps of a worker is kept of a policy's worker, whatever happens to the
registry. -/
theorem Move.worker_kept {P : Worker → Prop} (hstep : ∀ w now e, w.Sound → P w → P (w.step now e).1)
    (h : Move Pool.Next r s) (hr : r.Sound) (hw : r.worker? a i = some w) (hP : P w) :
    ∃ v, s.worker? a i = some v ∧ P v := by
  obtain ⟨p, hp, hw⟩ := Option.bind_eq_some_iff.mp hw
  suffices hs : ∃ q v, s.policy? a = some q ∧ q.pool.worker? i = some v ∧ P v by
    obtain ⟨q, v, hq, hv, hPv⟩ := hs
    exact ⟨v, Option.bind_eq_some_iff.mpr ⟨q, hq, hv⟩, hPv⟩
  cases h with
  | quiet hs => exact ⟨p, w, by rw [policy?, hs]; exact hp, hw, hP⟩
  | created _ _ _ hs =>
    exact ⟨p, w, by rw [policy?_append hs, if_neg (Nat.ne_of_lt (policy?_lt hp)), hp], hw, hP⟩
  | served b u q hu hq _ hs =>
    rw [policy?_set hu hs]
    split
    · next hab =>
      subst hab
      obtain rfl : p = u := by simpa [hp] using hu
      obtain ⟨v, hv, hPv⟩ := Pool.worker_kept hstep (hr.policies a p hp).pool hq hw hP
      exact ⟨_, v, rfl, hv, hPv⟩
    · exact ⟨p, w, hp, hw, hP⟩
  | dropped _ b u _ hu _ hs =>
    rw [policy?_set hu hs]
    split
    · next hab =>
      subst hab
      obtain rfl : p = u := by simpa [hp] using hu
      exact ⟨_, w, rfl, hw, hP⟩
    · exact ⟨p, w, hp, hw, hP⟩

theorem worker_kept {P : Worker → Prop} (hstep : ∀ w now e, w.Sound → P w → P (w.step now e).1)
    (hr : r.Sound) (h : ReflTransGen Next r s) (hw : r.worker? a i = some w) (hP : P w) :
    ∃ v, s.worker? a i = some v ∧ P v := by
  have hmoves := run_moves h
  clear h
  induction hmoves with
  | refl => exact ⟨w, hw, hP⟩
  | tail hb hmove ih =>
    obtain ⟨v, hv, hPv⟩ := ih
    exact hmove.worker_kept hstep (moves_sound hb hr) hv hPv

-- ---------------------------------------------------------------------------
-- What all workers are like
-- ---------------------------------------------------------------------------

def All (P : PolicyRef → WorkerRef → Worker → Prop) (r : Registry) : Prop :=
  ∀ a p, r.policy? a = some p → p.pool.All (P a)

section
variable {P : PolicyRef → WorkerRef → Worker → Prop}

theorem All.worker (hr : r.All P) (hw : r.worker? a i = some w) : P a i w := by
  obtain ⟨p, hp, hw⟩ := Option.bind_eq_some_iff.mp hw
  exact hr a p hp i w hw

theorem All.mono {Q : PolicyRef → WorkerRef → Worker → Prop} (hr : r.All P)
    (h : ∀ a i w, P a i w → Q a i w) : r.All Q :=
  fun a p hp i w hw => h a i w (hr a p hp i w hw)

theorem Move.all {R : Pool → Pool → Prop} (hR : ∀ a p q, R p q → p.All (P a) → q.All (P a))
    (h : Move R r s) (hr : r.All P) : s.All P := by
  intro a p hp
  cases h with
  | quiet hs =>
    rw [policy?, hs] at hp
    exact hr a p hp
  | created key transport _ hs =>
    rw [policy?_append hs] at hp
    split at hp
    · cases hp
      exact fun i w hw => by simp [Pool.worker?] at hw
    · exact hr a p hp
  | served b v q hv hq _ hs =>
    rw [policy?_set hv hs] at hp
    split at hp
    · next hab =>
      cases hp
      refine hq.rec ?_ fun _ hstep ih => hR a _ _ hstep ih
      exact hr a v (hab ▸ hv)
    · exact hr a p hp
  | dropped _ b v _ hv _ hs =>
    rw [policy?_set hv hs] at hp
    split at hp
    · next hab =>
      cases hp
      exact hr a v (hab ▸ hv)
    · exact hr a p hp

theorem All.step (hr : r.All P) (now : Time) (a : PolicyRef) (i : WorkerRef) {e : Worker.Event}
    (hstep : ∀ w, r.worker? a i = some w → P a i w → P a i (w.step now e).1) :
    (r.step now a i e).1.All P := by
  cases hp : r.policy? a with
  | none =>
    rw [Registry.step, withPool_of_none _ hp]
    exact hr
  | some p =>
    intro b q hq
    rw [policy?_step now i e hp] at hq
    split at hq
    · next hb =>
      cases hq
      rw [hb]
      exact (hr a p hp).step now i fun w hw => hstep w (Option.bind_eq_some_iff.mpr ⟨p, hp, hw⟩)
    · exact hr b q hq

end

end Registry

end AppHost
