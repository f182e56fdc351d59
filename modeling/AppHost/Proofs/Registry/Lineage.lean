import AppHost.Proofs.Pool.Succession
import AppHost.Proofs.Registry.Trace

/-!
# The policies of one key in succession

A policy is dropped when its pool's table is empty and another is created when it is wanted again.
Whoever watches the workers sees none of this: numbered through all policies they are those of one
pool that is never dropped, the key's `lineage`.
-/

namespace AppHost

theorem Worker.step_told {w : Worker} (hw : w.stage ≠ .queued) (now : Time) (event : Worker.Event)
    (via via' : Option TransportRef) :
    w.step now (event.told via) = w.step now (event.told via') := by
  cases event with
  | begin => cases hs : w.stage <;> simp_all [Worker.Event.told, Worker.step]
  | _ => rfl

namespace Registry

def workersOf (policies : List Policy) : List Worker := policies.flatMap (·.pool.workers)

def number (r : Registry) (ref : PolicyRef) (worker : WorkerRef) : WorkerRef :=
  (workersOf (r.policies.take ref)).length + worker

/-- The pool of all workers that a registry of this key ever had. Those in the table are in that of
the registered policy. -/
def lineage (r : Registry) (k : String) : Pool where
  key := k
  transport := r.transport
  workers := workersOf r.policies
  table :=
    match r.lookup? k with
    | none => []
    | some ref => ((r.policy? ref).map fun p => p.pool.table.map (r.number ref)).getD []

/-- The policies that were retired, and the pool of the one in service, if there is one. -/
structure Line (r : Registry) (k : String) (old : List Policy) (live : Option Pool) : Prop where
  policies : r.policies = old ++ (live.map fun p => { pool := p }).toList
  current : r.current = (live.map fun _ => (k, old.length)).toList
  retired : ∀ p ∈ old, p.retired = true
  transport : ∀ p ∈ live, p.transport = r.transport

/-- A registry that has nothing but this key's policies and reports. -/
structure Sole (r : Registry) (k : String) : Prop where
  key : ∀ p ∈ r.policies, p.pool.key = k
  vacancies : ∀ key ∈ r.vacancies, key = k
  sound : ∀ p ∈ r.policies, p.Sound

theorem sole_only {t : Registry} (h : t.Sound) (k : String) : (t.only k).Sole k where
  key p hp := of_decide_eq_true (List.mem_filter.mp hp).2
  vacancies key hv := of_decide_eq_true (List.mem_filter.mp hv).2
  sound p hp := by
    obtain ⟨ref, hp⟩ := List.mem_iff_getElem?.mp (List.mem_filter.mp hp).1
    exact h.policies ref p hp

/-- What is asked, of the workers as they are counted through all policies. -/
def numbered (r : Registry) (acts : List Act) : List Act :=
  acts.map fun a => ⟨0, r.number a.policy a.worker, a.act⟩

variable {r s : Registry} {k : String} {old : List Policy} {live : Option Pool} {p : Pool}
  {v : Policy} {ref : PolicyRef}

theorem Line.policy?_live (h : r.Line k old (some p)) :
    r.policy? old.length = some { pool := p } := by
  simp [policy?, h.policies]

theorem Line.policy?_old (h : r.Line k old live) (hv : old[ref]? = some v) :
    r.policy? ref = some v := by
  rw [policy?, h.policies, List.getElem?_append_left (List.getElem?_eq_some_iff.mp hv).1, hv]

theorem Line.cases (h : r.Line k old live) (hv : r.policy? ref = some v) :
    old[ref]? = some v ∨ ∃ p, live = some p ∧ ref = old.length ∧ v = { pool := p } := by
  rw [policy?, h.policies] at hv
  rcases Nat.lt_or_ge ref old.length with hlt | hge
  · exact .inl (by rwa [List.getElem?_append_left hlt] at hv)
  · rw [List.getElem?_append_right hge] at hv
    cases live with
    | none => simp at hv
    | some p =>
      obtain ⟨hzero, heq⟩ : ref - old.length = 0 ∧ v = { pool := p } := by
        cases hi : ref - old.length with
        | zero => simp_all
        | succ i => simp [hi] at hv
      exact .inr ⟨p, rfl, Nat.le_antisymm (Nat.le_of_sub_eq_zero hzero) hge, heq⟩

theorem Line.lookup? (h : r.Line k old live) : r.lookup? k = live.map fun _ => old.length := by
  cases live <;> simp [Registry.lookup?, h.current]

theorem Line.number_live (h : r.Line k old live) (worker : WorkerRef) :
    r.number old.length worker = (workersOf old).length + worker := by
  simp [number, h.policies]

theorem Line.lineage_eq (h : r.Line k old live) (hkey : ∀ p ∈ live, p.key = k) :
    r.lineage k = (live.getD { key := k, transport := r.transport }).after (workersOf old) := by
  cases live with
  | none => simp [lineage, h.lookup?, h.policies, Pool.after]
  | some p =>
    obtain rfl : p.key = k := hkey p rfl
    have hnumber : r.number old.length = fun worker => (workersOf old).length + worker :=
      funext h.number_live
    have htransport : r.transport = p.transport := (h.transport p rfl).symm
    simp only [lineage, h.lookup?, Option.map_some, h.policy?_live, Option.getD_some,
      hnumber, htransport]
    simp [Pool.after, workersOf, h.policies]

theorem Line.key (h : r.Line k old live) (hr : r.Sole k) : ∀ p ∈ live, p.key = k := fun p hp => by
  obtain rfl : live = some p := hp
  exact hr.key { pool := p } (by simp [h.policies])

-- ---------------------------------------------------------------------------
-- Going on
-- ---------------------------------------------------------------------------

theorem Line.set_live (h : r.Line k old (some p))
    (hs : s.policies = r.policies.set old.length { pool := q }) (hc : s.current = r.current)
    (ht : q.transport = s.transport) : s.Line k old (some q) where
  policies := by simp [hs, h.policies]
  current := by rw [hc, h.current]; rfl
  retired := h.retired
  transport _ hp := Option.some.inj hp ▸ ht

theorem Line.set_old (h : r.Line k old live) (hv : old[ref]? = some v) (hq : q.retired = true)
    (hs : s.policies = r.policies.set ref q) (hc : s.current = r.current)
    (ht : s.transport = r.transport) : s.Line k (old.set ref q) live where
  policies := by rw [hs, h.policies, List.set_append_left _ _ (List.getElem?_eq_some_iff.mp hv).1]
  current := by rw [hc, h.current, List.length_set]
  retired x hx := by
    rcases List.mem_or_eq_of_mem_set hx with hx | rfl
    · exact h.retired x hx
    · exact hq
  transport x hx := (h.transport x hx).trans ht.symm

theorem Line.drop (h : r.Line k old (some p))
    (hs : s.policies = r.policies.set old.length { pool := p, retired := true })
    (hc : s.current = r.current.filter (·.1 ≠ k)) :
    s.Line k (old ++ [{ pool := p, retired := true }]) none where
  policies := by simp [hs, h.policies]
  current := by simp [hc, h.current]
  retired x hx := by
    rcases List.mem_append.mp hx with hx | hx
    · exact h.retired x hx
    · rw [List.mem_singleton.mp hx]
  transport := by simp

def widths (policies : List Policy) : List Nat := policies.map (·.pool.workers.length)

theorem length_workersOf {l m : List Policy} (h : widths l = widths m) :
    (workersOf l).length = (workersOf m).length := by
  rw [workersOf, workersOf, List.length_flatMap, List.length_flatMap]
  exact congrArg List.sum h

theorem workersOf_set (policies : List Policy) (hv : policies[ref]? = some v) {w x : Worker}
    (hw : v.pool.worker? i = some w) (hq : q.pool.workers = v.pool.workers.set i x) :
    (workersOf policies)[(workersOf (policies.take ref)).length + i]? = some w ∧
      workersOf (policies.set ref q) =
      (workersOf policies).set ((workersOf (policies.take ref)).length + i) x := by
  have hi : i < v.pool.workers.length := (List.getElem?_eq_some_iff.mp hw).1
  induction policies generalizing ref with
  | nil => cases hv
  | cons y policies ih =>
    cases ref with
    | zero =>
      cases hv
      simp only [workersOf, List.take_zero, List.flatMap_nil, List.length_nil, Nat.zero_add,
        List.set_cons_zero, List.flatMap_cons, hq, List.getElem?_append_left hi,
        List.set_append_left _ _ hi, and_true]
      exact hw
    | succ ref =>
      obtain ⟨hget, hset⟩ := ih hv
      simp only [workersOf, List.take_succ_cons, List.set_cons_succ, List.flatMap_cons,
        List.length_append, Nat.add_assoc] at hget hset ⊢
      rw [List.getElem?_append_right (Nat.le_add_right ..),
        List.set_append_right _ _ (Nat.le_add_right ..), Nat.add_sub_cancel_left, hset]
      exact ⟨hget, rfl⟩

/-- The line goes on with this lineage, and none of the workers is numbered anew. -/
def Continues (s : Registry) (k : String) (old : List Policy) (lineage : Pool) : Prop :=
  ∃ old' live, s.Line k old' live ∧ widths old <+: widths old' ∧ s.lineage k = lineage

theorem Continues.line (hs : s.Continues k old P) : ∃ old' live, s.Line k old' live := by
  obtain ⟨old', live, hline, -⟩ := hs
  exact ⟨old', live, hline⟩

theorem Continues.number (h : r.Line k old live) (hs : s.Continues k old P)
    (href : ref ≤ old.length) : s.number ref = r.number ref := by
  obtain ⟨old', live', hs, hwidths, -⟩ := hs
  have hlength : old.length ≤ old'.length := by simpa [widths] using hwidths.length_le
  obtain ⟨rest, hrest⟩ := hwidths
  have hwidths : widths (old'.take ref) = widths (old.take ref) := by
    rw [widths, List.map_take, ← widths, ← hrest,
      List.take_append_of_le_length (by simpa [widths] using href), widths, widths, List.map_take]
  funext worker
  simp only [Registry.number, h.policies, hs.policies, List.take_append_of_le_length href,
    List.take_append_of_le_length (Nat.le_trans href hlength), length_workersOf hwidths]

theorem Line.same (h : r.Line k old live) : r.Continues k old (r.lineage k) :=
  ⟨old, live, h, List.prefix_refl _, rfl⟩

-- ---------------------------------------------------------------------------
-- Requests
-- ---------------------------------------------------------------------------

theorem Line.policyFor (h : r.Line k old live) :
    (r.policyFor k).1.Continues k old (r.lineage k) := by
  have hlookup := h.lookup?
  unfold Registry.policyFor
  cases live with
  | some p =>
    simp only [hlookup, Option.map_some]
    exact h.same
  | none =>
    simp only [hlookup, Option.map_none]
    have hline : Line { r with
        policies := r.policies ++ [{ pool := { key := k, transport := r.transport } }]
        current := r.current ++ [(k, r.policies.length)] } k old
        (some { key := k, transport := r.transport }) :=
      ⟨by simp [h.policies], by simp [h.current, h.policies], h.retired, by simp⟩
    refine ⟨old, _, hline, List.prefix_refl _, ?_⟩
    rw [hline.lineage_eq (by simp), h.lineage_eq (by simp)]
    rfl

theorem admissionAt_retired (hnot : ∀ p, r.policy? ref = some p → p.retired = true) (app : AppSpec)
    (url : Option String) (id : String) :
    r.admissionAt ref app url id = (r, .error .retired) := by
  cases hv : r.policy? ref with
  | none => simp [admissionAt, hv]
  | some v => simp [admissionAt_of_policy hv, Policy.admission, hnot v hv, setPolicy_self hv]

theorem Line.admissionAt (h : r.Line k old (some p)) (hkey : p.key = k) (app : AppSpec)
    (url : Option String) (id : String) :
    (r.admissionAt old.length app url id).1.Continues k old
        (({ pool := r.lineage k } : Policy).admission app url id).1.pool ∧
      (r.admissionAt old.length app url id).2 ≠ .error .retired ∧
      (r.admissionAt old.length app url id).2.map (r.number old.length) =
        (({ pool := r.lineage k } : Policy).admission app url id).2 := by
  have hnumber : r.number old.length = fun worker => (workersOf old).length + worker :=
    funext h.number_live
  obtain ⟨hlive, htransport, hanswer⟩ := Policy.admission_live p app url id
  have hkept : (({ pool := p } : Policy).admission app url id).1.pool.key = k :=
    (admission_key { pool := p } app url id).trans hkey
  rw [admissionAt_of_policy h.policy?_live, h.lineage_eq (by simpa using hkey), hnumber,
    Option.getD_some, Policy.after_admission]
  refine ⟨?_, hanswer, rfl⟩
  have hline : (r.setPolicy old.length (({ pool := p } : Policy).admission app url id).1).Line k old
      (some (({ pool := p } : Policy).admission app url id).1.pool) :=
    h.set_live (by rw [← hlive]; rfl) rfl (htransport.trans (h.transport p rfl))
  exact ⟨old, _, hline, List.prefix_refl _, hline.lineage_eq (by simpa using hkept)⟩

-- ---------------------------------------------------------------------------
-- Workers
-- ---------------------------------------------------------------------------

/-- Whoever was in a policy that was retired is not waiting to begin. -/
theorem begun_of_retired {w : Worker} (hv : v.Sound) (hretired : v.retired = true)
    (hw : v.pool.worker? i = some w) : w.stage ≠ .queued := by
  intro hs
  have hopen := ((hv.pool.workers i w hw).early (by rw [hs]; rfl)).2.1
  have hmem := (hv.pool.table i).mpr ⟨w, hw, hopen⟩
  simp [hv.retired hretired] at hmem

theorem numbered_asked (r : Registry) (ref b : PolicyRef) (acts : List Pool.Act) :
    r.numbered (asked ref acts) = (asked b acts).map fun x =>
      ⟨0, r.number ref x.worker, x.act⟩ := by
  induction acts with
  | nil => rfl
  | cons act acts ih => cases act <;> simpa [numbered, asked] using ih

theorem step_of_absent (hw : r.worker? ref i = none) (now : Time) (event : Worker.Event) :
    r.step now ref i event = (r, []) := by
  cases hv : r.policy? ref with
  | none => exact withPool_of_none _ hv
  | some v =>
    have hnone : v.pool.worker? i = none := by simpa [worker?, hv] using hw
    rw [Registry.step, withPool_eq hv, Pool.step_of_none now event hnone, setPolicy_self hv]
    simp [asked]

/-- What the pool in service does alone, the lineage does with its numbers. -/
theorem Line.withPool_live (h : r.Line k old (some p)) (hkey : p.key = k)
    {f g : Pool → Pool × List Pool.Act}
    (hafter : g (p.after (workersOf old)) =
      ((f p).1.after (workersOf old), (f p).2.map (Pool.Act.shift (workersOf old).length)))
    (hstep : (f p).1.key = p.key) (htransport : (f p).1.transport = p.transport) :
    (r.withPool old.length f).1.Continues k old (g (r.lineage k)).1 ∧
      r.numbered (r.withPool old.length f).2 = asked 0 (g (r.lineage k)).2 := by
  rw [withPool_eq h.policy?_live, h.lineage_eq (by simpa using hkey), Option.getD_some, hafter]
  constructor
  · have hline : Line { r.setPolicy old.length { pool := (f p).1 } with
        vacancies := r.vacancies ++ Pool.reported p.key (f p).2 } k old (some (f p).1) :=
      h.set_live rfl rfl (htransport.trans (h.transport p rfl))
    exact ⟨old, _, hline, List.prefix_refl _, hline.lineage_eq (by simpa using hstep.trans hkey)⟩
  · rw [numbered_asked r old.length 0, Pool.asked_shift 0 0]
    simp only [h.number_live]

theorem Line.step_old (h : r.Line k old live) (hkey : ∀ p ∈ live, p.key = k)
    (hv : old[ref]? = some v) {w : Worker} (hw : v.pool.worker? i = some w) (now : Time)
    {event event' : Worker.Event} (hsame : w.step now event = w.step now event') :
    (r.step now ref i event).1.Continues k old ((r.lineage k).step now (r.number ref i) event').1 ∧
      r.numbered (r.step now ref i event).2 =
      asked 0 ((r.lineage k).step now (r.number ref i) event').2 := by
  have hlt : ref < old.length := (List.getElem?_eq_some_iff.mp hv).1
  have hnumber : r.number ref i = (workersOf (old.take ref)).length + i := by
    rw [number, h.policies, List.take_append_of_le_length (Nat.le_of_lt hlt)]
  have hworkers : (v.pool.step now i event).1.workers =
      v.pool.workers.set i (w.step now event).1 := by
    simp [Pool.step_of_worker now event hw]
  obtain ⟨hget, hset⟩ :=
    workersOf_set old hv hw (q := { v with pool := (v.pool.step now i event).1 }) hworkers
  rw [Registry.step, withPool_eq (h.policy?_old hv), h.lineage_eq hkey, hnumber]
  constructor
  · have hline : Line { r.setPolicy ref { v with pool := (v.pool.step now i event).1 } with
        vacancies := r.vacancies ++ Pool.reported v.pool.key (v.pool.step now i event).2 } k
        (old.set ref { v with pool := (v.pool.step now i event).1 }) live :=
      h.set_old hv (h.retired v (List.mem_of_getElem? hv)) rfl rfl rfl
    refine ⟨_, live, hline, ?_, ?_⟩
    · have hwidth : (v.pool.step now i event).1.workers.length = v.pool.workers.length := by
        rw [hworkers, List.length_set]
      exact ⟨[], by rw [List.append_nil, widths, widths, map_set_of_eq hv hwidth]⟩
    · rw [hline.lineage_eq hkey, Pool.after_step_earlier _ _ now _ hget, hset, ← hsame]
      rfl
  · have hearlier :=
      Pool.after_worker?_earlier (workersOf old)
        (live.getD { key := k, transport := r.transport }) _ hget
    rw [numbered_asked r ref ref, Pool.asked_step now hw hearlier hsame ref 0, List.map_map,
      Pool.asked_step now hearlier hearlier (Eq.refl (w.step now event')) 0 0,
      ← hnumber, List.map_map]
    rfl

theorem Line.step (h : r.Line k old live) (hr : r.Sole k) (hv : r.policy? ref = some v) {w : Worker}
    (hw : v.pool.worker? i = some w) (now : Time) (event : Worker.Event) :
    (r.step now ref i (event.told v.pool.transport)).1.Continues k old
        ((r.lineage k).step now (r.number ref i) (event.told r.transport)).1 ∧
      r.numbered (r.step now ref i (event.told v.pool.transport)).2 =
        asked 0 ((r.lineage k).step now (r.number ref i) (event.told r.transport)).2 := by
  rcases h.cases hv with hold | ⟨p, rfl, rfl, rfl⟩
  · -- A retired policy is told of no new transport, and none of its workers will ask for one.
    have hsound := hr.sound v (List.mem_of_getElem? hv)
    have hbegun := begun_of_retired hsound (h.retired v (List.mem_of_getElem? hold)) hw
    exact h.step_old (h.key hr) hold hw now (w.step_told hbegun now event _ _)
  · rw [show p.transport = r.transport from h.transport p rfl]
    refine h.withPool_live (h.key hr p rfl) (g := fun q => q.step now (r.number old.length i) _) ?_
      (Pool.step_key now _) (p.step_transport now i _)
    rw [h.number_live, Pool.after_step]

-- ---------------------------------------------------------------------------
-- Reports, transports and shutdowns
-- ---------------------------------------------------------------------------

/-- That a policy is dropped cannot be seen in the lineage. -/
theorem Line.readVacancy (h : r.Line k old live) (hr : r.Sole k) :
    r.readVacancy.Continues k old (r.lineage k) := by
  cases hv : r.vacancies with
  | nil =>
    have hsame : r.readVacancy = r := by simp [Registry.readVacancy, hv]
    rw [hsame]
    exact h.same
  | cons key rest =>
    obtain rfl : key = k := hr.vacancies key (by simp [hv])
    by_cases hdrop : ∃ ref p, r.lookup? key = some ref ∧ r.policy? ref = some p ∧ p.pool.size = 0
    · obtain ⟨ref, v, hl, hp, hsize⟩ := hdrop
      rw [h.lookup?] at hl
      obtain ⟨p, rfl, rfl⟩ := Option.map_eq_some_iff.mp hl
      obtain rfl : { pool := p } = v := Option.some.inj (h.policy?_live.symm.trans hp)
      have htable : p.table = [] := List.eq_nil_of_length_eq_zero hsize
      have hkey : p.key = key := h.key hr p rfl
      have htransport : p.transport = r.transport := h.transport p rfl
      rw [readVacancy_dropped hv (by rw [h.lookup?]; rfl) hp hsize]
      refine ⟨_, none, h.drop rfl rfl, by simp [widths], ?_⟩
      rw [(h.drop rfl rfl).lineage_eq (by simp), h.lineage_eq (h.key hr)]
      simp [Pool.after, htable, workersOf, hkey, htransport]
    · rw [readVacancy_spared hv fun ref p hl hp hsize => hdrop ⟨ref, p, hl, hp, hsize⟩]
      exact ⟨old, live, ⟨h.policies, h.current, h.retired, h.transport⟩, List.prefix_refl _, rfl⟩

theorem Line.setTransport (h : r.Line k old live) (hr : r.Sole k) (transport : TransportRef) :
    (r.setTransport transport).Continues k old
      { r.lineage k with transport := some transport } := by
  have hkey := h.key hr
  cases live with
  | none =>
    have heq : r.setTransport transport = { r with transport := some transport } := by
      simp [Registry.setTransport, h.current]
    have hline : (r.setTransport transport).Line k old none := by
      rw [heq]
      exact ⟨h.policies, h.current, h.retired, by simp⟩
    refine ⟨old, none, hline, List.prefix_refl _, ?_⟩
    rw [hline.lineage_eq hkey, h.lineage_eq hkey, heq]
    rfl
  | some p =>
    have hpolicy : ({ r with transport := some transport } : Registry).policy? old.length =
      some { pool := p } :=
      h.policy?_live
    have heq : r.setTransport transport =
        ({ r with transport := some transport } : Registry).setPolicy old.length
        { pool := { p with transport := some transport } } := by
      unfold Registry.setTransport
      generalize ({ r with transport := some transport } : Registry) = s at hpolicy ⊢
      simp [h.current, hpolicy]
    have hline :
        (r.setTransport transport).Line k old (some { p with transport := some transport }) := by
      rw [heq]
      exact h.set_live rfl rfl rfl
    refine ⟨old, _, hline, List.prefix_refl _, ?_⟩
    rw [hline.lineage_eq fun q hq => Option.some.inj hq ▸ hkey p rfl, h.lineage_eq hkey]
    rfl

theorem Line.shutdown (h : r.Line k old live) (hr : r.Sole k) (now : Time) :
    (r.shutdown now).1.Continues k old ((r.lineage k).shutdown now).1 ∧
      r.numbered (r.shutdown now).2 = asked 0 ((r.lineage k).shutdown now).2 := by
  cases live with
  | none =>
    have heq : r.shutdown now = (r, []) := by simp [Registry.shutdown, h.current]
    have hnone : (r.lineage k).shutdown now = (r.lineage k, []) := by
      rw [h.lineage_eq (h.key hr)]
      rfl
    rw [heq, hnone]
    exact ⟨h.same, rfl⟩
  | some p =>
    have heq : r.shutdown now = r.withPool old.length fun q => q.shutdown now := by
      simp [Registry.shutdown, h.current]
    rw [heq]
    exact h.withPool_live (g := fun q => q.shutdown now) (h.key hr p rfl)
      (Pool.after_shutdown _ p now)
      (shutdown_key p now) (p.shutdown_transport now)

end Registry

end AppHost
