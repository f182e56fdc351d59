import AppHost.Proofs.Pool.Renaming
import AppHost.Proofs.Registry.Trace

/-!
# Renaming a registry

A registry finds policies by their keys and workers by their numbers, so what happens under other
names is what happened, renamed: to a registry, operation by operation, and to a whole run with all
its requests and all that is asked of the world (`Traffic.rename_run`).
-/

namespace AppHost

theorem Worker.Event.rename_told (ρ : Renaming) (via : Option TransportRef) (event : Worker.Event) :
    (event.rename ρ).told via = (event.told via).rename ρ := by
  cases event <;> rfl

namespace Registry

def rename (ρ : Renaming) (r : Registry) : Registry :=
  { r with policies := r.policies.map (Policy.rename ρ) }

def Act.rename (ρ : Renaming) (a : Act) : Act := { a with act := a.act.rename ρ }

def renamed (ρ : Renaming) (s : Registry × List Act) : Registry × List Act :=
  (s.1.rename ρ, s.2.map (Act.rename ρ))

variable (ρ : Renaming) (r : Registry) (ref : PolicyRef) (now : Time)

theorem rename_policy? : (r.rename ρ).policy? ref = (r.policy? ref).map (Policy.rename ρ) :=
  List.getElem?_map ..

theorem rename_worker? (worker : WorkerRef) :
    (r.rename ρ).worker? ref worker = (r.worker? ref worker).map (Worker.rename ρ) := by
  rw [worker?, rename_policy?, worker?]
  cases r.policy? ref with
  | none => rfl
  | some p => exact p.pool.rename_worker? ρ worker

theorem rename_setPolicy (p : Policy) :
    (r.rename ρ).setPolicy ref (p.rename ρ) = (r.setPolicy ref p).rename ρ := by
  simp only [setPolicy, rename, List.map_set]

-- ---------------------------------------------------------------------------
-- Requests
-- ---------------------------------------------------------------------------

theorem rename_policyFor (key : String) :
    (r.rename ρ).policyFor key = ((r.policyFor key).1.rename ρ, (r.policyFor key).2) := by
  have hlookup : (r.rename ρ).lookup? key = r.lookup? key := rfl
  unfold policyFor
  rw [hlookup]
  cases r.lookup? key with
  | some ref => rfl
  | none => simp [rename, Policy.rename, Pool.rename]

theorem rename_admissionAt (app : AppSpec) (url : Option String) (id : String) :
    (r.rename ρ).admissionAt ref app url (ρ.id id) =
      ((r.admissionAt ref app url id).1.rename ρ, (r.admissionAt ref app url id).2) := by
  unfold admissionAt
  rw [rename_policy?]
  cases r.policy? ref with
  | none => rfl
  | some p => simp only [Option.map_some, Policy.rename_admission, rename_setPolicy]

theorem rename_advance (app : AppSpec) (url : Option String) (id : String) (q : Request) :
    (r.rename ρ).advance app url (ρ.id id) q =
      ((r.advance app url id q).1.rename ρ, (r.advance app url id q).2) := by
  cases q with
  | seeking => simp only [advance, rename_policyFor]
  | found ref =>
    simp only [advance, rename_admissionAt]
    split <;> rfl
  | answered => rfl

-- ---------------------------------------------------------------------------
-- Pools
-- ---------------------------------------------------------------------------

theorem rename_asked (acts : List Pool.Act) :
    asked ref (acts.map (Pool.Act.rename ρ)) = (asked ref acts).map (Act.rename ρ) := by
  induction acts with
  | nil => rfl
  | cons act acts ih => cases act <;> simpa [asked, Pool.Act.rename, Act.rename] using ih

theorem rename_reported (key : String) (acts : List Pool.Act) :
    Pool.reported key (acts.map (Pool.Act.rename ρ)) = Pool.reported key acts := by
  induction acts with
  | nil => rfl
  | cons act acts ih => cases act <;> simp [Pool.Act.rename, ih]

theorem rename_withPool {step step' : Pool → Pool × List Pool.Act}
    (hstep : ∀ p, step' (p.rename ρ) = Pool.renamed ρ (step p)) :
    (r.rename ρ).withPool ref step' = renamed ρ (r.withPool ref step) := by
  have hpolicy := rename_policy? ρ r ref
  cases hp : r.policy? ref with
  | none =>
    rw [withPool_of_none step hp, withPool_of_none step' (by rw [hpolicy, hp]; rfl)]
    rfl
  | some p =>
    have hpool : step' (p.rename ρ).pool = Pool.renamed ρ (step p.pool) := hstep p.pool
    rw [withPool_eq hp, withPool_eq (p := p.rename ρ) (by rw [hpolicy, hp]; rfl), hpool]
    simp only [Pool.renamed, renamed, rename_asked, rename_reported, rename,
      setPolicy, List.map_set]
    rfl

theorem rename_step (worker : WorkerRef) (event : Worker.Event) :
    (r.rename ρ).step now ref worker (event.rename ρ) = renamed ρ (r.step now ref worker event) :=
  rename_withPool ρ r ref fun p => p.rename_step ρ now worker event

theorem rename_sweep {step step' : Pool → Pool × List Pool.Act}
    (hstep : ∀ p, step' (p.rename ρ) = Pool.renamed ρ (step p))
    (entries : List (String × PolicyRef)) (s : Registry × List Act) :
    sweep step' entries (renamed ρ s) = renamed ρ (sweep step entries s) := by
  refine List.foldl_hom (renamed ρ) fun s c => ?_
  have hwith := rename_withPool ρ s.1 c.2 hstep
  simp only [renamed] at hwith ⊢
  rw [hwith, List.map_append]

theorem rename_setTransport (transport : TransportRef) :
    (r.rename ρ).setTransport transport = (r.setTransport transport).rename ρ := by
  rw [setTransport_eq, setTransport_eq]
  have hswitch : ∀ p, switch transport (p.rename ρ) = Pool.renamed ρ (switch transport p) :=
    fun _ => rfl
  exact congrArg Prod.fst
    (rename_sweep ρ hswitch r.current ({ r with transport := some transport }, []))

theorem rename_shutdown : (r.rename ρ).shutdown now = renamed ρ (r.shutdown now) :=
  rename_sweep ρ (fun p => p.rename_shutdown ρ now) r.current (r, [])

theorem rename_readVacancy : (r.rename ρ).readVacancy = r.readVacancy.rename ρ := by
  cases hv : r.vacancies with
  | nil => simp [readVacancy, rename, hv]
  | cons key rest =>
    have hv' : (r.rename ρ).vacancies = key :: rest := hv
    by_cases hdrop : ∃ ref p, r.lookup? key = some ref ∧ r.policy? ref = some p ∧ p.pool.size = 0
    · obtain ⟨ref, p, hl, hp, hsize⟩ := hdrop
      rw [readVacancy_dropped hv hl hp hsize, readVacancy_dropped hv' hl (p := p.rename ρ)
        (by rw [rename_policy?, hp]; rfl) hsize]
      simp [rename, List.map_set, Policy.rename]
    · have hspared : ∀ ref p, r.lookup? key = some ref → r.policy? ref = some p → p.pool.size ≠ 0 :=
        fun ref p hl hp hsize => hdrop ⟨ref, p, hl, hp, hsize⟩
      rw [readVacancy_spared hv hspared, readVacancy_spared hv']
      · rfl
      · intro ref p hl hp
        rw [rename_policy?] at hp
        obtain ⟨q, hq, rfl⟩ := Option.map_eq_some_iff.mp hp
        exact hspared ref q hl hq

end Registry

namespace Traffic

def rename (ρ : Renaming) (t : Traffic) : Traffic := { t with registry := t.registry.rename ρ }

def Event.rename (ρ : Renaming) : Event → Event
  | .advance n id => .advance n (ρ.id id)
  | .admission ref app url id => .admission ref app url (ρ.id id)
  | .step now ref worker event => .step now ref worker (event.rename ρ)
  | e => e

variable (ρ : Renaming) (t : Traffic)

theorem rename_attune (e : Event) : (t.rename ρ).attune (e.rename ρ) = (t.attune e).rename ρ := by
  cases e with
  | step now ref worker event =>
    have htransport : ((t.registry.rename ρ).policy? ref).bind (·.pool.transport) =
        (t.registry.policy? ref).bind (·.pool.transport) := by
      rw [Registry.rename_policy?]
      cases t.registry.policy? ref <;> rfl
    simp only [attune, Event.rename, rename, htransport, Worker.Event.rename_told]
  | _ => rfl

theorem rename_step (e : Event) : (t.rename ρ).step (e.rename ρ) = (t.step e).rename ρ := by
  cases e with
  | call => rfl
  | advance n id =>
    have hcalls : (t.rename ρ).calls[n]? = t.calls[n]? := rfl
    simp only [step, Event.rename, hcalls]
    cases t.calls[n]? with
    | none => rfl
    | some c => simp only [rename, Registry.rename_advance]
  | admission ref app url id => simp only [step, Event.rename, rename, Registry.rename_admissionAt]
  | step now ref worker event =>
    simp only [step, Event.rename, rename, Registry.rename_step, Registry.renamed]
  | readVacancy => simp only [step, Event.rename, rename, Registry.rename_readVacancy]
  | setTransport transport => simp only [step, Event.rename, rename, Registry.rename_setTransport]
  | shutdown now =>
    simp only [step, Event.rename, rename, Registry.rename_shutdown, Registry.renamed]

theorem rename_happen (e : Event) : (t.rename ρ).happen (e.rename ρ) = (t.happen e).rename ρ := by
  rw [happen, rename_attune, rename_step, happen]

theorem rename_asks (e : Event) :
    (t.rename ρ).asks (e.rename ρ) = (t.asks e).map (Registry.Act.rename ρ) := by
  unfold asks
  rw [rename_attune]
  cases t.attune e with
  | step now ref worker event =>
    simp only [Event.rename, rename, Registry.rename_step, Registry.renamed]
  | shutdown now => simp only [Event.rename, rename, Registry.rename_shutdown, Registry.renamed]
  | _ => rfl

theorem rename_run (es : List Event) :
    (t.rename ρ).run (es.map (Event.rename ρ)) = (t.run es).rename ρ ∧
      (t.rename ρ).outputs (es.map (Event.rename ρ)) = (t.outputs es).map fun o =>
      (o.1, o.2.rename ρ) := by
  induction es generalizing t with
  | nil => exact ⟨rfl, rfl⟩
  | cons e es ih =>
    obtain ⟨hrun, houtputs⟩ := ih (t.happen e)
    have htime : (e.rename ρ).time? = e.time? := by cases e <;> rfl
    rw [← rename_happen] at hrun houtputs
    refine ⟨hrun, ?_⟩
    simp only [outputs, List.map_cons, rename_asks, htime, houtputs, List.map_append, List.map_map]
    rfl

end Traffic

end AppHost
