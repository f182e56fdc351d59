import AppHost.Proofs.Registry.Renaming
import AppHost.Proofs.Registry.Service

/-!
# Applications are isolated

All keys share one map, one queue of reports and one transport. Still, two runs in which the same
happens for a key, up to the names of what is random, are the same as far as the key is concerned,
whatever happens in them for other keys (`Traffic.isolated`): its share of both takes the same
events, and each of them does the same under other names.
-/

namespace AppHost

open Registry (Act)

namespace Service

def rename (ρ : Renaming) (s : Service) : Service := { s with pool := s.pool.rename ρ }

def Event.rename (ρ : Renaming) : Event → Event
  | .admission n app url id => .admission n app url (ρ.id id)
  | .step now worker event => .step now worker (event.rename ρ)
  | e => e

variable (ρ : Renaming) (s : Service)

theorem rename_poolStep (now : Time) (worker : WorkerRef) (event : Worker.Event) :
    (s.rename ρ).pool.step now worker ((event.rename ρ).told (s.rename ρ).pool.transport) =
      Pool.renamed ρ (s.pool.step now worker (event.told s.pool.transport)) := by
  rw [Worker.Event.rename_told]
  exact s.pool.rename_step ρ now worker _

theorem rename_poolShutdown (now : Time) :
    (s.rename ρ).pool.shutdown now = Pool.renamed ρ (s.pool.shutdown now) :=
  s.pool.rename_shutdown ρ now

theorem rename_happen (e : Event) : (s.rename ρ).happen (e.rename ρ) = (s.happen e).rename ρ := by
  cases e with
  | call => rfl
  | admission n app url id =>
    have hadmission : ({ pool := (s.rename ρ).pool } : Policy).admission app url (ρ.id id) =
        ((({ pool := s.pool } : Policy).admission app url id).1.rename ρ,
          (({ pool := s.pool } : Policy).admission app url id).2) :=
      Policy.rename_admission ρ { pool := s.pool } app url id
    simp only [happen, Event.rename, hadmission]
    rfl
  | step now worker event =>
    simp only [happen, Event.rename, rename_poolStep]
    rfl
  | setTransport transport => rfl
  | shutdown now =>
    simp only [happen, Event.rename, rename_poolShutdown]
    rfl

theorem rename_asks (e : Event) :
    (s.rename ρ).asks (e.rename ρ) = (s.asks e).map (Act.rename ρ) := by
  cases e with
  | step now worker event =>
    simp only [asks, Event.rename, rename_poolStep, Pool.renamed, Registry.rename_asked]
  | shutdown now =>
    simp only [asks, Event.rename, rename_poolShutdown, Pool.renamed, Registry.rename_asked]
  | _ => rfl

theorem rename_run (es : List Event) :
    (s.rename ρ).run (es.map (Event.rename ρ)) = (s.run es).rename ρ ∧
      (s.rename ρ).outputs (es.map (Event.rename ρ)) = (s.outputs es).map fun o =>
      (o.1, o.2.rename ρ) := by
  induction es generalizing s with
  | nil => exact ⟨rfl, rfl⟩
  | cons e es ih =>
    obtain ⟨hrun, houtputs⟩ := ih (s.happen e)
    have htime : (e.rename ρ).time? = e.time? := by cases e <;> rfl
    rw [← rename_happen] at hrun houtputs
    refine ⟨hrun, ?_⟩
    simp only [outputs, List.map_cons, rename_asks, htime, houtputs, List.map_append, List.map_map]
    rfl

end Service

namespace Traffic

def start (transport : Option TransportRef) : Traffic := { registry := { transport } }

def endsIn (k : String) (transport : Option TransportRef) (es : List Event) : Traffic :=
  ((start transport).run es).only k

section
variable (k : String) (transport : Option TransportRef) (es : List Event)

theorem endsIn_eq :
    endsIn k transport es = (start transport).run (inputsOf k (start transport) es) ∧
      outputsOf k (start transport) es =
      (start transport).outputs (inputsOf k (start transport) es) :=
  only_run (valid_start transport) es

theorem endsIn_service :
    (endsIn k transport es).service k =
      ((start transport).service k).run (servedOf k (start transport) es) ∧
      demandsOf k (start transport) es = ((start transport).service k).outputs
      (servedOf k (start transport) es) :=
  service_run (valid_start transport) (Registry.Reachable.sound ⟨transport, .refl⟩)
    ⟨[], none, rfl, rfl, by simp, by simp⟩ es

end

theorem share_alike {k : String} {transport : Option TransportRef} {es fs : List Event}
    {ρ : Renaming}
    (h : inputsOf k (start transport) fs = (inputsOf k (start transport) es).map (Event.rename ρ)) :
    endsIn k transport fs = (endsIn k transport es).rename ρ ∧
      outputsOf k (start transport) fs = (outputsOf k (start transport) es).map fun o =>
      (o.1, o.2.rename ρ) := by
  obtain ⟨hrun, houtputs⟩ := endsIn_eq k transport es
  obtain ⟨hrun', houtputs'⟩ := endsIn_eq k transport fs
  rw [hrun', houtputs', h, hrun, houtputs]
  exact (start transport).rename_run ρ (inputsOf k (start transport) es)

/-- Two runs from one transport, as far as this key is concerned. -/
structure Isolated (k : String) (transport : Option TransportRef) (es fs : List Event)
    (ρ : Renaming) : Prop where
  /-- If the key's own events are the same, with the lookups of its requests and the readings of its
  reports, then so is all that the registry holds of the key and all that its requests were
  answered, and the same is asked for its workers at the same times. -/
  share : inputsOf k (start transport) fs = (inputsOf k (start transport) es).map (Event.rename ρ) →
    endsIn k transport fs = (endsIn k transport es).rename ρ ∧
      outputsOf k (start transport) fs = (outputsOf k (start transport) es).map fun o =>
        (o.1, o.2.rename ρ)
  /-- The clock will bring the same to the key's workers, and the same of their tasks can run. -/
  next : inputsOf k (start transport) fs = (inputsOf k (start transport) es).map (Event.rename ρ) →
    ∀ ref i w, (endsIn k transport es).registry.worker? ref i = some w →
      ∃ v, (endsIn k transport fs).registry.worker? ref i = some v ∧ v.due = w.due ∧
        v.exitPending = w.exitPending ∧ ∀ via, v.pending? via = w.pending? via
  /-- The lookups may be made and the reports read at other moments, as the traffic of other keys
  has it. If the same requests are answered and the same happens to the key's workers, then the
  answers are the same, the workers, the table, and what is asked for them, numbered through all
  policies of the key. -/
  service : servedOf k (start transport) fs = (servedOf k (start transport) es).map
    (Service.Event.rename ρ) →
    (endsIn k transport fs).service k = ((endsIn k transport es).service k).rename ρ ∧
      demandsOf k (start transport) fs = (demandsOf k (start transport) es).map fun o =>
        (o.1, o.2.rename ρ)

theorem isolated (k : String) (transport : Option TransportRef) (es fs : List Event)
    (ρ : Renaming) : Isolated k transport es fs ρ where
  share := share_alike
  next hinputs ref i w hw := by
    obtain ⟨hshare, -⟩ := share_alike hinputs
    refine ⟨w.rename ρ, ?_, w.rename_due ρ, w.rename_exitPending ρ, w.rename_pending? ρ⟩
    rw [hshare, rename, Registry.rename_worker?, hw, Option.map_some]
  service hserved := by
    obtain ⟨hrun, houtputs⟩ := endsIn_service k transport es
    obtain ⟨hrun', houtputs'⟩ := endsIn_service k transport fs
    rw [hrun', houtputs', hserved, hrun, houtputs]
    exact ((start transport).service k).rename_run ρ (servedOf k (start transport) es)

/-- A worker fails at once, its policy is dropped, and another serves the next request. -/
def aloneEvents (a : AppSpec) : List Event :=
  [.call a none, .advance 0 "0", .advance 0 "0", .step 3 0 0 (.begin none), .readVacancy,
    .call a none, .advance 1 "1", .advance 1 "1"]

/-- The same beside another application, whose worker fails first. This many reports have been read
when the last request is made. -/
def crowdedEvents (a b : AppSpec) (reads : Nat) : List Event :=
  [.call b none, .advance 0 "u", .call a none, .advance 0 "u", .advance 1 "w0", .advance 1 "w0",
    .step 2 0 0 (.begin none), .step 3 1 0 (.begin none)] ++ List.replicate reads .readVacancy ++
    [.call a none, .advance 2 "w1", .advance 2 "w1"]

def crowdedNames : Renaming where
  id s := "w" ++ s
  secret := id
  process := id

/-- With two reports read the key's own events are the same. With one read its policy is still there
when the last request is made, and all the same it is served as it would be alone. -/
theorem crowd_unseen {a b : AppSpec} (h : b.key ≠ a.key) :
    inputsOf a.key (start none) (crowdedEvents a b 2) =
        (inputsOf a.key (start none) (aloneEvents a)).map (Event.rename crowdedNames) ∧
      servedOf a.key (start none) (crowdedEvents a b 1) =
        (servedOf a.key (start none) (aloneEvents a)).map (Service.Event.rename crowdedNames) := by
  have hlookup := beq_false_of_ne h.symm
  simp [inputsOf, servedOf, aloneEvents, crowdedEvents, start, share, served?, only, happen, attune,
    step, place, h, h.symm, hlookup, List.lookup_cons, Registry.advance, Registry.policyFor,
    Registry.lookup?, Registry.admissionAt, Registry.policy?, Registry.setPolicy, Registry.keys,
    Registry.rank, Registry.step, Registry.withPool, Registry.file, Registry.readVacancy,
    Registry.only, Registry.serves, Registry.worker?, Registry.number, Registry.workersOf,
    Policy.admission, Policy.retireIfVacant, Pool.first?, Pool.size, Pool.spawn, Pool.step,
    Pool.worker?, Pool.settle, Worker.step, Worker.abandon, Worker.Event.told, Worker.Event.rename,
    Call.renumber, Request.renumber, Event.rename, Service.Event.rename, crowdedNames]

def otherApp : AppSpec := { helloApp with appDir := ⟨"/apps/other"⟩ }

theorem otherApp_key : otherApp.key ≠ helloApp.key := by decide +kernel

theorem isolated_crowded :
    endsIn helloApp.key none (crowdedEvents helloApp otherApp 2) =
        (endsIn helloApp.key none (aloneEvents helloApp)).rename crowdedNames ∧
      (endsIn helloApp.key none (crowdedEvents helloApp otherApp 1)).service helloApp.key =
        ((endsIn helloApp.key none (aloneEvents helloApp)).service helloApp.key).rename
          crowdedNames := by
  obtain ⟨hinputs, hserved⟩ := crowd_unseen otherApp_key
  exact ⟨((isolated helloApp.key none _ _ crowdedNames).share hinputs).1,
    ((isolated helloApp.key none _ _ crowdedNames).service hserved).1⟩

end Traffic

end AppHost
