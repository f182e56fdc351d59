import AppHost.Proofs.Pool.Vacancy
import AppHost.Proofs.Registry.Runs

/-!
# What becomes of the reports

A registry queues the reports of its pools under their keys and reads them one by one. No policy is
dropped without one. So a policy whose table a startup has left in silence, by taking too long,
stays registered until the exit of a process of its key has been cleaned up after: until then no
report of the key is queued (`Registry.WaitsForExit`).
-/

namespace AppHost

open Relation (ReflTransGen)

namespace Registry

section
variable {r s : Registry} {ref : PolicyRef} {p : Policy} {key : String}

theorem file_vacancies (acts : List Pool.Act) :
    (r.file ref key acts).1.vacancies = r.vacancies ++ Pool.reported key acts := by
  induction acts generalizing r with
  | nil => simp [file]
  | cons act acts ih => cases act <;> simp [file, ih]

theorem withPool_vacancies (step : Pool → Pool × List Pool.Act) (hp : r.policy? ref = some p) :
    (r.withPool ref step).1.vacancies = r.vacancies ++
      Pool.reported p.pool.key (step p.pool).2 := by
  rw [withPool_of_policy step hp, file_vacancies]
  rfl

theorem step_vacancies (now : Time) (worker : WorkerRef) (event : Worker.Event)
    (hp : r.policy? ref = some p) :
    (r.step now ref worker event).1.vacancies = r.vacancies ++
      Pool.reported p.pool.key (p.pool.step now worker event).2 :=
  withPool_vacancies _ hp

@[simp] theorem policyFor_vacancies (r : Registry) (key : String) :
    (r.policyFor key).1.vacancies = r.vacancies := by
  unfold policyFor
  split <;> rfl

@[simp] theorem admissionAt_vacancies (r : Registry) (ref : PolicyRef) (app : AppSpec)
    (url : Option String) (id : String) :
    (r.admissionAt ref app url id).1.vacancies = r.vacancies := by
  unfold admissionAt
  split <;> rfl

@[simp] theorem admissionAt_current (r : Registry) (ref : PolicyRef) (app : AppSpec)
    (url : Option String) (id : String) : (r.admissionAt ref app url id).1.current = r.current := by
  unfold admissionAt
  split <;> rfl

theorem setTransport_quiet (r : Registry) (transport : TransportRef) :
    (r.setTransport transport).current = r.current ∧
      (r.setTransport transport).vacancies = r.vacancies := by
  refine List.foldlRecOn (motive := fun s : Registry => s.current = r.current ∧
    s.vacancies = r.vacancies)
    r.current _ ⟨rfl, rfl⟩ ?_
  intro s hs c _
  split
  · exact hs
  · exact hs

theorem shutdown_quiet (r : Registry) (now : Time) :
    (r.shutdown now).1.current = r.current ∧ (r.shutdown now).1.vacancies = r.vacancies := by
  refine List.foldlRecOn
    (motive := fun s : Registry × List Act => s.1.current = r.current ∧ s.1.vacancies = r.vacancies)
    r.current _ ⟨rfl, rfl⟩ ?_
  rintro ⟨s, acts⟩ ⟨hc, hv⟩ c _
  cases hp : s.policy? c.2 with
  | none => simp only [withPool_of_none _ hp]; exact ⟨hc, hv⟩
  | some p =>
    simp only [withPool_vacancies _ hp, (p.pool.shutdown_reported now).2, List.append_nil]
    exact ⟨by simpa [withPool_of_policy _ hp, setPolicy] using hc, hv⟩

theorem policyFor_lookup? (r : Registry) (k : String) (hl : r.lookup? key = some ref) :
    (r.policyFor k).1.lookup? key = some ref := by
  unfold policyFor
  split
  · exact hl
  · rw [lookup?_append rfl, hl, Option.some_or]

theorem lookup?_policyFor (r : Registry) (key : String) :
    (r.policyFor key).1.lookup? key = some (r.policyFor key).2 := by
  unfold policyFor
  split
  · next hl => exact hl
  · next hl => rw [lookup?_append rfl, hl, Option.none_or, if_pos rfl]

@[simp] theorem readVacancy_vacancies (r : Registry) :
    r.readVacancy.vacancies = r.vacancies.tail := by
  unfold readVacancy
  split
  · next hv => rw [hv, List.tail_nil]
  · next key rest hv =>
    rw [hv, List.tail_cons]
    simp only
    split
    · rfl
    · split
      · rfl
      · split <;> rfl

theorem readVacancy_lookup? (hv : key ∉ r.vacancies) :
    r.readVacancy.lookup? key = r.lookup? key := by
  unfold readVacancy
  split
  · rfl
  · next k rest hrest =>
    have hne : key ≠ k := fun heq => hv (by simp [hrest, heq])
    simp only
    split
    · rfl
    · split
      · rfl
      · split
        · exact (lookup?_filter (r := r) rfl).trans (if_neg hne)
        · rfl

end

-- ---------------------------------------------------------------------------
-- Waiting for an exit
-- ---------------------------------------------------------------------------

/-- A process for this key is known to be gone, and its worker's exit task cleans up after it. -/
def Cleanup (r s : Registry) (key : String) : Prop :=
  ∃ now a p i w l, s = (r.step now a i .exitHandled).1 ∧ r.policy? a = some p ∧ p.pool.key = key ∧
    p.pool.worker? i = some w ∧ w.launched = some l ∧ l.exit.awaited.isSome = true ∧
    l.reaped = false

/-- A policy with an empty table that is not reported stays in the map, and no report comes before a
process for its key has been cleaned up after. -/
def WaitsForExit (r : Registry) : Prop :=
  ∀ key a p, r.lookup? key = some a → r.policy? a = some p → p.pool.table = [] → key ∉ r.vacancies →
    ∀ s, Next r s → s.lookup? key = some a ∧ (key ∈ s.vacancies → Cleanup r s key)

section
variable {r s : Registry} {a ref : PolicyRef} {p q : Policy} {key : String}

/-- While the registered policy for a key has an empty table, no worker of the key has yet to be
launched: every other policy for the key is retired. -/
theorem Sound.no_early (hr : r.Sound) (hl : r.lookup? key = some a) (hp : r.policy? a = some p)
    (hempty : p.pool.table = []) (hq : r.policy? ref = some q) (hkey : q.pool.key = key)
    (hw : q.pool.worker? i = some w) : w.stage.phase ≠ .early := by
  intro hs
  have hpool := (hr.policies ref q hq).pool
  have hmem : i ∈ q.pool.table := (hpool.table i).mpr ⟨w, hw, ((hpool.workers i w hw).early hs).2.1⟩
  have hnil : q.pool.table = [] := by
    cases hretired : q.retired with
    | true => exact (hr.policies ref q hq).retired hretired
    | false =>
      have hlive := hr.live ref q hq hretired
      rw [hkey, hl] at hlive
      obtain rfl := Option.some.inj hlive
      obtain rfl := Option.some.inj (hp.symm.trans hq)
      exact hempty
  rw [hnil] at hmem
  cases hmem

theorem Sound.waitsForExit (hr : r.Sound) : r.WaitsForExit := by
  intro key a p hl hp hempty hv s hnext
  cases hnext with
  | lookup k => exact ⟨r.policyFor_lookup? k hl, fun hmem => absurd (by simpa using hmem) hv⟩
  | admission ref app url id =>
    refine ⟨?_, fun hmem => absurd (by simpa using hmem) hv⟩
    rw [lookup?, admissionAt_current]
    exact hl
  | step now ref i event =>
    constructor
    · rw [lookup?, step_current]
      exact hl
    · intro hmem
      cases hq : r.policy? ref with
      | none =>
        rw [step, withPool_of_none _ hq] at hmem
        exact absurd hmem hv
      | some q =>
        rw [step_vacancies now i event hq] at hmem
        have hmem := (List.mem_append.mp hmem).resolve_left hv
        have hkey : q.pool.key = key := (Pool.eq_of_mem_reported hmem).symm
        cases hw : q.pool.worker? i with
        | none => simp [Pool.step_of_none now event hw] at hmem
        | some w =>
          rw [Pool.reported_step hw] at hmem
          split at hmem
          · next hleave =>
            rcases (w.step_effect now event).announced hleave.1 with hs
              | ⟨rfl, l, hlaunched, hx, hreaped⟩
            · exact absurd hs (hr.no_early hl hp hempty hq hkey hw)
            · exact ⟨now, ref, q, i, w, l, rfl, hq, hkey, hw, hlaunched, hx, hreaped⟩
          · cases hmem
  | readVacancy =>
    refine ⟨(readVacancy_lookup? hv).trans hl, fun hmem => ?_⟩
    rw [readVacancy_vacancies] at hmem
    exact absurd (List.mem_of_mem_tail hmem) hv
  | setTransport transport =>
    obtain ⟨hcurrent, hvacancies⟩ := r.setTransport_quiet transport
    refine ⟨?_, fun hmem => absurd (hvacancies ▸ hmem) hv⟩
    rw [lookup?, hcurrent]
    exact hl
  | shutdown now =>
    obtain ⟨hcurrent, hvacancies⟩ := r.shutdown_quiet now
    refine ⟨?_, fun hmem => absurd (hvacancies ▸ hmem) hv⟩
    rw [lookup?, hcurrent]
    exact hl

end

def Files (r : Registry) : Prop :=
  ∀ ref p now worker event, r.policy? ref = some p →
    (r.step now ref worker event).1.vacancies =
      r.vacancies ++ Pool.reported p.pool.key (p.pool.step now worker event).2

/-- Every step that empties a pool's table reports it at once, exactly if it is not a startup that
took too long, and no report is made of a table that is not empty. What such a startup leaves behind
is a policy that stays registered until a process for its key has been cleaned up after. -/
theorem reported_unless_overdue {r : Registry} (h : r.Reachable) :
    (∀ p : Pool, p.Reporting) ∧ r.Files ∧ r.WaitsForExit :=
  ⟨Pool.reporting, fun _ _ now worker event hp => step_vacancies now worker event hp,
    h.sound.waitsForExit⟩

/-- One application's worker has been given up for not answering in time. -/
def overdueRegistry : Registry :=
  let r := (({ transport := some 0 } : Registry).policyFor helloApp.key).1
  let r := (r.admissionAt 0 helloApp none "w0").1
  let r := (r.step 0 0 0 (.begin (some 0))).1
  let r := (r.step 0 0 0 (.allocated (.ok ⟨.port 40000, ""⟩) "")).1
  let r := (r.step 5 0 0 (.launched (.ok 7))).1
  (r.step 60005 0 0 .overdue).1

theorem overdueRegistry_reachable : overdueRegistry.Reachable :=
  have h := ReflTransGen.single (.lookup (r := { transport := some 0 }) helloApp.key)
  have h := h.tail (.admission 0 helloApp none "w0")
  ⟨some 0, ((((h.tail (.step 0 0 0 _)).tail (.step 0 0 0 _)).tail (.step 5 0 0 _)).tail
    (.step 60005 0 0 _))⟩

/-- Its policy stays, whatever comes next, and only the end of the process that was killed brings
the report. -/
theorem reported_unless_overdue_killed :
    (∀ p : Pool, p.Reporting) ∧ overdueRegistry.Files ∧ ∀ s, Next overdueRegistry s →
      s.lookup? helloApp.key = some 0 ∧
      (helloApp.key ∈ s.vacancies → Cleanup overdueRegistry s helloApp.key) := by
  obtain ⟨hpools, hfiles, hwaits⟩ := reported_unless_overdue overdueRegistry_reachable
  have hv : overdueRegistry.vacancies = [] := rfl
  exact ⟨hpools, hfiles, hwaits helloApp.key 0 _ List.lookup_cons_self rfl rfl (by simp [hv])⟩

end Registry

namespace Pool

/-- The only worker of a pool does not answer in time. The table goes empty, and nothing says so. -/
theorem emptied_in_silence : ¬∀ p : Pool, p.Reachable → ∀ now ref event, p.table ≠ [] →
    (p.step now ref event).1.table = [] → reported p.key (p.step now ref event).2 = [p.key] := by
  intro hclaim
  have hreach : (launchingPool.step 5 0 (.launched (.ok 7))).1.Reachable :=
    launchingPool_reachable.trans (.single (.step 5 0 _))
  have hsilent := (reporting (launchingPool.step 5 0 (.launched (.ok 7))).1).silent 60005 0
  rw [hclaim _ hreach 60005 0 .overdue (by decide) (by decide)] at hsilent
  cases hsilent

end Pool

end AppHost
