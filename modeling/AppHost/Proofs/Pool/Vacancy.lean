import AppHost.Proofs.Pool.Runs
import AppHost.Proofs.Worker.Leaving

/-!
# Reports of an empty table

`reported_step` says when a step reports that the pool's table is empty: its worker leaves with word
to be sent, and nobody is left. A worker that took too long to start leaves without, so the table
can go empty in silence; the exit of its process is what is reported then.
-/

namespace AppHost

namespace Pool

def Act.isVacant : Act → Bool
  | .vacant => true
  | .ask .. => false

/-- The reports among what a step asks for. Each is no more than the pool's key. -/
def reported (key : String) (acts : List Act) : List String :=
  (acts.filter Act.isVacant).map fun _ => key

section
variable {p : Pool} {ref : WorkerRef} {w : Worker} {acts : List Worker.Act} {key : String}
  {now : Time} {event : Worker.Event}

@[simp] theorem reported_nil : reported key [] = [] := rfl

@[simp] theorem reported_vacant (acts : List Act) :
    reported key (.vacant :: acts) = key :: reported key acts := rfl

@[simp] theorem reported_ask (act : Worker.Act) (acts : List Act) :
    reported key (.ask ref act :: acts) = reported key acts := rfl

theorem reported_append (acts₁ acts₂ : List Act) :
    reported key (acts₁ ++ acts₂) = reported key acts₁ ++ reported key acts₂ := by
  simp [reported]

theorem eq_of_mem_reported {acts : List Act} (h : k ∈ reported key acts) : k = key := by
  obtain ⟨-, -, rfl⟩ := List.mem_map.mp h
  rfl

theorem reported_settle_of_stays (h : ∀ announce, Worker.Act.leave announce ∉ acts) :
    reported key (p.settle ref acts).2 = [] := by
  induction acts generalizing p with
  | nil => rfl
  | cons act acts ih =>
    have hrest : ∀ announce, Worker.Act.leave announce ∉ acts :=
      fun announce hmem => h announce (List.mem_cons_of_mem _ hmem)
    cases act with
    | leave announce => exact absurd List.mem_cons_self (h announce)
    | _ => exact ih hrest

theorem reported_settle (h : Worker.Leaving event acts) :
    reported key (p.settle ref acts).2 =
      if .leave true ∈ acts ∧ (p.settle ref acts).1.table = [] then [key] else [] := by
  cases h with
  | stays h => rw [reported_settle_of_stays h, if_neg fun hleave => h true hleave.1]
  | announced _ h =>
    have hrest : ∀ q : Pool, reported key (q.settle ref _).2 = [] :=
      fun _ => reported_settle_of_stays h
    simp only [settle, settle_table_of_stays h, List.mem_cons_self, true_and, Bool.true_and]
    split
    · next hempty => simp_all
    · next hempty => simp_all
  | silent h =>
    rw [if_neg]
    · simpa [settle] using reported_settle_of_stays h
    · simpa using fun hleave => absurd hleave (h true)

theorem reported_step (hw : p.worker? ref = some w) :
    reported key (p.step now ref event).2 =
      if .leave true ∈ (w.step now event).2 ∧ (p.step now ref event).1.table = [] then [key]
      else [] := by
  rw [step_of_worker now event hw]
  exact reported_settle (w.step_effect now event).leaving

theorem reported_kill (now : Time) (ref : WorkerRef) (force : Bool) :
    reported key (p.step now ref (.kill force)).2 = [] := by
  cases hw : p.worker? ref with
  | none => rw [step_of_none now _ hw, reported_nil]
  | some w => rw [reported_step hw, if_neg fun hleave => Worker.leave_notMem_kill true hleave.1]

theorem step_kill_table (now : Time) (ref : WorkerRef) (force : Bool) :
    (p.step now ref (.kill force)).1.table = p.table := by
  cases hw : p.worker? ref with
  | none => rw [step_of_none now _ hw]
  | some w =>
    rw [step_of_worker now _ hw]
    exact settle_table_of_stays Worker.leave_notMem_kill

theorem shutdown_reported (p : Pool) (now : Time) :
    (p.shutdown now).1.table = p.table ∧ reported key (p.shutdown now).2 = [] := by
  refine List.foldlRecOn (motive := fun r : Pool × List Act => r.1.table = p.table ∧
    reported key r.2 = [])
    p.readyRefs _ ⟨rfl, rfl⟩ ?_
  rintro ⟨q, acts⟩ ⟨htable, hquiet⟩ ref _
  exact ⟨(step_kill_table now ref true).trans htable, by simp [reported_append, hquiet,
    reported_kill]⟩

end

-- ---------------------------------------------------------------------------
-- What a pool reports
-- ---------------------------------------------------------------------------

structure Reporting (p : Pool) : Prop where
  /-- Whatever empties the table but a startup that took too long is reported in the same step. -/
  emptied : ∀ now ref event, event ≠ .overdue → p.table ≠ [] → (p.step now ref event).1.table = [] →
    reported p.key (p.step now ref event).2 = [p.key]
  silent : ∀ now ref, reported p.key (p.step now ref .overdue).2 = []
  /-- What comes instead is the report of the exit, if the table is empty then. -/
  exit : ∀ now ref w l, p.worker? ref = some w → w.launched = some l →
    l.exit.awaited.isSome = true →
    l.reaped = false → reported p.key (p.step now ref .exitHandled).2 =
      if (p.step now ref .exitHandled).1.table = [] then [p.key] else []
  vacant : ∀ now ref event, reported p.key (p.step now ref event).2 ≠ [] →
    (p.step now ref event).1.table = []
  shutdown : ∀ now, (p.shutdown now).1.table = p.table ∧ reported p.key (p.shutdown now).2 = []

theorem reporting (p : Pool) : p.Reporting := by
  constructor
  · intro now ref event hevent htable hempty
    cases hw : p.worker? ref with
    | none =>
      rw [step_of_none now event hw] at hempty
      exact absurd hempty htable
    | some w =>
      have hleave : .leave true ∈ (w.step now event).2 := by
        have hleaving := (w.step_effect now event).leaving
        rw [step_of_worker now event hw] at hempty
        generalize (w.step now event).2 = acts at hleaving hempty ⊢
        cases hleaving with
        | stays h =>
          rw [settle_table_of_stays h] at hempty
          exact absurd hempty htable
        | announced => exact List.mem_cons_self
        | silent => exact absurd rfl hevent
      rw [reported_step hw, if_pos ⟨hleave, hempty⟩]
  · intro now ref
    cases hw : p.worker? ref with
    | none => rw [step_of_none now _ hw, reported_nil]
    | some w =>
      rw [reported_step hw, if_neg]
      rintro ⟨hleave, -⟩
      have hleaving := (w.step_effect now .overdue).leaving
      generalize (w.step now .overdue).2 = acts at hleaving hleave
      cases hleaving with
      | stays h => exact h true hleave
      | announced he => exact he rfl
      | silent h => exact h true (by simpa using hleave)
  · intro now ref w l hw hl hx hr
    have hleave : .leave true ∈ (w.step now .exitHandled).2 := by
      simp [Worker.step, hl, hx, hr, Worker.cleanUp]
    simp only [reported_step hw, hleave, true_and]
  · intro now ref event hne
    cases hw : p.worker? ref with
    | none => simp [step_of_none now event hw] at hne
    | some w =>
      rw [reported_step hw] at hne
      split at hne
      · next h => exact h.2
      · exact absurd rfl hne
  · exact fun now => p.shutdown_reported now

end Pool

end AppHost
