import AppHost.Registry
import AppHost.Proofs.Pool.Runs
import AppHost.Proofs.Registry.Share

/-!
# Pools in succession

A pool whose workers are numbered after earlier ones, which have all left, does for its own workers
what it would do alone (`after_step`, `after_spawn`, `after_shutdown`). The earlier ones go on, and
the table does not notice (`after_step_earlier`).
-/

namespace AppHost

open Registry (asked)

namespace Pool

def after (earlier : List Worker) (p : Pool) : Pool :=
  { p with workers := earlier ++ p.workers, table := p.table.map (earlier.length + ·) }

def Act.shift (n : Nat) : Act → Act
  | .ask worker act => .ask (n + worker) act
  | .vacant => .vacant

section
variable (earlier : List Worker) (p : Pool) (now : Time) (ref : WorkerRef)

theorem after_worker? : (p.after earlier).worker? (earlier.length + ref) = p.worker? ref := by
  rw [worker?, after, List.getElem?_append_right (Nat.le_add_right ..), Nat.add_sub_cancel_left]
  rfl

theorem after_settle (acts : List Worker.Act) :
    (p.after earlier).settle (earlier.length + ref) acts =
      ((p.settle ref acts).1.after earlier,
        (p.settle ref acts).2.map (Act.shift earlier.length)) := by
  induction acts generalizing p with
  | nil => rfl
  | cons act acts ih =>
    cases act with
    | leave announce =>
      have herase : (p.table.map (earlier.length + ·)).erase (earlier.length + ref) =
          (p.table.erase ref).map (earlier.length + ·) :=
        (List.map_erase (fun _ _ h => Nat.add_left_cancel h) _).symm
      have ih := ih { p with table := p.table.erase ref }
      simp only [after] at ih ⊢
      simp only [settle, herase, ih, List.isEmpty_map]
      split <;> rfl
    | _ =>
      simp only [settle, ih]
      rfl

theorem after_step (event : Worker.Event) :
    (p.after earlier).step now (earlier.length + ref) event =
      ((p.step now ref event).1.after earlier,
        (p.step now ref event).2.map (Act.shift earlier.length)) := by
  cases hw : p.worker? ref with
  | none =>
    rw [step_of_none now _ hw, step_of_none now _ ((after_worker? earlier p ref).trans hw)]
    rfl
  | some w =>
    rw [step_of_worker now _ hw, step_of_worker now _ ((after_worker? earlier p ref).trans hw),
      ← after_settle]
    simp [after]

theorem after_spawn (app : AppSpec) (id : String) (data : List (String × Json)) :
    (p.after earlier).spawn app id data =
      ((p.spawn app id data).1.after earlier, earlier.length + (p.spawn app id data).2) := by
  simp [spawn, after]

theorem after_readyRefs : (p.after earlier).readyRefs = p.readyRefs.map (earlier.length + ·) := by
  change (p.table.map (earlier.length + ·)).filter _ = _
  rw [List.filter_map]
  refine congrArg _ (List.filter_congr fun ref _ => ?_)
  rw [Function.comp_apply, after_worker?]

theorem after_shutdown :
    (p.after earlier).shutdown now =
      ((p.shutdown now).1.after earlier, (p.shutdown now).2.map (Act.shift earlier.length)) := by
  rw [shutdown, shutdown, after_readyRefs, List.foldl_map]
  change List.foldl _
    ((fun r : Pool × List Act => (r.1.after earlier, r.2.map (Act.shift earlier.length))) (p, []))
    p.readyRefs = _
  refine List.foldl_hom
    (fun r : Pool × List Act => (r.1.after earlier, r.2.map (Act.shift earlier.length)))
    fun r ref => ?_
  simp only [after_step, List.map_append]

-- ---------------------------------------------------------------------------
-- The earlier workers
-- ---------------------------------------------------------------------------

theorem settle_of_notMem (acts : List Worker.Act) (h : ref ∉ p.table) :
    (p.settle ref acts).1 = p := by
  induction acts with
  | nil => rfl
  | cons act acts ih =>
    cases act with
    | leave announce =>
      have hsame : ({ p with table := p.table.erase ref } : Pool) = p := by
        rw [List.erase_of_not_mem h]
      simp only [settle, hsame, ih]
    | _ => exact ih

theorem after_worker?_earlier {w : Worker} (hw : earlier[ref]? = some w) :
    (p.after earlier).worker? ref = some w := by
  rw [worker?, after, List.getElem?_append_left (List.getElem?_eq_some_iff.mp hw).1, hw]

theorem after_step_earlier {w : Worker} (hw : earlier[ref]? = some w) (event : Worker.Event) :
    ((p.after earlier).step now ref event).1 = p.after (earlier.set ref (w.step now event).1) := by
  have hlt : ref < earlier.length := (List.getElem?_eq_some_iff.mp hw).1
  rw [step_of_worker now event (after_worker?_earlier earlier p ref hw), settle_of_notMem]
  · simp [after, List.set_append_left, hlt]
  · intro hmem
    obtain ⟨x, -, hx⟩ := List.mem_map.mp hmem
    exact Nat.not_le_of_lt hlt (hx ▸ Nat.le_add_right ..)

theorem asked_settle (p q : Pool) (a b : PolicyRef) (i j : WorkerRef) (acts : List Worker.Act) :
    asked a (p.settle i acts).2 = (asked b (q.settle j acts).2).map fun x => ⟨a, i, x.act⟩ := by
  induction acts generalizing p q with
  | nil => rfl
  | cons act acts ih =>
    cases act with
    | leave announce =>
      have ih := ih { p with table := p.table.erase i } { q with table := q.table.erase j }
      simp only [settle]
      split <;> split <;> exact ih
    | _ => simpa [settle, asked] using ih p q

theorem asked_step {p q : Pool} {i j : WorkerRef} {w : Worker} {e e' : Worker.Event}
    (hp : p.worker? i = some w) (hq : q.worker? j = some w) (hsame : w.step now e = w.step now e')
    (a b : PolicyRef) :
    asked a (p.step now i e).2 = (asked b (q.step now j e').2).map fun x => ⟨a, i, x.act⟩ := by
  rw [step_of_worker now e hp, step_of_worker now e' hq, hsame]
  exact asked_settle _ _ a b i j _

theorem asked_shift (a b : PolicyRef) (n : Nat) (acts : List Act) :
    asked a (acts.map (Act.shift n)) = (asked b acts).map fun x => ⟨a, n + x.worker, x.act⟩ := by
  induction acts with
  | nil => rfl
  | cons act acts ih => cases act <;> simpa [asked, Act.shift] using ih

-- ---------------------------------------------------------------------------
-- Transports
-- ---------------------------------------------------------------------------

@[simp] theorem settle_transport (acts : List Worker.Act) :
    (p.settle ref acts).1.transport = p.transport := by
  induction acts generalizing p with
  | nil => rfl
  | cons act acts ih => cases act <;> simp [settle, ih]

@[simp] theorem step_transport (event : Worker.Event) :
    (p.step now ref event).1.transport = p.transport := by
  cases hw : p.worker? ref with
  | none => rw [step_of_none now event hw]
  | some w => simp [step_of_worker now event hw]

theorem shutdown_transport : (p.shutdown now).1.transport = p.transport :=
  List.foldlRecOn (motive := fun r : Pool × List Act => r.1.transport = p.transport)
    p.readyRefs _ rfl
    fun r hr ref _ => (step_transport r.1 now ref _).trans hr

end

end Pool

namespace Policy

theorem after_admission (earlier : List Worker) (p : Pool) (app : AppSpec) (url : Option String)
    (id : String) :
    ({ pool := p.after earlier } : Policy).admission app url id =
      ({ pool := (({ pool := p } : Policy).admission app url id).1.pool.after earlier },
        (({ pool := p } : Policy).admission app url id).2.map (earlier.length + ·)) := by
  have hfirst : (p.after earlier).first? = p.first?.map (earlier.length + ·) := List.head?_map
  simp only [admission, hfirst, Bool.false_eq_true, if_false]
  cases p.first? with
  | none => simp [Pool.after_spawn, Except.map]
  | some ref =>
    by_cases hfull : 0 < limitFor app url ∧
        limitFor app url ≤ ((p.worker? ref).map (·.entry.count.toNat)).getD 0 <;>
      simp only [Option.map_some, Pool.after_worker?, hfull, if_false] <;> rfl

/-- A policy in service stays in service, on its transport, and does not answer that it was
retired. -/
theorem admission_live (p : Pool) (app : AppSpec) (url : Option String) (id : String) :
    (({ pool := p } : Policy).admission app url id).1 =
        { pool := (({ pool := p } : Policy).admission app url id).1.pool } ∧
      (({ pool := p } : Policy).admission app url id).1.pool.transport = p.transport ∧
      (({ pool := p } : Policy).admission app url id).2 ≠ .error .retired := by
  simp only [admission, Bool.false_eq_true, if_false]
  cases p.first? with
  | none => exact ⟨rfl, rfl, by simp⟩
  | some ref =>
    dsimp only
    split <;> exact ⟨rfl, rfl, by simp [outOfCapacity]⟩

end Policy

end AppHost
