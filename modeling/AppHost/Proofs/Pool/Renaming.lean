import AppHost.Registry
import AppHost.Proofs.Pool.Runs
import AppHost.Proofs.Worker.Renaming

/-!
# Renaming a pool

A pool knows its workers by number, so new names for what is random about them change neither its
table nor which of them a policy picks (`Policy.rename_admission`), and a step of the renamed pool
is the step renamed (`Pool.rename_step`).
-/

namespace AppHost

namespace Pool

def rename (ρ : Renaming) (p : Pool) : Pool := { p with workers := p.workers.map (Worker.rename ρ) }

def Act.rename (ρ : Renaming) : Act → Act
  | .ask worker act => .ask worker (act.rename ρ)
  | .vacant => .vacant

def renamed (ρ : Renaming) (r : Pool × List Act) : Pool × List Act :=
  (r.1.rename ρ, r.2.map (Act.rename ρ))

variable (ρ : Renaming) (p : Pool) (now : Time) (ref : WorkerRef)

theorem rename_worker? : (p.rename ρ).worker? ref = (p.worker? ref).map (Worker.rename ρ) :=
  List.getElem?_map ..

theorem rename_settle (acts : List Worker.Act) :
    (p.rename ρ).settle ref (acts.map (Worker.Act.rename ρ)) = renamed ρ (p.settle ref acts) := by
  induction acts generalizing p with
  | nil => rfl
  | cons act acts ih =>
    cases act with
    | leave announce =>
      have ih : ({ p.rename ρ with table := p.table.erase ref } : Pool).settle ref
        (acts.map (Worker.Act.rename ρ)) =
          renamed ρ ({ p with table := p.table.erase ref }.settle ref acts) :=
            ih { p with table := p.table.erase ref }
      have htable : (p.rename ρ).table = p.table := rfl
      simp only [settle, List.map_cons, Worker.Act.rename, htable, ih]
      cases announce && (p.table.erase ref).isEmpty <;> rfl
    | _ =>
      simp only [settle, List.map_cons, Worker.Act.rename, ih]
      rfl

theorem rename_step (event : Worker.Event) :
    (p.rename ρ).step now ref (event.rename ρ) = renamed ρ (p.step now ref event) := by
  cases hw : p.worker? ref with
  | none =>
    rw [step_of_none now _ hw, step_of_none now _ (by rw [rename_worker?, hw]; rfl)]
    rfl
  | some w =>
    rw [step_of_worker now _ hw,
      step_of_worker now _ (w := w.rename ρ) (by rw [rename_worker?, hw]; rfl), Worker.rename_step,
      ← rename_settle]
    simp only [rename, Worker.renamed, List.map_set]

theorem rename_spawn (app : AppSpec) (id : String) (data : List (String × Json)) :
    (p.rename ρ).spawn app (ρ.id id) data =
      ((p.spawn app id data).1.rename ρ, (p.spawn app id data).2) := by
  simp [spawn, rename, Worker.rename, Entry.rename, Stage.rename]

theorem rename_readyRefs : (p.rename ρ).readyRefs = p.readyRefs := by
  have hready : ∀ w : Worker, (w.rename ρ).entry.ready?.isSome = w.entry.ready?.isSome :=
    fun w => by
      cases ho : w.entry.outcome with
      | none => simp [Worker.rename, Entry.rename, Entry.ready?, ho]
      | some o => cases o <;> simp [Worker.rename, Entry.rename, Entry.ready?, ho, Except.map]
  refine List.filter_congr fun ref _ => ?_
  rw [rename_worker?]
  cases p.worker? ref <;> simp [hready]

theorem rename_shutdown : (p.rename ρ).shutdown now = renamed ρ (p.shutdown now) := by
  rw [shutdown, shutdown, rename_readyRefs]
  change List.foldl _ (renamed ρ (p, [])) p.readyRefs = _
  refine List.foldl_hom (renamed ρ) fun r ref => ?_
  have hstep := rename_step ρ r.1 now ref (.kill true)
  simp only [renamed, Worker.Event.rename] at hstep ⊢
  rw [hstep, List.map_append]

end Pool

namespace Policy

def rename (ρ : Renaming) (p : Policy) : Policy := { p with pool := p.pool.rename ρ }

variable (ρ : Renaming) (p : Policy)

theorem rename_admission (app : AppSpec) (url : Option String) (id : String) :
    (p.rename ρ).admission app url (ρ.id id) = ((p.admission app url id).1.rename ρ,
      (p.admission app url id).2) := by
  have hfirst : (p.rename ρ).pool.first? = p.pool.first? := rfl
  have hcount : ∀ ref, ((p.rename ρ).pool.worker? ref).map (·.entry.count.toNat) =
      (p.pool.worker? ref).map (·.entry.count.toNat) := fun ref => by
    rw [rename, Pool.rename_worker?, Option.map_map]
    rfl
  have hspawn : (p.rename ρ).pool.spawn app (ρ.id id) [] =
      ((p.pool.spawn app id []).1.rename ρ, (p.pool.spawn app id []).2) :=
        p.pool.rename_spawn ρ app id []
  have hretired : (p.rename ρ).retired = p.retired := rfl
  unfold admission
  rw [hretired, hfirst]
  cases p.retired with
  | true => rfl
  | false =>
    cases p.pool.first? with
    | none =>
      simp only [hspawn]
      rfl
    | some ref =>
      simp only [hcount, Bool.false_eq_true, if_false]
      split <;> rfl

end Policy

end AppHost
