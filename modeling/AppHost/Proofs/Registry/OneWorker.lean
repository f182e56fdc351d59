import AppHost.Proofs.Registry.Runs

/-!
# One worker per key

However requests, startups, exits and reports of empty tables interleave, a key has at most one
worker with an open entry, over all the policies it ever had, and that worker is in the table of the
policy which the map holds. So whatever goes through the map, a shutdown or an inspection, comes to
every ready worker that is still running.
-/

namespace AppHost

open Relation (ReflTransGen)

-- ---------------------------------------------------------------------------
-- A shutdown comes to every ready worker of the tables it goes through
-- ---------------------------------------------------------------------------

section
variable {l : List α} {acc : List β}

theorem mem_foldl_acts_of_mem {f : σ → α → σ × List β} (h : b ∈ acc) :
    b ∈ (l.foldl (fun r a => ((f r.1 a).1, r.2 ++ (f r.1 a).2)) (s, acc)).2 := by
  induction l generalizing s acc with
  | nil => exact h
  | cons x l ih => exact ih (List.mem_append_left _ h)

theorem mem_foldl_acts {f : σ → α → σ × List β} {P : σ → Prop} (hkeep : ∀ s x, P s → P (f s x).1)
    (hasks : ∀ s, P s → b ∈ (f s a).2) (ha : a ∈ l) (hs : P s) :
    b ∈ (l.foldl (fun r a => ((f r.1 a).1, r.2 ++ (f r.1 a).2)) (s, acc)).2 := by
  induction l generalizing s acc with
  | nil => cases ha
  | cons x l ih =>
    rw [List.foldl_cons]
    rcases List.mem_cons.mp ha with rfl | ha
    · exact mem_foldl_acts_of_mem (List.mem_append_right _ (hasks s hs))
    · exact ih ha (hkeep s x hs)

end

namespace Pool

/-- A ready worker in the table whose process, of this number, is not known to be gone. -/
structure Running (p : Pool) (ref : WorkerRef) (process : Nat) : Prop where
  listed : ref ∈ p.table
  worker : ∃ w l, p.worker? ref = some w ∧ w.entry.ready?.isSome = true ∧ w.launched = some l ∧
    l.process = process ∧ l.exit.hasExited = false

variable {p : Pool} {ref : WorkerRef} {process : Nat}

theorem Running.ready (h : p.Running ref process) : ref ∈ p.readyRefs := by
  obtain ⟨w, -, hw, hready, -⟩ := h.worker
  exact List.mem_filter.mpr ⟨h.listed, by simp [hw, hready]⟩

theorem Running.killed (h : p.Running ref process) (now : Time) :
    .ask ref (.kill process true) ∈ (p.step now ref (.kill true)).2 := by
  obtain ⟨w, l, hw, -, hl, rfl, hx⟩ := h.worker
  rw [step_of_worker now _ hw]
  exact mem_settle_acts (Worker.mem_kill_acts.mpr ⟨l, hl, hx, rfl⟩) nofun

/-- A kill request changes neither the table nor who is ready, and no exit is known for it yet. -/
theorem Running.kill (h : p.Running ref process) (now : Time) (x : WorkerRef) (force : Bool) :
    (p.step now x (.kill force)).1.Running ref process := by
  obtain ⟨w, l, hw, hready, hl, hproc, hx⟩ := h.worker
  cases hv : p.worker? x with
  | none => rwa [step_of_none now _ hv]
  | some v =>
    constructor
    · rw [step_of_worker now _ hv, settle_table_of_stays]
      · exact h.listed
      · exact fun announce => Worker.leave_notMem_kill announce
    · rw [step_worker? now _ hv]
      split
      · next heq =>
        subst heq
        obtain rfl : w = v := by simpa [hw] using hv
        refine ⟨_, l.killed now force, rfl, ?_, ?_, by simpa using hproc, by simpa using hx⟩
        · simpa [Worker.step, Worker.kill_eq] using hready
        · simp [Worker.step, Worker.kill_eq, hl]
      · exact ⟨w, l, hw, hready, hl, hproc, hx⟩

theorem Running.mem_shutdown (h : p.Running ref process) (now : Time) :
    .ask ref (.kill process true) ∈ (p.shutdown now).2 :=
  mem_foldl_acts (P := fun q : Pool => q.Running ref process) (fun _ x hq => hq.kill now x true)
    (fun _ hq => hq.killed now) h.ready h

theorem Running.shutdown (h : p.Running ref process) (now : Time) :
    (p.shutdown now).1.Running ref process :=
  List.foldlRecOn (motive := fun r : Pool × List Act => r.1.Running ref process) p.readyRefs _ h
    fun _ hr x _ => hr.kill now x true

end Pool

namespace Registry

variable {r s : Registry}

theorem mem_shutdown {p : Policy} (hc : (key, a) ∈ r.current) (hp : r.policy? a = some p)
    (h : p.pool.Running i process) (now : Time) :
    ⟨a, i, .kill process true⟩ ∈ (r.shutdown now).2 := by
  refine mem_foldl_acts
    (P := fun s : Registry => ∃ p, s.policy? a = some p ∧ p.pool.Running i process)
    (f := fun (s : Registry) (c : String × PolicyRef) =>
      s.withPool c.2 fun pool => pool.shutdown now)
    (a := (key, a)) ?_ ?_ hc ⟨p, hp, h⟩
  · rintro s ⟨-, b⟩ ⟨p, hp, hrun⟩
    cases hq : s.policy? b with
    | none => exact ⟨p, by simpa only [withPool_of_none _ hq] using hp, hrun⟩
    | some q =>
      have hpolicy := policy?_set (x := a) (q := { q with pool := (q.pool.shutdown now).1 }) hq
        (s := (s.withPool b fun pool => pool.shutdown now).1)
          (by simp [withPool_of_policy _ hq, setPolicy])
      simp only [hpolicy]
      split
      · next hab =>
        subst hab
        obtain rfl : p = q := by simpa [hp] using hq
        exact ⟨_, rfl, hrun.shutdown now⟩
      · exact ⟨p, hp, hrun⟩
  · rintro s ⟨p, hp, hrun⟩
    simp only [withPool_of_policy _ hp]
    exact mem_file_acts (hrun.mem_shutdown now)

-- ---------------------------------------------------------------------------
-- What every reachable registry guarantees
-- ---------------------------------------------------------------------------

def OpenAt (r : Registry) (key : String) (a : PolicyRef) (i : WorkerRef) : Prop :=
  ∃ p w, r.policy? a = some p ∧ p.pool.key = key ∧ p.pool.worker? i = some w ∧
    w.entry.closed = false

structure OneWorkerPerKey (r : Registry) : Prop where
  unique : ∀ key a i b j, r.OpenAt key a i → r.OpenAt key b j → a = b ∧ i = j
  registered : ∀ key a i, r.OpenAt key a i →
    r.lookup? key = some a ∧ ∃ p, r.policy? a = some p ∧ p.retired = false ∧ p.pool.table = [i]
  /-- A retired policy stays so, empty and out of the map, whatever happens. -/
  retired : ∀ a p, r.policy? a = some p → p.retired = true → ∀ s, ReflTransGen Next r s →
    ∃ q, s.policy? a = some q ∧ q.pool.key = p.pool.key ∧ q.retired = true ∧ q.pool.table = [] ∧
      ∀ key, s.lookup? key ≠ some a
  /-- A ready worker is listed until its exit has been handled, and killed by a shutdown unless its
  exit is known. -/
  reached : ∀ a p i w ready, r.policy? a = some p → p.pool.worker? i = some w →
    w.entry.ready? = some ready → ∃ l, w.launched = some l ∧ (l.reaped = false →
      (∃ rows, (p.pool.key, a, rows) ∈ r.rows ∧ Pool.row i w ∈ rows) ∧
      (l.exit.hasExited = false → ∀ now, ⟨a, i, .kill l.process true⟩ ∈ (r.shutdown now).2))

theorem Sound.registered (hr : r.Sound) (h : r.OpenAt key a i) :
    r.lookup? key = some a ∧ ∃ p, r.policy? a = some p ∧ p.retired = false ∧
      p.pool.table = [i] := by
  obtain ⟨p, w, hp, rfl, hw, hopen⟩ := h
  have hsound := hr.policies a p hp
  have hmem : i ∈ p.pool.table := (hsound.pool.table i).mpr ⟨w, hw, hopen⟩
  have hlive : p.retired = false := by
    refine Bool.eq_false_iff.mpr fun hretired => ?_
    rw [hsound.retired hretired] at hmem
    cases hmem
  have htable : p.pool.table = [i] := by
    obtain ⟨x, hx⟩ := List.length_eq_one_iff.mp
      (Nat.le_antisymm hsound.single (List.length_pos_of_mem hmem))
    rw [hx] at hmem ⊢
    rw [List.mem_singleton.mp hmem]
  exact ⟨hr.live a p hp hlive, p, hp, hlive, htable⟩

theorem Sound.notMem_of_retired (hr : r.Sound) (hp : r.policy? a = some p)
    (hretired : p.retired = true) (key : String) : r.lookup? key ≠ some a := by
  intro hl
  obtain ⟨q, hq, -, hlive⟩ := hr.current key a hl
  obtain rfl : p = q := by simpa [hp] using hq
  simp [hretired] at hlive

theorem mem_rows {p : Policy} (hc : (key, a) ∈ r.current) (hp : r.policy? a = some p)
    (hi : i ∈ p.pool.table) (hw : p.pool.worker? i = some w) :
    ∃ rows, (key, a, rows) ∈ r.rows ∧ Pool.row i w ∈ rows := by
  refine ⟨p.pool.rows, List.mem_filterMap.mpr ⟨(key, a), hc, by simp [hp]⟩, ?_⟩
  exact List.mem_filterMap.mpr ⟨i, hi, by simp [hw]⟩

theorem one_worker_per_key (h : r.Reachable) : r.OneWorkerPerKey := by
  have hr := h.sound
  constructor
  · intro key a i b j ha hb
    obtain ⟨hla, p, hp, -, htable⟩ := hr.registered ha
    obtain ⟨hlb, q, hq, -, htable'⟩ := hr.registered hb
    obtain rfl : a = b := Option.some.inj (hla.symm.trans hlb)
    obtain rfl : p = q := Option.some.inj (hp.symm.trans hq)
    rw [htable] at htable'
    exact ⟨rfl, by simpa using htable'⟩
  · exact fun key a i => hr.registered
  · intro a p hp hretired s hs
    have hsound := (h.trans hs).sound
    obtain ⟨q, hq, hkey, hstays⟩ := run_keeps hs hp
    exact ⟨q, hq, hkey, hstays hretired, (hsound.policies a q hq).retired (hstays hretired),
      hsound.notMem_of_retired hq (hstays hretired)⟩
  · intro a p i w ready hp hw hready
    have hpool := (hr.policies a p hp).pool
    have hok : w.entry.outcome = some (.ok ready) := by
      unfold Entry.ready? at hready
      split at hready
      · next heq =>
        cases hready
        exact heq
      · cases hready
    obtain ⟨l, hl, -, hclosed⟩ := (hpool.workers i w hw).ready ready hok
    refine ⟨l, hl, fun hreaped => ?_⟩
    have hopen : w.entry.closed = false := by
      refine Bool.eq_false_iff.mpr fun hc => ?_
      simp [hclosed hc] at hreaped
    have hlisted : i ∈ p.pool.table := (hpool.table i).mpr ⟨w, hw, hopen⟩
    have hcur : (p.pool.key, a) ∈ r.current := by
      obtain ⟨hl, -⟩ := hr.registered ⟨p, w, hp, rfl, hw, hopen⟩
      obtain ⟨l₁, l₂, hsplit, -⟩ := List.lookup_eq_some_iff.mp hl
      exact hsplit ▸ by simp
    refine ⟨mem_rows hcur hp hlisted hw,
      fun hx => mem_shutdown hcur hp ⟨hlisted, w, l, hw, ?_, hl, rfl, hx⟩⟩
    simp [hready]

/-- One application's worker is ready. -/
def servingRegistry : Registry :=
  let r := (({ transport := some 0 } : Registry).policyFor helloApp.key).1
  let r := (r.admissionAt 0 helloApp none "w0").1
  let r := (r.step 0 0 0 (.begin (some 0))).1
  let r := (r.step 0 0 0 (.allocated (.ok ⟨.port 40000, ""⟩) "")).1
  let r := (r.step 5 0 0 (.launched (.ok 7))).1
  (r.step 5 0 0 (.answered true)).1

theorem servingRegistry_reachable : servingRegistry.Reachable :=
  have h := ReflTransGen.single (.lookup (r := { transport := some 0 }) helloApp.key)
  have h := h.tail (.admission 0 helloApp none "w0")
  ⟨some 0, ((((h.tail (.step 0 0 0 _)).tail (.step 0 0 0 _)).tail (.step 5 0 0 _)).tail
    (.step 5 0 0 _))⟩

theorem one_worker_per_key_serving : servingRegistry.OneWorkerPerKey :=
  one_worker_per_key servingRegistry_reachable

end Registry

end AppHost
