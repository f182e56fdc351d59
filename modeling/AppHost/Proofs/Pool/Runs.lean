import AppHost.Proofs.Worker.Sound

/-!
# Runs of a pool

A pool goes on by spawning workers, by whatever happens to one of them, and by being given another
transport. `Pool.Sound` holds in every state it can come to: its workers are sound, and its table
lists exactly those whose entries are open.

`running_listed_or_killed`: a process that a launch has returned stays known to its worker, and as
long as nobody has learned of its exit, its worker is in the table with an open entry, or it has
been sent a forced kill.
-/

namespace AppHost

open Relation (ReflTransGen)

namespace Pool

/-- One thing that can happen to a pool. -/
inductive Next (p : Pool) : Pool → Prop
  | spawn (app : AppSpec) (id : String) (data : List (String × Json)) :
      Next p (p.spawn app id data).1
  | step (now : Time) (ref : WorkerRef) (event : Worker.Event) : Next p (p.step now ref event).1
  | setTransport (transport : TransportRef) : Next p { p with transport := some transport }

def Reachable (p : Pool) : Prop := ∃ key transport, ReflTransGen Next { key, transport } p

theorem Reachable.trans {p q : Pool} (hp : p.Reachable) (h : ReflTransGen Next p q) :
    q.Reachable := by
  obtain ⟨key, transport, hr⟩ := hp
  exact ⟨key, transport, hr.trans h⟩

/-- What can happen to a pool while nobody connects to its workers. -/
inductive Calm (p : Pool) : Pool → Prop
  | spawn (app : AppSpec) (id : String) (data : List (String × Json)) :
      Calm p (p.spawn app id data).1
  | step (now : Time) (ref : WorkerRef) (event : Worker.Event) (h : ∀ kind, event ≠ .acquire kind) :
    Calm p (p.step now ref event).1
  | setTransport (transport : TransportRef) : Calm p { p with transport := some transport }

theorem Calm.next {p q : Pool} (h : Calm p q) : Next p q := by
  cases h with
  | spawn app id data => exact .spawn app id data
  | step now ref event => exact .step now ref event
  | setTransport transport => exact .setTransport transport

/-- What a registry does to a pool on its own account. -/
inductive Own (p : Pool) : Pool → Prop
  | spawn (app : AppSpec) (id : String) (data : List (String × Json)) :
      Own p (p.spawn app id data).1
  | kill (now : Time) (ref : WorkerRef) : Own p (p.step now ref (.kill true)).1
  | setTransport (transport : TransportRef) : Own p { p with transport := some transport }

theorem Own.calm {p q : Pool} (h : Own p q) : Calm p q := by
  cases h with
  | spawn app id data => exact .spawn app id data
  | kill now ref => exact .step now ref (.kill true) (by simp)
  | setTransport transport => exact .setTransport transport

/-- A shutdown is a row of kills. -/
theorem shutdown_own (p : Pool) (now : Time) : ReflTransGen Own p (p.shutdown now).1 :=
  List.foldlRecOn (motive := fun r : Pool × List Act => ReflTransGen Own p r.1) p.readyRefs _ .refl
    fun _ hr ref _ => hr.tail (.kill now ref)

-- ---------------------------------------------------------------------------
-- Steps and spawns
-- ---------------------------------------------------------------------------

section
variable {p : Pool} {ref x : WorkerRef} {w : Worker} {acts : List Worker.Act}

@[simp] theorem settle_workers : (p.settle ref acts).1.workers = p.workers := by
  induction acts generalizing p with
  | nil => rfl
  | cons act acts ih => cases act <;> simp [settle, ih]

@[simp] theorem settle_key : (p.settle ref acts).1.key = p.key := by
  induction acts generalizing p with
  | nil => rfl
  | cons act acts ih => cases act <;> simp [settle, ih]

theorem nodup_settle (hn : p.table.Nodup) : (p.settle ref acts).1.table.Nodup := by
  induction acts generalizing p with
  | nil => exact hn
  | cons act acts ih =>
    cases act with
    | leave announce => exact ih (hn.erase ref)
    | _ => exact ih hn

theorem mem_table_settle (hn : p.table.Nodup) :
    x ∈ (p.settle ref acts).1.table ↔
      x ∈ p.table ∧ (x = ref → ∀ announce, Worker.Act.leave announce ∉ acts) := by
  induction acts generalizing p with
  | nil => simp [settle]
  | cons act acts ih =>
    cases act with
    | leave announce =>
      simp only [settle, ih (p := { p with table := p.table.erase ref }) (hn.erase ref),
        hn.mem_erase_iff]
      constructor
      · rintro ⟨⟨hne, hx⟩, -⟩
        exact ⟨hx, fun h => absurd h hne⟩
      · rintro ⟨hx, hall⟩
        have hne : x ≠ ref := fun h => hall h announce List.mem_cons_self
        exact ⟨⟨hne, hx⟩, fun h => absurd h hne⟩
    | _ => simp [settle, ih hn]

theorem settle_table : (p.settle ref acts).1.table.Sublist p.table := by
  induction acts generalizing p with
  | nil => exact .refl _
  | cons act acts ih =>
    cases act with
    | leave announce =>
      exact (ih (p := { p with table := p.table.erase ref })).trans List.erase_sublist
    | _ => exact ih

theorem settle_table_of_stays (h : ∀ announce, Worker.Act.leave announce ∉ acts) :
    (p.settle ref acts).1.table = p.table := by
  induction acts generalizing p with
  | nil => rfl
  | cons act acts ih =>
    have hrest : ∀ announce, Worker.Act.leave announce ∉ acts :=
      fun announce hmem => h announce (List.mem_cons_of_mem _ hmem)
    cases act with
    | leave announce => exact absurd List.mem_cons_self (h announce)
    | _ => exact ih hrest

theorem mem_settle_acts {act : Worker.Act} (h : act ∈ acts)
    (hstay : ∀ announce, act ≠ .leave announce) : .ask ref act ∈ (p.settle ref acts).2 := by
  induction acts generalizing p with
  | nil => cases h
  | cons a acts ih =>
    rcases List.mem_cons.mp h with rfl | hmem
    · cases act with
      | leave announce => exact absurd rfl (hstay announce)
      | _ => exact List.mem_cons_self
    · cases a with
      | leave announce =>
        simp only [settle]
        split
        · exact List.mem_cons_of_mem _ (ih hmem)
        · exact ih hmem
      | _ => exact List.mem_cons_of_mem _ (ih hmem)

theorem step_of_worker (now : Time) (event : Worker.Event) (hw : p.worker? ref = some w) :
    p.step now ref event = { p with workers := p.workers.set ref (w.step now event).1 }.settle ref
      (w.step now event).2 := by
  simp [step, hw]

theorem step_of_none (now : Time) (event : Worker.Event) (hw : p.worker? ref = none) :
    p.step now ref event = (p, []) := by
  simp [step, hw]

theorem step_worker? (now : Time) (event : Worker.Event) (hw : p.worker? ref = some w) :
    (p.step now ref event).1.worker? x =
      if x = ref then some (w.step now event).1 else p.worker? x := by
  have hlt : ref < p.workers.length := (List.getElem?_eq_some_iff.mp hw).1
  rw [step_of_worker now event hw]
  simp only [worker?, settle_workers, List.getElem?_set, hlt]
  split <;> simp_all [eq_comm]

@[simp] theorem step_key (now : Time) (event : Worker.Event) :
    (p.step now ref event).1.key = p.key := by
  cases hw : p.worker? ref with
  | none => rw [step_of_none now event hw]
  | some w => simp [step_of_worker now event hw]

theorem step_table (p : Pool) (now : Time) (ref : WorkerRef) (event : Worker.Event) :
    (p.step now ref event).1.table.Sublist p.table := by
  cases hw : p.worker? ref with
  | none => simp [step_of_none now event hw]
  | some w =>
    rw [step_of_worker now event hw]
    exact settle_table

theorem shutdown_table (p : Pool) (now : Time) : (p.shutdown now).1.table.Sublist p.table :=
  List.foldlRecOn (motive := fun r : Pool × List Act => r.1.table.Sublist p.table)
    p.readyRefs _ (.refl _)
    fun _ hr ref _ => (step_table _ now ref _).trans hr

theorem spawn_worker? (app : AppSpec) (id : String) (data : List (String × Json)) :
    (p.spawn app id data).1.worker? x =
      if x = p.workers.length then some (Worker.spawned app id data) else p.worker? x := by
  simp only [spawn, worker?]
  split
  · next h => simp [h, Worker.spawned]
  · next h =>
    by_cases hlt : x < p.workers.length
    · rw [List.getElem?_append_left hlt]
    · have hlen : p.workers.length < x := Nat.lt_of_le_of_ne (Nat.le_of_not_lt hlt) (Ne.symm h)
      rw [List.getElem?_eq_none (Nat.le_of_lt hlen), List.getElem?_eq_none]
      rw [List.length_append]
      exact hlen

end

theorem run_key {p q : Pool} (h : ReflTransGen Next p q) : q.key = p.key := by
  induction h with
  | refl => rfl
  | tail _ hstep ih =>
    rw [← ih]
    cases hstep with
    | step now ref event => exact step_key now event
    | _ => rfl

-- ---------------------------------------------------------------------------
-- What all workers are like
-- ---------------------------------------------------------------------------

/-- All workers there ever were are like this. -/
def All (P : WorkerRef → Worker → Prop) (p : Pool) : Prop := ∀ i w, p.worker? i = some w → P i w

section
variable {P : WorkerRef → Worker → Prop} {p q : Pool}

theorem All.step (hp : p.All P) (now : Time) (ref : WorkerRef) {e : Worker.Event}
    (hstep : ∀ w, p.worker? ref = some w → P ref w → P ref (w.step now e).1) :
    (p.step now ref e).1.All P := by
  cases hw : p.worker? ref with
  | none =>
    rw [step_of_none now e hw]
    exact hp
  | some w =>
    intro i v hv
    rw [step_worker? now e hw] at hv
    split at hv
    · next hi =>
      cases hv
      exact hi ▸ hstep w hw (hp ref w hw)
    · exact hp i v hv

theorem Own.all (hspawned : ∀ i app id data, P i (Worker.spawned app id data))
    (hkill : ∀ i w now, P i w → P i (w.kill now true).1) (h : Own p q) (hp : p.All P) :
    q.All P := by
  cases h with
  | spawn app id data =>
    intro i w hw
    rw [spawn_worker?] at hw
    split at hw
    · cases hw
      exact hspawned _ app id data
    · exact hp i w hw
  | kill now ref => exact hp.step now ref fun w _ hw => hkill ref w now hw
  | setTransport => exact hp

end

-- ---------------------------------------------------------------------------
-- Soundness
-- ---------------------------------------------------------------------------

structure Sound (p : Pool) : Prop where
  workers : ∀ ref w, p.worker? ref = some w → w.Sound
  nodup : p.table.Nodup
  table : ∀ ref, ref ∈ p.table ↔ ∃ w, p.worker? ref = some w ∧ w.entry.closed = false

theorem Sound.spawn {p : Pool} (hp : p.Sound) (app : AppSpec) (id : String)
    (data : List (String × Json)) : (p.spawn app id data).1.Sound := by
  have hnew : p.workers.length ∉ p.table := by
    intro h
    obtain ⟨w, hw, -⟩ := (hp.table _).mp h
    simp [worker?] at hw
  constructor
  · intro ref w hw
    rw [spawn_worker?] at hw
    split at hw
    · obtain rfl : Worker.spawned app id data = w := by simpa using hw
      exact Worker.sound_spawned app id data
    · exact hp.workers ref w hw
  · exact List.nodup_append.mpr ⟨hp.nodup, by simp, by
      intro x hx y hy
      obtain rfl : y = p.workers.length := by simpa using hy
      exact fun h => hnew (h ▸ hx)⟩
  · intro ref
    rw [spawn_worker?]
    simp only [Pool.spawn, List.mem_append, List.mem_singleton]
    split
    · next h => simp [h, Worker.spawned]
    · next h => simp [h, hp.table ref]

theorem Sound.step {p : Pool} (hp : p.Sound) (now : Time) (ref : WorkerRef) (event : Worker.Event) :
    (p.step now ref event).1.Sound := by
  cases hw : p.worker? ref with
  | none => rwa [step_of_none now event hw]
  | some w =>
    have hset : ({ p with workers := p.workers.set ref (w.step now event).1 } : Pool).table.Nodup :=
      hp.nodup
    constructor
    · intro x v hv
      rw [step_worker? now event hw] at hv
      split at hv
      · obtain rfl : (w.step now event).1 = v := by simpa using hv
        exact (w.step_effect now event).sound (hp.workers ref w hw)
      · exact hp.workers x v hv
    · rw [step_of_worker now event hw]
      exact nodup_settle hset
    · intro x
      rw [step_worker? now event hw, step_of_worker now event hw, mem_table_settle hset]
      simp only [hp.table x]
      split
      · next h =>
        -- The row goes with the entry: the event closes it exactly when it asks to leave.
        subst h
        simp [hw, w.step_stays now event]
      · next h => simp [h]

theorem Next.sound {p q : Pool} (h : Next p q) (hp : p.Sound) : q.Sound := by
  cases h with
  | spawn app id data => exact hp.spawn app id data
  | step now ref event => exact hp.step now ref event
  | setTransport => exact ⟨hp.workers, hp.nodup, hp.table⟩

theorem Sound.run {p q : Pool} (hp : p.Sound) (h : ReflTransGen Next p q) : q.Sound := by
  induction h with
  | refl => exact hp
  | tail _ hstep ih => exact hstep.sound ih

theorem sound_new (key : String) (transport : Option TransportRef) :
    ({ key, transport } : Pool).Sound :=
  ⟨by simp [worker?], .nil, by simp [worker?]⟩

theorem Reachable.sound {p : Pool} (h : p.Reachable) : p.Sound := by
  obtain ⟨key, transport, hr⟩ := h
  exact (sound_new key transport).run hr

theorem Reachable.worker {p : Pool} {w : Worker} (h : p.Reachable) (hw : p.worker? ref = some w) :
    w.Reachable := by
  obtain ⟨key, transport, hr⟩ := h
  induction hr generalizing ref w with
  | refl => simp [worker?] at hw
  | @tail p _ _ hstep ih =>
    cases hstep with
    | spawn app id data =>
      rw [spawn_worker?] at hw
      split at hw
      · obtain rfl : Worker.spawned app id data = w := by simpa using hw
        exact ⟨app, id, data, .refl⟩
      · exact ih hw
    | step now x event =>
      cases hx : p.worker? x with
      | none => exact ih (by rwa [step_of_none now event hx] at hw)
      | some v =>
        rw [step_worker? now event hx] at hw
        split at hw
        · obtain rfl : (v.step now event).1 = w := by simpa using hw
          exact (ih hx).step now event
        · exact ih hw
    | setTransport => exact ih hw

/-- What every event keeps of a worker is kept of the worker of a number, whatever happens to its
pool. -/
theorem worker_kept {P : Worker → Prop} (hstep : ∀ w now e, w.Sound → P w → P (w.step now e).1)
    {p q : Pool} (hp : p.Sound) (h : ReflTransGen Next p q) (hw : p.worker? ref = some w)
    (hP : P w) : ∃ v, q.worker? ref = some v ∧ P v := by
  induction h with
  | refl => exact ⟨w, hw, hP⟩
  | @tail b c hb hnext ih =>
    obtain ⟨v, hv, hPv⟩ := ih
    cases hnext with
    | spawn app id data =>
      refine ⟨v, ?_, hPv⟩
      rw [spawn_worker?, if_neg, hv]
      exact Nat.ne_of_lt (List.getElem?_eq_some_iff.mp hv).1
    | step now x event =>
      by_cases hx : ref = x
      · subst hx
        exact ⟨_, by rw [step_worker? now event hv, if_pos rfl],
          hstep v now event ((hp.run hb).workers ref v hv) hPv⟩
      · refine ⟨v, ?_, hPv⟩
        cases hy : b.worker? x with
        | none => rw [step_of_none now event hy, hv]
        | some y => rw [step_worker? now event hy, if_neg hx, hv]
    | setTransport => exact ⟨v, hv, hPv⟩

-- ---------------------------------------------------------------------------
-- Connections
-- ---------------------------------------------------------------------------

def tally (p : Pool) (ref : WorkerRef) : Nat :=
  ((p.worker? ref).map (·.entry.connections.tally)).getD 0

section
variable {p q : Pool} {ref x : WorkerRef}

theorem tally_of_worker (hw : p.worker? ref = some w) :
    p.tally ref = w.entry.connections.tally := by
  simp [tally, hw]

theorem tally_step_ne (now : Time) (event : Worker.Event) (hx : x ≠ ref) :
    (p.step now ref event).1.tally x = p.tally x := by
  cases hw : p.worker? ref with
  | none => rw [step_of_none now event hw]
  | some w => simp [tally, step_worker? now event hw, hx]

theorem tally_step_le (now : Time) {event : Worker.Event} (h : ∀ kind, event ≠ .acquire kind) :
    (p.step now ref event).1.tally x ≤ p.tally x := by
  by_cases hx : x = ref
  · subst hx
    cases hw : p.worker? x with
    | none => simp [step_of_none now event hw]
    | some w =>
      have hw' := step_worker? (x := x) now event hw
      rw [if_pos rfl] at hw'
      rw [tally_of_worker hw', tally_of_worker hw]
      exact (w.step_effect now event).tally_le h
  · exact Nat.le_of_eq (tally_step_ne now event hx)

theorem tally_acquire_le (now : Time) (kind : ConnKind) :
    (p.step now ref (.acquire kind)).1.tally x ≤ p.tally x + (if x = ref then 1 else 0) := by
  split
  · next hx =>
    subst hx
    cases hw : p.worker? x with
    | none =>
      rw [step_of_none now _ hw]
      exact Nat.le_succ _
    | some w =>
      have hw' := step_worker? (x := x) now (.acquire kind) hw
      rw [if_pos rfl] at hw'
      rw [tally_of_worker hw', tally_of_worker hw]
      exact w.entry.connections.tally_add_le kind
  · next hx => exact Nat.le_of_eq (tally_step_ne now _ hx)

theorem tally_spawn (app : AppSpec) (id : String) (data : List (String × Json)) :
    (p.spawn app id data).1.tally x = p.tally x := by
  simp only [tally, spawn_worker?]
  split
  · next hx => simp [hx, worker?, Worker.spawned, Connections.tally]
  · rfl

theorem calm_tally_le (h : ReflTransGen Calm p q) (x : WorkerRef) : q.tally x ≤ p.tally x := by
  induction h with
  | refl => exact Nat.le_refl _
  | tail _ hstep ih =>
    refine Nat.le_trans ?_ ih
    cases hstep with
    | spawn app id data => exact Nat.le_of_eq (tally_spawn app id data)
    | step now ref event h => exact tally_step_le now h
    | setTransport => exact Nat.le_refl _

end

-- ---------------------------------------------------------------------------
-- Processes
-- ---------------------------------------------------------------------------

theorem process_kept {p q : Pool} (hp : p.Sound) (h : ReflTransGen Next p q)
    (hw : p.worker? ref = some w) (hl : w.launched = some l) :
    ∃ v k, q.worker? ref = some v ∧ v.launched = some k ∧ k.process = l.process := by
  obtain ⟨v, hv, k, hk, hproc⟩ :=
    worker_kept (P := fun v => ∃ k, v.launched = some k ∧ k.process = l.process)
      (fun v now event hsound ⟨k, hk, hproc⟩ => by
        obtain ⟨k', hk', hproc', -⟩ := (v.step_effect now event).process hsound hk
        exact ⟨k', hk', hproc'.trans hproc⟩) hp h hw ⟨l, hl, rfl⟩
  exact ⟨v, k, hv, hk, hproc⟩

/-- From the moment a launch returns a process, and whatever happens to the pool from then on, its
worker keeps it. Until its exit has been reported, or the worker's exit task has dealt with it, the
worker is in the table with an open entry or the process has been sent a forced kill. -/
theorem running_listed_or_killed {p q : Pool} {w : Worker} (hp : p.Reachable)
    (hw : p.worker? ref = some w) (hs : w.stage = .launching via endpoint log)
    (hq : ReflTransGen Next (p.step now ref (.launched (.ok process))).1 q) :
    ∃ v l, q.worker? ref = some v ∧ v.launched = some l ∧ l.process = process ∧
      (l.exit.hasExited = false → l.reaped = false →
        (ref ∈ q.table ∧ v.entry.closed = false) ∨ ∃ t, (t, true) ∈ l.kills) := by
  have hstart : (p.step now ref (.launched (.ok process))).1.Sound := hp.sound.step now ref _
  have hworker : (p.step now ref (.launched (.ok process))).1.worker? ref =
      some (w.step now (.launched (.ok process))).1 := by
    rw [step_worker? now _ hw, if_pos rfl]
  have hlaunched : (w.step now (.launched (.ok process))).1.launched =
      some { endpoint, log, process } := by
    simp [Worker.step, hs]
  obtain ⟨v, l, hv, hl, hproc⟩ := process_kept hstart hq hworker hlaunched
  have hsound : q.Sound := ((hp.trans (.single (.step now ref _))).trans hq).sound
  refine ⟨v, l, hv, hl, hproc, fun hx hr => ?_⟩
  obtain hopen | hkill := (hsound.workers ref v hv).held l hl hr hx
  · exact .inl ⟨(hsound.table ref).mpr ⟨v, hv, hopen⟩, hopen⟩
  · exact .inr hkill

/-- Its only worker is about to be launched. -/
def launchingPool : Pool :=
  let p := (({ key := "hello", transport := some 0 } : Pool).spawn helloApp "w0" []).1
  ((p.step 0 0 (.begin (some 0))).1.step 0 0 (.allocated (.ok ⟨.port 40000, ""⟩) "")).1

theorem launchingPool_reachable : launchingPool.Reachable :=
  ⟨"hello", some 0, .tail (.tail (.single (.spawn helloApp "w0" [])) (.step 0 0 _)) (.step 0 0 _)⟩

/-- The worker does not answer in time. -/
def overduePool : Pool := ((launchingPool.step 5 0 (.launched (.ok 7))).1.step 60005 0 .overdue).1

theorem running_listed_or_killed_overdue :
    ∃ v l, overduePool.worker? 0 = some v ∧ v.launched = some l ∧ l.process = 7 ∧
      (l.exit.hasExited = false → l.reaped = false →
        (0 ∈ overduePool.table ∧ v.entry.closed = false) ∨ ∃ t, (t, true) ∈ l.kills) :=
  running_listed_or_killed launchingPool_reachable rfl rfl (.single (.step 60005 0 .overdue))

end Pool

end AppHost
