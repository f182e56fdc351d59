import AppHost.Registry
import AppHost.Proofs.Pool.Runs
import AppHost.Proofs.Worker.Settling
import Std.Data.HashMap.Lemmas

/-!
# The table and its names

The host finds a pool's workers by name. `Named` runs the map that it keeps for this beside the
pool: a spawn files the new worker under its name, whoever stood there before, and a worker that
leaves takes away what stands under its name, whoever that is by now. As long as no name is used
twice, the map lists exactly the workers of the table.

`table_membership`: a worker is listed for as long as its entry is open, in the table and under its
name. A worker that failed is not listed, so that no request is sent to it, and none that has gone
comes back. What happens to one worker changes nothing for another.
-/

namespace AppHost

open Relation (ReflTransGen)
open Std (HashMap)

-- ---------------------------------------------------------------------------
-- Failures
-- ---------------------------------------------------------------------------

/-- Whoever waited for the worker has been told of a failure. -/
def Entry.failed (e : Entry) : Prop := ∃ failure, e.outcome = some (.error failure)

namespace Worker

/-- A worker fails by the very step that closes its entry. -/
theorem Effect.failed (h : Effect w now e w' acts) (hw : w.entry.failed → w.entry.closed = true)
    (hf : w'.entry.failed) : w'.entry.closed = true := by
  obtain ⟨failure, ho⟩ := hf
  cases h with
  | readied =>
    simp only [becomeReady, Entry.armIdle_outcome, Entry.resolve_outcome, Entry.armIdle_closed,
      Entry.resolve_closed] at ho ⊢
    cases hout : w.entry.outcome with
    | none => simp [hout] at ho
    | some o => exact hw ⟨failure, by simpa [hout] using ho⟩
  | refused | unallocated | unlaunched | handled => simp [abandon, cleanUp]
  | timedOut => simp [timeOut, kill_eq]
  | stopped | killed =>
    rw [kill_eq] at ho ⊢
    exact hw ⟨failure, ho⟩
  | fired | acquired | released | pushed | shifted => simpa using hw ⟨failure, by simpa using ho⟩
  | _ => exact hw ⟨failure, ho⟩

theorem Reachable.failed (h : Reachable w) : w.entry.failed → w.entry.closed = true := by
  refine h.keeps ?_ fun _ heff => heff.failed
  rintro app id data ⟨failure, ho⟩
  cases ho

end Worker

namespace Pool

section
variable {p q : Pool} {ref x : WorkerRef} {w : Worker}

theorem Reachable.unfailed (h : p.Reachable) (hw : p.worker? ref = some w) (hmem : ref ∈ p.table) :
    ¬w.entry.failed := by
  intro hf
  obtain ⟨v, hv, hopen⟩ := (h.sound.table ref).mp hmem
  obtain rfl := Option.some.inj (hv.symm.trans hw)
  simp [(h.worker hw).failed hf] at hopen

theorem Reachable.rows (h : p.Reachable) : ∀ row ∈ p.rows, row.status ≠ .failed := by
  intro r hr hstatus
  obtain ⟨ref, hmem, hrow⟩ := List.mem_filterMap.mp hr
  obtain ⟨w, hw, rfl⟩ := Option.map_eq_some_iff.mp hrow
  refine h.unfailed hw hmem ?_
  cases ho : w.entry.outcome with
  | none => simp [row, ho] at hstatus
  | some o =>
    cases o with
    | ok ready => simp [row, ho] at hstatus
    | error failure => exact ⟨failure, ho⟩

-- ---------------------------------------------------------------------------
-- Gone for good
-- ---------------------------------------------------------------------------

theorem closed_kept (hp : p.Sound) (h : ReflTransGen Next p q) (hw : p.worker? ref = some w)
    (hc : w.entry.closed = true) : ∃ v, q.worker? ref = some v ∧ v.entry.closed = true :=
  worker_kept (fun v now event _ hclosed => (v.step_leaves now event).mpr (.inl hclosed)) hp h hw hc

theorem step_apart (hp : p.Sound) (now : Time) (event : Worker.Event) (hx : x ≠ ref) :
    (p.step now ref event).1.worker? x = p.worker? x ∧
      (x ∈ (p.step now ref event).1.table ↔ x ∈ p.table) := by
  have hsame : (p.step now ref event).1.worker? x = p.worker? x := by
    cases hw : p.worker? ref with
    | none => rw [step_of_none now event hw]
    | some w => rw [step_worker? now event hw, if_neg hx]
  rw [(hp.step now ref event).table x, hp.table x, hsame]
  exact ⟨rfl, .rfl⟩

end

end Pool

-- ---------------------------------------------------------------------------
-- Admission
-- ---------------------------------------------------------------------------

namespace Policy

variable {p : Policy} {app : AppSpec} {url : Option String} {id : String} {ref : WorkerRef}

theorem admission_ok (h : (p.admission app url id).2 = .ok ref) :
    (p.pool.first? = none ∧ ref = p.pool.workers.length ∧
        (p.admission app url id).1 = { p with pool := (p.pool.spawn app id []).1 }) ∨
      (p.pool.first? = some ref ∧ (p.admission app url id).1 = p) := by
  unfold Policy.admission at h ⊢
  split at h
  · cases h
  · next hretired =>
    rw [if_neg hretired]
    split at h
    · next hfirst =>
      refine .inl ⟨hfirst, ?_, by simp⟩
      simpa [Pool.spawn, eq_comm] using h
    · next i hfirst =>
      dsimp only at h
      split at h
      · cases h
      · next hlimit =>
        obtain rfl : i = ref := by simpa using h
        exact .inr ⟨hfirst, by simp [hlimit]⟩

theorem admission_unfailed (hp : p.pool.Reachable) (h : (p.admission app url id).2 = .ok ref) :
    ∃ w, (p.admission app url id).1.pool.worker? ref = some w ∧ ¬w.entry.failed := by
  obtain ⟨-, rfl, heq⟩ | ⟨hfirst, heq⟩ := admission_ok h
  · refine ⟨Worker.spawned app id [], by simp [heq, Pool.spawn_worker?], ?_⟩
    rintro ⟨failure, ho⟩
    cases ho
  · have hmem : ref ∈ p.pool.table := List.mem_of_mem_head? hfirst
    obtain ⟨w, hw, -⟩ := (hp.sound.table ref).mp hmem
    exact ⟨w, by rw [heq, hw], hp.unfailed hw hmem⟩

end Policy

namespace Pool

-- ---------------------------------------------------------------------------
-- Names
-- ---------------------------------------------------------------------------

def ids (p : Pool) : List String := p.workers.map (·.entry.id)

theorem ids_step (p : Pool) (now : Time) (ref : WorkerRef) (event : Worker.Event) :
    (p.step now ref event).1.ids = p.ids := by
  cases hw : p.worker? ref with
  | none => rw [step_of_none now event hw]
  | some w =>
    refine List.ext_getElem? fun x => ?_
    have hworker := step_worker? (x := x) now event hw
    simp only [worker?] at hworker hw
    simp only [ids, List.getElem?_map, hworker]
    split
    · next hx => simp [hx, hw, (w.step_effect now event).id]
    · rfl

/-- A pool with the map from names to workers that is kept of it. -/
structure Named where
  pool : Pool
  names : HashMap String WorkerRef := {}

namespace Named

variable {n m : Named} {ref x : WorkerRef} {w : Worker}

def spawn (n : Named) (app : AppSpec) (id : String) (data : List (String × Json)) : Named where
  pool := (n.pool.spawn app id data).1
  names := n.names.insert id n.pool.workers.length

def leaves : Worker.Act → Bool
  | .leave _ => true
  | _ => false

def step (n : Named) (now : Time) (ref : WorkerRef) (event : Worker.Event) : Named where
  pool := (n.pool.step now ref event).1
  names := match n.pool.worker? ref with
    | none => n.names
    | some w => if (w.step now event).2.any leaves then n.names.erase w.entry.id else n.names

inductive Next (n : Named) : Named → Prop
  | spawn (app : AppSpec) (id : String) (data : List (String × Json)) : Next n (n.spawn app id data)
  | step (now : Time) (ref : WorkerRef) (event : Worker.Event) : Next n (n.step now ref event)
  | setTransport (transport : TransportRef) :
    Next n { n with pool := { n.pool with transport := some transport } }

def Reachable (n : Named) : Prop :=
  ∃ key transport, ReflTransGen Next { pool := { key, transport } } n

theorem Next.pool (h : Next n m) : Pool.Next n.pool m.pool := by
  cases h with
  | spawn app id data => exact .spawn app id data
  | step now ref event => exact .step now ref event
  | setTransport transport => exact .setTransport transport

theorem run_pool (h : ReflTransGen Next n m) : ReflTransGen Pool.Next n.pool m.pool :=
  h.lift pool fun _ _ => Next.pool

theorem Reachable.pool (h : n.Reachable) : n.pool.Reachable := by
  obtain ⟨key, transport, hr⟩ := h
  exact ⟨key, transport, run_pool hr⟩

theorem Next.ids (h : Next n m) : n.pool.ids <+: m.pool.ids := by
  cases h with
  | spawn app id data => exact ⟨[id], by simp [Named.spawn, Pool.spawn, Pool.ids]⟩
  | step now ref event => exact (ids_step n.pool now ref event).symm ▸ List.prefix_rfl
  | setTransport => exact List.prefix_rfl

theorem ids_inj {v : Worker} (h : n.pool.ids.Nodup) (hv : n.pool.worker? x = some v)
    (hw : n.pool.worker? ref = some w) (hid : v.entry.id = w.entry.id) : x = ref := by
  have hlt : x < n.pool.ids.length := by
    simpa [Pool.ids] using (List.getElem?_eq_some_iff.mp hv).1
  refine (List.getElem?_inj hlt h).mp ?_
  simp only [worker?] at hv hw
  simp [Pool.ids, hv, hw, hid]

/-- Under each name stands the one worker with this name and an open entry. -/
def Exact (n : Named) : Prop :=
  ∀ (id : String) ref, n.names[id]? = some ref ↔
    ∃ w, n.pool.worker? ref = some w ∧ w.entry.id = id ∧ w.entry.closed = false

theorem Exact.spawn (hn : n.Exact) (app : AppSpec) (id : String) (data : List (String × Json))
    (hids : (n.spawn app id data).pool.ids.Nodup) : (n.spawn app id data).Exact := by
  intro id' ref
  have hnew : (n.spawn app id data).pool.worker? n.pool.workers.length =
      some (Worker.spawned app id data) := by
    simp [Named.spawn, spawn_worker?]
  by_cases hid : id = id'
  · subst hid
    have hget : (n.spawn app id data).names[id]? = some n.pool.workers.length := by
      simp [Named.spawn]
    rw [hget]
    constructor
    · rintro ⟨⟩
      exact ⟨_, hnew, rfl, rfl⟩
    · rintro ⟨w, hw, hid, -⟩
      rw [ids_inj hids hw hnew hid]
  · have hget : (n.spawn app id data).names[id']? = n.names[id']? := by
      simp [Named.spawn, HashMap.getElem?_insert, hid]
    rw [hget, hn id' ref]
    refine exists_congr fun w => and_congr_left fun ⟨hw, _⟩ => ?_
    simp only [Named.spawn, spawn_worker?]
    split
    · next hlen =>
      have hnone : n.pool.worker? ref = none := by simp [worker?, hlen]
      have hne : Worker.spawned app id data ≠ w := fun heq => hid (by rw [← hw, ← heq]; rfl)
      simp [hnone, hne]
    · exact .rfl

theorem any_leaves {acts : List Worker.Act} :
    acts.any leaves = true ↔ ∃ announce, .leave announce ∈ acts := by
  rw [List.any_eq_true]
  constructor
  · rintro ⟨act, hmem, hact⟩
    cases act with
    | leave announce => exact ⟨announce, hmem⟩
    | _ => cases hact
  · rintro ⟨announce, hmem⟩
    exact ⟨_, hmem, rfl⟩

theorem step_names (now : Time) (event : Worker.Event) (hw : n.pool.worker? ref = some w) :
    (n.step now ref event).names =
      if (w.step now event).2.any leaves then n.names.erase w.entry.id else n.names := by
  simp [Named.step, hw]

theorem Exact.step_self (hn : n.Exact) (now : Time) (event : Worker.Event)
    (hw : n.pool.worker? ref = some w) (id : String) :
    (n.step now ref event).names[id]? = some ref ↔
      w.entry.id = id ∧ (w.step now event).1.entry.closed = false := by
  rw [step_names now event hw]
  by_cases hleave : (w.step now event).2.any leaves = true
  · obtain ⟨announce, hmem⟩ := any_leaves.mp hleave
    have hclosed := (w.step_leaves now event).mpr (.inr ⟨announce, hmem⟩)
    rw [if_pos hleave, HashMap.getElem?_erase]
    simp only [hclosed, Bool.true_eq_false, and_false, iff_false]
    split
    · simp
    · next hid =>
      rw [hn id ref]
      rintro ⟨v, hv, rfl, -⟩
      obtain rfl := Option.some.inj (hw.symm.trans hv)
      simp at hid
  · have hnone : ∀ announce, Worker.Act.leave announce ∉ (w.step now event).2 :=
      fun announce hmem => hleave (any_leaves.mpr ⟨announce, hmem⟩)
    rw [if_neg hleave, hn id ref]
    simp [hw, w.step_stays now event, hnone]

/-- Whatever is struck off, it does not stand under the name of another worker. -/
theorem Exact.step_other (hn : n.Exact) (hids : n.pool.ids.Nodup) (now : Time)
    (event : Worker.Event) (hx : x ≠ ref) (id : String) :
    (n.step now ref event).names[id]? = some x ↔ n.names[id]? = some x := by
  cases hw : n.pool.worker? ref with
  | none => simp [Named.step, hw]
  | some w =>
    rw [step_names now event hw]
    split
    · rw [HashMap.getElem?_erase]
      split
      · next hid =>
        obtain rfl : w.entry.id = id := by simpa using hid
        simp only [reduceCtorEq, false_iff]
        intro hget
        obtain ⟨v, hv, hid, -⟩ := (hn _ x).mp hget
        exact hx (ids_inj hids hv hw hid)
      · exact .rfl
    · exact .rfl

theorem Exact.step (hn : n.Exact) (now : Time) (ref : WorkerRef) (event : Worker.Event)
    (hids : n.pool.ids.Nodup) : (n.step now ref event).Exact := by
  cases hw : n.pool.worker? ref with
  | none => simpa [Exact, Named.step, hw, step_of_none now event hw] using hn
  | some w =>
    intro id x
    have hpool : (n.step now ref event).pool.worker? x =
        if x = ref then some (w.step now event).1 else n.pool.worker? x := step_worker? now event hw
    rw [hpool]
    by_cases hx : x = ref
    · subst hx
      rw [hn.step_self now event hw id]
      simp [(w.step_effect now event).id]
    · rw [hn.step_other hids now event hx id, if_neg hx, hn id x]

theorem Reachable.exact (h : n.Reachable) (hids : n.pool.ids.Nodup) : n.Exact := by
  obtain ⟨key, transport, hr⟩ := h
  induction hr with
  | refl => simp [Exact, worker?]
  | @tail b c _ hstep ih =>
    have hb : b.pool.ids.Nodup := hids.sublist hstep.ids.sublist
    cases hstep with
    | spawn app id data => exact (ih hb).spawn app id data hids
    | step now ref event => exact (ih hb).step now ref event hb
    | setTransport => exact ih hb

-- ---------------------------------------------------------------------------
-- Membership
-- ---------------------------------------------------------------------------

structure TableMembership (n : Named) : Prop where
  listed : ∀ ref w, n.pool.worker? ref = some w →
    (ref ∈ n.pool.table ↔ w.entry.closed = false) ∧
      (n.names[w.entry.id]? = some ref ↔ w.entry.closed = false)
  known : ∀ ref ∈ n.pool.table, ∃ w, n.pool.worker? ref = some w ∧ n.names[w.entry.id]? = some ref
  named : ∀ (id : String) ref, n.names[id]? = some ref →
    ref ∈ n.pool.table ∧ ∃ w, n.pool.worker? ref = some w ∧ w.entry.id = id
  unfailed : ∀ ref ∈ n.pool.table, ∀ w, n.pool.worker? ref = some w →
    ∀ failure, w.entry.outcome ≠ some (.error failure)
  shown : ∀ row ∈ n.pool.rows, row.status ≠ .failed
  admitted : ∀ retired app url id ref, (Policy.admission ⟨n.pool, retired⟩ app url id).2 = .ok ref →
    ∃ w, (Policy.admission ⟨n.pool, retired⟩ app url id).1.pool.worker? ref = some w ∧
      ∀ failure, w.entry.outcome ≠ some (.error failure)
  /-- Whatever happens from now on, a worker that has left is not listed again. -/
  left : ∀ ref < n.pool.workers.length, ref ∉ n.pool.table → ∀ m, ReflTransGen Next n m →
    ref ∉ m.pool.table ∧ (m.pool.ids.Nodup → ∀ id : String, m.names[id]? ≠ some ref)
  /-- Whatever happens to one worker, every other stays as it is, and listed if it was. -/
  apart : ∀ now ref event x, x ≠ ref →
    (n.step now ref event).pool.worker? x = n.pool.worker? x ∧
      (x ∈ (n.step now ref event).pool.table ↔ x ∈ n.pool.table) ∧
      ∀ id : String, (n.step now ref event).names[id]? = some x ↔ n.names[id]? = some x

theorem table_membership (h : n.Reachable) (hids : n.pool.ids.Nodup) : n.TableMembership := by
  have hsound : n.pool.Sound := h.pool.sound
  have hexact : n.Exact := h.exact hids
  have hlisted : ∀ ref w, n.pool.worker? ref = some w →
      (ref ∈ n.pool.table ↔ w.entry.closed = false) := by
    intro ref w hw
    simp [hsound.table ref, hw]
  refine ⟨?listed, ?known, ?named, ?unfailed, h.pool.rows, ?admitted, ?left, ?apart⟩
  case listed =>
    intro ref w hw
    refine ⟨hlisted ref w hw, ?_⟩
    rw [hexact]
    simp [hw]
  case known =>
    intro ref hmem
    obtain ⟨w, hw, hopen⟩ := (hsound.table ref).mp hmem
    exact ⟨w, hw, (hexact _ ref).mpr ⟨w, hw, rfl, hopen⟩⟩
  case named =>
    intro id ref hget
    obtain ⟨w, hw, hid, hopen⟩ := (hexact id ref).mp hget
    exact ⟨(hlisted ref w hw).mpr hopen, w, hw, hid⟩
  case unfailed => exact fun ref hmem w hw failure ho => h.pool.unfailed hw hmem ⟨failure, ho⟩
  case admitted =>
    intro retired app url id ref ha
    obtain ⟨w, hw, hf⟩ := Policy.admission_unfailed (p := ⟨n.pool, retired⟩) h.pool ha
    exact ⟨w, hw, fun failure ho => hf ⟨failure, ho⟩⟩
  case left =>
    intro ref hlt hnot m hrun
    obtain ⟨w, hw⟩ : ∃ w, n.pool.worker? ref = some w := ⟨_, List.getElem?_eq_getElem hlt⟩
    have hclosed : w.entry.closed = true := by simpa [hlisted ref w hw] using hnot
    obtain ⟨v, hv, hclosed⟩ := closed_kept hsound (run_pool hrun) hw hclosed
    obtain ⟨key, transport, hr⟩ := h
    have hm : m.Reachable := ⟨key, transport, hr.trans hrun⟩
    constructor
    · simp [hm.pool.sound.table ref, hv, hclosed]
    · intro hmids id hget
      obtain ⟨u, hu, -, hopen⟩ := (hm.exact hmids id ref).mp hget
      obtain rfl := Option.some.inj (hu.symm.trans hv)
      simp [hclosed] at hopen
  case apart =>
    intro now ref event x hx
    obtain ⟨hsame, htable⟩ := step_apart hsound now event hx
    exact ⟨hsame, htable, hexact.step_other hids now event hx⟩

/-- The first worker has missed its deadline and left, the second is about to be launched. -/
def pairNamed : Named :=
  let n :=
    (({ pool := { key := "hello", transport := some 0 } } : Named).spawn helloApp "w0" []).step 0 0
      (.begin (some 0))
  let n := (n.step 0 0 (.allocated (.ok ⟨.port 40000, ""⟩) "")).step 5 0 (.launched (.ok 7))
  ((n.step 60005 0 .overdue).spawn helloApp "w1" []).step 60005 1 (.begin (some 0))

theorem pairNamed_reachable : pairNamed.Reachable :=
  ⟨"hello", some 0, .tail (.tail (.tail (.tail (.tail (.tail (.single (.spawn helloApp "w0" []))
    (.step 0 0 (.begin (some 0)))) (.step 0 0 (.allocated (.ok ⟨.port 40000, ""⟩) "")))
    (.step 5 0 (.launched (.ok 7)))) (.step 60005 0 .overdue)) (.spawn helloApp "w1" []))
    (.step 60005 1 (.begin (some 0)))⟩

theorem table_membership_pair : pairNamed.pool.table = [1] ∧ pairNamed.TableMembership :=
  ⟨rfl, table_membership pairNamed_reachable (by decide)⟩

end Named

end Pool

end AppHost
