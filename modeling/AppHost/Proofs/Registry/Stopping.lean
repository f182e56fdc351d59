import AppHost.Proofs.Pool.Table
import AppHost.Proofs.Registry.Crowd
import AppHost.Proofs.Registry.OneWorker
import AppHost.Proofs.Worker.Leaving

/-!
# Workers that were asked to stop

The task that watches a worker for idleness asks its process to end and has done its work then. The
entry stays in the table until the process has exited and the exit task has cleaned up after it, and
nothing marks it as on its way out meanwhile: requests keep being sent to it.

`serves_until_exit`: no request is sent to a worker that has been cleaned up after, and a worker
that was asked to stop is sent every request below its limit until then.
-/

namespace AppHost

open Relation (ReflTransGen)

namespace Worker

variable {w w' : Worker} {now : Time} {e : Event} {acts : List Act} {process : Nat}

/-- A worker is watched for idleness once it has been told of. -/
theorem Effect.watched (h : Effect w now e w' acts)
    (hw : w.stage.phase = .reaping → w.entry.outcome ≠ none) (hs : w'.stage.phase = .reaping) :
    w'.entry.outcome ≠ none := by
  have hkeep : w.stage.phase = .reaping → w'.entry.outcome ≠ none := by
    intro hphase
    obtain ⟨o, ho⟩ := Option.ne_none_iff_exists'.mp (hw hphase)
    simp [h.outcome ho]
  rcases h.reaping hs with hphase | hphase
  · exact hkeep hphase
  · cases h with
    | readied => simp [becomeReady]
    | timedOut | stopped | killed => simp_all [timeOut, kill_eq, Stage.phase]
    | _ => simp_all [cleanUp, Stage.phase]

theorem Reachable.watched (h : w.Reachable) : w.stage.phase = .reaping → w.entry.outcome ≠ none :=
  h.keeps (fun _ _ _ => nofun) fun _ heff => heff.watched

/-- The spawn task has ended, and what is left to be done for the process is to clean up. -/
structure Stopping (process : Nat) (w : Worker) : Prop where
  finished : w.stage = .finished
  launched : ∃ l, w.launched = some l ∧ l.process = process ∧
    (w.entry.closed = true ↔ l.reaped = true) ∧
    (l.reaped = false → ∃ ready, w.entry.outcome = some (.ok ready) ∧ ready.process = process)

theorem Stopping.follow {f : Launched → Launched} (hw : w.Stopping process)
    (hf : ∀ l : Launched, l.Follows (f l)) :
    { w with launched := w.launched.map f }.Stopping process := by
  obtain ⟨hs, l, hl, hproc, hclosed, hready⟩ := hw
  refine ⟨hs, f l, by simp [hl], (hf l).process.trans hproc, ?_, ?_⟩
  · rwa [(hf l).reaped]
  · rwa [(hf l).reaped]

theorem Stopping.happen (hw : w.Stopping process) (h : Effect w now e w' acts) :
    w'.Stopping process := by
  have hs := hw.finished
  cases h with
  | ignored => exact hw
  | exited => exact hw.follow fun l => l.follows_resolve _
  | abandoned => exact hw.follow fun l => l.follows_abandon
  | killed =>
    rw [kill_eq]
    exact hw.follow fun l => l.follows_killed now _
  | handled hl =>
    obtain ⟨-, k, hk, hproc, -⟩ := hw
    obtain rfl := Option.some.inj (hl.symm.trans hk)
    exact ⟨hs, _, rfl, hproc, by simp [cleanUp], by simp⟩
  | fired | acquired | released | pushed | shifted =>
    obtain ⟨-, l, hl, hproc, hclosed, hready⟩ := hw
    exact ⟨hs, l, hl, hproc, by simpa using hclosed, by simpa using hready⟩
  | _ => simp_all [Stage.phase]

theorem stopped_of_mem (hmem : .kill process false ∈ (w.step now .lingered).2) :
    ∃ since l, w.stage = .lingering since ∧ w.launched = some l ∧ l.process = process ∧
      (w.step now .lingered).1 =
      ({ w.unread with dropLog := true, stage := .finished }.kill now false).1 := by
  have h := w.step_effect now .lingered
  generalize (w.step now .lingered).1 = w', (w.step now .lingered).2 = acts at h hmem
  cases h with
  | stopped hs =>
    obtain ⟨l, hl, -, heq⟩ := mem_kill_acts.mp hmem
    cases heq
    exact ⟨_, l, hs, hl, rfl, rfl⟩
  | _ => simp at hmem

theorem Reachable.stopping (h : w.Reachable)
    (hmem : .kill process false ∈ (w.step now .lingered).2) :
    (w.step now .lingered).1.Stopping process := by
  obtain ⟨since, l, hs, hl, hproc, heq⟩ := stopped_of_mem hmem
  have hphase : w.stage.phase = .reaping := by rw [hs]; rfl
  obtain ⟨k, hk, hclosed⟩ := h.sound.attended (.inr hphase)
  obtain rfl := Option.some.inj (hl.symm.trans hk)
  rw [heq, kill_eq]
  refine Stopping.follow (w := { w.unread with dropLog := true, stage := .finished }) ?_
    fun l => l.follows_killed now false
  refine ⟨rfl, l, hl, hproc, ⟨hclosed, h.cleared.reaped l hl⟩, fun hreaped => ?_⟩
  have hopen : w.entry.closed ≠ true := fun hc => by simp [hclosed hc] at hreaped
  obtain ⟨o, ho⟩ := Option.ne_none_iff_exists'.mp (h.watched hphase)
  cases o with
  | error failure => exact absurd (h.failed ⟨failure, ho⟩) hopen
  | ok ready =>
    obtain ⟨k, hk, rfl, -⟩ := h.sound.ready ready ho
    obtain rfl := Option.some.inj (hl.symm.trans hk)
    exact ⟨_, ho, hproc⟩

end Worker

namespace Registry

variable {r s : Registry} {a : PolicyRef} {i : WorkerRef} {w : Worker}

theorem Reachable.worker (h : r.Reachable) (hw : r.worker? a i = some w) : w.Reachable := by
  obtain ⟨p, hp, hw⟩ := Option.bind_eq_some_iff.mp hw
  exact (h.pool hp).worker hw

theorem worker?_step (now : Time) (event : Worker.Event) (hw : r.worker? a i = some w) :
    (r.step now a i event).1.worker? a i = some (w.step now event).1 := by
  obtain ⟨p, hp, hw⟩ := Option.bind_eq_some_iff.mp hw
  have hstep : (r.step now a i event).1.policy? a =
      some { p with pool := (p.pool.step now i event).1 } := by
    rw [policy?_step now i event hp, if_pos rfl]
  exact Option.bind_eq_some_iff.mpr ⟨_, hstep, by rw [Pool.step_worker? now event hw, if_pos rfl]⟩

theorem Sound.admitted (hr : r.Sound) (app : AppSpec) (url : Option String) (id : String)
    (h : (r.admissionAt a app url id).2 = .ok i) :
    ∃ w, (r.admissionAt a app url id).1.worker? a i = some w ∧ w.entry.closed = false := by
  cases hp : r.policy? a with
  | none => simp [admissionAt, hp] at h
  | some p =>
    have hok : (p.admission app url id).2 = .ok i := by simpa [admissionAt, hp] using h
    have hset : (r.admissionAt a app url id).1.policy? a = some (p.admission app url id).1 := by
      rw [policy?_set (s := (r.admissionAt a app url id).1) (q := (p.admission app url id).1) hp
        (by simp [admissionAt, hp, setPolicy]), if_pos rfl]
    simp only [worker?, hset, Option.bind_some]
    obtain ⟨-, rfl, heq⟩ | ⟨hfirst, heq⟩ := Policy.admission_ok hok
    · exact ⟨Worker.spawned app id [], by simp [heq, Pool.spawn_worker?], rfl⟩
    · rw [heq]
      exact ((hr.policies a p hp).pool.table i).mp (List.mem_of_mem_head? hfirst)

theorem Reachable.admitted (h : r.Reachable) (app : AppSpec) (url : Option String) (id : String)
    (hok : (r.admissionAt a app url id).2 = .ok i) :
    ∃ w, (r.admissionAt a app url id).1.worker? a i = some w ∧ w.entry.closed = false ∧
      ∀ l, w.launched = some l → l.reaped = false := by
  obtain ⟨w, hw, hopen⟩ := h.sound.admitted app url id hok
  have hreach := (h.trans (.single (.admission a app url id))).worker hw
  refine ⟨w, hw, hopen, fun l hl => Bool.eq_false_iff.mpr fun hreaped => ?_⟩
  simp [hreach.cleared.reaped l hl hreaped] at hopen

theorem Reachable.not_admitted (h : r.Reachable) (hw : r.worker? a i = some w)
    (hc : w.entry.closed = true) (app : AppSpec) (url : Option String) (id : String) :
    (r.admissionAt a app url id).2 ≠ .ok i := by
  intro hok
  obtain ⟨u, hu, hopen, -⟩ := h.admitted app url id hok
  obtain ⟨v, hv, hclosed⟩ := worker_kept (P := fun v => v.entry.closed = true)
    (fun v now e _ hc => (v.step_leaves now e).mpr (.inl hc)) h.sound
    (.single (.admission a app url id)) hw hc
  obtain rfl := Option.some.inj (hu.symm.trans hv)
  simp [hclosed] at hopen

structure ServesUntilExit (r : Registry) : Prop where
  /-- No request is sent to a worker that has been cleaned up after. -/
  admitted : ∀ a app url id i, (r.admissionAt a app url id).2 = .ok i →
    ∃ w, (r.admissionAt a app url id).1.worker? a i = some w ∧ w.entry.closed = false ∧
      ∀ l, w.launched = some l → l.reaped = false
  /-- From the kill request on the process is cleaned up after or the one requests are sent to. -/
  stopping : ∀ now a i w process, r.worker? a i = some w →
    .kill process false ∈ (w.step now .lingered).2 →
    ∀ s, ReflTransGen Next (r.step now a i .lingered).1 s →
      ∃ v l, s.worker? a i = some v ∧ v.launched = some l ∧ l.process = process ∧
        (l.reaped = false →
          (∃ ready, v.entry.handle? = some (.ok ⟨v.entry.id, ready⟩) ∧ ready.process = process) ∧
          ∀ app url id, s.admissionAt a app url id =
            (s, if 0 < Policy.limitFor app url ∧ Policy.limitFor app url ≤ v.entry.count.toNat
              then .error Policy.outOfCapacity else .ok i)) ∧
        (l.reaped = true → ∀ app url id, (s.admissionAt a app url id).2 ≠ .ok i)

theorem serves_until_exit (h : r.Reachable) : r.ServesUntilExit := by
  refine ⟨fun a app url id i => h.admitted app url id, ?_⟩
  intro now a i w process hw hkill s hs
  have hstep : (r.step now a i .lingered).1.Reachable := h.trans (.single (.step now a i .lingered))
  have hreach : s.Reachable := hstep.trans hs
  obtain ⟨v, hv, -, l, hl, hproc, hclosed, hready⟩ := worker_kept
    (fun v now e _ hstop => Worker.Stopping.happen hstop (v.step_effect now e))
    hstep.sound hs (worker?_step now .lingered hw) ((h.worker hw).stopping hkill)
  refine ⟨v, l, hv, hl, hproc, fun hreaped => ⟨?_, fun app url id => ?_⟩,
    fun hreaped app url id => ?_⟩
  · obtain ⟨ready, ho, hproc⟩ := hready hreaped
    exact ⟨ready, by simp [Entry.handle?, ho, Except.map], hproc⟩
  · obtain ⟨p, hp, hvp⟩ := Option.bind_eq_some_iff.mp hv
    have hopen : v.entry.closed = false := Bool.eq_false_iff.mpr fun hc => by
      simp [hclosed.mp hc] at hreaped
    obtain ⟨-, q, hq, hlive, htable⟩ := hreach.sound.registered ⟨p, v, hp, rfl, hvp, hopen⟩
    obtain rfl := Option.some.inj (hp.symm.trans hq)
    exact admissionAt_of_first app url id hp hlive (by simp [Pool.first?, htable]) hvp
  · exact hreach.not_admitted hv (hclosed.mpr hreaped) app url id

/-- The worker has not been used for the idle timeout, and the linger period has begun. -/
def lingeringRegistry : Registry :=
  ((servingRegistry.step 5005 0 0 (.timer .idle)).1.step 5005 0 0 .idleNoticed).1

theorem lingeringRegistry_reachable : lingeringRegistry.Reachable :=
  servingRegistry_reachable.trans
    (.tail (.single (.step 5005 0 0 (.timer .idle))) (.step 5005 0 0 .idleNoticed))

theorem serves_until_exit_lingering : lingeringRegistry.ServesUntilExit :=
  serves_until_exit lingeringRegistry_reachable

/-- The worker is asked to stop, and a client that comes then is sent to it. -/
theorem stopping_admits : lingeringRegistry.Reachable ∧
    (⟨0, 0, .kill 7 false⟩ : Act) ∈ (lingeringRegistry.step 10005 0 0 .lingered).2 ∧
    ((lingeringRegistry.step 10005 0 0 .lingered).1.admissionAt 0 helloApp none "w1").2 = .ok 0 :=
  ⟨lingeringRegistry_reachable, List.mem_singleton.mpr rfl, rfl⟩

end Registry

end AppHost
