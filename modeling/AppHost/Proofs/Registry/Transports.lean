import AppHost.Proofs.Pool.Succession
import AppHost.Proofs.Registry.Isolation
import AppHost.Proofs.Registry.OneWorker
import AppHost.Proofs.Registry.Rest
import AppHost.Proofs.Registry.Retries
import AppHost.Proofs.Worker.Settling

/-!
# One transport at a time

A switch of transports comes to every policy in the map at once, and to the policies created later.
What a worker is started on is settled when its spawn task first runs: the transport that is the
registry's then gives it its endpoint and makes every attempt to connect to it, whatever is switched
meanwhile.

`one_transport` says so of every run, with the history of the run as evidence: `startedOn` looks up
the moment at which a spawn task began.
-/

namespace AppHost

open Relation (ReflTransGen)

-- ---------------------------------------------------------------------------
-- What a worker holds on to
-- ---------------------------------------------------------------------------

def Stage.via? : Stage → Option TransportRef
  | .allocating via | .launching via .. => some via
  | .connecting probe | .pausing probe _ => some probe.via
  | _ => none

def Stage.endpoint? : Stage → Option Endpoint
  | .launching _ endpoint _ => some endpoint
  | .connecting probe | .pausing probe _ => some probe.endpoint
  | _ => none

namespace Worker

def Act.via? : Act → Option TransportRef
  | .alloc via | .connect via _ => some via
  | _ => none

def Act.endpoint? : Act → Option Endpoint
  | .launch endpoint _ | .connect _ endpoint => some endpoint
  | _ => none

/-- The endpoint is the worker's: that of its spawn task, its process or its handle. -/
inductive At (w : Worker) (endpoint : Endpoint) : Prop
  | task (hs : w.stage.endpoint? = some endpoint)
  | process (hl : w.launched = some l) (he : l.endpoint = endpoint)
  | handle (ho : w.entry.outcome = some (.ok r)) (he : r.endpoint = endpoint)

variable {w w' : Worker} {now : Time} {e : Event} {acts : List Act} {act : Act} {via : TransportRef}
  {endpoint : Endpoint}

theorem Effect.begun_on (h : Effect w now e w' acts) (hv : w'.stage.via? = some via) :
    w.stage.via? = some via ∨ (w.stage = .queued ∧ e = .begin (some via)) := by
  cases h with
  | begun hs =>
    obtain rfl := Option.some.inj hv
    exact .inr ⟨hs, rfl⟩
  | allocated hs | launched hs | unanswered hs | resumed hs =>
    rw [hs]
    exact .inl hv
  | timedOut | stopped | killed => simp_all [timeOut, kill_eq, Stage.via?]
  | _ => simp_all [Worker.abandon, cleanUp, becomeReady, Stage.via?]

theorem Effect.queued (h : Effect w now e w' acts) (hs' : w'.stage = .queued) :
    w.stage = .queued := by
  cases h with
  | timedOut | stopped | killed => simp_all [timeOut, kill_eq]
  | _ => simp_all [Worker.abandon, cleanUp, becomeReady]

theorem step_begin_ne_queued (w : Worker) (now : Time) (via : Option TransportRef) :
    (w.step now (.begin via)).1.stage ≠ .queued := by
  intro hs
  have hqueued := (w.step_effect now (.begin via)).queued hs
  cases via <;> simp [step, hqueued, Worker.abandon] at hs

theorem Effect.stage_endpoint (h : Effect w now e w' acts)
    (hs' : w'.stage.endpoint? = some endpoint) :
    w.stage.endpoint? = some endpoint ∨ ∃ via stamp, w.stage = .allocating via ∧
      e = .allocated (.ok endpoint) stamp := by
  cases h with
  | allocated hs =>
    obtain rfl := Option.some.inj hs'
    exact .inr ⟨_, _, hs, rfl⟩
  | launched hs | unanswered hs | resumed hs =>
    rw [hs]
    exact .inl hs'
  | timedOut | stopped | killed => simp_all [timeOut, kill_eq, Stage.endpoint?]
  | _ => simp_all [Worker.abandon, cleanUp, becomeReady, Stage.endpoint?]

/-- Whoever waits for the worker is told the endpoint of its process. -/
theorem Effect.handle_endpoint {r : ReadyWorker} (h : Effect w now e w' acts)
    (ho : w'.entry.outcome = some (.ok r)) :
    w.entry.outcome = some (.ok r) ∨ ∃ l, w.launched = some l ∧ l.endpoint = r.endpoint := by
  cases hw : w.entry.outcome with
  | some o => exact .inl (by rw [← h.outcome hw, ho])
  | none =>
    cases h with
    | readied hs hl =>
      simp only [becomeReady, Entry.armIdle_outcome, Entry.resolve_outcome, hw] at ho
      cases ho
      exact .inr ⟨_, hl, rfl⟩
    | timedOut | stopped | killed => simp_all [timeOut, kill_eq, Entry.resolve_outcome, unread]
    | _ => simp_all [Worker.abandon, cleanUp, Entry.resolve_outcome, unread]

/-- A worker comes by an endpoint once, when it is allocated. -/
theorem Effect.placed (h : Effect w now e w' acts) (ha : w'.At endpoint) :
    w.At endpoint ∨ ∃ via stamp, w.stage = .allocating via ∧
      e = .allocated (.ok endpoint) stamp := by
  cases ha with
  | task hs => exact (h.stage_endpoint hs).imp_left .task
  | process hl he =>
    rcases h.origin hl with ⟨via, hs, -⟩ | ⟨k, hk, hsame, -⟩
    · exact .inl (.task (by rw [hs, ← he]; rfl))
    · exact .inl (.process hk (hsame.trans he))
  | handle ho he =>
    rcases h.handle_endpoint ho with ho | ⟨l, hl, hsame⟩
    · exact .inl (.handle ho he)
    · exact .inl (.process hl (hsame.trans he))

/-- It is asked of the transport that the spawn task is using, and for the endpoint that the task is
using. -/
structure Act.Fits (act : Act) (stage : Stage) : Prop where
  via : ∀ via, act.via? = some via → stage.via? = some via
  endpoint : ∀ endpoint, act.endpoint? = some endpoint → stage.endpoint? = some endpoint

theorem fits_of_kill (hmem : act ∈ (w.kill now force).2) (stage : Stage) : act.Fits stage := by
  obtain ⟨l, -, -, rfl⟩ := mem_kill_acts.mp hmem
  exact ⟨nofun, nofun⟩

theorem fits_of_logToRemove (hmem : act ∈ w.logToRemove log) (stage : Stage) : act.Fits stage := by
  obtain ⟨path, rfl⟩ : ∃ path, act = .removeLog path := by
    unfold logToRemove at hmem
    repeat' split at hmem
    all_goals simp_all
  exact ⟨nofun, nofun⟩

theorem Effect.fits (h : Effect w now e w' acts) (hmem : act ∈ acts) : act.Fits w'.stage := by
  cases h with
  | timedOut =>
    rcases List.mem_cons.mp hmem with rfl | hmem
    · exact ⟨nofun, nofun⟩
    · exact fits_of_kill hmem _
  | stopped | killed => exact fits_of_kill hmem _
  | handled =>
    rcases List.mem_cons.mp hmem with rfl | hmem
    · exact ⟨nofun, nofun⟩
    · exact fits_of_logToRemove hmem _
  | begun | allocated | launched | resumed | refused | unallocated | unlaunched =>
    obtain rfl := List.mem_singleton.mp hmem
    constructor <;> simp [Act.via?, Act.endpoint?, Stage.via?, Stage.endpoint?]
  | _ => cases hmem

end Worker

-- ---------------------------------------------------------------------------
-- What a pool asks of the world
-- ---------------------------------------------------------------------------

namespace Pool

variable {p : Pool} {ref : WorkerRef}

theorem of_mem_settle_acts {acts : List Worker.Act} {act : Worker.Act}
    (h : .ask i act ∈ (p.settle ref acts).2) : i = ref ∧ act ∈ acts := by
  induction acts generalizing p with
  | nil => cases h
  | cons a acts ih =>
    have hrest : ∀ {q : Pool}, .ask i act ∈ (q.settle ref acts).2 → i = ref ∧ act ∈ a :: acts :=
      fun h => (ih h).imp_right (List.mem_cons_of_mem a)
    cases a with
    | leave announce =>
      simp only [settle] at h
      split at h
      · exact hrest ((List.mem_cons.mp h).resolve_left (by simp))
      · exact hrest h
    | _ =>
      rcases List.mem_cons.mp h with heq | h
      · cases heq
        exact ⟨rfl, List.mem_cons_self⟩
      · exact hrest h

theorem mem_step_acts {act : Worker.Act} (h : .ask i act ∈ (p.step now ref e).2) :
    ∃ w, i = ref ∧ p.worker? ref = some w ∧ act ∈ (w.step now e).2 := by
  cases hw : p.worker? ref with
  | none => simp [step_of_none now e hw] at h
  | some w =>
    rw [step_of_worker now e hw] at h
    obtain ⟨hi, hact⟩ := of_mem_settle_acts h
    exact ⟨w, hi, rfl, hact⟩

theorem mem_shutdown_acts :
    ∀ i act, .ask i act ∈ (p.shutdown now).2 → ∃ process, act = .kill process true := by
  refine List.foldlRecOn (motive := fun r : Pool × List Act => ∀ i act, .ask i act ∈ r.2 →
    ∃ process, act = .kill process true) p.readyRefs _ ?_ ?_
  · simp
  intro r hr ref _ i act hmem
  rcases List.mem_append.mp hmem with hmem | hmem
  · exact hr i act hmem
  · obtain ⟨w, -, -, hact⟩ := mem_step_acts hmem
    obtain ⟨l, -, -, rfl⟩ := Worker.mem_kill_acts.mp hact
    exact ⟨l.process, rfl⟩

end Pool

-- ---------------------------------------------------------------------------
-- A switch comes to every policy
-- ---------------------------------------------------------------------------

namespace Registry

variable {r s : Registry}

/-- Every policy in service allocates from the registry's transport. -/
def Aligned (r : Registry) : Prop :=
  ∀ a p, r.policy? a = some p → p.retired = false → p.pool.transport = r.transport

theorem aligned_set (hr : r.Aligned) (hp : r.policy? a = some p)
    (hs : s.policies = r.policies.set a q) (ht : s.transport = r.transport)
    (hretired : q.retired = false → p.retired = false)
    (hpool : q.pool.transport = p.pool.transport) : s.Aligned := by
  intro b v hv hlive
  rw [policy?_set hp hs] at hv
  rw [ht]
  split at hv
  · cases hv
    exact hpool.trans (hr a p hp (hretired hlive))
  · exact hr b v hv hlive

theorem policyFor_aligned (hr : r.Aligned) (key : String) : (r.policyFor key).1.Aligned := by
  unfold policyFor
  split
  · exact hr
  · intro a p hp hlive
    rw [policy?_append (r := r) rfl] at hp
    split at hp
    · cases hp
      rfl
    · exact hr a p hp hlive

theorem admissionAt_aligned (hr : r.Aligned) (a : PolicyRef) (app : AppSpec) (url : Option String)
    (id : String) : (r.admissionAt a app url id).1.Aligned := by
  cases hp : r.policy? a with
  | none => simpa [admissionAt, hp] using hr
  | some p =>
    have hsame : (p.admission app url id).1.retired = p.retired ∧
        (p.admission app url id).1.pool.transport = p.pool.transport := by
      rcases Traffic.admission_cases p app url id with ⟨heq, -⟩ | heq <;> rw [heq] <;>
        exact ⟨rfl, rfl⟩
    exact aligned_set hr hp (by simp [admissionAt, hp, setPolicy])
      (by simp [admissionAt, hp, setPolicy])
      (fun h => hsame.1 ▸ h) hsame.2

theorem withPool_aligned (hr : r.Aligned) (a : PolicyRef) {step : Pool → Pool × List Pool.Act}
    (hstep : ∀ p, (step p).1.transport = p.transport) : (r.withPool a step).1.Aligned := by
  cases hp : r.policy? a with
  | none =>
    rw [withPool_of_none step hp]
    exact hr
  | some p =>
    rw [withPool_eq hp]
    exact aligned_set hr hp (q := { p with pool := (step p.pool).1 }) rfl rfl id (hstep p.pool)

theorem readVacancy_aligned (hr : r.Aligned) : r.readVacancy.Aligned := by
  cases hv : r.vacancies with
  | nil => simpa [readVacancy, hv] using hr
  | cons key rest =>
    by_cases hdrop : ∃ a p, r.lookup? key = some a ∧ r.policy? a = some p ∧ p.pool.size = 0
    · obtain ⟨a, p, hl, hp, hsize⟩ := hdrop
      rw [readVacancy_dropped hv hl hp hsize]
      exact aligned_set hr hp (q := { p with retired := true }) rfl rfl (by simp) rfl
    · rw [readVacancy_spared hv fun a p hl hp hsize => hdrop ⟨a, p, hl, hp, hsize⟩]
      exact hr

/-- Midway through a switch the policies that still have the old transport are among those to
come. -/
theorem sweep_switch_aligned {transport : TransportRef} {entries : List (String × PolicyRef)}
    (ht : s.transport = some transport)
    (hs : ∀ a p, s.policy? a = some p → p.retired = false → a ∈ entries.map (·.2) ∨
      p.pool.transport = some transport)
    (acts : List Act) : (sweep (switch transport) entries (s, acts)).1.Aligned := by
  induction entries generalizing s acts with
  | nil => exact fun a p hp hlive => ((hs a p hp hlive).resolve_left (by simp)).trans ht.symm
  | cons c entries ih =>
    rw [sweep_cons]
    cases hq : s.policy? c.2 with
    | none =>
      rw [withPool_of_none _ hq]
      refine ih ht (fun a p hp hlive => (hs a p hp hlive).imp_left fun hmem => ?_) _
      refine (List.mem_cons.mp hmem).resolve_left ?_
      rintro rfl
      cases hp.symm.trans hq
    | some q =>
      rw [withPool_eq hq]
      refine ih ?_ (fun a p hp hlive => ?_) _
      · exact ht
      rw [policy?_set hq (q := { q with pool := (switch transport q.pool).1 }) rfl] at hp
      split at hp
      · cases hp
        exact .inr rfl
      · next ha =>
          exact (hs a p hp hlive).imp_left fun hmem => (List.mem_cons.mp hmem).resolve_left ha

theorem policyFor_transport (r : Registry) (key : String) :
    (r.policyFor key).1.transport = r.transport := by
  unfold policyFor
  split <;> rfl

theorem admissionAt_transport (r : Registry) (ref : PolicyRef) (app : AppSpec) (url : Option String)
    (id : String) : (r.admissionAt ref app url id).1.transport = r.transport := by
  unfold admissionAt
  split <;> rfl

theorem advance_transport (r : Registry) (app : AppSpec) (url : Option String) (id : String)
    (q : Request) : (r.advance app url id q).1.transport = r.transport := by
  cases q with
  | seeking => exact r.policyFor_transport app.key
  | found ref =>
    have hadmission := r.admissionAt_transport ref app url id
    simp only [advance]
    split <;> exact hadmission
  | answered => rfl

theorem withPool_transport (r : Registry) (ref : PolicyRef) (step : Pool → Pool × List Pool.Act) :
    (r.withPool ref step).1.transport = r.transport := by
  cases hp : r.policy? ref with
  | none => rw [withPool_of_none step hp]
  | some p =>
    rw [withPool_eq hp]
    rfl

theorem readVacancy_transport (r : Registry) : r.readVacancy.transport = r.transport := by
  cases hv : r.vacancies with
  | nil => simp [readVacancy, hv]
  | cons key rest =>
    by_cases hdrop : ∃ a p, r.lookup? key = some a ∧ r.policy? a = some p ∧ p.pool.size = 0
    · obtain ⟨a, p, hl, hp, hsize⟩ := hdrop
      rw [readVacancy_dropped hv hl hp hsize]
    · rw [readVacancy_spared hv fun a p hl hp hsize => hdrop ⟨a, p, hl, hp, hsize⟩]

theorem sweep_transport (step : Pool → Pool × List Pool.Act) (entries : List (String × PolicyRef))
    (s : Registry × List Act) : (sweep step entries s).1.transport = s.1.transport := by
  refine List.foldlRecOn (motive := fun u : Registry × List Act => u.1.transport = s.1.transport)
    entries _ rfl ?_
  exact fun u hu c _ => (u.1.withPool_transport c.2 step).trans hu

theorem setTransport_transport (r : Registry) (transport : TransportRef) :
    (r.setTransport transport).transport = some transport := by
  rw [setTransport_eq, sweep_transport]

theorem Sound.setTransport_aligned (hr : r.Sound) (transport : TransportRef) :
    (r.setTransport transport).Aligned := by
  rw [setTransport_eq]
  refine sweep_switch_aligned rfl (fun a p hp hlive => .inl ?_) []
  exact List.mem_map.mpr ⟨_, mem_current_of_lookup (hr.live a p hp hlive), rfl⟩

theorem shutdown_aligned (hr : r.Aligned) (now : Time) : (r.shutdown now).1.Aligned :=
  List.foldlRecOn (motive := fun s : Registry × List Act => s.1.Aligned) r.current _ hr
    fun _ hs c _ => withPool_aligned hs c.2 fun p => p.shutdown_transport now

theorem mem_asked {act : Act} {acts : List Pool.Act} (hmem : act ∈ asked a acts) :
    act.policy = a ∧ .ask act.worker act.act ∈ acts := by
  obtain ⟨ask, hask, hact⟩ := List.mem_filterMap.mp hmem
  cases ask with
  | vacant => cases hact
  | ask worker act =>
    cases hact
    exact ⟨rfl, hask⟩

theorem mem_step_acts {act : Act} (hmem : act ∈ (r.step now a i e).2) :
    ∃ w, act.policy = a ∧ act.worker = i ∧ r.worker? a i = some w ∧ act.act ∈ (w.step now e).2 := by
  cases hp : r.policy? a with
  | none => simp [step, withPool_of_none _ hp] at hmem
  | some p =>
    simp only [step, withPool_eq hp] at hmem
    obtain ⟨ha, hask⟩ := mem_asked hmem
    obtain ⟨w, hi, hw, hact⟩ := Pool.mem_step_acts hask
    exact ⟨w, ha, hi, Option.bind_eq_some_iff.mpr ⟨p, hp, hw⟩, hact⟩

theorem mem_shutdown_acts :
    ∀ act ∈ (r.shutdown now).2, ∃ process, act.act = .kill process true := by
  refine List.foldlRecOn
    (motive := fun s : Registry × List Act => ∀ act ∈ s.2, ∃ process, act.act = .kill process true)
    r.current _ ?_ ?_
  · simp
  intro s hs c _ act hmem
  rcases List.mem_append.mp hmem with hmem | hmem
  · exact hs act hmem
  · cases hp : s.1.policy? c.2 with
    | none => simp [withPool_of_none _ hp] at hmem
    | some p =>
      rw [withPool_eq hp] at hmem
      exact Pool.mem_shutdown_acts _ _ (mem_asked hmem).2

end Registry

namespace Traffic

variable {t : Traffic}

theorem step_aligned (ht : t.registry.Sound) (h : t.registry.Aligned) (e : Event) :
    (t.step e).registry.Aligned := by
  cases e with
  | call => exact h
  | advance n id =>
    simp only [step]
    split
    · exact h
    · next c _ =>
      cases c.request with
      | seeking => exact Registry.policyFor_aligned h c.app.key
      | found a =>
        simp only [Registry.advance]
        split <;> exact Registry.admissionAt_aligned h a c.app c.url id
      | answered => exact h
  | admission a app url id => exact Registry.admissionAt_aligned h a app url id
  | step now a i event => exact Registry.withPool_aligned h a fun p => p.step_transport now i event
  | readVacancy => exact Registry.readVacancy_aligned h
  | setTransport transport => exact ht.setTransport_aligned transport
  | shutdown now => exact Registry.shutdown_aligned h now

theorem Reachable.aligned (h : t.Reachable) : t.registry.Aligned := by
  obtain ⟨transport, hr⟩ := h
  induction hr with
  | refl => exact fun a p hp => by simp [Registry.policy?] at hp
  | tail hb hnext ih =>
    obtain ⟨e, rfl⟩ := hnext
    exact step_aligned (Reachable.registry ⟨transport, hb⟩).sound ih e

-- ---------------------------------------------------------------------------
-- Where transports and endpoints come from
-- ---------------------------------------------------------------------------

namespace Moment

def begins (a : PolicyRef) (i : WorkerRef) (m : Moment) : Bool :=
  match m.event with
  | .step _ b j (.begin _) =>
    b == a && j == i && (m.before.registry.worker? a i).any (·.stage = .queued)
  | _ => false

/-- The spawn task of this worker waits for an endpoint from this transport, and is given this
one. -/
def Allocates (a : PolicyRef) (i : WorkerRef) (via : TransportRef) (endpoint : Endpoint)
    (m : Moment) : Prop :=
  ∃ now stamp w, m.event = .step now a i (.allocated (.ok endpoint) stamp) ∧
    m.before.registry.worker? a i = some w ∧ w.stage = .allocating via

def asks (m : Moment) : List Registry.Act := m.before.asks m.event

/-- A spawn task that begins is told its policy's transport. -/
def Attuned (m : Moment) : Prop := m.before.attune m.event = m.event

end Moment

/-- The registry's transport when the spawn task of this worker began. -/
def startedOn (history : List Moment) (a : PolicyRef) (i : WorkerRef) : Option TransportRef :=
  (history.find? (·.begins a i)).bind (·.before.registry.transport)

/-- The endpoint was given to the worker by the transport that it was started on. -/
def Placed (history : List Moment) (a : PolicyRef) (i : WorkerRef) (endpoint : Endpoint) : Prop :=
  ∃ via, startedOn history a i = some via ∧ ∃ m ∈ history, m.Allocates a i via endpoint

/-- Whatever the worker holds on to comes from the transport that it was started on. -/
structure Traced (history : List Moment) (a : PolicyRef) (i : WorkerRef) (w : Worker) : Prop where
  via : ∀ via, w.stage.via? = some via → startedOn history a i = some via
  endpoint : ∀ endpoint, w.At endpoint → Placed history a i endpoint

variable {history : List Moment} {m : Moment} {a : PolicyRef} {i : WorkerRef} {w w' : Worker}
  {via : TransportRef} {endpoint : Endpoint}

theorem Moment.begins_iff :
    m.begins a i = true ↔
      ∃ now via w, m.event = .step now a i (.begin via) ∧ m.before.registry.worker? a i = some w ∧
      w.stage = .queued := by
  unfold Moment.begins
  split
  · next now b j via he =>
    simp only [he, Bool.and_eq_true, beq_iff_eq, Option.any_eq_true, decide_eq_true_eq]
    constructor
    · rintro ⟨⟨rfl, rfl⟩, w, hw, hs⟩
      exact ⟨now, via, w, rfl, hw, hs⟩
    · rintro ⟨_, _, w, heq, hw, hs⟩
      cases heq
      exact ⟨⟨rfl, rfl⟩, w, hw, hs⟩
  · next hother =>
    simp only [Bool.false_eq_true, false_iff]
    rintro ⟨now, via, -, he, -⟩
    exact hother now a i via he

theorem startedOn_append (h : startedOn history a i = some via) (later : List Moment) :
    startedOn (history ++ later) a i = some via := by
  obtain ⟨m, hm, hvia⟩ := Option.bind_eq_some_iff.mp h
  rw [startedOn, List.find?_append, hm]
  exact hvia

theorem startedOn_begins (hnone : ∀ x ∈ history, x.begins a i = false) (hm : m.begins a i = true) :
    startedOn (history ++ [m]) a i = m.before.registry.transport := by
  rw [startedOn, List.find?_append, List.find?_eq_none.mpr fun x hx => by simp [hnone x hx]]
  simp [hm]

theorem Placed.append (h : Placed history a i endpoint) (later : List Moment) :
    Placed (history ++ later) a i endpoint := by
  obtain ⟨via, hvia, m, hm, hgiven⟩ := h
  exact ⟨via, startedOn_append hvia later, m, List.mem_append_left _ hm, hgiven⟩

theorem Traced.append (h : Traced history a i w) (later : List Moment) :
    Traced (history ++ later) a i w :=
  ⟨fun via hvia => startedOn_append (h.via via hvia) later,
    fun endpoint ha => (h.endpoint endpoint ha).append later⟩

theorem traced_spawned (app : AppSpec) (id : String) (data : List (String × Json)) :
    Traced history a i (Worker.spawned app id data) := by
  refine ⟨nofun, fun endpoint ha => ?_⟩
  cases ha with
  | task hs | process hl | handle ho => contradiction

theorem Traced.effect {now : Time} {event : Worker.Event} {acts : List Worker.Act}
    (h : Traced history a i w) (heff : Worker.Effect w now event w' acts)
    (hbegin : ∀ via, w.stage = .queued → event = .begin (some via) →
      startedOn history a i = some via)
    (hgiven : ∀ via endpoint stamp, w.stage = .allocating via →
      event = .allocated (.ok endpoint) stamp → ∃ m ∈ history, m.Allocates a i via endpoint) :
    Traced history a i w' := by
  refine ⟨fun via hvia => ?_, fun endpoint ha => ?_⟩
  · rcases heff.begun_on hvia with hvia | ⟨hs, he⟩
    · exact h.via via hvia
    · exact hbegin via hs he
  · rcases heff.placed ha with ha | ⟨via, stamp, hs, he⟩
    · exact h.endpoint endpoint ha
    · exact ⟨via, h.via via (by rw [hs]; rfl), hgiven via endpoint stamp hs he⟩

/-- A spawn task that has begun does not begin again. -/
theorem History.begun (h : History history t) (hm : m ∈ history) (hb : m.begins a i = true) :
    ∃ w, t.registry.worker? a i = some w ∧ w.stage ≠ .queued := by
  induction h with
  | start => cases hm
  | @happen history t e hbefore ih =>
    rcases List.mem_append.mp hm with hm | hm
    · obtain ⟨w, hw, hs⟩ := ih hm
      exact Registry.worker_kept (fun w now e _ hs hs' => hs ((w.step_effect now e).queued hs'))
        hbefore.reachable.registry.sound (t.step_registry e) hw hs
    · obtain rfl := List.mem_singleton.mp hm
      obtain ⟨now, via, w, rfl, hw, -⟩ := Moment.begins_iff.mp hb
      exact ⟨_, Registry.worker?_step now _ hw, w.step_begin_ne_queued now via⟩

theorem History.unbegun (h : History history m.before) (hb : m.begins a i = true) :
    ∀ x ∈ history, x.begins a i = false := by
  refine fun x hx => Bool.eq_false_iff.mpr fun hbx => ?_
  obtain ⟨w, hw, hs⟩ := h.begun hx hbx
  obtain ⟨-, -, v, -, hv, hqueued⟩ := Moment.begins_iff.mp hb
  obtain rfl := Option.some.inj (hw.symm.trans hv)
  exact hs hqueued

theorem History.begins_once (h : History history t) (a : PolicyRef) (i : WorkerRef) :
    history.countP (·.begins a i) ≤ 1 := by
  induction h with
  | start => simp
  | @happen history t e hbefore ih =>
    rw [List.countP_append, List.countP_singleton]
    split
    · next hb =>
      rw [List.countP_eq_zero.mpr fun x hx => by simp [History.unbegun hbefore hb x hx]]
    · exact ih

/-- A worker whose spawn task has not begun is listed, so its policy is in the map. -/
theorem History.told (h : History history m.before) (hm : m.Attuned) (hb : m.begins a i = true) :
    ∃ now, m.event = .step now a i (.begin m.before.registry.transport) := by
  obtain ⟨t, e⟩ := m
  obtain ⟨now, via, w, rfl, hw, hs⟩ := Moment.begins_iff.mp hb
  have hsound := h.reachable.registry.sound
  obtain ⟨p, hp, hwp⟩ := Option.bind_eq_some_iff.mp hw
  have hopen : w.entry.closed = false :=
    (((hsound.policies a p hp).pool.workers i w hwp).early (by rw [hs]; rfl)).2.1
  obtain ⟨-, q, hq, hlive, -⟩ := hsound.registered ⟨p, w, hp, rfl, hwp, hopen⟩
  obtain rfl := Option.some.inj (hp.symm.trans hq)
  refine ⟨now, ?_⟩
  rw [← hm]
  simp only [attune, Worker.Event.told, hp, Option.bind_some, h.reachable.aligned a p hp hlive]

theorem History.traced (h : History history t) (hall : ∀ m ∈ history, m.Attuned) :
    t.registry.All (Traced history) := by
  induction h with
  | start => exact fun a p hp => by simp [Registry.policy?] at hp
  | @happen history t e hbefore ih =>
    have ih := ih fun m hm => hall m (List.mem_append_left _ hm)
    refine all_step (fun a i => traced_spawned) (fun a i w now hw =>
      hw.effect .killed (by simp) (by simp))
      (ih.mono fun a i w hw => hw.append _) ?_
    rintro now a i event w rfl hw hold
    refine hold.effect (w.step_effect now event) ?_ ?_
    · rintro via hs rfl
      have hb : (Moment.mk t (.step now a i (.begin (some via)))).begins a i = true :=
        Moment.begins_iff.mpr ⟨now, _, w, rfl, hw, hs⟩
      obtain ⟨_, he⟩ := History.told hbefore (hall _ (by simp)) hb
      rw [startedOn_begins (History.unbegun hbefore hb) hb]
      injection he with _ _ _ he
      injection he with he
      exact he.symm
    · rintro via endpoint stamp hs rfl
      exact ⟨_, List.mem_append_right _ List.mem_cons_self, now, stamp, w, rfl, hw, hs⟩

-- ---------------------------------------------------------------------------
-- What is asked of the transports
-- ---------------------------------------------------------------------------

theorem Moment.mem_asks {act : Registry.Act} (hm : m.Attuned) (hmem : act ∈ m.asks) :
    (∃ now event w, m.event = .step now act.policy act.worker event ∧
      m.before.registry.worker? act.policy act.worker = some w ∧ act.act ∈ (w.step now event).2) ∨
    ∃ process, act.act = .kill process true := by
  obtain ⟨t, e⟩ := m
  have he : t.attune e = e := hm
  simp only [asks, Traffic.asks, he] at hmem
  cases e with
  | step now a i event =>
    obtain ⟨w, rfl, rfl, hw, hact⟩ := Registry.mem_step_acts hmem
    exact .inl ⟨now, event, w, rfl, hw, hact⟩
  | shutdown now => exact .inr (Registry.mem_shutdown_acts act hmem)
  | _ => cases hmem

theorem History.asked (h : History history t) (hall : ∀ m ∈ history, m.Attuned) :
    ∀ m ∈ history, ∀ act ∈ m.asks,
      (∀ via, act.act.via? = some via → startedOn history act.policy act.worker = some via) ∧
      ∀ endpoint, act.act.endpoint? = some endpoint →
      Placed history act.policy act.worker endpoint := by
  induction h with
  | start => simp
  | @happen history t e hbefore ih =>
    intro m hm act hmem
    have htraced := (hbefore.happen e).traced hall
    rcases List.mem_append.mp hm with hm | hm
    · obtain ⟨hvia, hendpoint⟩ := ih (fun m hm => hall m (List.mem_append_left _ hm)) m hm act hmem
      exact ⟨fun via h => startedOn_append (hvia via h) _,
        fun endpoint h => (hendpoint endpoint h).append _⟩
    · obtain rfl := List.mem_singleton.mp hm
      rcases Moment.mem_asks (hall _ (by simp)) hmem with ⟨now, event, w, rfl, hw, hact⟩
        | ⟨process, hkill⟩
      · have hfits := (w.step_effect now event).fits hact
        have hafter := htraced.worker (Registry.worker?_step now event hw)
        exact ⟨fun via h => hafter.via via (hfits.via via h),
          fun endpoint h => hafter.endpoint endpoint (.task (hfits.endpoint endpoint h))⟩
      · rw [hkill]
        exact ⟨nofun, nofun⟩

/-- The transport that an event sets. -/
def Event.sets? : Event → Option TransportRef
  | .setTransport transport => some transport
  | _ => none

theorem step_transport (t : Traffic) (e : Event) :
    (t.step e).registry.transport = e.sets?.or t.registry.transport := by
  cases e with
  | call => rfl
  | advance n id =>
    simp only [step]
    split
    · rfl
    · exact t.registry.advance_transport ..
  | admission => exact t.registry.admissionAt_transport ..
  | step now ref worker event => exact t.registry.withPool_transport ref _
  | readVacancy => exact t.registry.readVacancy_transport
  | setTransport transport => exact t.registry.setTransport_transport transport
  | shutdown now =>
    exact Registry.sweep_transport (Pool.shutdown · now) t.registry.current (t.registry, [])

-- ---------------------------------------------------------------------------
-- Every run
-- ---------------------------------------------------------------------------

def story (t : Traffic) : List Event → List Moment
  | [] => []
  | e :: es => ⟨t, t.attune e⟩ :: (t.happen e).story es

theorem History.story (h : History history t) (es : List Event) :
    History (history ++ t.story es) (t.run es) := by
  induction es generalizing history t with
  | nil => simpa [Traffic.story, Traffic.run] using h
  | cons e es ih =>
    have hrest := ih (h.happen (t.attune e))
    rwa [List.append_assoc] at hrest

theorem attune_attune (t : Traffic) (e : Event) : t.attune (t.attune e) = t.attune e := by
  cases e with
  | step now a i event => cases event <;> rfl
  | _ => rfl

theorem story_attuned (t : Traffic) (es : List Event) : ∀ m ∈ t.story es, m.Attuned := by
  induction es generalizing t with
  | nil => simp [story]
  | cons e es ih =>
    intro m hm
    rcases List.mem_cons.mp hm with rfl | hm
    · exact t.attune_attune e
    · exact ih (t.happen e) m hm

/-- The transport that was set last. -/
def lastSet (initial : Option TransportRef) (history : List Moment) : Option TransportRef :=
  history.foldl (fun current m => m.event.sets?.or current) initial

theorem happen_transport (t : Traffic) (e : Event) :
    (t.happen e).registry.transport = (t.attune e).sets?.or t.registry.transport :=
  step_transport t (t.attune e)

theorem run_transport (t : Traffic) (es : List Event) :
    (t.run es).registry.transport = lastSet t.registry.transport (t.story es) := by
  induction es generalizing t with
  | nil => rfl
  | cons e es ih =>
    rw [story, lastSet, List.foldl_cons, ← happen_transport, ← lastSet, ← ih, run, run,
      List.foldl_cons]

theorem before_transport {t : Traffic} {es : List Event} {pre post : List Moment} {m : Moment}
    (h : t.story es = pre ++ m :: post) :
    m.before.registry.transport = lastSet t.registry.transport pre := by
  induction es generalizing t pre with
  | nil => simp [story] at h
  | cons e es ih =>
    cases pre with
    | nil =>
      obtain ⟨rfl, -⟩ := List.cons.inj h
      rfl
    | cons x pre =>
      obtain ⟨rfl, hrest⟩ := List.cons.inj h
      rw [ih hrest, happen_transport, lastSet, lastSet, List.foldl_cons]

/-- `initial` is the transport that the registry began with. -/
structure OneTransport (initial : Option TransportRef) (history : List Moment) (t : Traffic) :
    Prop where
  /-- The registry's transport is the one that was set last, at the end and at every moment. -/
  latest : t.registry.transport = lastSet initial history
  earlier : ∀ pre m post, history = pre ++ m :: post →
    m.before.registry.transport = lastSet initial pre
  /-- A policy in the map allocates from the registry's transport. -/
  current : ∀ key a, t.registry.lookup? key = some a →
    ∃ p, t.registry.policy? a = some p ∧ p.pool.transport = t.registry.transport
  /-- A spawn task begins once at most, and on the transport that is the registry's then. -/
  begun : ∀ a i, history.countP (·.begins a i) ≤ 1 ∧ ∀ m ∈ history, m.begins a i = true →
    ∃ now, m.event = .step now a i (.begin m.before.registry.transport)
  /-- Whatever a transport is asked for a worker, the one that the worker was started on is
  asked. -/
  asked : ∀ m ∈ history, ∀ act ∈ m.asks, ∀ via, act.act.via? = some via →
    startedOn history act.policy act.worker = some via
  /-- That transport has allocated the endpoint that a worker is launched for or tried on, -/
  tried : ∀ m ∈ history, ∀ act ∈ m.asks, ∀ endpoint, act.act.endpoint? = some endpoint →
    Placed history act.policy act.worker endpoint
  /-- and any other that the worker has. -/
  placed : ∀ a i w endpoint, t.registry.worker? a i = some w → w.At endpoint →
    Placed history a i endpoint

theorem one_transport (transport : Option TransportRef) (es : List Event) :
    OneTransport transport ((start transport).story es) ((start transport).run es) := by
  have h : History ((start transport).story es) ((start transport).run es) :=
    (History.start transport).story es
  have hall := (start transport).story_attuned es
  constructor
  case latest => exact run_transport (start transport) es
  case earlier => exact fun pre m post hsplit => before_transport hsplit
  case current =>
    intro key a hl
    obtain ⟨p, hp, -, hlive⟩ := h.reachable.registry.sound.current key a hl
    exact ⟨p, hp, h.reachable.aligned a p hp hlive⟩
  case begun =>
    refine fun a i => ⟨h.begins_once a i, fun m hm hb => ?_⟩
    obtain ⟨pre, post, hsplit⟩ := List.append_of_mem hm
    rw [hsplit] at h
    exact h.split.told (hall m hm) hb
  case asked => exact fun m hm act hmem => (h.asked hall m hm act hmem).1
  case tried => exact fun m hm act hmem => (h.asked hall m hm act hmem).2
  case placed => exact fun a i w endpoint hw ha => ((h.traced hall).worker hw).endpoint endpoint ha

/-- The transport is switched while the worker waits for its endpoint. -/
def switchedEvents : List Event :=
  [.call helloApp none, .advance 0 "w0", .advance 0 "w0", .step 0 0 0 (.begin none),
    .setTransport 1, .step 3 0 0 (.allocated (.ok ⟨.port 40000, ""⟩) ""),
    .step 5 0 0 (.launched (.ok 7))]

/-- The worker is tried on the transport that it was started on. -/
example :
    ((start (some 0)).run switchedEvents).registry.transport = some 1 ∧
      startedOn ((start (some 0)).story switchedEvents) 0 0 = some 0 ∧
      ((start (some 0)).story switchedEvents).flatMap
        (fun m => m.asks.filterMap (·.act.via?)) = [0, 0] := by
  decide +kernel

end Traffic

end AppHost
