import AppHost.Proofs.Registry.Share
import AppHost.Proofs.Registry.Traffic

/-!
# One key's share of the traffic

The requests for a key are numbered among themselves, as its policies are, and each event either
concerns the key or leaves its share as it was (`Traffic.only_happen`). So what a whole run does for
a key is what the key's own events do to the key's share (`Traffic.only_run`): no other key's
requests, workers or reports have a part in it.
-/

namespace AppHost

open Registry (Act)

-- ---------------------------------------------------------------------------
-- Requests and events
-- ---------------------------------------------------------------------------

/-- The event, if the transport is this. -/
def Worker.Event.told (via : Option TransportRef) : Worker.Event → Worker.Event
  | .begin _ => .begin via
  | e => e

namespace Request

def policy? : Request → Option PolicyRef
  | .seeking => none
  | .found a | .answered a _ => some a

def renumber (f : PolicyRef → PolicyRef) : Request → Request
  | .seeking => .seeking
  | .found a => .found (f a)
  | .answered a result => .answered (f a) result

theorem renumber_congr {f g : PolicyRef → PolicyRef} {q : Request}
    (h : ∀ a, q.policy? = some a → f a = g a) : q.renumber f = q.renumber g := by
  cases q with
  | seeking => rfl
  | found a => rw [renumber, renumber, h a rfl]
  | answered a => rw [renumber, renumber, h a rfl]

end Request

def Call.renumber (f : PolicyRef → PolicyRef) (c : Call) : Call :=
  { c with request := c.request.renumber f }

namespace Traffic

def only (t : Traffic) (k : String) : Traffic where
  registry := t.registry.only k
  calls := (t.calls.filter (·.app.key = k)).map (Call.renumber (t.registry.rank k))

/-- A spawn task that begins is told its policy's transport. -/
def attune (t : Traffic) : Event → Event
  | .step now ref worker event =>
    .step now ref worker (event.told ((t.registry.policy? ref).bind (·.pool.transport)))
  | e => e

def happen (t : Traffic) (e : Event) : Traffic := t.step (t.attune e)

/-- What is asked of the world when this happens. -/
def asks (t : Traffic) (e : Event) : List Registry.Act :=
  match t.attune e with
  | .step now ref worker event => (t.registry.step now ref worker event).2
  | .shutdown now => (t.registry.shutdown now).2
  | _ => []

/-- The event as it concerns this key, if it does. -/
def share (t : Traffic) (k : String) : Event → Option Event
  | .call app url => if app.key = k then some (.call app url) else none
  | .advance n id =>
    if (t.calls[n]?).any (·.app.key = k) then some (.advance (place (·.app.key = k) t.calls n) id)
    else none
  | .admission ref app url id =>
    if t.registry.keys[ref]? = some k then some (.admission (t.registry.rank k ref) app url id)
    else none
  | .step now ref worker event =>
    if t.registry.keys[ref]? = some k then some (.step now (t.registry.rank k ref) worker event)
    else none
  | .readVacancy => if t.registry.vacancies.head? = some k then some .readVacancy else none
  | .setTransport transport => some (.setTransport transport)
  | .shutdown now => some (.shutdown now)

structure Valid (t : Traffic) : Prop where
  keyed : t.registry.Keyed
  /-- What a request has found is a policy for its key. -/
  found : ∀ c ∈ t.calls, ∀ a, c.request.policy? = some a → t.registry.keys[a]? = some c.app.key

end Traffic

namespace Registry

variable {r : Registry} {k : String} {app : AppSpec} {url : Option String} {id : String}
  {q : Request}

theorem only_advance (hr : r.Keyed) (hk : app.key = k)
    (hq : ∀ a, q.policy? = some a → r.keys[a]? = some k) (url : Option String) (id : String) :
    (r.only k).advance app url id (q.renumber (r.rank k)) =
      ((r.advance app url id q).1.only k,
        (r.advance app url id q).2.renumber ((r.advance app url id q).1.rank k)) := by
  cases q with
  | seeking =>
    obtain ⟨honly, hrank⟩ := only_policyFor hr k
    subst hk
    simp only [advance, Request.renumber, honly, hrank]
  | found a =>
    obtain ⟨p, hp, hkey⟩ := policy_of_keys (hq a rfl)
    have hrank := rank_congr (r.admissionAt_keys a app url id) k
    simp only [Request.renumber, advance, only_admissionAt hp hkey]
    split
    · rfl
    · simp only [hrank]
  | answered a result => rfl

theorem only_advance_other (hr : r.Keyed) (hk : app.key ≠ k)
    (hq : ∀ a, q.policy? = some a → r.keys[a]? = some app.key) :
    (r.advance app url id q).1.only k = r.only k := by
  cases q with
  | seeking => exact only_policyFor_other hr hk
  | found a =>
    obtain ⟨p, hp, hkey⟩ := policy_of_keys (hq a rfl)
    have hother := only_admissionAt_other (k := k) hp (hkey ▸ hk) app url id
    simp only [advance]
    split <;> exact hother
  | answered => rfl

theorem advance_found (hr : r.Keyed) (hq : ∀ a, q.policy? = some a → r.keys[a]? = some app.key)
    (a : PolicyRef) (ha : (r.advance app url id q).2.policy? = some a) :
    (r.advance app url id q).1.keys[a]? = some app.key := by
  cases q with
  | seeking =>
    obtain rfl := Option.some.inj ha
    have hkeyed := (run_keyed (.single (.lookup app.key)) hr).2
    exact hkeyed _ (mem_current_of_lookup (r.lookup?_policyFor app.key))
  | found b =>
    simp only [advance] at ha ⊢
    split at ha
    · cases ha
    · obtain rfl := Option.some.inj ha
      exact admissionAt_keys r b app url id ▸ hq b rfl
  | answered b => exact hq a ha

end Registry

namespace Traffic

variable {t : Traffic} {k : String}

theorem Valid.step (h : t.Valid) (e : Event) : (t.step e).Valid := by
  obtain ⟨hkeys, hkeyed⟩ := Registry.run_keyed (t.step_registry e) h.keyed
  refine ⟨hkeyed, ?_⟩
  have hstay : ∀ c ∈ t.calls, ∀ a, c.request.policy? = some a →
      (t.step e).registry.keys[a]? = some c.app.key :=
    fun c hc a ha => Registry.keys_stable hkeys (h.found c hc a ha)
  cases e with
  | call app url =>
    intro c hc
    rcases List.mem_append.mp hc with hc | hc
    · exact hstay c hc
    · obtain rfl := List.mem_singleton.mp hc
      exact fun a ha => by cases ha
  | advance n id =>
    simp only [Traffic.step] at hstay ⊢
    split
    · exact h.found
    · next d hd =>
      simp only [hd] at hstay
      intro c hc
      rcases List.mem_or_eq_of_mem_set hc with hc | rfl
      · exact hstay c hc
      · exact Registry.advance_found h.keyed (h.found d (List.mem_of_getElem? hd))
  | _ => exact hstay

theorem valid_start (transport : Option TransportRef) :
    ({ registry := { transport } } : Traffic).Valid :=
  ⟨by simp [Registry.Keyed], by simp⟩

theorem only_calls_set {calls : List Call} {f : PolicyRef → PolicyRef} {c d : Call} {n : Nat}
    (hc : calls[n]? = some c) (hd : d.app = c.app) :
    ((calls.set n d).filter (·.app.key = k)).map (Call.renumber f) =
      if c.app.key = k then
        ((calls.filter (·.app.key = k)).map (Call.renumber f)).set (place (·.app.key = k) calls n)
          (d.renumber f)
      else (calls.filter (·.app.key = k)).map (Call.renumber f) := by
  split
  · next hk =>
    rw [filter_set_of_pos (f := fun c : Call => decide (c.app.key = k)) hc (decide_eq_true hk)
      (decide_eq_true (hd ▸ hk)), List.map_set]
  · next hk =>
    rw [filter_set_of_neg (f := fun c : Call => decide (c.app.key = k)) hc (decide_eq_false hk)
      (decide_eq_false (hd ▸ hk))]

theorem Valid.renumber (h : t.Valid) {s : Registry} (hs : t.registry.keys <+: s.keys) :
    (t.calls.filter (·.app.key = k)).map (Call.renumber (s.rank k)) =
      (t.calls.filter (·.app.key = k)).map (Call.renumber (t.registry.rank k)) := by
  refine List.map_congr_left fun c hc => ?_
  have hc := (List.mem_filter.mp hc).1
  rw [Call.renumber, Call.renumber,
    Request.renumber_congr fun a ha => Registry.rank_stable hs (h.found c hc a ha)]

theorem only_advance (h : t.Valid) {n : Nat} {c : Call} (hc : t.calls[n]? = some c) (id : String) :
    (t.step (.advance n id)).only k =
      if c.app.key = k then (t.only k).step (.advance (place (·.app.key = k) t.calls n) id)
      else t.only k := by
  have hkeys := (Registry.run_keyed (t.step_registry (.advance n id)) h.keyed).1
  have hfound := h.found c (List.mem_of_getElem? hc)
  simp only [step, hc] at hkeys ⊢
  simp only [only,
    only_calls_set (d := { c with request := (t.registry.advance c.app c.url id c.request).2 }) hc
      rfl, h.renumber hkeys]
  split
  · next hk =>
    have hget : ((t.calls.filter (·.app.key = k)).map (Call.renumber (t.registry.rank k)))[
        place (·.app.key = k) t.calls n]? = some (c.renumber (t.registry.rank k)) := by
      rw [List.getElem?_map, getElem?_filter hc (decide_eq_true hk)]
      rfl
    have hadvance := Registry.only_advance h.keyed hk (fun a ha => hk ▸ hfound a ha) c.url id
    simp only [hget, Call.renumber, hadvance]
  · next hk => rw [Registry.only_advance_other h.keyed hk hfound]

theorem only_of_keys {s : Registry} (hs : s.keys = t.registry.keys) :
    ({ t with registry := s } : Traffic).only k = { t.only k with registry := s.only k } := by
  simp only [only, Registry.rank_congr hs]

theorem only_admission (app : AppSpec) (url : Option String) (ref : PolicyRef) (id : String) :
    (t.step (.admission ref app url id)).only k =
      if t.registry.keys[ref]? = some k then
        (t.only k).step (.admission (t.registry.rank k ref) app url id)
      else t.only k := by
  rw [step, only_of_keys (t.registry.admissionAt_keys ref app url id)]
  split
  · next hk =>
    obtain ⟨p, hp, hkey⟩ := Registry.policy_of_keys hk
    rw [step, only, Registry.only_admissionAt hp hkey]
  · next hk =>
    cases hp : t.registry.policy? ref with
    | none => simp [Registry.admissionAt, hp, only]
    | some p =>
      have hother : p.pool.key ≠ k := fun hkey => hk (hkey ▸ Registry.keys_of_policy hp)
      rw [Registry.only_admissionAt_other hp hother]
      rfl

theorem only_step (now : Time) (ref : PolicyRef) (worker : WorkerRef) (event : Worker.Event) :
    ((t.happen (.step now ref worker event)).only k,
      t.registry.share k (t.asks (.step now ref worker event))) =
      if t.registry.keys[ref]? = some k then
        ((t.only k).happen (.step now (t.registry.rank k ref) worker event),
          (t.only k).asks (.step now (t.registry.rank k ref) worker event))
      else (t.only k, []) := by
  have hstep : ∀ (event : Worker.Event) (p : Pool), (p.step now worker event).1.key = p.key :=
    fun event p => Pool.step_key now event
  simp only [happen, asks, attune, step, Registry.step]
  generalize hevent : event.told ((t.registry.policy? ref).bind (·.pool.transport)) = told
  rw [only_of_keys (Registry.withPool_keys t.registry ref (hstep told))]
  split
  · next hk =>
    obtain ⟨p, hp, hkey⟩ := Registry.policy_of_keys hk
    have hpolicy : (t.only k).registry.policy? (t.registry.rank k ref) = t.registry.policy? ref :=
      (Registry.only_policy? hp hkey).trans hp.symm
    rw [hpolicy, hevent]
    rw [show (t.only k).registry = t.registry.only k from rfl,
      Registry.only_withPool hp hkey (hstep told)]
  · next hk =>
    cases hp : t.registry.policy? ref with
    | none =>
      rw [Registry.withPool_of_none _ hp]
      rfl
    | some p =>
      have hother : p.pool.key ≠ k := fun hkey => hk (hkey ▸ Registry.keys_of_policy hp)
      obtain ⟨honly, hshare⟩ := Registry.only_withPool_other hp hother (hstep told)
      rw [honly, hshare]
      rfl

theorem only_happen (h : t.Valid) (e : Event) :
    ((t.happen e).only k, t.registry.share k (t.asks e)) =
      match t.share k e with
      | some e => ((t.only k).happen e, (t.only k).asks e)
      | none => (t.only k, []) := by
  cases e with
  | call app url =>
    by_cases hk : app.key = k <;>
      simp [share, hk, happen, asks, attune, step, only, Call.renumber, Request.renumber,
        Registry.share]
  | advance n id =>
    cases hc : t.calls[n]? with
    | none => simp [share, hc, happen, attune, step, asks, Registry.share]
    | some c =>
      have hadvance := only_advance (k := k) h hc id
      by_cases hk : c.app.key = k <;>
        simpa [share, hc, hk, happen, attune, asks, Registry.share] using hadvance
  | admission ref app url id =>
    have hadmission := only_admission (t := t) (k := k) app url ref id
    by_cases hk : t.registry.keys[ref]? = some k <;>
      simpa [share, hk, happen, attune, asks, Registry.share] using hadmission
  | step now ref worker event =>
    rw [only_step]
    by_cases hk : t.registry.keys[ref]? = some k <;> simp [share, hk]
  | readVacancy =>
    by_cases hv : t.registry.vacancies.head? = some k
    · simp only [share, hv, if_true, happen, asks, attune, step]
      rw [only_of_keys t.registry.readVacancy_keys, ← Registry.only_readVacancy h.keyed hv]
      rfl
    · simp only [share, hv, if_false, happen, asks, attune, step]
      rw [only_of_keys t.registry.readVacancy_keys, Registry.only_readVacancy_other h.keyed hv]
      rfl
  | setTransport transport =>
    simp only [share, happen, asks, attune, step]
    rw [only_of_keys (t.registry.setTransport_keys transport), ← Registry.only_setTransport h.keyed]
    rfl
  | shutdown now =>
    have hshutdown := Registry.only_shutdown (k := k) h.keyed now
    simp only [share, happen, asks, attune, step]
    rw [only_of_keys (t.registry.shutdown_keys now)]
    simp only [only, hshutdown]

-- ---------------------------------------------------------------------------
-- Runs
-- ---------------------------------------------------------------------------

theorem Valid.happen (h : t.Valid) (e : Event) : (t.happen e).Valid := h.step (t.attune e)

def run (t : Traffic) (es : List Event) : Traffic := es.foldl happen t

/-- When the event happens, if anything can be asked of the world then. -/
def Event.time? : Event → Option Time
  | .step now .. | .shutdown now => some now
  | _ => none

theorem time?_share {e f : Event} (h : t.share k e = some f) : f.time? = e.time? := by
  cases e <;> simp only [share, Option.ite_none_right_eq_some, Option.some.injEq] at h
  all_goals first | subst h; rfl | obtain ⟨-, rfl⟩ := h; rfl

def outputs (t : Traffic) : List Event → List (Option Time × Act)
  | [] => []
  | e :: es => (t.asks e).map (e.time?, ·) ++ (t.happen e).outputs es

/-- Those of the events that concern the key, as its share sees them. -/
def inputsOf (k : String) (t : Traffic) : List Event → List Event
  | [] => []
  | e :: es => (t.share k e).toList ++ inputsOf k (t.happen e) es

/-- What is asked for the key's workers, and when. -/
def outputsOf (k : String) (t : Traffic) : List Event → List (Option Time × Act)
  | [] => []
  | e :: es => (t.registry.share k (t.asks e)).map (e.time?, ·) ++ outputsOf k (t.happen e) es

theorem only_run (h : t.Valid) (es : List Event) :
    (t.run es).only k = (t.only k).run (inputsOf k t es) ∧
      outputsOf k t es = (t.only k).outputs (inputsOf k t es) := by
  induction es generalizing t with
  | nil => exact ⟨rfl, rfl⟩
  | cons e es ih =>
    obtain ⟨hrun, houtputs⟩ := ih (h.happen e)
    have hhappen := only_happen (k := k) h e
    cases hshare : t.share k e with
    | none =>
      simp only [hshare, Prod.mk.injEq] at hhappen
      rw [hhappen.1] at hrun houtputs
      simpa [run, inputsOf, outputsOf, hshare, hhappen.2] using ⟨hrun, houtputs⟩
    | some f =>
      simp only [hshare, Prod.mk.injEq] at hhappen
      rw [hhappen.1] at hrun houtputs
      simpa [run, inputsOf, outputsOf, outputs, hshare, hhappen.2,
        time?_share hshare] using ⟨hrun, houtputs⟩

end Traffic

end AppHost
