import AppHost.Proofs.Registry.Lineage

/-!
# What a key is served with

A `Service` has one pool, which is never dropped, and the answers to all requests. The share of a
key looks like one from outside: lookups, retries and the reading of reports cannot be seen, and all
that concerns the key does to the share what it does to the service (`Traffic.service_happen`). So
when reports are read, which is up to the one queue for all keys, makes no difference to what a key
is served with (`Traffic.service_run`).
-/

namespace AppHost

open Registry (Act asked)

structure Service where
  pool : Pool
  /-- What each request was answered, if it was. -/
  answers : List (Option (Except Failure WorkerRef)) := []

namespace Service

inductive Event where
  | call
  /-- A request is answered: one of those that were made, or one that came to the policy
  directly. -/
  | admission (n : Option Nat) (app : AppSpec) (url : Option String) (id : String)
  | step (now : Time) (worker : WorkerRef) (event : Worker.Event)
  | setTransport (transport : TransportRef)
  | shutdown (now : Time)

def Event.time? : Event → Option Time
  | .step now .. | .shutdown now => some now
  | _ => none

def happen (s : Service) : Event → Service
  | .call => { s with answers := s.answers ++ [none] }
  | .admission n app url id =>
    let a := ({ pool := s.pool } : Policy).admission app url id
    { pool := a.1.pool, answers := n.elim s.answers fun n => s.answers.set n (some a.2) }
  | .step now worker event =>
    { s with pool := (s.pool.step now worker (event.told s.pool.transport)).1 }
  | .setTransport transport => { s with pool := { s.pool with transport := some transport } }
  | .shutdown now => { s with pool := (s.pool.shutdown now).1 }

def asks (s : Service) : Event → List Act
  | .step now worker event => asked 0 (s.pool.step now worker (event.told s.pool.transport)).2
  | .shutdown now => asked 0 (s.pool.shutdown now).2
  | _ => []

def run (s : Service) (es : List Event) : Service := es.foldl happen s

def outputs (s : Service) : List Event → List (Option Time × Act)
  | [] => []
  | e :: es => (s.asks e).map (e.time?, ·) ++ (s.happen e).outputs es

end Service

def Request.answer? (number : PolicyRef → WorkerRef → WorkerRef) :
    Request → Option (Except Failure WorkerRef)
  | .answered ref result => some (result.map (number ref))
  | _ => none

def Registry.serves (r : Registry) (ref : PolicyRef) : Bool :=
  (r.policy? ref).any fun p => !p.retired

theorem Request.policy?_renumber (f : PolicyRef → PolicyRef) (q : Request) :
    (q.renumber f).policy? = q.policy?.map f := by
  cases q <;> rfl

namespace Traffic

def service (t : Traffic) (k : String) : Service where
  pool := t.registry.lineage k
  answers := t.calls.map (·.request.answer? t.registry.number)

/-- The event as it comes to the service, if it does. -/
def served? (t : Traffic) : Event → Option Service.Event
  | .call .. => some .call
  | .advance n id =>
    (t.calls[n]?).bind fun c =>
      match c.request with
      | .found ref =>
        if t.registry.serves ref then some (.admission (some n) c.app c.url id) else none
      | _ => none
  | .admission ref app url id =>
    if t.registry.serves ref then some (.admission none app url id) else none
  | .step now ref worker event =>
    if (t.registry.worker? ref worker).isSome then
      some (.step now (t.registry.number ref worker) event) else none
  | .readVacancy => none
  | .setTransport transport => some (.setTransport transport)
  | .shutdown now => some (.shutdown now)

/-- Traffic that has nothing but this key's policies and requests. -/
structure Sole (t : Traffic) (k : String) : Prop where
  registry : t.registry.Sole k
  calls : ∀ c ∈ t.calls, c.app.key = k
  found : ∀ c ∈ t.calls, ∀ a, c.request.policy? = some a → a < t.registry.policies.length

theorem Valid.sole_only {t : Traffic} (h : t.Valid) (hs : t.registry.Sound) (k : String) :
    (t.only k).Sole k where
  registry := Registry.sole_only hs k
  calls c hc := by
    obtain ⟨d, hd, rfl⟩ := List.mem_map.mp hc
    exact of_decide_eq_true (List.mem_filter.mp hd).2
  found c hc a ha := by
    obtain ⟨d, hd, rfl⟩ := List.mem_map.mp hc
    obtain ⟨hd, hkey⟩ := List.mem_filter.mp hd
    have hkey : d.app.key = k := of_decide_eq_true hkey
    rw [Call.renumber, Request.policy?_renumber] at ha
    obtain ⟨b, hb, rfl⟩ := Option.map_eq_some_iff.mp ha
    obtain ⟨p, hp, hpk⟩ := Registry.policy_of_keys (h.found d hd b hb)
    exact Registry.policy?_lt (Registry.only_policy? hp (hpk.trans hkey))

variable {t : Traffic} {k : String} {old : List Policy} {live : Option Pool} {s : Registry}
  {P : Pool}

/-- The answers that were given are told by the same numbers from now on. -/
theorem Sole.answers (h : t.Sole k) (hl : t.registry.Line k old live) (hs : s.Continues k old P) :
    t.calls.map (·.request.answer? s.number) =
      t.calls.map (·.request.answer? t.registry.number) := by
  refine List.map_congr_left fun c hc => ?_
  cases hq : c.request with
  | answered a result =>
    have hlength : t.registry.policies.length ≤ old.length + 1 := by
      rw [hl.policies]
      cases live <;> simp
    have ha : a < t.registry.policies.length := h.found c hc a (by rw [hq]; rfl)
    simp only [Request.answer?, hs.number hl (Nat.le_of_lt_succ (Nat.lt_of_lt_of_le ha hlength))]
  | _ => rfl

theorem service_of_registry (h : t.Sole k) (hl : t.registry.Line k old live)
    (hs : s.Continues k old P) :
    ({ t with registry := s } : Traffic).service k = { t.service k with pool := P } := by
  have hanswers := h.answers hl hs
  obtain ⟨-, -, -, -, hlineage⟩ := hs
  simp only [service, hanswers, hlineage]

theorem service_set (h : t.Sole k) (hl : t.registry.Line k old live) (hs : s.Continues k old P)
    (n : Nat) (d : Call) :
    ({ registry := s, calls := t.calls.set n d } : Traffic).service k =
      { pool := P, answers := (t.service k).answers.set n (d.request.answer? s.number) } := by
  have hanswers := h.answers hl hs
  obtain ⟨-, -, -, -, hlineage⟩ := hs
  simp only [service, List.map_set, hanswers, hlineage]

theorem answers_set {n : Nat} {c : Call} (hc : t.calls[n]? = some c) :
    (t.service k).answers.set n (c.request.answer? t.registry.number) = (t.service k).answers := by
  obtain ⟨hlt, rfl⟩ := List.getElem?_eq_some_iff.mp hc
  rw [service, ← List.map_set (f := fun c : Call => c.request.answer? t.registry.number),
    List.set_getElem_self]

theorem live_of_serves (hl : t.registry.Line k old live) (h : t.registry.serves ref = true) :
    ∃ p, live = some p ∧ ref = old.length := by
  cases hv : t.registry.policy? ref with
  | none => simp [Registry.serves, hv] at h
  | some v =>
    rcases hl.cases hv with hold | ⟨p, hp, href, -⟩
    · simp [Registry.serves, hv, hl.retired v (List.mem_of_getElem? hold)] at h
    · exact ⟨p, hp, href⟩

theorem retired_of_serves (h : t.registry.serves ref = false) (p : Policy)
    (hp : t.registry.policy? ref = some p) : p.retired = true := by
  simpa [Registry.serves, hp] using h

/-- A request goes one stage further: it is answered, or nothing of it can be seen. -/
theorem service_advance (h : t.Sole k) (hl : t.registry.Line k old live) {n : Nat} {c : Call}
    (hc : t.calls[n]? = some c) (id : String) :
    (∃ old' live', (t.step (.advance n id)).registry.Line k old' live') ∧
      ((t.step (.advance n id)).service k, ([] : List Act)) =
        match t.served? (.advance n id) with
        | some f => ((t.service k).happen f, (t.service k).asks f)
        | none => (t.service k, []) := by
  have hkey : c.app.key = k := h.calls c (List.mem_of_getElem? hc)
  have hset := answers_set (k := k) hc
  cases hq : c.request with
  | seeking =>
    have hcont := hl.policyFor
    simp only [hq, Request.answer?] at hset
    simp only [step, served?, hc, hq, Registry.advance, hkey, service_set h hl hcont,
      Request.answer?, hset, Option.bind_some]
    exact ⟨hcont.line, rfl⟩
  | found ref =>
    cases hserves : t.registry.serves ref with
    | false =>
      simp only [hq, Request.answer?] at hset
      simp only [step, served?, hc, hq, hserves, Registry.advance,
        Registry.admissionAt_retired (retired_of_serves hserves), service_set h hl hl.same,
        Request.answer?, hset,
        Option.bind_some]
      exact ⟨⟨old, live, hl⟩, rfl⟩
    | true =>
      obtain ⟨p, rfl, rfl⟩ := live_of_serves hl hserves
      obtain ⟨hcont, hanswer, hresult⟩ := hl.admissionAt (hl.key h.registry p rfl) c.app c.url id
      simp only [step, served?, hc, hq, hserves, Registry.advance_admitted hanswer,
        service_set h hl hcont, Request.answer?, hcont.number hl (Nat.le_refl _), hresult,
        Option.bind_some]
      exact ⟨hcont.line, rfl⟩
  | answered ref result =>
    simp only [hq] at hset
    simp only [step, served?, hc, hq, Registry.advance, service_set h hl hl.same, hset,
      Option.bind_some]
    exact ⟨⟨old, live, hl⟩, rfl⟩

/-- Whatever happens to the traffic of a key happens to its service, or cannot be seen there. -/
theorem service_happen (h : t.Sole k) (hl : t.registry.Line k old live) (e : Event) :
    (∃ old' live', (t.happen e).registry.Line k old' live') ∧
      ((t.happen e).service k, t.registry.numbered (t.asks e)) =
        match t.served? e with
        | some f => ((t.service k).happen f, (t.service k).asks f)
        | none => (t.service k, []) := by
  cases e with
  | call app url =>
    refine ⟨⟨old, live, hl⟩, ?_⟩
    simp [happen, attune, step, asks, served?, service, Service.happen, Service.asks,
      Request.answer?, Registry.numbered]
  | advance n id =>
    cases hc : t.calls[n]? with
    | none =>
      have hsame : t.happen (.advance n id) = t := by simp [happen, attune, step, hc]
      rw [hsame]
      exact ⟨⟨old, live, hl⟩, by simp [served?, hc, asks, attune, Registry.numbered]⟩
    | some c =>
      exact service_advance h hl hc id
  | admission ref app url id =>
    cases hserves : t.registry.serves ref with
    | false =>
      have hsame : t.happen (.admission ref app url id) = t := by
        simp [happen, attune, step, Registry.admissionAt_retired (retired_of_serves hserves)]
      rw [hsame]
      exact ⟨⟨old, live, hl⟩, by simp [served?, hserves, asks, attune, Registry.numbered]⟩
    | true =>
      obtain ⟨p, rfl, rfl⟩ := live_of_serves hl hserves
      obtain ⟨hcont, -⟩ := hl.admissionAt (hl.key h.registry p rfl) app url id
      refine ⟨hcont.line, ?_⟩
      simp only [happen, attune, step, asks, served?, hserves]
      rw [service_of_registry h hl hcont]
      rfl
  | step now ref i event =>
    cases hw : t.registry.worker? ref i with
    | none =>
      simp only [happen, attune, step, asks, served?, Registry.step_of_absent hw, hw]
      exact ⟨⟨old, live, hl⟩, rfl⟩
    | some w =>
      obtain ⟨v, hv, hw'⟩ := Option.bind_eq_some_iff.mp hw
      obtain ⟨hcont, hasks⟩ := hl.step h.registry hv hw' now event
      refine ⟨?_, ?_⟩
      · simp only [happen, attune, step, hv, Option.bind_some]
        exact hcont.line
      · simp only [happen, attune, step, asks, served?, hv, hw, Option.bind_some, hasks]
        rw [service_of_registry h hl hcont]
        rfl
  | readVacancy =>
    have hcont := hl.readVacancy h.registry
    refine ⟨hcont.line, ?_⟩
    simp only [happen, attune, step, asks, served?]
    rw [service_of_registry h hl hcont]
    rfl
  | setTransport transport =>
    have hcont := hl.setTransport h.registry transport
    refine ⟨hcont.line, ?_⟩
    simp only [happen, attune, step, asks, served?]
    rw [service_of_registry h hl hcont]
    rfl
  | shutdown now =>
    obtain ⟨hcont, hasks⟩ := hl.shutdown h.registry now
    refine ⟨hcont.line, ?_⟩
    simp only [happen, attune, step, asks, served?, hasks]
    rw [service_of_registry h hl hcont]
    rfl

-- ---------------------------------------------------------------------------
-- Runs
-- ---------------------------------------------------------------------------

theorem time?_served {e : Event} {f : Service.Event} (h : t.served? e = some f) :
    f.time? = e.time? := by
  cases e with
  | advance n id =>
    obtain ⟨c, -, hc⟩ := Option.bind_eq_some_iff.mp h
    split at hc
    · simp only [Option.ite_none_right_eq_some, Option.some.injEq] at hc
      obtain ⟨-, rfl⟩ := hc
      rfl
    · cases hc
  | readVacancy => cases h
  | call | setTransport | shutdown => cases h; rfl
  | admission | step =>
    simp only [served?, Option.ite_none_right_eq_some, Option.some.injEq] at h
    obtain ⟨-, rfl⟩ := h
    rfl

def servedOf (k : String) (t : Traffic) : List Event → List Service.Event
  | [] => []
  | e :: es => ((t.share k e).bind (t.only k).served?).toList ++ servedOf k (t.happen e) es

/-- What is asked for the key's workers, counted through all its policies, and when. -/
def demandsOf (k : String) (t : Traffic) : List Event → List (Option Time × Act)
  | [] => []
  | e :: es =>
    ((t.only k).registry.numbered (t.registry.share k (t.asks e))).map (e.time?, ·) ++
      demandsOf k (t.happen e) es

theorem service_run (h : t.Valid) (hs : t.registry.Sound)
    (hl : ∃ old live, (t.only k).registry.Line k old live) (es : List Event) :
    ((t.run es).only k).service k = ((t.only k).service k).run (servedOf k t es) ∧
      demandsOf k t es = ((t.only k).service k).outputs (servedOf k t es) := by
  induction es generalizing t with
  | nil => exact ⟨rfl, rfl⟩
  | cons e es ih =>
    obtain ⟨old, live, hl⟩ := hl
    have hsound : (t.happen e).registry.Sound :=
      Registry.moves_sound (Registry.run_moves (t.step_registry _)) hs
    have honly := only_happen (k := k) h e
    cases hshare : t.share k e with
    | none =>
      simp only [hshare, Prod.mk.injEq] at honly
      have ih := ih (h.happen e) hsound (by rw [honly.1]; exact ⟨old, live, hl⟩)
      rw [honly.1] at ih
      simpa [run, servedOf, demandsOf, hshare, honly.2, Registry.numbered] using ih
    | some f =>
      simp only [hshare, Prod.mk.injEq] at honly
      obtain ⟨hline, hhappen⟩ := service_happen (h.sole_only hs k) hl f
      have ih := ih (h.happen e) hsound (by rw [honly.1]; exact hline)
      rw [honly.1] at ih
      cases hserved : (t.only k).served? f with
      | none =>
        simp only [hserved, Prod.mk.injEq] at hhappen
        rw [hhappen.1] at ih
        simpa [run, servedOf, demandsOf, hshare, hserved, honly.2, hhappen.2] using ih
      | some g =>
        simp only [hserved, Prod.mk.injEq] at hhappen
        rw [hhappen.1] at ih
        have htime : g.time? = e.time? := (time?_served hserved).trans (time?_share hshare)
        simpa [run, servedOf, demandsOf, Service.run, Service.outputs, hshare, hserved, honly.2,
          hhappen.2, htime] using ih

end Traffic

end AppHost
