import AppHost.Endpoint.Directory
import AppHost.Endpoint.Port
import AppHost.Proofs.Launch.Outcome
import AppHost.Proofs.Registry.Reports
import AppHost.Proofs.Registry.Stopping
import AppHost.Proofs.Registry.Traffic

/-!
# Requests that find their policy retired

Between a request's lookup and its admission the policy may be dropped. The request is turned away
then, looks again, and finds another policy; there is no limit to how often. `Standing` relates how
far a request has come to the removals that came in its way: every retry answers to one of its own,
and while its policy is in the map the next admission is the last.
-/

namespace AppHost

open Relation (ReflTransGen)

-- ---------------------------------------------------------------------------
-- What waiting for a worker can end with
-- ---------------------------------------------------------------------------

/-- Why the endpoint or the process that a startup asked for is refused. -/
def Worker.Event.refusal? : Worker.Event → Option Failure
  | .allocated (.error failure) _ | .launched (.error failure) => some failure
  | _ => none

theorem Bind.alloc_ne_retired (next : Nat → Bind) (retries made : Nat) :
    (alloc next retries made).1 ≠ .error .retired := by
  fun_induction alloc next retries made with
  | case4 _ _ _ _ _ ih => exact ih
  | _ => simp

namespace Launch

theorem Launcher.launch_ne_retired (l : Launcher) (m : Machine) (files : Files) (app : AppSpec)
    (endpoint : Endpoint) (log : Option Path) (workerId : String) :
    (l.launch m files app endpoint log workerId).result ≠ .error .retired := by
  rw [Ne, launch_error_first id]
  intro hr
  have hinquiry := inquiry m files app
  rw [hr] at hinquiry
  cases hinquiry with
  | unaccounted h => simpa using accountFor_error h

end Launch

namespace Worker

/-- What the host's own transports and its launcher answer. -/
inductive Event.Own : Event → Prop
  | port (next : Nat → Bind) (made : Nat) (secret stamp : String) :
      Own (.allocated
        ((Bind.alloc next Bind.maxRetries made).1.map fun port => ⟨.port port, secret⟩) stamp)
  | socket (dir : Path) (name secret : List UInt8) (stamp : String) :
      Own (.allocated (.ok (SocketDirectory.endpoint dir name secret)) stamp)
  | launched (l : Launch.Launcher) (m : Launch.Machine) (files : Files) (app : AppSpec)
      (endpoint : Endpoint) (log : Option Path) (workerId : String) (process : Nat) :
      Own (.launched ((l.launch m files app endpoint log workerId).result.map fun _ => process))

variable {w w' : Worker} {now : Time} {e : Event} {acts : List Act}

theorem Event.Own.unretired (h : e.Own) : e.refusal? ≠ some .retired := by
  cases h with
  | port next made =>
    have halloc := Bind.alloc_ne_retired next Bind.maxRetries made
    cases hr : (Bind.alloc next Bind.maxRetries made).1 <;> simp_all [Except.map, refusal?]
  | socket => simp [refusal?]
  | launched l m files app endpoint log workerId =>
    have hlaunch := l.launch_ne_retired m files app endpoint log workerId
    cases hr : (l.launch m files app endpoint log workerId).result <;>
      simp_all [Except.map, refusal?]

theorem Effect.unretired (h : Effect w now e w' acts) (he : e.refusal? ≠ some .retired)
    (hw : w.entry.outcome ≠ some (.error .retired)) :
    w'.entry.outcome ≠ some (.error .retired) := by
  cases hout : w.entry.outcome with
  | some o =>
    rw [h.outcome hout, ← hout]
    exact hw
  | none =>
    cases h with
    | unallocated | unlaunched =>
      simpa [Worker.abandon, cleanUp, Entry.resolve_outcome, hout, Event.refusal?] using he
    | refused | handled => simp [Worker.abandon, cleanUp, Entry.resolve_outcome, hout]
    | timedOut => simp [timeOut, kill_eq, Entry.resolve_outcome, hout]
    | readied => simp [becomeReady, Entry.resolve_outcome, hout]
    | stopped | killed => simp [kill_eq, unread, hout]
    | _ => simp [unread, hout]

end Worker

/-- Nobody who waits for a worker of the pool is told of a retired policy. -/
def Pool.Unretired (p : Pool) : Prop :=
  ∀ i w, p.worker? i = some w → w.entry.outcome ≠ some (.error .retired)

namespace Registry

variable {r s : Registry} {a : PolicyRef} {p : Policy} {key : String}

def Unretired (r : Registry) : Prop := ∀ a p, r.policy? a = some p → p.pool.Unretired

-- ---------------------------------------------------------------------------
-- Lookups and admissions
-- ---------------------------------------------------------------------------

theorem Sound.retired_iff (hr : r.Sound) (hp : r.policy? a = some p) (hkey : p.pool.key = key) :
    p.retired = true ↔ r.lookup? key ≠ some a := by
  constructor
  · exact fun hretired => hr.notMem_of_retired hp hretired key
  · intro hl
    cases hretired : p.retired with
    | true => rfl
    | false => exact absurd (hkey ▸ hr.live a p hp hretired) hl

/-- A policy turns requests away for being retired if and only if it has gone out of the map. -/
theorem Sound.denied_iff (hr : r.Sound) (hp : r.policy? a = some p) (hkey : p.pool.key = key)
    (app : AppSpec) (url : Option String) (id : String) :
    (r.admissionAt a app url id).2 = .error .retired ↔ r.lookup? key ≠ some a := by
  rw [← hr.retired_iff hp hkey]
  simp only [admissionAt, hp, Policy.admission]
  split
  · next h => simp [h]
  · next h =>
    split
    · simp [h]
    · split <;> simp [h, Policy.outOfCapacity]

theorem Sound.gone (hr : r.Sound) (h : ReflTransGen Next r s) (hp : r.policy? a = some p)
    (hkey : p.pool.key = key) (hl : r.lookup? key ≠ some a) : s.lookup? key ≠ some a := by
  obtain ⟨q, hq, -, hstays⟩ := run_keeps h hp
  have hretired : q.retired = true := hstays ((hr.retired_iff hp hkey).mpr hl)
  exact (moves_sound (run_moves h) hr).notMem_of_retired hq hretired key

end Registry

namespace Traffic

def request? (t : Traffic) (n : Nat) : Option Request := t.calls[n]?.map Call.request

def Event.refusal? : Event → Option Failure
  | .step _ _ _ event => event.refusal?
  | _ => none

/-- The answer that a worker's startup is given, if this is one, is the host's own. -/
def Event.Own : Event → Prop
  | .step _ _ _ event => event.Own
  | _ => False

theorem Event.Own.unretired {e : Event} (h : e.Own) : e.refusal? ≠ some .retired := by
  cases e with
  | step => exact Worker.Event.Own.unretired h
  | _ => exact h.elim

/-- One event, with the traffic as it was. -/
structure Moment where
  before : Traffic
  event : Event

namespace Moment

def after (m : Moment) : Traffic := m.before.step m.event

def turns (n : Nat) (m : Moment) : Bool :=
  match m.event with
  | .advance k _ => k = n && (m.before.request? n).isSome
  | _ => false

def looksUp (n : Nat) (m : Moment) : Bool :=
  match m.before.request? n, m.after.request? n with
  | some .seeking, some (.found _) => true
  | _, _ => false

/-- The request comes to a retired policy and will look again. -/
def retries (n : Nat) (m : Moment) : Bool :=
  match m.before.request? n, m.after.request? n with
  | some (.found _), some .seeking => true
  | _, _ => false

/-- The policy that the request has found, and not come to yet, goes out of the map. -/
def removes (n : Nat) (m : Moment) : Bool :=
  match m.before.calls[n]? with
  | some { app, request := .found a, .. } =>
    m.before.registry.lookup? app.key = some a ∧ m.after.registry.lookup? app.key ≠ some a
  | _ => false

/-- The request has found this policy and does not come to it now. -/
def Waits (n : Nat) (a : PolicyRef) (m : Moment) : Prop :=
  m.before.request? n = some (.found a) ∧ m.after.request? n = some (.found a)

end Moment

/-- Everything that has happened. -/
inductive History : List Moment → Traffic → Prop
  | start (transport : Option TransportRef) : History [] { registry := { transport } }
  | happen (e : Event) (h : History history t) : History (history ++ [⟨t, e⟩]) (t.step e)

variable {history pre post : List Moment} {t : Traffic} {e : Event} {m : Moment} {n : Nat}
  {c : Call}

theorem History.reachable (h : History history t) : t.Reachable := by
  induction h with
  | start transport => exact ⟨transport, .refl⟩
  | happen e _ ih =>
    obtain ⟨transport, hr⟩ := ih
    exact ⟨transport, hr.tail ⟨e, rfl⟩⟩

def moments (t : Traffic) : List Event → List Moment
  | [] => []
  | e :: events => ⟨t, e⟩ :: (t.step e).moments events

theorem History.run (h : History history t) (events : List Event) :
    History (history ++ t.moments events) (events.foldl step t) := by
  induction events generalizing history t with
  | nil => simpa [moments] using h
  | cons e events ih => simpa [moments] using ih (h.happen e)

theorem History.split (h : History (pre ++ m :: post) t) : History pre m.before := by
  generalize hhist : pre ++ m :: post = history at h
  induction h generalizing post with
  | start => simp at hhist
  | happen e hbefore ih =>
    obtain ⟨rfl, rfl, -⟩ | ⟨rest, rfl, hpre⟩ := append_cons_eq_append_singleton.mp hhist
    · exact hbefore
    · exact ih hpre

theorem History.unretired (h : History history t)
    (hworld : ∀ m ∈ history, m.event.refusal? ≠ some .retired) : t.registry.Unretired := by
  induction h with
  | start => exact fun a p hp => by simp [Registry.policy?] at hp
  | @happen history t e _ ih =>
    have he : e.refusal? ≠ some .retired := hworld ⟨t, e⟩ (by simp)
    refine all_step (P := fun _ _ w => w.entry.outcome ≠ some (.error .retired))
      (by simp [Worker.spawned])
      (fun _ _ w now hw => Worker.Effect.killed.unretired (by simp [Worker.Event.refusal?]) hw)
      (ih fun m hm => hworld m (List.mem_append_left _ hm)) ?_
    rintro now a i event w rfl - hw
    exact (w.step_effect now event).unretired he hw

-- ---------------------------------------------------------------------------
-- One event, as it concerns one request
-- ---------------------------------------------------------------------------

theorem request?_of_call (hc : t.calls[n]? = some c) : t.request? n = some c.request := by
  simp [request?, hc]

theorem turn (hc : t.calls[n]? = some c) (e : Event) :
    ((Moment.mk t e).turns n = false ∧ (t.step e).calls[n]? = some c) ∨
      ∃ id, (Moment.mk t e).turns n = true ∧
        (t.step e).registry = (t.registry.advance c.app c.url id c.request).1 ∧
        (t.step e).calls[n]? =
          some { c with request := (t.registry.advance c.app c.url id c.request).2 } := by
  have hlt : n < t.calls.length := (List.getElem?_eq_some_iff.mp hc).1
  cases e with
  | advance k id =>
    by_cases hk : k = n
    · subst hk
      refine .inr ⟨id, by simp [Moment.turns, request?_of_call hc], by simp [step, hc], ?_⟩
      simp only [step, hc, List.getElem?_set_self hlt]
    · refine .inl ⟨by simp [Moment.turns, hk], ?_⟩
      simp only [step]
      split
      · exact hc
      · simpa [List.getElem?_set_ne hk] using hc
  | call app url => exact .inl ⟨rfl, by simp [step, List.getElem?_append_left hlt, hc]⟩
  | _ => exact .inl ⟨rfl, hc⟩

-- ---------------------------------------------------------------------------
-- Standings
-- ---------------------------------------------------------------------------

/-- The policy that the request has found has gone out of the map since. -/
def Overtaken (history : List Moment) (n : Nat) (a : PolicyRef) : Prop :=
  ∃ start removal rest, history = start ++ removal :: rest ∧ removal.removes n = true ∧
    ∀ x ∈ removal :: rest, x.Waits n a

theorem Overtaken.wait (h : Overtaken history n a) (hm : m.Waits n a) :
    Overtaken (history ++ [m]) n a := by
  obtain ⟨start, removal, rest, rfl, hremoves, hwaits⟩ := h
  refine ⟨start, removal, rest ++ [m], by simp, hremoves, fun x hx => ?_⟩
  rw [← List.cons_append] at hx
  rcases List.mem_append.mp hx with hx | hx
  · exact hwaits x hx
  · rwa [List.mem_singleton.mp hx]

theorem overtaken_of_removes (hremoves : m.removes n = true) (hm : m.Waits n a) :
    Overtaken (history ++ [m]) n a :=
  ⟨history, m, [], rfl, hremoves, by simpa using hm⟩

/-- How far a request has come, and the removals that came in its way until then. -/
inductive Standing (history : List Moment) (t : Traffic) (n : Nat) (app : AppSpec) : Request → Prop
  | seeking (hturns : history.countP (·.turns n) = 2 * history.countP (·.removes n))
    (hlookups : history.countP (·.looksUp n) = history.countP (·.removes n)) :
    Standing history t n app .seeking
  | ahead (hp : t.registry.policy? a = some p) (hkey : p.pool.key = app.key)
    (hl : t.registry.lookup? app.key = some a)
    (hturns : history.countP (·.turns n) = 2 * history.countP (·.removes n) + 1)
    (hlookups : history.countP (·.looksUp n) = history.countP (·.removes n) + 1) :
    Standing history t n app (.found a)
  | overtaken (hp : t.registry.policy? a = some p) (hkey : p.pool.key = app.key)
    (hl : t.registry.lookup? app.key ≠ some a) (ho : Overtaken history n a)
    (hturns : history.countP (·.turns n) + 1 = 2 * history.countP (·.removes n))
    (hlookups : history.countP (·.looksUp n) = history.countP (·.removes n)) :
    Standing history t n app (.found a)
  | answered (hturns : 2 * history.countP (·.removes n) + 2 ≤ history.countP (·.turns n))
    (hlookups : history.countP (·.looksUp n) = history.countP (·.removes n) + 1)
    (hresult : result ≠ .error .retired)
    (hworker : ∀ i, result = .ok i → ∃ w, t.registry.worker? a i = some w) :
    Standing history t n app (.answered a result)

section
variable {d : Call}

theorem Moment.looksUp_of_calls (hc : t.calls[n]? = some c) (hd : (t.step e).calls[n]? = some d) :
    (Moment.mk t e).looksUp n =
      match c.request, d.request with
      | .seeking, .found _ => true
      | _, _ => false := by
  simp only [looksUp, after, request?_of_call hc, request?_of_call hd]
  cases c.request <;> cases d.request <;> rfl

theorem Moment.removes_of_found {app : AppSpec} {url : Option String}
    (hc : t.calls[n]? = some ⟨app, url, .found a⟩) :
    (Moment.mk t e).removes n = true ↔
      t.registry.lookup? app.key = some a ∧ (t.step e).registry.lookup? app.key ≠ some a := by
  simp only [removes, after, hc]
  exact decide_eq_true_iff

theorem Moment.removes_of_other (hc : t.calls[n]? = some c) (hq : ∀ a, c.request ≠ .found a) :
    (Moment.mk t e).removes n = false := by
  obtain ⟨app, url, request⟩ := c
  cases request with
  | found a => exact absurd rfl (hq a)
  | _ => simp [removes, hc]

theorem Standing.aside (h : Standing history t n c.app c.request) (ht : t.registry.Sound)
    (hc : t.calls[n]? = some c) (hturn : (Moment.mk t e).turns n = false)
    (hd : (t.step e).calls[n]? = some c) :
    Standing (history ++ [⟨t, e⟩]) (t.step e) n c.app c.request := by
  have hrun := t.step_registry e
  have hlooks : (Moment.mk t e).looksUp n = false := by
    rw [Moment.looksUp_of_calls hc hd]
    cases c.request <;> rfl
  obtain ⟨app, url, request⟩ := c
  cases h with
  | seeking hturns hlookups =>
    have hremoves : (Moment.mk t e).removes n = false := Moment.removes_of_other hc (by simp)
    exact .seeking (by simpa [hturn, hremoves] using hturns)
      (by simpa [hlooks, hremoves] using hlookups)
  | answered hturns hlookups hresult hworker =>
    have hremoves : (Moment.mk t e).removes n = false := Moment.removes_of_other hc (by simp)
    refine .answered (by simpa [hturn, hremoves] using hturns)
      (by simpa [hlooks, hremoves] using hlookups) hresult
      fun i hi => ?_
    obtain ⟨w, hw⟩ := hworker i hi
    obtain ⟨v, hv, -⟩ :=
      Registry.worker_kept (P := fun _ => True) (fun _ _ _ _ => id) ht hrun hw trivial
    exact ⟨v, hv⟩
  | @ahead a p hp hkey hl hturns hlookups =>
    obtain ⟨q, hq, hqkey, -⟩ := Registry.run_keeps hrun hp
    by_cases hl' : (t.step e).registry.lookup? app.key = some a
    · have hremoves : (Moment.mk t e).removes n = false := by
        simpa [hl'] using (Moment.removes_of_found (e := e) hc).not
      exact .ahead hq (hqkey.trans hkey) hl' (by simpa [hturn, hremoves] using hturns)
        (by simpa [hlooks, hremoves] using hlookups)
    · have hremoves : (Moment.mk t e).removes n = true := (Moment.removes_of_found hc).mpr ⟨hl, hl'⟩
      refine .overtaken hq (hqkey.trans hkey) hl'
        (overtaken_of_removes hremoves ⟨request?_of_call hc, request?_of_call hd⟩) ?_
        (by simpa [hlooks, hremoves] using hlookups)
      simp only [List.countP_append, List.countP_singleton, hturn, hremoves, if_true,
        Bool.false_eq_true, if_false]
      omega
  | @overtaken a p hp hkey hl ho hturns hlookups =>
    obtain ⟨q, hq, hqkey, -⟩ := Registry.run_keeps hrun hp
    have hl' : (t.step e).registry.lookup? app.key ≠ some a := ht.gone hrun hp hkey hl
    have hremoves : (Moment.mk t e).removes n = false := by
      simpa [hl] using (Moment.removes_of_found (e := e) hc).not
    exact .overtaken hq (hqkey.trans hkey) hl' (ho.wait ⟨request?_of_call hc, request?_of_call hd⟩)
      (by simpa [hturn, hremoves] using hturns) (by simpa [hlooks, hremoves] using hlookups)

theorem Standing.turn {id : String} (h : Standing history t n c.app c.request)
    (ht : t.registry.Sound) (hc : t.calls[n]? = some c) (hturn : (Moment.mk t e).turns n = true)
    (hr : (t.step e).registry = (t.registry.advance c.app c.url id c.request).1)
    (hd : (t.step e).calls[n]? =
      some { c with request := (t.registry.advance c.app c.url id c.request).2 }) :
    Standing (history ++ [⟨t, e⟩]) (t.step e) n c.app
      (t.registry.advance c.app c.url id c.request).2 := by
  have hsound : (t.step e).registry.Sound :=
    Registry.moves_sound (Registry.run_moves (t.step_registry e)) ht
  obtain ⟨app, url, request⟩ := c
  cases h with
  | seeking hturns hlookups =>
    have hremoves : (Moment.mk t e).removes n = false := Moment.removes_of_other hc (by simp)
    have hlooks : (Moment.mk t e).looksUp n = true := Moment.looksUp_of_calls hc hd
    have hl : (t.step e).registry.lookup? app.key = some (t.registry.policyFor app.key).2 := by
      rw [hr]
      exact t.registry.lookup?_policyFor app.key
    obtain ⟨p, hp, hkey, -⟩ := hsound.current _ _ hl
    exact .ahead hp hkey hl (by simpa [hturn, hremoves] using hturns)
      (by simpa [hlooks, hremoves] using hlookups)
  | @ahead a p hp hkey hl hturns hlookups =>
    have hadmitted : (t.registry.admissionAt a app url id).2 ≠ .error .retired :=
      fun hdenied => (ht.denied_iff hp hkey app url id).mp hdenied hl
    rw [Registry.advance_admitted hadmitted] at hr hd ⊢
    have hl' : (t.step e).registry.lookup? app.key = some a := by
      rw [hr, Registry.lookup?, Registry.admissionAt_current]
      exact hl
    have hremoves : (Moment.mk t e).removes n = false := by
      simpa [hl'] using (Moment.removes_of_found (e := e) hc).not
    have hlooks : (Moment.mk t e).looksUp n = false := Moment.looksUp_of_calls hc hd
    refine .answered ?_ (by simpa [hlooks, hremoves] using hlookups) hadmitted fun i hi => ?_
    · simp only [List.countP_append, List.countP_singleton, hturn, hremoves, if_true,
        Bool.false_eq_true, if_false]
      omega
    · obtain ⟨w, hw, -⟩ := ht.admitted app url id hi
      exact ⟨w, hr ▸ hw⟩
  | @overtaken a p hp hkey hl ho hturns hlookups =>
    rw [Registry.advance_denied ((ht.denied_iff hp hkey app url id).mpr hl)] at hr hd ⊢
    have hremoves : (Moment.mk t e).removes n = false := by
      simpa [hl] using (Moment.removes_of_found (e := e) hc).not
    have hlooks : (Moment.mk t e).looksUp n = false := Moment.looksUp_of_calls hc hd
    exact .seeking (by simpa [hturn, hremoves] using hturns)
      (by simpa [hlooks, hremoves] using hlookups)
  | @answered a result hturns hlookups hresult hworker =>
    have hremoves : (Moment.mk t e).removes n = false := Moment.removes_of_other hc (by simp)
    have hlooks : (Moment.mk t e).looksUp n = false := Moment.looksUp_of_calls hc hd
    refine .answered ?_ (by simpa [hlooks, hremoves] using hlookups) hresult fun i hi => ?_
    · simp only [List.countP_append, List.countP_singleton, hturn, hremoves, if_true,
        Bool.false_eq_true, if_false]
      omega
    · obtain ⟨w, hw⟩ := hworker i hi
      exact ⟨w, hr ▸ hw⟩

theorem Standing.next (h : Standing history t n c.app c.request) (ht : t.registry.Sound)
    (hc : t.calls[n]? = some c) (hd : (t.step e).calls[n]? = some d) :
    Standing (history ++ [⟨t, e⟩]) (t.step e) n d.app d.request := by
  rcases t.turn hc e with ⟨hturn, hd'⟩ | ⟨id, hturn, hr, hd'⟩
  · obtain rfl := Option.some.inj (hd'.symm.trans hd)
    exact h.aside ht hc hturn hd
  · obtain rfl := Option.some.inj (hd'.symm.trans hd)
    exact h.turn ht hc hturn hr hd

/-- Nothing comes in the way of a request before it is made. -/
theorem counts_new (h : ∀ m ∈ history, m.before.calls[n]? = none) :
    history.countP (·.turns n) = 0 ∧ history.countP (·.looksUp n) = 0 ∧
      history.countP (·.removes n) = 0 := by
  refine ⟨List.countP_eq_zero.mpr fun m hm => ?_, List.countP_eq_zero.mpr fun m hm => ?_,
    List.countP_eq_zero.mpr fun m hm => ?_⟩
  · unfold Moment.turns
    split <;> simp [request?, h m hm]
  · simp [Moment.looksUp, request?, h m hm]
  · simp [Moment.removes, h m hm]

theorem seeking_of_new (hc : t.calls[n]? = none) (hd : (t.step e).calls[n]? = some d) :
    d.request = .seeking := by
  cases e with
  | call app url =>
    rw [step, List.getElem?_append_right (List.getElem?_eq_none_iff.mp hc),
      List.getElem?_singleton] at hd
    split at hd <;> cases hd
    rfl
  | advance k id =>
    simp only [step] at hd
    split at hd
    · simp [hc] at hd
    · have hlt := (List.getElem?_eq_some_iff.mp hd).1
      rw [List.length_set] at hlt
      exact absurd (List.getElem?_eq_none_iff.mp hc) (Nat.not_le_of_lt hlt)
  | _ => simp [step, hc] at hd

theorem History.unmade (h : History history t) (hn : t.calls[n]? = none) :
    ∀ m ∈ history, m.before.calls[n]? = none := by
  induction h with
  | start => simp
  | @happen history t e _ ih =>
    have hbefore : t.calls[n]? = none := by
      cases hc : t.calls[n]? with
      | none => rfl
      | some c => rcases t.turn hc e with ⟨-, hd⟩ | ⟨_, -, -, hd⟩ <;> simp [hd] at hn
    intro m hm
    rcases List.mem_append.mp hm with hm | hm
    · exact ih hbefore m hm
    · rwa [List.mem_singleton.mp hm]

theorem History.standing (h : History history t) (hc : t.calls[n]? = some c) :
    Standing history t n c.app c.request := by
  induction h generalizing c with
  | start => simp at hc
  | @happen history t e hbefore ih =>
    cases hn : t.calls[n]? with
    | some d => exact (ih hn).next hbefore.reachable.registry.sound hn hc
    | none =>
      have hunmade : ∀ m ∈ history ++ [⟨t, e⟩], m.before.calls[n]? = none := by
        intro m hm
        rcases List.mem_append.mp hm with hm | hm
        · exact hbefore.unmade hn m hm
        · rwa [List.mem_singleton.mp hm]
      obtain ⟨hturns, hlookups, hremoves⟩ := counts_new hunmade
      rw [seeking_of_new hn hc]
      exact .seeking (by omega) (by omega)

end

theorem History.overtaken_of_retries (h : History history m.before)
    (hretries : m.retries n = true) :
    ∃ a, m.before.request? n = some (.found a) ∧ Overtaken history n a := by
  obtain ⟨t, e⟩ := m
  have hsound := h.reachable.registry.sound
  cases hc : t.calls[n]? with
  | none => simp [Moment.retries, request?, hc] at hretries
  | some c =>
    obtain ⟨app, url, request⟩ := c
    rcases t.turn hc e with ⟨-, hd⟩ | ⟨id, -, -, hd⟩
    · cases request <;> simp [Moment.retries, Moment.after, request?, hc, hd] at hretries
    · simp only [Moment.retries, Moment.after, request?_of_call hc, request?_of_call hd] at hretries
      have hstanding := h.standing hc
      cases hstanding with
      | seeking | answered => cases hretries
      | @ahead a p hp hkey hl =>
        have hadmitted : (t.registry.admissionAt a app url id).2 ≠ .error .retired :=
          fun hdenied => (hsound.denied_iff hp hkey app url id).mp hdenied hl
        rw [Registry.advance_admitted hadmitted] at hretries
        cases hretries
      | @overtaken a _ _ _ _ ho => exact ⟨a, request?_of_call hc, ho⟩

theorem History.registered_of_answered (h : History history m.before)
    (hc : m.before.calls[n]? = some c) (hq : c.request = .found a)
    (hd : m.after.request? n = some (.answered a result)) :
    m.before.registry.lookup? c.app.key = some a ∧ m.after.registry.lookup? c.app.key = some a ∧
      ∀ i, result = .ok i → m.after.registry.OpenAt c.app.key a i := by
  obtain ⟨t, e⟩ := m
  obtain ⟨app, url, request⟩ := c
  subst hq
  have hsound := h.reachable.registry.sound
  rcases t.turn hc e with ⟨-, hd'⟩ | ⟨id, -, hr, hd'⟩
  · simp [Moment.after, request?, hd'] at hd
  · simp only [Moment.after, request?_of_call hd'] at hd hr ⊢
    have hstanding := h.standing hc
    cases hstanding with
    | overtaken hp hkey hl =>
      simp [Registry.advance_denied ((hsound.denied_iff hp hkey app url id).mpr hl)] at hd
    | @ahead _ p hp hkey hl =>
      have hadmitted : (t.registry.admissionAt a app url id).2 ≠ .error .retired :=
        fun hdenied => (hsound.denied_iff hp hkey app url id).mp hdenied hl
      rw [Registry.advance_admitted hadmitted] at hd hr
      obtain ⟨-, rfl⟩ : a = a ∧ (t.registry.admissionAt a app url id).2 = result := by
        simpa using hd
      refine ⟨hl, ?_, fun i hi => ?_⟩
      · rw [hr, Registry.lookup?, Registry.admissionAt_current]
        exact hl
      · obtain ⟨w, hw, hopen⟩ := hsound.admitted app url id hi
        obtain ⟨q, hq, hw⟩ := Option.bind_eq_some_iff.mp hw
        obtain ⟨q', hq', hkey', -⟩ := Registry.run_keeps (.single (.admission a app url id)) hp
        obtain rfl := Option.some.inj (hq.symm.trans hq')
        rw [hr]
        exact ⟨q, w, hq, hkey'.trans hkey, hw, hopen⟩

-- ---------------------------------------------------------------------------
-- What a request can count on
-- ---------------------------------------------------------------------------

structure NeverRetired (history : List Moment) (t : Traffic) : Prop where
  /-- Neither a request nor whoever waits for its worker is told that the policy is retired. -/
  answers : ∀ n a result, t.request? n = some (.answered a result) → result ≠ .error .retired ∧
    ∀ i, result = .ok i →
    ∃ w, t.registry.worker? a i = some w ∧ w.entry.handle? ≠ some (.error .retired)
  /-- A request looks again only because the policy it had found went out of the map while it was on
  its way there. In between it neither looked anything up nor came to any policy, so no removal
  causes two retries. -/
  causes : ∀ n pre m post, history = pre ++ m :: post → m.retries n = true →
    ∃ a start removal rest, pre = start ++ removal :: rest ∧ removal.removes n = true ∧
      (∀ x ∈ removal :: rest, x.Waits n a) ∧ m.before.request? n = some (.found a)
  lookups : ∀ n, history.countP (·.looksUp n) ≤ history.countP (·.removes n) + 1
  /-- Two turns are enough, a lookup and an admission, and two more for each removal. -/
  ends : ∀ n, 2 * (history.countP (·.removes n) + 1) ≤ history.countP (·.turns n) →
    ∃ a result, t.request? n = some (.answered a result)
  /-- The policy that answers is the one in the map, and the worker is in its table. -/
  registered : ∀ n pre m post c a result, history = pre ++ m :: post → m.before.calls[n]? = some c →
    c.request = .found a → m.after.request? n = some (.answered a result) →
      m.before.registry.lookup? c.app.key = some a ∧ m.after.registry.lookup? c.app.key = some a ∧
        ∀ i, result = .ok i → m.after.registry.OpenAt c.app.key a i

/-- The host's own transports and its launcher never say that a policy is retired; those of others
must not. -/
theorem never_retired (h : History history t)
    (hanswers : ∀ m ∈ history, m.event.Own ∨ m.event.refusal? ≠ some .retired) :
    NeverRetired history t := by
  have hworld : ∀ m ∈ history, m.event.refusal? ≠ some .retired := fun m hm =>
    (hanswers m hm).elim Event.Own.unretired id
  constructor
  case answers =>
    intro n a result hq
    obtain ⟨c, hc, hanswered⟩ := Option.map_eq_some_iff.mp hq
    have hstanding := h.standing hc
    rw [hanswered] at hstanding
    cases hstanding with
    | answered _ _ hresult hworker =>
      refine ⟨hresult, fun i hi => ?_⟩
      obtain ⟨w, hw⟩ := hworker i hi
      obtain ⟨p, hp, hwp⟩ := Option.bind_eq_some_iff.mp hw
      refine ⟨w, hw, fun hhandle => ?_⟩
      have hne := h.unretired hworld a p hp i w hwp
      cases hout : w.entry.outcome with
      | none => simp [Entry.handle?, hout] at hhandle
      | some o => cases o <;> simp_all [Entry.handle?, Except.map]
  case causes =>
    intro n pre m post hhist hretries
    subst hhist
    obtain ⟨a, hfound, start, removal, rest, hpre, hremoves, hwaits⟩ :=
      h.split.overtaken_of_retries hretries
    exact ⟨a, start, removal, rest, hpre, hremoves, hwaits, hfound⟩
  case lookups =>
    intro n
    cases hc : t.calls[n]? with
    | none =>
      have := counts_new (h.unmade hc)
      omega
    | some c =>
      obtain ⟨app, url, request⟩ := c
      cases h.standing hc <;> omega
  case ends =>
    intro n hturns
    cases hc : t.calls[n]? with
    | none =>
      have := counts_new (h.unmade hc)
      omega
    | some c =>
      rw [request?_of_call hc]
      obtain ⟨app, url, request⟩ := c
      have hstanding := h.standing hc
      cases hstanding with
      | answered => exact ⟨_, _, rfl⟩
      | _ => omega
  case registered =>
    intro n pre m post c a result hhist hc hfound hanswered
    subst hhist
    exact h.split.registered_of_answered hc hfound hanswered

/-- A second request looks up the policy of a worker that fails at once. It comes too late, looks
again, and is given a worker of another policy. -/
def lateEvents : List Event :=
  [.call helloApp none, .advance 0 "w0", .advance 0 "w0", .call helloApp none, .advance 1 "w1",
    .step 0 0 0 (.begin none), .readVacancy, .advance 1 "w1", .advance 1 "w1", .advance 1 "w1"]

theorem never_retired_late :
    (moments { registry := {} } lateEvents).countP (·.retries 1) = 1 ∧
      NeverRetired (moments { registry := {} } lateEvents)
      (lateEvents.foldl step { registry := {} }) :=
  ⟨by decide +kernel, never_retired ((History.start none).run lateEvents)
    (by simp [lateEvents, moments, Event.refusal?, Worker.Event.refusal?])⟩

end Traffic

end AppHost
