import AppHost.Proofs.Registry.Runs
import AppHost.Proofs.SoftLimit

/-!
# A crowd of clients

Any number of clients ask for one application's worker, each through its own request. A client that
is admitted waits until the worker is ready, connects to it once, and later lets go; in between
anything else may happen to the registry.

An admission looks at the connections there are. Clients that were admitted before and have not
connected yet come on top of those, and `Next.load` bounds what they add up to: `Crowd.load` counts
both, and no admission takes it beyond the limit by more than the clients still waiting.
-/

namespace AppHost

open Relation (ReflTransGen)

-- ---------------------------------------------------------------------------
-- Connections to the workers of a registry
-- ---------------------------------------------------------------------------

namespace Registry

def tally (r : Registry) (a : PolicyRef) (i : WorkerRef) : Nat :=
  ((r.policy? a).map (·.pool.tally i)).getD 0

section
variable {r s : Registry} {a ref : PolicyRef} {i worker : WorkerRef} {p : Policy}

theorem tally_of_policy (hp : r.policy? a = some p) : r.tally a i = p.pool.tally i := by
  simp [tally, hp]

theorem Move.tally_le (h : Move Pool.Calm r s) (a : PolicyRef) (i : WorkerRef) :
    s.tally a i ≤ r.tally a i := by
  cases h with
  | quiet hs => simp [tally, policy?, hs]
  | created key transport hl hs =>
    simp only [tally, policy?_append hs]
    split
    · simp [Pool.tally, Pool.worker?]
    · exact Nat.le_refl _
  | served b v q hv hq _ hs =>
    simp only [tally, policy?_set hv hs]
    split
    · next hab =>
      subst hab
      simpa [hv] using Pool.calm_tally_le hq i
    · exact Nat.le_refl _
  | dropped _ b v _ hv _ hs =>
    simp only [tally, policy?_set hv hs]
    split
    · next hab => simp [hab, hv]
    · exact Nat.le_refl _

theorem moves_tally_le (h : ReflTransGen (Move Pool.Own) r s) (a : PolicyRef) (i : WorkerRef) :
    s.tally a i ≤ r.tally a i := by
  induction h with
  | refl => exact Nat.le_refl _
  | tail _ hmove ih => exact Nat.le_trans ((hmove.mono fun _ _ => Pool.Own.calm).tally_le a i) ih

theorem tally_step_ne (now : Time) (event : Worker.Event) (ha : a ≠ ref) :
    (r.step now ref worker event).1.tally a i = r.tally a i := by
  cases hp : r.policy? ref with
  | none => rw [step, withPool_of_none _ hp]
  | some p => simp [tally, policy?_step now worker event hp, ha]

theorem tally_acquire_le (r : Registry) (now : Time) (ref : PolicyRef) (worker : WorkerRef)
    (kind : ConnKind) (a : PolicyRef) (i : WorkerRef) :
    (r.step now ref worker (.acquire kind)).1.tally a i ≤ r.tally a i +
      (if a = ref ∧ i = worker then 1 else 0) := by
  by_cases ha : a = ref
  · subst ha
    cases hp : r.policy? a with
    | none =>
      rw [step, withPool_of_none _ hp]
      exact Nat.le_add_right _ _
    | some p =>
      have hq := policy?_step (x := a) now worker (.acquire kind) hp
      rw [if_pos rfl] at hq
      rw [tally_of_policy hq, tally_of_policy hp]
      simpa using p.pool.tally_acquire_le now kind
  · simpa [ha] using Nat.le_of_eq (tally_step_ne now _ ha)

/-- Whatever policy has this number, now or later, is one for the key. -/
def Serves (r : Registry) (key : String) (a : PolicyRef) : Prop :=
  ∀ p, r.policy? a = some p → p.pool.key = key

theorem serves_of_run (h : ReflTransGen Next r s) (hs : s.Serves key a) : r.Serves key a := by
  intro p hp
  obtain ⟨q, hq, hkey, -⟩ := run_keeps h hp
  exact hkey ▸ hs q hq

/-- Anything that can happen to a registry but a connection to a worker of this key. -/
inductive Aside (key : String) (r : Registry) : Registry → Prop
  | lookup (k : String) : Aside key r (r.policyFor k).1
  | admission (ref : PolicyRef) (app : AppSpec) (url : Option String) (id : String) :
    Aside key r (r.admissionAt ref app url id).1
  | step (now : Time) (ref : PolicyRef) (worker : WorkerRef) (event : Worker.Event)
    (h : (∀ kind, event ≠ .acquire kind) ∨ ∀ p, r.policy? ref = some p → p.pool.key ≠ key) :
    Aside key r (r.step now ref worker event).1
  | readVacancy : Aside key r r.readVacancy
  | setTransport (transport : TransportRef) : Aside key r (r.setTransport transport)
  | shutdown (now : Time) : Aside key r (r.shutdown now).1

theorem Aside.next (h : Aside key r s) : Next r s := by
  cases h with
  | lookup k => exact .lookup k
  | admission ref app url id => exact .admission ref app url id
  | step now ref worker event => exact .step now ref worker event
  | readVacancy => exact .readVacancy
  | setTransport transport => exact .setTransport transport
  | shutdown now => exact .shutdown now

theorem Aside.tally_le (h : Aside key r s) (ha : r.Serves key a) (i : WorkerRef) :
    s.tally a i ≤ r.tally a i := by
  cases h with
  | lookup k => exact moves_tally_le (.single (policyFor_move r k)) a i
  | admission ref app url id =>
    exact moves_tally_le (.single (admissionAt_move r ref app url id)) a i
  | step now ref worker event h =>
    obtain hcalm | hother := h
    · exact (step_move_calm r now ref worker event hcalm).tally_le a i
    · cases hp : r.policy? ref with
      | none => simp [Registry.step, withPool_of_none _ hp]
      | some p =>
        refine Nat.le_of_eq (tally_step_ne now event ?_)
        rintro rfl
        exact hother p hp (ha p hp)
  | readVacancy => exact moves_tally_le (.single r.readVacancy_move) a i
  | setTransport transport => exact moves_tally_le (r.setTransport_moves transport) a i
  | shutdown now => exact moves_tally_le (r.shutdown_moves now) a i

-- ---------------------------------------------------------------------------
-- Admissions
-- ---------------------------------------------------------------------------

/-- Where there is a worker, an admission changes nothing. It goes by the connections that there
are to the worker. -/
theorem admissionAt_of_first (app : AppSpec) (url : Option String) (id : String)
    (hp : r.policy? a = some p) (hlive : p.retired = false) (hfirst : p.pool.first? = some i)
    (hw : p.pool.worker? i = some w) :
    r.admissionAt a app url id =
      (r, if 0 < Policy.limitFor app url ∧ Policy.limitFor app url ≤ w.entry.count.toNat
        then .error Policy.outOfCapacity else .ok i) := by
  simp only [admissionAt, hp, Policy.admission, hlive, hfirst, hw, Bool.false_eq_true, if_false,
    Option.map_some, Option.getD_some]
  split <;> simp [setPolicy_self hp]

theorem tally_lt_of_admitted {app : AppSpec} {id : String}
    (hpos : 0 < app.settings.scheduler.maxRequests)
    (hlimit : app.settings.scheduler.maxRequests < UInt32.size) (hroom : r.tally a i < UInt32.size)
    (h : (r.admissionAt a app url id).2 = .ok i) :
    r.tally a i < app.settings.scheduler.maxRequests := by
  have hbounds : 0 < Policy.limitFor app url ∧
      Policy.limitFor app url ≤ app.settings.scheduler.maxRequests :=
    Policy.limitFor_bounds hpos hlimit
  unfold admissionAt at h
  cases hp : r.policy? a with
  | none => simp [hp] at h
  | some p =>
    rw [tally_of_policy hp] at hroom ⊢
    simp only [hp, Policy.admission] at h
    split at h
    · cases h
    · split at h
      · -- A worker that is spawned for the client has no connections.
        obtain rfl : p.pool.workers.length = i := by simpa [Pool.spawn] using h
        simpa [Pool.tally, Pool.worker?] using hpos
      · next ref hfirst =>
        split at h
        · cases h
        · next hfree =>
          obtain rfl : ref = i := by simpa using h
          cases hw : p.pool.worker? ref with
          | none => simpa [Pool.tally, hw] using hpos
          | some w =>
            rw [Pool.tally_of_worker hw] at hroom ⊢
            have hcount : w.entry.count.toNat = w.entry.connections.tally :=
              w.entry.connections.toNat_total hroom
            simp only [hw, Option.map_some, Option.getD_some] at hfree
            omega

/-- A request that has been granted a worker was granted it before, or is at this moment. -/
theorem advance_granted {app : AppSpec} {id : String} {q : Request}
    (h : (r.advance app url id q).2 = .answered a (.ok i)) :
    q = .answered a (.ok i) ∨ (q = .found a ∧ (r.admissionAt a app url id).2 = .ok i) := by
  cases q with
  | seeking => cases h
  | found ref =>
    simp only [advance] at h
    split at h
    · cases h
    · obtain ⟨rfl, hok⟩ : ref = a ∧ (r.admissionAt ref app url id).2 = .ok i := by simpa using h
      exact .inr ⟨rfl, hok⟩
  | answered => exact .inl h

end

end Registry

-- ---------------------------------------------------------------------------
-- Clients
-- ---------------------------------------------------------------------------

/-- Where a client of an application stands. -/
inductive Client where
  | asking (url : Option String) (kind : ConnKind) (request : Request)
  | connected (policy : PolicyRef) (worker : WorkerRef) (kind : ConnKind)
  | gone

/-- It has been admitted to this worker and not connected yet. -/
def Client.awaits (a : PolicyRef) (i : WorkerRef) : Client → Bool
  | .asking _ _ (.answered b (.ok j)) => a == b && i == j
  | _ => false

section
variable {a b : PolicyRef} {i j : WorkerRef} {url : Option String} {kind : ConnKind}
  {request : Request}

@[simp] theorem Client.awaits_answered :
    (Client.asking url kind (.answered b (.ok j))).awaits a i = true ↔ a = b ∧ i = j := by
  simp [awaits]

@[simp] theorem Client.awaits_connected : (Client.connected b j kind).awaits a i = false := rfl

@[simp] theorem Client.awaits_gone : Client.gone.awaits a i = false := rfl

theorem Client.request_of_awaits (h : (Client.asking url kind request).awaits a i = true) :
    request = .answered a (.ok i) := by
  cases request with
  | seeking | found => cases h
  | answered b result =>
    cases result with
    | error => cases h
    | ok j =>
      obtain ⟨rfl, rfl⟩ := awaits_answered.mp h
      rfl

end

structure Crowd where
  registry : Registry
  clients : List Client := []

namespace Crowd

def awaiting (c : Crowd) (a : PolicyRef) (i : WorkerRef) : Nat :=
  c.clients.countP (Client.awaits a i)

/-- One thing that can happen to a crowd and its registry. -/
inductive Next (app : AppSpec) (c : Crowd) : Crowd → Prop
  | arrive (url : Option String) (kind : ConnKind) :
    Next app c { c with clients := c.clients ++ [.asking url kind .seeking] }
  | advance (n : Nat) (id : String) (hn : c.clients[n]? = some (.asking url kind request)) :
    Next app c
      { registry := (c.registry.advance app url id request).1
        clients := c.clients.set n (.asking url kind (c.registry.advance app url id request).2) }
  | connect (n : Nat) (now : Time)
      (hn : c.clients[n]? = some (.asking url kind (.answered a (.ok i))))
    (hp : c.registry.policy? a = some p) (hw : p.pool.worker? i = some w)
    (hready : w.entry.ready?.isSome = true) :
    Next app c
      { registry := (c.registry.step now a i (.acquire kind)).1
        clients := c.clients.set n (.connected a i kind) }
  | release (n : Nat) (now : Time) (hn : c.clients[n]? = some (.connected a i kind)) :
    Next app c
      { registry := (c.registry.step now a i (.release kind)).1, clients := c.clients.set n .gone }
  | leave (n : Nat) (hn : c.clients[n]? = some (.asking url kind request)) :
    Next app c { c with clients := c.clients.set n .gone }
  | aside (h : c.registry.Aside app.key r) : Next app c { c with registry := r }

def Reachable (app : AppSpec) (c : Crowd) : Prop :=
  ∃ transport, ReflTransGen (Next app) { registry := { transport } } c

/-- A step after which no worker has more than so many clients waiting to connect to it. -/
def Narrow (app : AppSpec) (most : Nat) (c d : Crowd) : Prop :=
  Next app c d ∧ ∀ a i, d.awaiting a i ≤ most

/-- What a crowd can come to while no worker ever has more than so many clients waiting to connect
to it. -/
def Run (app : AppSpec) (most : Nat) (c : Crowd) : Prop :=
  ∃ transport, ReflTransGen (Narrow app most) { registry := { transport } } c

-- ---------------------------------------------------------------------------
-- The load of a worker
-- ---------------------------------------------------------------------------

def load (c : Crowd) (a : PolicyRef) (i : WorkerRef) : Nat := c.registry.tally a i + c.awaiting a i

section
variable {app : AppSpec} {c d : Crowd} {a : PolicyRef} {i : WorkerRef} {most : Nat}

theorem awaiting_set {x : Client} (hn : c.clients[n]? = some x) (r : Registry) (y : Client) :
    ({ registry := r, clients := c.clients.set n y } : Crowd).awaiting a i +
      (if x.awaits a i then 1 else 0) = c.awaiting a i + (if y.awaits a i then 1 else 0) := by
  obtain ⟨hlt, rfl⟩ := List.getElem?_eq_some_iff.mp hn
  have hle := List.boole_getElem_le_countP (p := Client.awaits a i) hlt
  simp only [awaiting, List.countP_set hlt]
  omega

theorem awaiting_append (r : Registry) (x : Client) :
    ({ registry := r, clients := c.clients ++ [x] } : Crowd).awaiting a i =
      c.awaiting a i + (if x.awaits a i then 1 else 0) := by
  simp [awaiting, List.countP_singleton]

theorem Next.run (h : Next app c d) : ReflTransGen Registry.Next c.registry d.registry := by
  cases h with
  | arrive | leave => exact .refl
  | advance n id => exact c.registry.advance_next app _ id _
  | connect n now | release n now => exact .single (.step now _ _ _)
  | aside h => exact .single h.next

theorem Next.load_le (h : Next app c d) (hpos : 0 < app.settings.scheduler.maxRequests)
    (hlimit : app.settings.scheduler.maxRequests < UInt32.size)
    (hroom : app.settings.scheduler.maxRequests - 1 + most < UInt32.size)
    (ha : d.registry.Serves app.key a) (hd : d.awaiting a i ≤ most)
    (hc : c.load a i ≤ app.settings.scheduler.maxRequests - 1 + most) :
    d.load a i ≤ app.settings.scheduler.maxRequests - 1 + most := by
  have hserves := Registry.serves_of_run h.run ha
  unfold load at hc ⊢
  cases h with
  | arrive url kind => rwa [awaiting_append, if_neg (by simp [Client.awaits])]
  | @advance url kind request n id hn =>
    have htally := Registry.moves_tally_le (c.registry.advance_moves app url id request) a i
    have hset := awaiting_set (a := a) (i := i) hn (c.registry.advance app url id request).1
      (.asking url kind (c.registry.advance app url id request).2)
    by_cases hgrant :
      (Client.asking url kind (c.registry.advance app url id request).2).awaits a i = true
    · obtain rfl | ⟨-, hok⟩ := Registry.advance_granted (Client.request_of_awaits hgrant)
      · simp only [Registry.advance, Client.awaits_answered] at hset ⊢
        omega
      · -- The worker is below the limit, and nobody but those who wait can be added to it.
        have hlt := Registry.tally_lt_of_admitted hpos hlimit (by omega) hok
        simp only at hd ⊢
        omega
    · rw [if_neg hgrant] at hset
      simp only at hset ⊢
      omega
  | @connect url kind b j p w n now hn =>
    have htally := c.registry.tally_acquire_le now b j kind a i
    have hset :=
      awaiting_set (a := a) (i := i) hn (c.registry.step now b j (.acquire kind)).1
        (.connected b j kind)
    simp only [Client.awaits_answered, Client.awaits_connected, Bool.false_eq_true,
      if_false] at hset ⊢
    omega
  | @release b j kind n now hn =>
    have htally := (c.registry.step_move_calm now b j (.release kind) (by simp)).tally_le a i
    have hset := awaiting_set (a := a) (i := i) hn (c.registry.step now b j (.release kind)).1 .gone
    simp only [Client.awaits_connected, Client.awaits_gone, Bool.false_eq_true, if_false] at hset ⊢
    omega
  | @leave url kind request n hn =>
    have hset := awaiting_set (a := a) (i := i) hn c.registry .gone
    simp only [Client.awaits_gone, Bool.false_eq_true, if_false] at hset ⊢
    omega
  | @aside r h =>
    have htally := h.tally_le hserves i
    have hsame : (Crowd.mk r c.clients).awaiting a i = c.awaiting a i := rfl
    simp only at hsame ⊢
    omega

theorem Run.load_le (h : Run app most c) (hpos : 0 < app.settings.scheduler.maxRequests)
    (hlimit : app.settings.scheduler.maxRequests < UInt32.size)
    (hroom : app.settings.scheduler.maxRequests - 1 + most < UInt32.size)
    (ha : c.registry.Serves app.key a) (i : WorkerRef) :
    c.load a i ≤ app.settings.scheduler.maxRequests - 1 + most := by
  obtain ⟨transport, h⟩ := h
  induction h with
  | refl => simp [load, awaiting, Registry.tally, Registry.policy?]
  | tail _ hstep ih =>
    obtain ⟨hnext, hmost⟩ := hstep
    exact hnext.load_le hpos hlimit hroom ha (hmost a i) (ih (Registry.serves_of_run hnext.run ha))

def AtMost (c : Crowd) (key : String) (n : Nat) : Prop :=
  ∀ a p i w, c.registry.policy? a = some p → p.pool.key = key → p.pool.worker? i = some w →
    w.entry.count.toNat ≤ n

theorem Run.atMost (h : Run app most c) (hpos : 0 < app.settings.scheduler.maxRequests)
    (hlimit : app.settings.scheduler.maxRequests < UInt32.size) :
    c.AtMost app.key (app.settings.scheduler.maxRequests - 1 + most) := by
  intro a p i w hp hkey hw
  by_cases hroom : app.settings.scheduler.maxRequests - 1 + most < UInt32.size
  · have hload := h.load_le (a := a) hpos hlimit hroom (by simp [Registry.Serves, hp, hkey]) i
    have hcount : w.entry.count.toNat ≤ w.entry.connections.tally :=
      w.entry.connections.toNat_total_le
    rw [load, Registry.tally_of_policy hp, Pool.tally_of_worker hw] at hload
    omega
  · -- More could not be counted at all.
    have hlt := w.entry.count.toNat_lt_size
    omega

end

end Crowd

end AppHost
