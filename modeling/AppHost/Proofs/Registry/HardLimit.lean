import AppHost.Proofs.Registry.Crowd

/-!
# The hard limit

A request that comes to a worker at its limit is turned away. The limit itself holds as long as no
two clients that have been admitted to one worker wait to connect to it at once, and not beyond:
each further one that waits, while the worker starts or later, can become a connection more than the
limit allows. `HardLimit` says so, with the number that is reached in the worst case.
-/

namespace AppHost

open Relation (ReflTransGen)

namespace Crowd

-- ---------------------------------------------------------------------------
-- A run that goes as far as it can
-- ---------------------------------------------------------------------------

section
variable {app : AppSpec} {c d : Crowd} {most n m : Nat}

theorem Run.trans (h : Run app most c) (hd : ReflTransGen (Narrow app most) c d) :
    Run app most d := by
  obtain ⟨transport, h⟩ := h
  exact ⟨transport, h.trans hd⟩

theorem Run.reachable (h : Run app most c) : Reachable app c := by
  obtain ⟨transport, h⟩ := h
  exact ⟨transport, h.lift id fun _ _ hstep => hstep.1⟩

theorem Run.mono (hm : m ≤ most) (h : Run app m c) : Run app most c := by
  obtain ⟨transport, h⟩ := h
  exact ⟨transport, h.lift id fun _ _ hstep => ⟨hstep.1, fun a i => Nat.le_trans (hstep.2 a i) hm⟩⟩

/-- A client has come, and has asked until it was answered. -/
def asked (c : Crowd) (app : AppSpec) : Crowd where
  registry := (c.registry.admission app none "").1
  clients := c.clients ++ [.asking none .http (c.registry.admission app none "").2]

theorem advance_last (r : Registry) (l : List Client) (url : Option String) (kind : ConnKind)
    (q : Request) :
    Next app { registry := r, clients := l ++ [.asking url kind q] }
      { registry := (r.advance app url "" q).1,
        clients := l ++ [.asking url kind (r.advance app url "" q).2] } := by
  have h : Next app { registry := r, clients := l ++ [.asking url kind q] }
      { registry := (r.advance app url "" q).1
        clients := (l ++ [Client.asking url kind q]).set l.length
          (.asking url kind (r.advance app url "" q).2) } :=
    .advance l.length "" (by simp)
  simpa using h

theorem ask (hc : ∀ a i, c.awaiting a i ≤ most) (hd : ∀ a i, (c.asked app).awaiting a i ≤ most) :
    ReflTransGen (Narrow app most) c (c.asked app) := by
  refine .tail (.tail (.single ⟨.arrive none .http, ?_⟩) ⟨advance_last _ _ _ _ _, ?_⟩)
    ⟨advance_last _ _ _ _ _, hd⟩
  · simpa [awaiting_append, Client.awaits] using hc
  · simpa [awaiting_append, Client.awaits, Registry.advance] using hc

/-- The first policy is the one for the key, and the first worker it spawned is in its table. -/
structure Hosts (r : Registry) (key : String) (w : Worker) : Prop where
  lookup : r.lookup? key = some 0
  policy : ∃ p, r.policy? 0 = some p ∧ p.retired = false ∧ p.pool.key = key ∧
    p.pool.first? = some 0 ∧
    p.pool.worker? 0 = some w

theorem Hosts.step (h : Hosts r key w) (now : Time) (event : Worker.Event)
    (hstays : ∀ announce, Worker.Act.leave announce ∉ (w.step now event).2) :
    Hosts (r.step now 0 0 event).1 key (w.step now event).1 := by
  obtain ⟨p, hp, hlive, hkey, hfirst, hw⟩ := h.policy
  have hp' := Registry.policy?_step (x := 0) now 0 event hp
  have hw' := Pool.step_worker? (x := 0) now event hw
  rw [if_pos rfl] at hp' hw'
  refine ⟨?_, _, hp', hlive, ?_, ?_, hw'⟩
  · rw [Registry.lookup?, Registry.step_current]
    exact h.lookup
  · simpa using hkey
  · rw [Pool.step_of_worker now event hw, Pool.first?, Pool.settle_table_of_stays hstays]
    exact hfirst

/-- So many clients wait to connect to that worker, and none to another. -/
def Waiting (c : Crowd) (m : Nat) : Prop := ∀ a i, c.awaiting a i = if a = 0 ∧ i = 0 then m else 0

theorem Waiting.le (h : c.Waiting m) (hm : m ≤ most) (a : PolicyRef) (i : WorkerRef) :
    c.awaiting a i ≤ most := by
  rw [h]
  split
  · exact hm
  · exact Nat.zero_le _

/-- A run can come to where the application's worker is this one, and `m` clients wait for it. -/
def Attains (app : AppSpec) (most : Nat) (w : Worker) (m : Nat) : Prop :=
  ∃ c, Run app most c ∧ Hosts c.registry app.key w ∧ c.Waiting m

theorem attains_spawned (app : AppSpec) (hm : 0 < most) :
    Attains app most (.spawned app "" []) 1 := by
  have hwaiting : (asked { registry := { transport := some 0 } } app).Waiting 1 := by
    intro a i
    rw [asked, awaiting_append]
    simp [awaiting, Registry.admission, Registry.advance, Registry.policyFor, Registry.lookup?,
      Registry.admissionAt, Registry.policy?, Policy.admission, Pool.first?, Pool.spawn]
  exact ⟨_, ⟨some 0, ask (fun _ _ => Nat.zero_le _) (hwaiting.le hm)⟩,
    ⟨List.lookup_cons_self, _, rfl, rfl, rfl, rfl, rfl⟩, hwaiting⟩

theorem Attains.step (h : Attains app most w m) (hm : m ≤ most) (event : Worker.Event)
    (hevent : ∀ kind, event ≠ .acquire kind)
    (hstays : ∀ announce, Worker.Act.leave announce ∉ (w.step 0 event).2) :
    Attains app most (w.step 0 event).1 m := by
  obtain ⟨c, hrun, hosts, hwaiting⟩ := h
  have hstep : Narrow app most c { c with registry := (c.registry.step 0 0 0 event).1 } :=
    ⟨.aside (.step 0 0 0 event (.inl hevent)), hwaiting.le hm⟩
  exact ⟨_, hrun.trans (.single hstep), hosts.step 0 event hstays, hwaiting⟩

/-- Below the limit one more client is admitted, however many wait already and whether or not the
worker is ready. -/
theorem Attains.join (h : Attains app most w m)
    (hlimit : app.settings.scheduler.maxRequests < UInt32.size)
    (hn : w.entry.connections.tally < app.settings.scheduler.maxRequests) (hm : m < most) :
    Attains app most w (m + 1) := by
  obtain ⟨c, hrun, hosts, hwaiting⟩ := h
  obtain ⟨p, hp, hlive, -, hfirst, hw⟩ := hosts.policy
  have hadmission : c.registry.admission app none "" = (c.registry, .answered 0 (.ok 0)) := by
    have hcount : w.entry.count.toNat = w.entry.connections.tally :=
      Connections.toNat_total _ (by omega)
    have hfree :
        ¬(0 < Policy.limitFor app none ∧ Policy.limitFor app none ≤ w.entry.count.toNat) := by
      simp [Policy.limitFor, hcount, hn]
    simp [Registry.admission, Registry.advance, Registry.policyFor, hosts.lookup,
      Registry.admissionAt_of_first app none "" hp hlive hfirst hw, hfree]
  have hwaiting' : (c.asked app).Waiting (m + 1) := by
    intro a i
    simp only [asked, hadmission, awaiting_append, hwaiting a i, Client.awaits_answered]
    split <;> rfl
  have hask : ReflTransGen (Narrow app most) c (c.asked app) :=
    ask (hwaiting.le (Nat.le_of_lt hm)) (hwaiting'.le hm)
  exact ⟨c.asked app, hrun.trans hask, by rwa [asked, hadmission], hwaiting'⟩

theorem Attains.connect (h : Attains app most w (m + 1)) (hready : w.entry.ready?.isSome = true)
    (hm : m ≤ most) : ∃ kind, Attains app most (w.step 0 (.acquire kind)).1 m := by
  obtain ⟨c, hrun, hosts, hwaiting⟩ := h
  obtain ⟨p, hp, -, -, -, hw⟩ := hosts.policy
  obtain ⟨x, hx, hawaits⟩ : ∃ x ∈ c.clients, x.awaits 0 0 = true := by
    refine List.countP_pos_iff.mp ?_
    rw [← awaiting, hwaiting]
    exact Nat.succ_pos m
  obtain ⟨k, hk⟩ := List.getElem?_of_mem hx
  cases x with
  | connected | gone => cases hawaits
  | asking url kind request =>
    obtain rfl := Client.request_of_awaits hawaits
    have hwaiting' : Waiting
        { registry := (c.registry.step 0 0 0 (.acquire kind)).1,
          clients := c.clients.set k (.connected 0 0 kind) } m := by
      intro a i
      have hset :=
        awaiting_set (a := a) (i := i) hk (c.registry.step 0 0 0 (.acquire kind)).1
          (.connected 0 0 kind)
      rw [hwaiting a i] at hset
      simp only [Client.awaits_answered, Client.awaits_connected, Bool.false_eq_true,
        if_false] at hset
      split at hset <;> simp_all
    exact ⟨kind, _, hrun.trans (.single ⟨.connect k 0 hk hp hw hready, hwaiting'.le hm⟩),
      hosts.step 0 (.acquire kind) (by simp [Worker.step]), hwaiting'⟩

/-- A run can come to where the worker is ready and has `n` connections, and `m` clients wait. -/
def Fills (app : AppSpec) (most n m : Nat) : Prop :=
  ∃ w, Attains app most w m ∧ w.entry.ready?.isSome = true ∧ w.entry.connections.tally = n

theorem Attains.fills (h : Attains app most (.spawned app "" []) m) (hm : m ≤ most) :
    Fills app most 0 m := by
  have hbegun := h.step hm (.begin (some 0)) (by simp) (by simp [Worker.step, Worker.spawned])
  have hallocated := hbegun.step hm (.allocated (.ok ⟨.port 40000, ""⟩) "") (by simp)
    (by simp [Worker.step, Worker.spawned])
  have hlaunched :=
    hallocated.step hm (.launched (.ok 0)) (by simp) (by simp [Worker.step, Worker.spawned])
  have hready :=
    hlaunched.step hm (.answered true) (by simp) (by simp [Worker.step, Worker.spawned])
  refine ⟨_, hready, ?_, ?_⟩
  · simp [Worker.step, Worker.spawned, Worker.becomeReady, Entry.ready?, Entry.resolve_outcome]
  · simp [Worker.step, Worker.spawned, Worker.becomeReady, Connections.tally]

theorem Fills.join (h : Fills app most n m)
    (hlimit : app.settings.scheduler.maxRequests < UInt32.size)
    (hn : n < app.settings.scheduler.maxRequests) (hm : m < most) : Fills app most n (m + 1) := by
  obtain ⟨w, h, hready, htally⟩ := h
  exact ⟨w, h.join hlimit (htally ▸ hn) hm, hready, htally⟩

theorem Fills.connect (h : Fills app most n (m + 1)) (hroom : n + 1 < UInt32.size) (hm : m ≤ most) :
    Fills app most (n + 1) m := by
  obtain ⟨w, h, hready, rfl⟩ := h
  obtain ⟨kind, h⟩ := h.connect hready hm
  exact ⟨_, h, hready, w.entry.connections.tally_add kind hroom⟩

theorem fills_below (hlimit : app.settings.scheduler.maxRequests < UInt32.size) (hm : 0 < most)
    (hn : n < app.settings.scheduler.maxRequests) : Fills app most n 1 := by
  induction n with
  | zero => exact (attains_spawned app hm).fills hm
  | succ n ih =>
    exact ((ih (Nat.lt_of_succ_lt hn)).connect (by omega) (Nat.zero_le most)).join hlimit hn hm

/-- The last place is given to all who come before it is taken. -/
theorem fills_last (hpos : 0 < app.settings.scheduler.maxRequests)
    (hlimit : app.settings.scheduler.maxRequests < UInt32.size) (hm : m + 1 ≤ most) :
    Fills app most (app.settings.scheduler.maxRequests - 1) (m + 1) := by
  induction m with
  | zero => exact fills_below hlimit hm (Nat.sub_one_lt_of_lt hpos)
  | succ m ih => exact (ih (Nat.le_of_succ_le hm)).join hlimit (Nat.sub_one_lt_of_lt hpos) hm

theorem Fills.connect_all (h : Fills app most n m) (hroom : n + m < UInt32.size) (hm : m ≤ most) :
    Fills app most (n + m) 0 := by
  induction m generalizing n with
  | zero => exact h
  | succ m ih =>
    have hfills :=
      ih (h.connect (by omega) (Nat.le_of_succ_le hm)) (by omega) (Nat.le_of_succ_le hm)
    rwa [Nat.succ_add_eq_add_succ] at hfills

theorem fills_beyond (app : AppSpec) (most : Nat) (hpos : 0 < app.settings.scheduler.maxRequests)
    (hlimit : app.settings.scheduler.maxRequests < UInt32.size) (hm : 0 < most)
    (hroom : app.settings.scheduler.maxRequests - 1 + most < UInt32.size) :
    Fills app most (app.settings.scheduler.maxRequests - 1 + most) 0 := by
  obtain ⟨m, rfl⟩ := Nat.exists_eq_add_one_of_ne_zero (Nat.ne_of_gt hm)
  exact (fills_last hpos hlimit (Nat.le_refl (m + 1))).connect_all hroom (Nat.le_refl (m + 1))

theorem Fills.count (h : Fills app most n m) (hn : n < UInt32.size) :
    ∃ c, Run app most c ∧ ∃ p w, c.registry.policy? 0 = some p ∧ p.pool.key = app.key ∧
      p.pool.worker? 0 = some w ∧ w.entry.count.toNat = n := by
  obtain ⟨w, ⟨c, hrun, hosts, -⟩, -, htally⟩ := h
  obtain ⟨p, hp, -, hkey, -, hw⟩ := hosts.policy
  exact ⟨c, hrun, p, w, hp, hkey,
    hw, by rw [Entry.count, Connections.toNat_total _ (by omega), htally]⟩

end

-- ---------------------------------------------------------------------------
-- What the limit comes to
-- ---------------------------------------------------------------------------

structure HardLimit (app : AppSpec) (limit : Nat) : Prop where
  bound : ∀ most c, Run app most c → c.AtMost app.key (limit - 1 + most)
  attained : ∀ most, 0 < most → limit - 1 + most < UInt32.size → ∃ c, Run app most c ∧
    ∃ p w, c.registry.policy? 0 = some p ∧ p.pool.key = app.key ∧ p.pool.worker? 0 = some w ∧
      w.entry.count.toNat = limit - 1 + most
  /-- So the limit is kept whatever happens if and only if no two clients ever wait at once. -/
  kept_iff : limit + 1 < UInt32.size → ∀ most,
    (∀ c, Run app most c → c.AtMost app.key limit) ↔ most ≤ 1
  /-- Whoever comes to a worker that has reached the limit is turned away. -/
  turnedAway : ∀ (r : Registry) a p i w url id, r.policy? a = some p → p.retired = false →
    p.pool.first? = some i → p.pool.worker? i = some w → limit ≤ w.entry.count.toNat →
    r.advance app url id (.found a) = (r, .answered a (.error Policy.outOfCapacity))

theorem hard_limit (hpos : 0 < app.settings.scheduler.maxRequests)
    (hlimit : app.settings.scheduler.maxRequests < UInt32.size) :
    HardLimit app app.settings.scheduler.maxRequests := by
  constructor
  · exact fun most c hrun => hrun.atMost hpos hlimit
  · intro most hm hroom
    exact (fills_beyond app most hpos hlimit hm hroom).count hroom
  · intro hroom most
    constructor
    · intro hkept
      refine Nat.le_of_not_lt fun htwo => ?_
      -- Two that wait are enough for one connection too many.
      obtain ⟨c, hrun, p, w, hp, hkey, hw, hcount⟩ :=
        (fills_beyond app 2 hpos hlimit (by decide) (by omega)).count (by omega)
      have hle := hkept c (hrun.mono htwo) 0 p 0 w hp hkey hw
      omega
    · intro hone c hrun a p i w hp hkey hw
      have hle := hrun.atMost hpos hlimit a p i w hp hkey hw
      omega
  · intro r a p i w url id hp hlive hfirst hw hfull
    have hbounds : 0 < Policy.limitFor app url ∧
        Policy.limitFor app url ≤ app.settings.scheduler.maxRequests :=
      Policy.limitFor_bounds hpos hlimit
    rw [Registry.advance, Registry.admissionAt_of_first app url id hp hlive hfirst hw,
      if_pos ⟨hbounds.1, Nat.le_trans hbounds.2 hfull⟩]
    rfl

/-- An application that takes one connection at a time. -/
def narrowApp : AppSpec := { helloApp with settings := { scheduler := { maxRequests := 1 } } }

theorem hard_limit_one : 0 < narrowApp.settings.scheduler.maxRequests ∧
    narrowApp.settings.scheduler.maxRequests < UInt32.size ∧ HardLimit narrowApp 1 :=
  ⟨by decide, by decide, hard_limit (by decide) (by decide)⟩

/-- Two clients that are both admitted while its worker starts are one too many for it. -/
theorem limit_exceeded : ¬∀ c, Reachable narrowApp c →
    c.AtMost narrowApp.key narrowApp.settings.scheduler.maxRequests := by
  intro hkept
  have hstarting : Attains narrowApp 2 (.spawned narrowApp "" []) 2 :=
    (attains_spawned narrowApp (by decide)).join (by decide) (by decide) (by decide)
  have hboth : Fills narrowApp 2 2 0 :=
    (hstarting.fills (Nat.le_refl 2)).connect_all (by decide) (Nat.le_refl 2)
  obtain ⟨c, hrun, p, w, hp, hkey, hw, hcount⟩ := hboth.count (by decide)
  have hle := hkept c hrun.reachable 0 p 0 w hp hkey hw
  rw [hcount] at hle
  exact absurd hle (by decide)

end Crowd

end AppHost
