import AppHost.Proofs.Registry.Reports
import AppHost.Proofs.Registry.Traffic

/-!
# A registry at rest

A pool is spent when all its workers are done; its table is empty then. What makes a pool spent is
reported in the same step, so a spent policy in service has a report in the queue, unless nobody has
come to it yet: then a request has looked it up and is on its way (`Traffic.Noted`). When nothing is
under way and all reports are read, there is no such policy, and no other.
-/

namespace AppHost

open Relation (ReflTransGen)

namespace Pool

def Spent (p : Pool) : Prop := ∀ ref w, p.worker? ref = some w → w.Done

section
variable {p q : Pool} {ref : WorkerRef} {now : Time} {event : Worker.Event}

theorem Spent.table (hs : p.Spent) (h : p.Reachable) : p.table = [] := by
  refine List.eq_nil_iff_forall_not_mem.mpr fun ref hmem => ?_
  obtain ⟨w, hw, hopen⟩ := (h.sound.table ref).mp hmem
  simp [(hs ref w hw).closed (h.worker hw)] at hopen

theorem not_spent_spawn (p : Pool) (app : AppSpec) (id : String) (data : List (String × Json)) :
    ¬(p.spawn app id data).1.Spent := by
  intro hs
  exact (hs p.workers.length _ (by rw [spawn_worker?, if_pos rfl])).1 rfl

theorem spent_of_step (hw : p.worker? ref = some w) (hs : (p.step now ref event).1.Spent) :
    p.Spent ∨ .leave true ∈ (w.step now event).2 := by
  have hdone : (w.step now event).1.Done := hs ref _ (by rw [step_worker? now event hw, if_pos rfl])
  refine ((w.step_effect now event).done hdone).imp_left fun hd x v hv => ?_
  by_cases hx : x = ref
  · subst hx
    obtain rfl := Option.some.inj (hw.symm.trans hv)
    exact hd
  · exact hs x v (by rw [step_worker? now event hw, if_neg hx, hv])

/-- The second pool has come from the first and gives no more reason for a report. -/
structure Keeps (p q : Pool) : Prop where
  key : q.key = p.key
  spent : q.Spent → p.Spent
  unused : p.workers = [] → q.workers = []

theorem Keeps.refl (p : Pool) : p.Keeps p := ⟨rfl, id, id⟩

theorem Keeps.trans {a b c : Pool} (h : a.Keeps b) (h' : b.Keeps c) : a.Keeps c :=
  ⟨h'.key.trans h.key, h.spent ∘ h'.spent, h'.unused ∘ h.unused⟩

theorem step_unused (now : Time) (ref : WorkerRef) (event : Worker.Event) (h : p.workers = []) :
    (p.step now ref event).1.workers = [] := by
  rw [step_of_none now event (by simp [worker?, h]), h]

theorem step_keeps (h : p.Reachable) (now : Time) (ref : WorkerRef) (event : Worker.Event) :
    p.Keeps (p.step now ref event).1 ∨ reported p.key (p.step now ref event).2 = [p.key] := by
  cases hw : p.worker? ref with
  | none =>
    rw [step_of_none now event hw]
    exact .inl (.refl p)
  | some w =>
    by_cases hleave : .leave true ∈ (w.step now event).2 ∧ (p.step now ref event).1.table = []
    · exact .inr (by rw [reported_step hw, if_pos hleave])
    · refine .inl ⟨step_key now event, fun hs => ?_, step_unused now ref event⟩
      refine (spent_of_step hw hs).resolve_right fun hmem => hleave ⟨hmem, ?_⟩
      exact hs.table (h.trans (.single (.step now ref event)))

theorem shutdown_keeps (p : Pool) (now : Time) : p.Keeps (p.shutdown now).1 := by
  refine List.foldlRecOn (motive := fun r : Pool × List Act => p.Keeps r.1) p.readyRefs
    _ (.refl p) ?_
  intro r hr ref _
  refine hr.trans ?_
  cases hw : r.1.worker? ref with
  | none =>
    rw [step_of_none now _ hw]
    exact .refl r.1
  | some w =>
    refine ⟨step_key now _, fun hs => ?_, step_unused now ref _⟩
    exact (spent_of_step hw hs).resolve_right (Worker.leave_notMem_kill true)

end

end Pool

namespace Registry

/-- Every policy of the second registry is one of the first that gives no more reason for a
report. -/
def Keeps (r s : Registry) : Prop :=
  ∀ a q, s.policy? a = some q → ∃ p, r.policy? a = some p ∧ p.retired = q.retired ∧
    p.pool.Keeps q.pool

section
variable {r s : Registry} {ref : PolicyRef} {p q : Policy}

theorem Keeps.refl (r : Registry) : r.Keeps r := fun _ q hq => ⟨q, hq, rfl, .refl q.pool⟩

theorem Keeps.trans {a b c : Registry} (h : a.Keeps b) (h' : b.Keeps c) : a.Keeps c := by
  intro ref z hz
  obtain ⟨y, hy, hretired, hpool⟩ := h' ref z hz
  obtain ⟨x, hx, hretired', hpool'⟩ := h ref y hy
  exact ⟨x, hx, hretired'.trans hretired, hpool'.trans hpool⟩

theorem keeps_of_set (hp : r.policy? ref = some p) (hs : s.policies = r.policies.set ref q)
    (hretired : p.retired = q.retired) (hpool : p.pool.Keeps q.pool) : r.Keeps s := by
  intro a v hv
  rw [policy?_set hp hs] at hv
  split at hv
  · next ha =>
    cases hv
    exact ⟨p, ha ▸ hp, hretired, hpool⟩
  · exact ⟨v, hv, rfl, .refl v.pool⟩

theorem setTransport_keeps (r : Registry) (transport : TransportRef) :
    r.Keeps (r.setTransport transport) := by
  refine List.foldlRecOn (motive := r.Keeps) r.current _ (.refl r) ?_
  intro s hs c _
  split
  · exact hs
  · next p hp => exact hs.trans (keeps_of_set hp rfl rfl ⟨rfl, id, id⟩)

theorem shutdown_keeps (r : Registry) (now : Time) : r.Keeps (r.shutdown now).1 := by
  refine List.foldlRecOn (motive := fun s : Registry × List Act => r.Keeps s.1) r.current
    _ (.refl r) ?_
  intro s hs c _
  refine hs.trans ?_
  cases hp : s.1.policy? c.2 with
  | none =>
    simp only [withPool_of_none _ hp]
    exact .refl s.1
  | some p =>
    exact keeps_of_set hp (q := { p with pool := (p.pool.shutdown now).1 })
      (by simp [withPool_of_policy _ hp, setPolicy]) rfl (p.pool.shutdown_keeps now)

end

end Registry

/-- Whether the request has looked a policy up and not come to it yet. -/
def Request.underWay : Request → Bool
  | .found _ => true
  | _ => false

namespace Traffic

-- ---------------------------------------------------------------------------
-- Spent policies are noted
-- ---------------------------------------------------------------------------

def Awaited (t : Traffic) (a : PolicyRef) : Prop := ∃ c ∈ t.calls, c.request = .found a

/-- A spent policy in service is reported, or new. -/
def Noted (t : Traffic) : Prop :=
  ∀ a p, t.registry.policy? a = some p → p.retired = false → p.pool.Spent →
    p.pool.key ∈ t.registry.vacancies ∨ (p.pool.workers = [] ∧ t.Awaited a)

section
variable {t u : Traffic} {a ref : PolicyRef} {p : Policy} {c : Call} {n : Nat}

theorem Awaited.set (h : t.Awaited a) (hn : t.calls[n]? = some c) (hc : c.request ≠ .found a)
    (hu : u.calls = t.calls.set n d) : u.Awaited a := by
  obtain ⟨x, hx, hfound⟩ := h
  obtain ⟨i, hi, rfl⟩ := List.getElem_of_mem hx
  have hne : n ≠ i := by
    rintro rfl
    obtain rfl : t.calls[n] = c := by simpa [hi] using hn
    exact hc hfound
  refine ⟨t.calls[i], List.mem_of_getElem? (i := i) ?_, hfound⟩
  rw [hu, List.getElem?_set_ne hne, List.getElem?_eq_getElem hi]

theorem Noted.keep (h : t.Noted) (hr : t.registry.Keeps u.registry)
    (hv : ∀ key ∈ t.registry.vacancies, key ∈ u.registry.vacancies)
    (hc : ∀ a, t.Awaited a → u.Awaited a) : u.Noted := by
  intro a q hq hlive hspent
  obtain ⟨p, hp, hretired, hpool⟩ := hr a q hq
  rw [hpool.key]
  exact (h a p hp (hretired.trans hlive) (hpool.spent hspent)).imp (hv _)
    (And.imp hpool.unused (hc a))

/-- A policy that a request comes to turns it away as retired, or has a worker then. -/
theorem admission_cases (p : Policy) (app : AppSpec) (url : Option String) (id : String) :
    ((p.admission app url id).1 = p ∧ (p.retired = true ∨ p.pool.table ≠ [])) ∨
      (p.admission app url id).1 = { p with pool := (p.pool.spawn app id []).1 } := by
  unfold Policy.admission
  split
  · next hretired => exact .inl ⟨rfl, .inl hretired⟩
  · split
    · exact .inr rfl
    · next ref hfirst =>
      have htable : p.pool.table ≠ [] := fun hnil => by simp [Pool.first?, hnil] at hfirst
      dsimp only
      split <;> exact .inl ⟨rfl, .inr htable⟩

theorem admissionAt_policy? (r : Registry) (hr : r.Reachable) (app : AppSpec) (url : Option String)
    (id : String) (hp : (r.admissionAt ref app url id).1.policy? a = some p)
    (hlive : p.retired = false) (hspent : p.pool.Spent) : a ≠ ref ∧ r.policy? a = some p := by
  cases hq : r.policy? ref with
  | none =>
    simp only [Registry.admissionAt, hq] at hp
    exact ⟨fun ha => by simp [← ha, hp] at hq, hp⟩
  | some q =>
    have hset : (r.admissionAt ref app url id).1.policies =
        r.policies.set ref (q.admission app url id).1 := by
      simp [Registry.admissionAt, hq, Registry.setPolicy]
    rw [Registry.policy?_set hq hset] at hp
    split at hp
    · obtain rfl := Option.some.inj hp
      obtain ⟨heq, hretired | htable⟩ | heq := admission_cases q app url id
      · simp [heq, hretired] at hlive
      · rw [heq] at hspent
        exact absurd (hspent.table (hr.pool hq)) htable
      · rw [heq] at hspent
        exact absurd hspent (q.pool.not_spent_spawn app id [])
    · next ha => exact ⟨ha, hp⟩

theorem Noted.advance (h : t.Noted) (ht : t.Reachable) (id : String) (hn : t.calls[n]? = some c) :
    Noted
      { registry := (t.registry.advance c.app c.url id c.request).1
        calls := t.calls.set n
          { c with request := (t.registry.advance c.app c.url id c.request).2 } } := by
  obtain ⟨app, url, request⟩ := c
  cases request with
  | seeking =>
    intro a p hp hlive hspent
    have hother : Request.seeking ≠ .found a := by simp
    simp only [Registry.advance, Registry.policyFor_vacancies] at hp ⊢
    unfold Registry.policyFor at hp ⊢
    split at hp
    · exact (h a p hp hlive hspent).imp_right (And.imp_right fun hc => hc.set hn hother rfl)
    · next hl =>
      rw [Registry.policy?_append (r := t.registry) rfl] at hp
      split at hp
      · next ha =>
        cases hp
        -- The policy is new, and this request is on its way to it.
        refine .inr ⟨rfl, _, List.mem_set (List.getElem?_eq_some_iff.mp hn).1 _, ?_⟩
        simp [ha]
      · exact (h a p hp hlive hspent).imp_right (And.imp_right fun hc => hc.set hn hother rfl)
  | found ref =>
    intro a p hp hlive hspent
    have hregistry : (t.registry.advance app url id (.found ref)).1 =
        (t.registry.admissionAt ref app url id).1 := by
      simp only [Registry.advance]
      split <;> rfl
    simp only [hregistry, Registry.admissionAt_vacancies] at hp ⊢
    obtain ⟨ha, hp⟩ := admissionAt_policy? t.registry ht.registry app url id hp hlive hspent
    have hother : Request.found ref ≠ .found a := fun heq => ha (by cases heq; rfl)
    exact (h a p hp hlive hspent).imp_right (And.imp_right fun hc => hc.set hn hother rfl)
  | answered => exact h.keep (.refl _) (fun _ hmem => hmem) fun a hc => hc.set hn (by simp) rfl

theorem readVacancy_policy? {r : Registry} (hr : r.Sound) (hv : r.vacancies = key :: rest)
    (hp : r.readVacancy.policy? a = some p) (hlive : p.retired = false) :
    r.policy? a = some p ∧ (p.pool.key = key → p.pool.table ≠ []) := by
  have hcurrent : r.policy? a = some p → p.pool.key = key → r.lookup? key = some a :=
    fun hp hkey => hkey ▸ hr.live a p hp hlive
  simp only [Registry.readVacancy, hv] at hp
  split at hp
  · next hl =>
    refine ⟨hp, fun hkey => ?_⟩
    have hsome := (hcurrent hp hkey).symm.trans hl
    cases hsome
  · next ref hl =>
    obtain ⟨q, hq, -⟩ := hr.current key ref hl
    have hq' : Registry.policy? { r with vacancies := rest } ref = some q := hq
    simp only [hq', Policy.retireIfVacant] at hp
    split at hp
    · rw [Registry.policy?_set hq (q := { q with retired := true }) rfl] at hp
      split at hp
      · cases hp
        cases hlive
      · next ha =>
          exact ⟨hp, fun hkey => absurd (Option.some.inj ((hcurrent hp hkey).symm.trans hl)) ha⟩
    · next hsize =>
      refine ⟨hp, fun hkey htable => hsize ?_⟩
      obtain rfl := Option.some.inj ((hcurrent hp hkey).symm.trans hl)
      obtain rfl := Option.some.inj (hq.symm.trans hp)
      simp [Pool.size, htable]

theorem Noted.readVacancy (h : t.Noted) (ht : t.Reachable) :
    Noted { t with registry := t.registry.readVacancy } := by
  cases hv : t.registry.vacancies with
  | nil =>
    have hsame : t.registry.readVacancy = t.registry := by simp [Registry.readVacancy, hv]
    rwa [hsame]
  | cons key rest =>
    intro a p hp hlive hspent
    obtain ⟨hp, hkey⟩ := readVacancy_policy? ht.registry.sound hv hp hlive
    refine (h a p hp hlive hspent).imp_left fun hmem => ?_
    rw [hv] at hmem
    rw [Registry.readVacancy_vacancies, hv]
    rcases List.mem_cons.mp hmem with heq | hmem
    · exact absurd (hspent.table (ht.registry.pool hp)) (hkey heq)
    · exact hmem

theorem Noted.step (h : t.Noted) (ht : t.Reachable) (now : Time) (ref : PolicyRef)
    (worker : WorkerRef) (event : Worker.Event) :
    Noted { t with registry := (t.registry.step now ref worker event).1 } := by
  cases hq : t.registry.policy? ref with
  | none =>
    rw [Registry.step, Registry.withPool_of_none _ hq]
    exact h
  | some q =>
    have hset : (t.registry.step now ref worker event).1.policies =
        t.registry.policies.set ref { q with pool := (q.pool.step now worker event).1 } := by
      simp [Registry.step, Registry.withPool_of_policy _ hq, Registry.setPolicy]
    have hvacancies := Registry.step_vacancies now worker event hq
    rcases Pool.step_keeps (ht.registry.pool hq) now worker event with hkeeps | hreported
    · refine h.keep (Registry.keeps_of_set hq hset rfl hkeeps) (fun key hmem => ?_) fun _ => id
      rw [hvacancies]
      exact List.mem_append_left _ hmem
    · intro a p hp hlive hspent
      simp only [hvacancies, hreported]
      rw [Registry.policy?_set hq hset] at hp
      split at hp
      · cases hp
        exact .inl (by simp)
      · exact (h a p hp hlive hspent).imp_left (List.mem_append_left _)

theorem Noted.next (h : t.Noted) (ht : t.Reachable) (e : Event) : (t.step e).Noted := by
  cases e with
  | call app url =>
    refine h.keep (.refl _) (fun _ hmem => hmem) fun a hc => ?_
    obtain ⟨c, hc, hfound⟩ := hc
    exact ⟨c, List.mem_append_left _ hc, hfound⟩
  | advance n id =>
    simp only [Traffic.step]
    split
    · exact h
    · next c hn => exact h.advance ht id hn
  | admission ref app url id =>
    intro a p hp hlive hspent
    rw [Traffic.step, Registry.admissionAt_vacancies]
    exact h a p (admissionAt_policy? t.registry ht.registry app url id hp hlive hspent).2 hlive
      hspent
  | step now ref worker event => exact h.step ht now ref worker event
  | readVacancy => exact h.readVacancy ht
  | setTransport transport =>
    refine h.keep (t.registry.setTransport_keeps transport) (fun key hmem => ?_) fun _ => id
    rwa [Traffic.step, (t.registry.setTransport_quiet transport).2]
  | shutdown now =>
    refine h.keep (t.registry.shutdown_keeps now) (fun key hmem => ?_) fun _ => id
    rwa [Traffic.step, (t.registry.shutdown_quiet now).2]

theorem Reachable.noted (h : t.Reachable) : t.Noted := by
  obtain ⟨transport, hr⟩ := h
  induction hr with
  | refl => exact fun a p hp => by simp [Registry.policy?] at hp
  | tail hb hstep ih =>
    obtain ⟨e, rfl⟩ := hstep
    exact ih.next ⟨transport, hb⟩ e

end

-- ---------------------------------------------------------------------------
-- At rest
-- ---------------------------------------------------------------------------

/-- No startup is under way, neither a spawn nor a request on its way to a policy; what was launched
has exited and been cleaned up after; and all reports are read. -/
structure AtRest (t : Traffic) : Prop where
  settled : ∀ p ∈ t.registry.policies, ∀ w ∈ p.pool.workers, w.entry.outcome.isSome = true
  arrived : ∀ c ∈ t.calls, c.request.underWay = false
  exited : ∀ p ∈ t.registry.policies, ∀ w ∈ p.pool.workers, ∀ l ∈ w.launched, l.reaped = true
  read : t.registry.vacancies = []

instance (t : Traffic) : Decidable t.AtRest :=
  decidable_of_iff (_ ∧ _ ∧ _ ∧ _)
    ⟨fun ⟨settled, arrived, exited, read⟩ => ⟨settled, arrived, exited, read⟩,
      fun ⟨settled, arrived, exited, read⟩ => ⟨settled, arrived, exited, read⟩⟩

theorem AtRest.spent {t : Traffic} {p : Policy} (hrest : t.AtRest) (h : t.Reachable)
    (hp : t.registry.policy? a = some p) : p.pool.Spent := by
  intro ref w hw
  have hmem : p ∈ t.registry.policies := List.mem_of_getElem? hp
  have hwmem : w ∈ p.pool.workers := List.mem_of_getElem? hw
  refine ⟨fun hs => ?_, hrest.exited p hmem w hwmem⟩
  have hsettled := hrest.settled p hmem w hwmem
  simp [(((h.registry.pool hp).worker hw).sound.early hs).2.2] at hsettled

/-- A registry at rest holds no policy, whatever has happened to it before. -/
theorem empty_at_rest {t : Traffic} (h : t.Reachable) (hrest : t.AtRest) :
    t.registry.current = [] := by
  refine List.eq_nil_iff_forall_not_mem.mpr ?_
  rintro ⟨key, ref⟩ hmem
  obtain ⟨a, ha⟩ : ∃ a, t.registry.lookup? key = some a :=
    Option.isSome_iff_exists.mp (List.lookup_isSome_iff.mpr ⟨(key, ref), hmem, by simp⟩)
  obtain ⟨p, hp, -, hlive⟩ := h.registry.sound.current key a ha
  rcases h.noted a p hp hlive (hrest.spent h hp) with hreport | ⟨-, c, hc, hfound⟩
  · rw [hrest.read] at hreport
    cases hreport
  · have harrived := hrest.arrived c hc
    rw [hfound] at harrived
    cases harrived

/-- A worker does not answer in time, and is killed; before it dies the next one fails for want of a
port; the policy is dropped, and the late exit is reported for nothing. -/
def restingTraffic : Traffic :=
  [.call helloApp none, .advance 0 "w0", .advance 0 "w0", .step 0 0 0 (.begin (some 0)),
    .step 0 0 0 (.allocated (.ok ⟨.port 40000, ""⟩) ""), .step 5 0 0 (.launched (.ok 7)),
    .step 60005 0 0 .overdue,
    .call helloApp none, .advance 1 "w1", .advance 1 "w1", .step 60005 0 1 (.begin (some 0)),
    .step 60010 0 1 (.allocated (.error .noFreePort) ""), .readVacancy,
    .step 60020 0 0 (.exited (.killedBy .term)), .step 60020 0 0 .exitHandled, .readVacancy].foldl
    Traffic.step { registry := { transport := some 0 } }

theorem empty_at_rest_respawned : restingTraffic.AtRest ∧ restingTraffic.registry.current = [] := by
  have hrest : restingTraffic.AtRest := by decide +kernel
  exact ⟨hrest, empty_at_rest (reachable_foldl _ _) hrest⟩

end Traffic

end AppHost
