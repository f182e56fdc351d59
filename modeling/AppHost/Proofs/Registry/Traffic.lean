import AppHost.Proofs.Registry.Runs

/-!
# Traffic

A registry with every request that was ever made of it. A request goes on by itself, one stage at a
time, and anything may happen between two of its stages. A policy that was looked up once may also
be asked directly, however much later.
-/

namespace AppHost

open Relation (ReflTransGen)

/-- A request, with what is asked for. -/
structure Call where
  app : AppSpec
  url : Option String := none
  request : Request := .seeking

structure Traffic where
  registry : Registry
  calls : List Call := []

namespace Traffic

inductive Event where
  | call (app : AppSpec) (url : Option String)
  /-- The request of this number goes one stage further. -/
  | advance (n : Nat) (id : String)
  | admission (ref : PolicyRef) (app : AppSpec) (url : Option String) (id : String)
  | step (now : Time) (ref : PolicyRef) (worker : WorkerRef) (event : Worker.Event)
  | readVacancy
  | setTransport (transport : TransportRef)
  | shutdown (now : Time)

def step (t : Traffic) : Event → Traffic
  | .call app url => { t with calls := t.calls ++ [{ app, url }] }
  | .advance n id =>
    match t.calls[n]? with
    | none => t
    | some c =>
      let s := t.registry.advance c.app c.url id c.request
      { registry := s.1, calls := t.calls.set n { c with request := s.2 } }
  | .admission ref app url id => { t with registry := (t.registry.admissionAt ref app url id).1 }
  | .step now ref worker event => { t with registry := (t.registry.step now ref worker event).1 }
  | .readVacancy => { t with registry := t.registry.readVacancy }
  | .setTransport transport => { t with registry := t.registry.setTransport transport }
  | .shutdown now => { t with registry := (t.registry.shutdown now).1 }

def Next (t u : Traffic) : Prop := ∃ e, u = t.step e

def Reachable (t : Traffic) : Prop := ∃ transport, ReflTransGen Next { registry := { transport } } t

theorem reachable_foldl (transport : Option TransportRef) (events : List Event) :
    (events.foldl step { registry := { transport } }).Reachable :=
  ⟨transport,
    List.foldlRecOn (motive := ReflTransGen Next { registry := { transport } }) events _ .refl
    fun _ h e _ => h.tail ⟨e, rfl⟩⟩

theorem step_registry (t : Traffic) (e : Event) :
    ReflTransGen Registry.Next t.registry (t.step e).registry := by
  cases e with
  | call => exact .refl
  | advance n id =>
    simp only [step]
    split
    · exact .refl
    · next c _ => exact t.registry.advance_next c.app c.url id c.request
  | admission ref app url id => exact .single (.admission ref app url id)
  | step now ref worker event => exact .single (.step now ref worker event)
  | readVacancy => exact .single .readVacancy
  | setTransport transport => exact .single (.setTransport transport)
  | shutdown now => exact .single (.shutdown now)

theorem Reachable.registry {t : Traffic} (h : t.Reachable) : t.registry.Reachable := by
  obtain ⟨transport, hr⟩ := h
  refine ⟨transport, ?_⟩
  induction hr with
  | refl => exact .refl
  | @tail t _ _ hstep ih =>
    obtain ⟨e, rfl⟩ := hstep
    exact ih.trans (t.step_registry e)

/-- What every worker has when it is spawned, keeps when it is killed and does not lose by what
happens to it now, every worker has. -/
theorem all_step {P : PolicyRef → WorkerRef → Worker → Prop} {t : Traffic}
    (hspawned : ∀ a i app id data, P a i (Worker.spawned app id data))
    (hkill : ∀ a i w now, P a i w → P a i (w.kill now true).1) (ht : t.registry.All P) {e : Event}
    (hstep : ∀ now a i event w, e = .step now a i event → t.registry.worker? a i = some w →
      P a i w → P a i (w.step now event).1) : (t.step e).registry.All P := by
  have hmoves : ∀ s, ReflTransGen (Registry.Move Pool.Own) t.registry s → s.All P := by
    intro s hs
    induction hs with
    | refl => exact ht
    | tail _ hmove ih => exact hmove.all (fun a _ _ => Pool.Own.all (hspawned a) (hkill a)) ih
  cases e with
  | call => exact ht
  | advance n id =>
    simp only [step]
    split
    · exact ht
    · next c _ => exact hmoves _ (t.registry.advance_moves c.app c.url id c.request)
  | admission ref app url id =>
    exact hmoves _ (.single (t.registry.admissionAt_move ref app url id))
  | step now a i event => exact ht.step now a i fun w => hstep now a i event w rfl
  | readVacancy => exact hmoves _ (.single t.registry.readVacancy_move)
  | setTransport transport => exact hmoves _ (t.registry.setTransport_moves transport)
  | shutdown now => exact hmoves _ (t.registry.shutdown_moves now)

end Traffic

end AppHost
