import AppHost.Proofs.Launch.Outcome
import AppHost.Proofs.Validation
import AppHost.Startup

/-!
# What a checked configuration spares a launch

A configuration is checked when it is loaded, and much of what the check asks is asked again when a
worker is launched. `validated_launchable` says which of the later answers the check has settled: an
application has a directory to be found from anywhere and a port that can be one, and a host that
wants sockets has a place for them.

That an application names a user is settled but for one case. The check wants a name and the launch
wants one that is not empty (`validated_nameless`).
-/

namespace AppHost

open Launch

theorem AppSpec.runAsUser_noRunAs {app : AppSpec} :
    app.runAsUser = .error .noRunAs ↔ app.runAs = none ∨ app.runAs = some (.user "") := by
  unfold runAsUser
  split
  · next h => simp [h]
  · next name h => by_cases hname : name = "" <;> simp [h, hname]
  · next names h => simp [h]

namespace Launch

variable {m : Machine} {files : Files} {app : AppSpec}

theorem accountFor_noRunAs (accounts : Accounts) :
    accountFor accounts app = .error .noRunAs ↔ app.runAsUser = .error .noRunAs := by
  unfold accountFor
  cases app.runAsUser with
  | error e => simp [bind, Except.bind]
  | ok user =>
    cases hnamed : accounts.named? user <;>
      simp [hnamed, bind, Except.bind, throw, throwThe, MonadExceptOf.throw, pure, Except.pure]

theorem runnerFor_noRunAs :
    runnerFor m files app = .error .noRunAs ↔ app.runAsUser = .error .noRunAs := by
  rw [← accountFor_noRunAs m.accounts]
  have hinquiry := inquiry m files app
  generalize runnerFor m files app = r at hinquiry
  -- Every other answer is given about an account that was found.
  cases hinquiry with
  | _ haccount => simp [haccount]

theorem runnerFor_noAppDir (h : runnerFor m files app = .error .noAppDir) :
    app.appDir.text = "" := by
  have hinquiry := inquiry m files app
  rw [h] at hinquiry
  cases hinquiry with
  | unaccounted haccount => simpa using accountFor_error haccount
  | nowhere _ hdir => exact hdir

end Launch

namespace AppConfig

variable {app : AppConfig}

/-- What can no longer go wrong with an application once its configuration has been accepted. -/
structure Launchable (app : AppConfig) : Prop where
  appDir : app.toSpec.appDir.text ≠ "" ∧ app.toSpec.appDir.isAbsolute = true
  listenPort : app.listenPort ≠ some 0
  /-- There is a user, unless its name is empty. -/
  user : app.toSpec.runAsUser = .error .noRunAs ↔ app.runAs = some (.user "")
  launched : ∀ (l : Launcher) (m : Machine) (files : Files) (endpoint : Endpoint)
      (log : Option Path) (workerId : String),
    (l.launch m files app.toSpec endpoint log workerId).result ≠ .error .noAppDir ∧
      ((l.launch m files app.toSpec endpoint log workerId).result = .error .noRunAs ↔
        app.runAs = some (.user ""))

theorem launchable (h : app.fault? = none) : app.Launchable := by
  obtain ⟨habsolute, ⟨r, hr, -⟩, hport⟩ := fault?_eq_none.mp h
  have hdir : app.toSpec.appDir.text ≠ "" := absolute_ne_empty habsolute
  have huser : app.toSpec.runAsUser = .error .noRunAs ↔ app.runAs = some (.user "") := by
    rw [AppSpec.runAsUser_noRunAs]
    simp [toSpec, hr]
  refine { appDir := ⟨hdir, habsolute⟩, listenPort := hport, user := huser,
           launched := fun _ _ _ _ _ _ => ⟨?_, ?_⟩ }
  · rw [Ne, Launcher.launch_error_first id]
    exact fun hnowhere => hdir (runnerFor_noAppDir hnowhere)
  · rw [Launcher.launch_error_first id, runnerFor_noRunAs, huser]

end AppConfig

theorem Surroundings.prepareTransport_socketDir {server : ServerConfig}
    (h : server.lacksSocketDir = false) (s : Surroundings) :
    ∀ v, s.prepareTransport server ≠ (v, .error .noSocketDir) := by
  intro v hprepare
  unfold prepareTransport at hprepare
  split at hprepare
  · cases hprepare
  · next hunix hnone =>
    obtain ⟨dir, hdir, -⟩ := ServerConfig.lacksSocketDir_eq_false.mp h hunix
    simp [hnone] at hdir
  · split at hprepare <;> cases hprepare

theorem Config.validated_launchable {config : Config} (h : config.validate = .ok ()) :
    (∀ (s v : Surroundings), s.prepareTransport config.server ≠ (v, .error .noSocketDir)) ∧
      ∀ name app, (name, app) ∈ config.apps → app.Launchable := by
  obtain ⟨hserver, happs⟩ := validate_ok.mp h
  exact ⟨Surroundings.prepareTransport_socketDir hserver,
    fun _ _ hmem => AppConfig.launchable (happs _ hmem)⟩

def Config.sole (runAs : RunAs) : Config where
  server := { transport := .unix, socketDir := some "/run/sockets" }
  apps := [("hello", { appDir := "/apps/hello", runAs := some runAs, listenPort := some 7000 })]

theorem Config.validated_launchable_alice :
    (Config.sole (.user "alice")).validate = .ok () ∧
    (∀ (s v : Surroundings), s.prepareTransport (Config.sole (.user "alice")).server ≠
      (v, .error .noSocketDir)) ∧
      ∀ name app, (name, app) ∈ (Config.sole (.user "alice")).apps → app.Launchable := by
  have h : (Config.sole (.user "alice")).validate = .ok () := validate_ok.mpr (by decide)
  exact ⟨h, validated_launchable h⟩

/-- A user without a name is found out at the first request. -/
theorem Config.validated_nameless :
    (Config.sole (.user "")).validate = .ok () ∧
      ∃ name app, (name, app) ∈ (Config.sole (.user "")).apps ∧
      app.toSpec.runAsUser = .error .noRunAs := by
  refine ⟨validate_ok.mpr (by decide), "hello", _, List.mem_singleton.mpr rfl, ?_⟩
  exact AppSpec.runAsUser_noRunAs.mpr (.inr rfl)

end AppHost
