import AppHost.Config.Validate

/-!
# Configurations without a fault

`Config.validate_ok`: a configuration is accepted if and only if its server and each of its
applications are as they have to be, whatever order the applications are asked in.
-/

namespace AppHost

namespace AppConfig

theorem fault?_eq_none {app : AppConfig} :
    app.fault? = none ↔ (Path.mk app.appDir).isAbsolute = true ∧
      (∃ r, app.runAs = some r ∧ r ≠ .candidates []) ∧ app.listenPort ≠ some 0 := by
  have hempty : app.appDir = "" → (Path.mk app.appDir).isAbsolute = false := by
    intro h
    rw [h]
    rfl
  unfold fault?
  split
  · next h => simp [hempty h]
  · split
    · next h => simp_all
    · next h =>
      split <;> simp_all

theorem absolute_ne_empty {text : String} (h : (Path.mk text).isAbsolute = true) : text ≠ "" := by
  rintro rfl
  exact absurd h (by decide)

end AppConfig

theorem ServerConfig.lacksSocketDir_eq_false {server : ServerConfig} :
    server.lacksSocketDir = false ↔
      (server.transport = .unix → ∃ dir, server.socketDir = some dir ∧
      (Path.mk dir).isAbsolute = true) := by
  unfold lacksSocketDir
  cases server.socketDir <;> cases server.transport <;> simp

namespace Config

variable {config : Config}

theorem mem_sortedApps {app : String × AppConfig} : app ∈ config.sortedApps ↔ app ∈ config.apps :=
  List.mem_mergeSort

theorem faults_eq_nil : config.faults = [] ↔
    config.server.lacksSocketDir = false ∧ ∀ app ∈ config.apps, app.2.fault? = none := by
  unfold faults
  rw [List.append_eq_nil_iff, List.filterMap_eq_nil_iff]
  refine and_congr (by cases config.server.lacksSocketDir <;> simp) ?_
  simp [mem_sortedApps]

theorem validate_ok : config.validate = .ok () ↔
    config.server.lacksSocketDir = false ∧ ∀ app ∈ config.apps, app.2.fault? = none := by
  rw [← faults_eq_nil]
  unfold validate
  cases config.faults <;> simp

end Config

end AppHost
