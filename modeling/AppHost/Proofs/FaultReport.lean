import AppHost.Proofs.Validation
import Mathlib.Data.List.Sort
import Mathlib.Data.String.Basic

/-!
# What a refused configuration is told

A configuration is taken whole or not at all, and the refusal lists what has to be mended: the
server first, then each application that cannot be launched, by name, with the fault that is found
first in it. `report_complete` says that the list is complete and holds nothing else, and that it
depends on the applications only and not on the order in which they come.
-/

namespace AppHost

-- ---------------------------------------------------------------------------
-- One application
-- ---------------------------------------------------------------------------

def AppFault.inTurn : List AppFault :=
  [.noAppDir, .relativeAppDir, .noRunAs, .noCandidates, .zeroPort]

theorem AppFault.mem_inTurn (fault : AppFault) : fault ∈ inTurn := by
  cases fault <;> decide

namespace AppConfig

/-- The application has this fault, whatever else is wrong with it. -/
def Has (app : AppConfig) : AppFault → Prop
  | .noAppDir => app.appDir = ""
  | .relativeAppDir => (Path.mk app.appDir).isAbsolute = false
  | .noRunAs => app.runAs = none
  | .noCandidates => app.runAs = some (.candidates [])
  | .zeroPort => app.listenPort = some 0

instance (app : AppConfig) : (fault : AppFault) → Decidable (app.Has fault)
  | .noAppDir => inferInstanceAs (Decidable (app.appDir = ""))
  | .relativeAppDir => inferInstanceAs (Decidable ((Path.mk app.appDir).isAbsolute = false))
  | .noRunAs => inferInstanceAs (Decidable (app.runAs = none))
  | .noCandidates => inferInstanceAs (Decidable (app.runAs = some (.candidates [])))
  | .zeroPort => inferInstanceAs (Decidable (app.listenPort = some 0))

/-- The application has the fault, and none of those that are looked for earlier. -/
structure FirstFault (app : AppConfig) (fault : AppFault) : Prop where
  has : app.Has fault
  first : ∃ earlier later, AppFault.inTurn = earlier ++ fault :: later ∧
    ∀ other ∈ earlier, ¬app.Has other

variable {app : AppConfig} {fault : AppFault}

theorem fault?_eq_find? (app : AppConfig) : app.fault? = AppFault.inTurn.find? (app.Has ·) := by
  unfold fault?
  split
  · next hempty => simp [AppFault.inTurn, Has, hempty]
  split
  · next hempty hrelative => simp_all [AppFault.inTurn, Has]
  split
  · next hnone => simp_all [AppFault.inTurn, Has]
  · next hcandidates => simp_all [AppFault.inTurn, Has]
  · next hcandidates hr => split <;> simp_all [AppFault.inTurn, Has]

theorem fault?_eq_some : app.fault? = some fault ↔ app.FirstFault fault := by
  rw [fault?_eq_find?, List.find?_eq_some_iff_append]
  constructor
  · rintro ⟨hhas, earlier, later, hturn, hnot⟩
    exact ⟨of_decide_eq_true hhas, earlier, later, hturn, by simpa using hnot⟩
  · rintro ⟨hhas, earlier, later, hturn, hnot⟩
    exact ⟨decide_eq_true hhas, earlier, later, hturn, by simpa using hnot⟩

theorem faultless_iff : app.fault? = none ↔ ∀ fault, ¬app.Has fault := by
  rw [fault?_eq_find?, List.find?_eq_none]
  simp [AppFault.mem_inTurn]

theorem FirstFault.validate (h : app.FirstFault fault) (name : String) :
    app.validate name = .error (fault.message name) := by
  simp [AppConfig.validate, fault?_eq_some.mpr h]

theorem validate_ok : app.validate name = .ok () ↔ app.fault? = none := by
  unfold validate
  cases app.fault? <;> simp

end AppConfig

-- ---------------------------------------------------------------------------
-- The list
-- ---------------------------------------------------------------------------

/-- Each item stands on a line of its own, under the heading. -/
def faultReport (items : List String) : String :=
  "Configuration errors:" ++ String.join (items.map ("\n  - " ++ ·))

theorem append_intercalate (separator first : String) (rest : List String) :
    separator ++ String.intercalate separator (first :: rest) =
      String.join ((first :: rest).map (separator ++ ·)) := by
  induction rest generalizing first with
  | nil => simp
  | cons second rest ih =>
    rw [String.intercalate_cons_cons, String.append_assoc, ih]
    simp only [List.map_cons, String.join_cons, String.append_assoc]

theorem faultReport_cons (first : String) (rest : List String) :
    faultReport (first :: rest) = "Configuration errors:\n  - " ++
      String.intercalate "\n  - " (first :: rest) := by
  have hheading : "Configuration errors:\n  - " = "Configuration errors:" ++ "\n  - " := by decide
  rw [hheading, String.append_assoc, append_intercalate]
  rfl

/-- Sockets have a place that does not depend on where the host is started, if there are any. -/
def ServerConfig.Sited (server : ServerConfig) : Prop :=
  server.transport ≠ .unix ∨ ∃ dir, server.socketDir = some dir ∧ (Path.mk dir).isAbsolute = true

theorem ServerConfig.lacksSocketDir_iff_sited {server : ServerConfig} :
    server.lacksSocketDir = false ↔ server.Sited := by
  rw [lacksSocketDir_eq_false, Sited, imp_iff_not_or]

namespace Config

variable {config : Config}

def serverItems (config : Config) : List String :=
  if config.server.lacksSocketDir then
    ["Server: unix transport requires an absolute 'socket_dir'"] else []

/-- The applications at fault, by name, with the fault each is charged with. -/
def charges (config : Config) : List (String × AppFault) :=
  config.sortedApps.filterMap fun app => app.2.fault?.map (app.1, ·)

theorem faults_eq (config : Config) :
    config.faults = config.serverItems ++ config.charges.map fun item => item.2.message item.1 := by
  rw [faults, serverItems, charges, List.map_filterMap]
  simp [Function.comp_def]

theorem validate_of_faults (h : config.faults ≠ []) :
    config.validate = .error (faultReport config.faults) := by
  obtain ⟨first, rest, hfaults⟩ := List.exists_cons_of_ne_nil h
  simp only [validate, hfaults, faultReport_cons]

/-- The charges in the order of the report: every application at fault once, by name, and no
other. -/
structure Charged (config : Config) (items : List (String × AppFault)) : Prop where
  increasing : items.Pairwise (·.1 < ·.1)
  complete : ∀ name fault, (name, fault) ∈ items ↔
    ∃ app, (name, app) ∈ config.apps ∧ app.FirstFault fault

/-- There is only one such order. -/
theorem Charged.unique {items others : List (String × AppFault)} (h : config.Charged items)
    (h' : config.Charged others) : items = others := by
  have hirrefl : Std.Irrefl fun a b : String × AppFault => a.1 < b.1 := ⟨fun a => lt_irrefl a.1⟩
  have hantisymm : Std.Antisymm fun a b : String × AppFault => a.1 < b.1 :=
    ⟨fun _ _ hlt hgt => absurd hlt hgt.asymm⟩
  refine h.increasing.eq_of_mem_iff h'.increasing fun item => ?_
  rw [h.complete, h'.complete]

theorem sortedApps_increasing (hnames : (config.apps.map (·.1)).Nodup) :
    config.sortedApps.Pairwise (·.1 < ·.1) := by
  have hle : config.sortedApps.Pairwise fun a b => decide (a.1 ≤ b.1) = true := by
    refine List.pairwise_mergeSort (fun a b c hab hbc => ?_) (fun a b => ?_) config.apps
    · exact decide_eq_true (le_trans (of_decide_eq_true hab) (of_decide_eq_true hbc))
    · simpa using le_total a.1 b.1
  have hne : config.sortedApps.Pairwise fun a b => a.1 ≠ b.1 :=
    List.pairwise_map.mp (((List.mergeSort_perm _ _).map _).nodup_iff.mpr hnames)
  exact hle.imp₂ (fun _ _ hle hne => lt_of_le_of_ne (of_decide_eq_true hle) hne) hne

theorem charged (hnames : (config.apps.map (·.1)).Nodup) : config.Charged config.charges := by
  refine ⟨?_, fun name fault => ?_⟩
  · refine (sortedApps_increasing hnames).filterMap _ fun a b hlt item hitem other hother => ?_
    obtain ⟨_, -, rfl⟩ := Option.map_eq_some_iff.mp hitem
    obtain ⟨_, -, rfl⟩ := Option.map_eq_some_iff.mp hother
    exact hlt
  · rw [charges, List.mem_filterMap]
    constructor
    · rintro ⟨⟨name', app⟩, hmem, hitem⟩
      obtain ⟨fault', hfault, heq⟩ := Option.map_eq_some_iff.mp hitem
      cases heq
      exact ⟨app, mem_sortedApps.mp hmem, AppConfig.fault?_eq_some.mp hfault⟩
    · rintro ⟨app, hmem, hfirst⟩
      exact ⟨(name, app), mem_sortedApps.mpr hmem, by simp [AppConfig.fault?_eq_some.mpr hfirst]⟩

theorem charges_perm {apps : List (String × AppConfig)} (hnames : (config.apps.map (·.1)).Nodup)
    (hperm : apps.Perm config.apps) : ({ config with apps } : Config).charges = config.charges := by
  have hcharged : ({ config with apps } : Config).Charged ({ config with apps } : Config).charges :=
    charged ((hperm.map _).nodup_iff.mpr hnames)
  have hsame : config.Charged ({ config with apps } : Config).charges := by
    refine ⟨hcharged.increasing, fun name fault => ?_⟩
    simp [hcharged.complete, hperm.mem_iff]
  exact hsame.unique (charged hnames)

theorem serverItems_cases (config : Config) :
    (config.server.Sited ∧ config.serverItems = []) ∨
      (¬config.server.Sited ∧
      config.serverItems = ["Server: unix transport requires an absolute 'socket_dir'"]) := by
  rw [← ServerConfig.lacksSocketDir_iff_sited, serverItems]
  cases config.server.lacksSocketDir <;> simp

/-- The answer to a configuration that gives each name once. -/
structure Answered (config : Config) : Prop where
  accepted : config.validate = .ok () ↔
    config.server.Sited ∧ ∀ name app, (name, app) ∈ config.apps → app.validate name = .ok ()
  server : (config.server.Sited ∧ config.serverItems = []) ∨
    (¬config.server.Sited ∧
      config.serverItems = ["Server: unix transport requires an absolute 'socket_dir'"])
  apps : ∀ (name : String) (app : AppConfig),
    (app.validate name = .ok () ∧ ∀ fault, ¬app.Has fault) ∨
    ∃ fault, app.validate name = .error (fault.message name) ∧ app.FirstFault fault
  refused : config.validate ≠ .ok () → ∃! items, config.Charged items ∧
    config.validate =
      .error (faultReport (config.serverItems ++ items.map fun item => item.2.message item.1))
  /-- The order in which the applications come does not matter. -/
  unordered : ∀ apps : List (String × AppConfig), apps.Perm config.apps →
    ({ config with apps } : Config).validate = config.validate

theorem report_complete (hnames : (config.apps.map (·.1)).Nodup) : config.Answered where
  accepted := by
    rw [validate_ok, ServerConfig.lacksSocketDir_iff_sited]
    simp [AppConfig.validate_ok]
  server := serverItems_cases config
  apps name app := by
    cases hfound : app.fault? with
    | none => exact .inl ⟨AppConfig.validate_ok.mpr hfound, AppConfig.faultless_iff.mp hfound⟩
    | some fault =>
      have hfirst := AppConfig.fault?_eq_some.mp hfound
      exact .inr ⟨fault, hfirst.validate name, hfirst⟩
  refused hrefused := by
    have hfaults : config.faults ≠ [] :=
      fun hnil => hrefused (validate_ok.mpr (faults_eq_nil.mp hnil))
    refine ⟨config.charges, ⟨charged hnames, ?_⟩, fun items h => h.1.unique (charged hnames)⟩
    rw [validate_of_faults hfaults, faults_eq]
  unordered apps hperm := by
    have hfaults : ({ config with apps } : Config).faults = config.faults := by
      rw [faults_eq, faults_eq, charges_perm hnames hperm, serverItems, serverItems]
    rw [validate, validate, hfaults]

end Config

/-- Sockets are asked for in a directory that depends on where the host is started, and two of three
applications are at fault, one of them in three ways. -/
def Config.faulty : Config where
  server := { transport := .unix, socketDir := some "run" }
  apps := [("west", { appDir := "apps/west", listenPort := some 0 }),
    ("north", { appDir := "/apps/north", runAs := some (.user "alice") }),
    ("east", { appDir := "/apps/east", runAs := some (.candidates []) })]

theorem Config.faulty_sorted :
    faulty.sortedApps = [("east", { appDir := "/apps/east", runAs := some (.candidates []) }),
      ("north", { appDir := "/apps/north", runAs := some (.user "alice") }),
      ("west", { appDir := "apps/west", listenPort := some 0 })] := by
  simp [sortedApps, faulty, List.mergeSort, List.MergeSort.Internal.splitInTwo]

theorem Config.report_complete_faulty :
    (faulty.apps.map (·.1)).Nodup ∧ faulty.Answered ∧
      faulty.validate = .error (faultReport [
        "Server: unix transport requires an absolute 'socket_dir'",
        "App 'east': 'run_as' must name at least one user",
        "App 'west': 'app_dir' must be an absolute path"]) := by
  have hnames : (faulty.apps.map (·.1)).Nodup := by decide
  have hfaults : faulty.faults = ["Server: unix transport requires an absolute 'socket_dir'",
      "App 'east': 'run_as' must name at least one user",
      "App 'west': 'app_dir' must be an absolute path"] := by
    rw [faults, faulty_sorted]
    decide +kernel
  refine ⟨hnames, report_complete hnames, ?_⟩
  rw [validate_of_faults (hfaults ▸ List.cons_ne_nil _ _), hfaults]

end AppHost
