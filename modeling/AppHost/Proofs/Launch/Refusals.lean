import AppHost.Proofs.Files.Growth
import AppHost.Proofs.Launch.Outcome

/-!
# Launches that are refused

An application is refused for what it leaves open and for what the machine does not have. All that
is asked for but one thing is asked before anything is done: `refused_launches` says that no file
changes then and no process is asked for. Whether the application's directory is a directory is
asked once the log is prepared. A launch refused for that leaves the log and the directories made
for it (`LogLeft`), and a log of the application's user was made by a helper that has run.
-/

namespace AppHost

/-- What is wrong with an application, or with the machine for it. -/
def Failure.Refusal : Failure → Prop
  | .noRunAs | .unresolvedRunAs _ | .userNotFound _ | .noHomeDirectory _ | .noAppDir
  | .appDirNotFound _ | .notADirectory _ | .superuserLaunch => True
  | _ => False

theorem Failure.Refusal.notADirectory {failure : Failure} (h : failure.Refusal)
    (hunderway : failure.Underway) : ∃ dir, failure = .notADirectory dir := by
  cases failure with
  | notADirectory dir => exact ⟨dir, rfl⟩
  | _ => first | exact h.elim | exact hunderway.elim

namespace Launch

open Files (nowhere)

variable {m : Machine} {files after : Files} {app : AppSpec} {account : Account} {c owner : Caller}
  {path : Path} {place : Place} {mode : Nat}

-- ---------------------------------------------------------------------------
-- Making a log
-- ---------------------------------------------------------------------------

theorem orUnchanged_grows {own : Place → Prop} {change : Except IoError Files}
    (h : ∀ {changed}, change = .ok changed → files.Grows own changed) :
    files.Grows own (orUnchanged files change) := by
  cases hchange : change with
  | ok changed => exact h hchange
  | error e => exact .refl own files

theorem makeLogDir_grows (files : Files) (c : Caller) (dir : Path) (account : Account) :
    files.Grows nowhere (makeLogDir files c dir account) := by
  unfold makeLogDir
  split
  · exact .refl _ _
  · next made hmade =>
    have hgrows : files.Grows nowhere made := Files.makeDir_grows hmade
    split
    · exact hgrows
    · next place node hfind =>
      have hnone : files.get? place = none := Files.makeDir_find hmade hfind
      have howned : files.Grows (· = place) (orUnchanged made (made.setOwner c place account)) :=
        hgrows.weaken.trans (orUnchanged_grows Files.setOwner_grows)
      -- The directory that changes hands did not stand before.
      exact howned.mono fun _ hthere heq => by simp [heq, hnone] at hthere

theorem openLog_made (files : Files) (c : Caller) (path : Path) (account : Account) (mode : Nat) :
    ∃ made, files.Grows nowhere made ∧ openLog files c path account mode =
      match made.openFile c path mode with
      | .error e => .failed made (.logFile path e.message)
      | .ok (opened, place) =>
        let owned := orUnchanged opened (opened.setOwner c place account)
        .ok (orUnchanged owned (owned.setMode c place mode)) place := by
  refine ⟨_, ?_, rfl⟩
  split
  · exact makeLogDir_grows ..
  · exact .refl _ _

/-- A log that could be opened is found there, and it is no directory. -/
theorem openLog_ok (h : (openLog files c path account mode).result = .ok place) :
    files.Grows (· = place) (openLog files c path account mode).files ∧
      ∃ node, (openLog files c path account mode).files.find c path = .ok (place, node) ∧
      node.isDirectory = false := by
  obtain ⟨made, hmade, heq⟩ := openLog_made files c path account mode
  rw [heq] at h ⊢
  split at h
  · cases h
  · next opened q hopen =>
    obtain rfl : q = place := Except.ok.inj h
    have howned : opened.Grows (· = q) (orUnchanged opened (opened.setOwner c q account)) :=
      orUnchanged_grows Files.setOwner_grows
    dsimp only [Attempt.ok]
    generalize orUnchanged opened (opened.setOwner c q account) = owned at howned ⊢
    have hmode : opened.Grows (· = q) (orUnchanged owned (owned.setMode c q mode)) :=
      howned.trans (orUnchanged_grows Files.setMode_grows)
    obtain ⟨node, hfind, hfile⟩ := Files.openFile_find hopen
    obtain ⟨node', hfind', hcontent⟩ := hmode.find_ok hfind hfile
    exact ⟨(hmade.weaken.trans (Files.openFile_grows hopen)).trans hmode, node', hfind',
      by simpa [Node.isDirectory, hcontent] using hfile⟩

/-- What the helper touches is where the log's path leads, be it a directory. -/
theorem helperMakesLog_ok (h : helperMakesLog files owner path mode = (after, true)) :
    ∃ place node, after.get? place = some node ∧ files.Grows (· = place) after ∧
      (node.isDirectory = false → after.find owner path = .ok (place, node)) := by
  unfold helperMakesLog at h
  split at h
  · cases h
  · next made hmade =>
    dsimp only at h
    split at h
    · cases h
    · next touched place htouched =>
      split at h
      · cases h
      · next hmode =>
        obtain rfl := (Prod.mk.inj h).1
        have htouch : made.Grows nowhere touched ∧
            ∃ node, touched.find owner path = .ok (place, node) := by
          split at htouched
          · next q node hfind =>
            split at htouched
            · obtain ⟨rfl, rfl⟩ := Prod.mk.inj (Except.ok.inj htouched)
              exact ⟨.refl _ _, node, hfind⟩
            · cases htouched
          · obtain ⟨node, hfind, -⟩ := Files.openFile_find htouched
            exact ⟨Files.openFile_grows htouched, node, hfind⟩
        obtain ⟨htouch, node, hfind⟩ := htouch
        have hset := Files.setMode_grows hmode
        obtain ⟨node', hnode', hcontent⟩ := hset.kept (Files.find_ok.mp hfind).2.2.2
        refine ⟨place, node', hnode', ((Files.makeDirs_grows hmade).trans htouch.weaken).trans hset,
          fun hfile => ?_⟩
        obtain ⟨found, hfound, -⟩ :=
          hset.find_ok hfind (by simpa [Node.isDirectory, hcontent] using hfile)
        obtain rfl : found = node' :=
          Option.some.inj ((Files.find_ok.mp hfound).2.2.2.symm.trans hnode')
        exact hfound

def logWriter (m : Machine) (app : AppSpec) (account : Account) : Caller :=
  if app.settings.logAsUser then m.caller.become account else m.caller

/-- A log that was prepared stands at the place, among files that else hold what they held. -/
structure LogLeft (m : Machine) (files : Files) (app : AppSpec) (account : Account) (path : Path)
    (place : Place) (node : Node) (after : Files) : Prop where
  stands : after.get? place = some node
  found : node.isDirectory = false → after.find (logWriter m app account) path = .ok (place, node)
  /-- What is new is blank, and nothing but the log changes its mode or its owner. -/
  grown : files.Grows (· = place) after
  opened : app.settings.logAsUser = false →
    node.isDirectory = false ∧
    after = (openLog files m.caller path account app.settings.appDefaults.logFileMode).files
  helped : app.settings.logAsUser = true → m.unstartable.lookup "sh" = none ∧
    helperMakesLog files (m.caller.become account) path app.settings.appDefaults.logFileMode =
      (after, true)

theorem makeLogAsUser_ok {shell : Option IoError}
    (h : (makeLogAsUser files c shell path account mode).result = .ok ()) :
    shell = none ∧ helperMakesLog files (c.become account) path mode =
      ((makeLogAsUser files c shell path account mode).files, true) := by
  unfold makeLogAsUser at h ⊢
  split at h
  · cases h
  · next hbecome =>
    cases shell with
    | some e => cases h
    | none =>
      refine ⟨rfl, ?_⟩
      rw [if_neg hbecome]
      dsimp only at h ⊢
      split at h
      · next hmade => simp [hmade, Attempt.ok]
      · cases h

theorem prepareLog_left {sink : LogSink}
    (h : prepareLog m files app account (some path) = .ok after sink) :
    ∃ place node, LogLeft m files app account path place node after := by
  have hresult : (prepareLog m files app account (some path)).result = .ok sink :=
    congrArg Attempt.result h
  have hfiles : (prepareLog m files app account (some path)).files = after :=
    congrArg Attempt.files h
  subst hfiles
  clear h
  unfold prepareLog at hresult ⊢
  dsimp only at hresult ⊢
  split at hresult
  · next huser =>
    rw [if_pos huser]
    obtain ⟨_, hmade, -⟩ := Attempt.andThen_ok.mp hresult
    obtain ⟨hshell, hhelper⟩ := makeLogAsUser_ok hmade
    obtain ⟨place, node, hnode, hgrows, hfound⟩ := helperMakesLog_ok hhelper
    rw [Attempt.eq_ok hmade, Attempt.ok_andThen]
    have hwriter : logWriter m app account = m.caller.become account := if_pos huser
    exact ⟨place, node, { stands := hnode, found := hwriter ▸ hfound, grown := hgrows,
                          opened := by simp [huser], helped := fun _ => ⟨hshell, hhelper⟩ }⟩
  · next huser =>
    rw [if_neg huser]
    obtain ⟨place, hmade, -⟩ := Attempt.andThen_ok.mp hresult
    obtain ⟨hgrows, node, hfind, hfile⟩ := openLog_ok hmade
    rw [Attempt.eq_ok hmade, Attempt.ok_andThen]
    have hwriter : logWriter m app account = m.caller := if_neg huser
    exact ⟨place, node, {
      stands := (Files.find_ok.mp hfind).2.2.2
      found := fun _ => hwriter ▸ hfind
      grown := hgrows
      opened := fun _ => ⟨hfile, rfl⟩
      helped := fun hhelped => absurd hhelped huser }⟩

theorem prepareLog_unaided {log : Option Path} (h : log = none ∨ app.settings.logAsUser = false)
    (unstartable : List (String × IoError)) :
    prepareLog { m with unstartable } files app account log =
      prepareLog m files app account log := by
  unfold prepareLog
  cases log with
  | none => rfl
  | some path => simp [h.resolve_left nofun]

-- ---------------------------------------------------------------------------
-- Refusals
-- ---------------------------------------------------------------------------

namespace Launcher

variable {l : Launcher} {endpoint : Endpoint} {log : Option Path} {workerId : String}
  {runner : Runner} {dir : Path} {failure : Failure}

theorem carryOut_late
    (h : (l.carryOut m files app endpoint log workerId runner).result =
      .error (.notADirectory dir)) :
    ∃ made sink, prepareLog m files app runner.account log = .ok made sink ∧
      checkAppDir m made app = .failed made (.notADirectory dir) := by
  obtain h | ⟨sink, hsink, h⟩ := Attempt.andThen_error.mp h
  · simpa using prepareLog_error h
  refine ⟨_, sink, Attempt.eq_ok hsink, ?_⟩
  obtain h | ⟨_, -, h⟩ := Attempt.andThen_error.mp h
  · generalize (prepareLog m files app runner.account log).files = made at h ⊢
    unfold checkAppDir at h ⊢
    split at h
    · simp [Attempt.failed] at h
    · split at h
      · cases h
      · next hfile =>
        obtain rfl : app.appDir = dir := by simpa [Attempt.failed] using h
        exact if_neg hfile
  obtain h | ⟨_, -, h⟩ := Attempt.andThen_error.mp h
  · simpa using prepareBookmarks_error h
  · simpa using start_error h

theorem carryOut_of_late {sink : LogSink} {made : Files}
    (hlog : prepareLog m files app runner.account log = .ok made sink)
    (hdir : checkAppDir m made app = .failed made failure) :
    l.carryOut m files app endpoint log workerId runner = .failed made failure := by
  rw [carryOut, hlog, Attempt.ok_andThen, hdir, Attempt.failed_andThen]

theorem runnerFor_ne_notADirectory : runnerFor m files app ≠ .error (.notADirectory dir) := by
  intro h
  have hinquiry := inquiry m files app
  rw [h] at hinquiry
  cases hinquiry with
  | unaccounted h => simpa using accountFor_error h

/-- What a refused launch has done. -/
structure Refused (l : Launcher) (m : Machine) (files : Files) (app : AppSpec) (endpoint : Endpoint)
    (log : Option Path) (workerId : String) (failure : Failure) : Prop where
  unchanged : (∀ dir, failure = .notADirectory dir → log = none) →
    l.launch m files app endpoint log workerId = .failed files failure
  /-- Whatever the system would not start: no process is asked for. -/
  unaided : (∀ dir, failure = .notADirectory dir → log = none ∨ app.settings.logAsUser = false) →
    ∀ unstartable, l.launch { m with unstartable } files app endpoint log workerId =
      l.launch m files app endpoint log workerId
  late : ∀ dir path, failure = .notADirectory dir → log = some path →
    ∃ user account place node after, accountFor m.accounts app = .ok (user, account) ∧
      l.launch m files app endpoint log workerId = .failed after failure ∧
      LogLeft m files app account path place node after

theorem refused_launches (h : (l.launch m files app endpoint log workerId).result = .error failure)
    (hrefusal : failure.Refusal) : Refused l m files app endpoint log workerId failure := by
  obtain hr | ⟨runner, hr, hcarry⟩ := launch_error.mp h
  · have hfirst : ∀ unstartable, l.launch { m with unstartable } files app endpoint log workerId =
        .failed files failure := by
      intro unstartable
      have hr' : runnerFor { m with unstartable } files app = .error failure := hr
      rw [launch_eq, hr']
    refine { unchanged := fun _ => hfirst m.unstartable,
             unaided := fun _ unstartable => (hfirst unstartable).trans (hfirst m.unstartable).symm,
             late := fun dir path hdir => ?_ }
    exact absurd (hdir ▸ hr) runnerFor_ne_notADirectory
  -- Of what goes wrong later, only the directory is the application's fault.
  · obtain ⟨dir, rfl⟩ := hrefusal.notADirectory (carryOut_underway hcarry)
    obtain ⟨made, sink, hlog, hdir⟩ := carryOut_late hcarry
    have hlaunch : l.launch m files app endpoint log workerId =
        .failed made (.notADirectory dir) := by
      rw [launch_eq, hr]
      exact carryOut_of_late hlog hdir
    refine { unchanged := fun hnone => ?_, unaided := fun hunaided unstartable => ?_, late := ?_ }
    · obtain rfl := hnone dir rfl
      obtain rfl : files = made := congrArg Attempt.files hlog
      exact hlaunch
    · have hr' : runnerFor { m with unstartable } files app = .ok runner := hr
      rw [hlaunch, launch_eq, hr']
      exact carryOut_of_late ((prepareLog_unaided (hunaided dir rfl) unstartable).trans hlog) hdir
    · rintro _ path - rfl
      have hinquiry := inquiry m files app
      rw [hr] at hinquiry
      cases hinquiry with
      | answered haccount =>
        obtain ⟨place, node, hleft⟩ := prepareLog_left hlog
        exact ⟨_, _, place, node, made, haccount, hlaunch, hleft⟩

def spacious : Machine where
  accounts := [⟨"root", 0, 0, ⟨"/root"⟩⟩, ⟨"nobody", 65534, 65534, ⟨"/nonexistent"⟩⟩]
  caller := { uid := 0, gid := 0, privileged := true }

/-- A file at `/app`, and a directory of the application's user at `/logs`. -/
def fileForApp : Files :=
  (({} : Files).put ["app"]
    { content := .file "", mode := 0o644, owner := 0, group := 0 }).put ["logs"]
    { content := .directory, mode := 0o755, owner := 65534, group := 65534 }

def fileAsApp (logAsUser : Bool) : AppSpec where
  appDir := ⟨"/app"⟩
  runAs := some (.user "nobody")
  urlPrefix := "/"
  logDir := none
  settings := { logAsUser }

def elsewhere : Endpoint := { address := .port 41234, secret := "" }

theorem refused_launches_file :
    (launch {} spacious fileForApp (fileAsApp false) elsewhere
      (some ⟨"/logs/x.log"⟩) "00ff").result = .error (.notADirectory ⟨"/app"⟩) ∧
      (Failure.notADirectory ⟨"/app"⟩).Refusal ∧
      Refused {} spacious fileForApp (fileAsApp false) elsewhere (some ⟨"/logs/x.log"⟩) "00ff"
        (.notADirectory ⟨"/app"⟩) := by
  have h : (launch {} spacious fileForApp (fileAsApp false) elsewhere
      (some ⟨"/logs/x.log"⟩) "00ff").result = .error (.notADirectory ⟨"/app"⟩) := by rfl
  exact ⟨h, trivial, refused_launches h trivial⟩

/-- The log is left, whoever makes it, and the helper is asked for before the application is
refused. -/
theorem refused_too_late :
    (∀ logAsUser,
      launch {} spacious fileForApp (fileAsApp logAsUser) elsewhere (some ⟨"/logs/x.log"⟩) "00ff" =
        .failed
          (fileForApp.put ["logs", "x.log"]
            { content := .file "", mode := 0o640, owner := 65534, group := 65534 })
          (.notADirectory ⟨"/app"⟩)) ∧
    (launch {} { spacious with unstartable := [("sh", .notFound)] } fileForApp (fileAsApp true)
      elsewhere (some ⟨"/logs/x.log"⟩) "00ff").result = .error (.io .notFound) ∧
    ¬∀ (l : Launcher) (m : Machine) (files : Files) (app : AppSpec) (endpoint : Endpoint)
        (log : Option Path) (workerId : String) (failure : Failure),
      (l.launch m files app endpoint log workerId).result = .error failure →
      failure.Refusal → (l.launch m files app endpoint log workerId).files = files := by
  have hleft : ∀ logAsUser,
      launch {} spacious fileForApp (fileAsApp logAsUser) elsewhere (some ⟨"/logs/x.log"⟩) "00ff" =
        .failed
          (fileForApp.put ["logs", "x.log"]
            { content := .file "", mode := 0o640, owner := 65534, group := 65534 })
          (.notADirectory ⟨"/app"⟩) := by
    intro logAsUser
    cases logAsUser <;> rfl
  refine ⟨hleft, rfl, fun hclean => ?_⟩
  have hsame :=
    hclean {} spacious fileForApp (fileAsApp false) elsewhere (some ⟨"/logs/x.log"⟩) "00ff"
      (.notADirectory ⟨"/app"⟩) (by rw [hleft]; rfl) trivial
  rw [hleft] at hsame
  exact absurd hsame (by decide)

end Launcher

end Launch

end AppHost
