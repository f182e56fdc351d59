import AppHost.Proofs.Launch.Outcome

/-!
# Workers of the superuser

No worker is to run as the superuser. A launch goes by names for that: it refuses a host that is the
superuser and has the very name that the application asks for. `superuser_launches` tells what this
leaves: for a host of any other name, and be it another name of the superuser, the command is handed
to `su` as it is for every user.
-/

namespace AppHost.Launch

def Runner.uid (m : Machine) (r : Runner) : Nat :=
  if r.switchUser then r.account.uid else m.caller.uid

namespace Launcher

variable {l : Launcher} {m : Machine} {files : Files} {app : AppSpec} {endpoint : Endpoint}
  {log : Option Path} {workerId : String} {user : String} {account : Account}

/-- What becomes of a launch for an application that asks for this account, a superuser's. -/
structure SuperuserLaunches (l : Launcher) (m : Machine) (files : Files) (app : AppSpec)
    (endpoint : Endpoint) (log : Option Path) (workerId : String) (user : String)
    (account : Account) : Prop where
  /-- The superuser does not run the applications of its own name, and no file changes. -/
  refused : m.user? = some user → m.caller.uid = 0 →
    ∃ failure, l.launch m files app endpoint log workerId = .failed files failure
  reason : (l.launch m files app endpoint log workerId).result = .error .superuserLaunch ↔
    Ready m files app account ∧ m.user? = some user ∧ m.caller.uid = 0
  /-- Any other host is kept from it by nothing that would not keep it from running any
  application. -/
  started : ∀ p, (l.launch m files app endpoint log workerId).result = .ok p ↔
    Ready m files app account ∧ (m.user? = some user → m.caller.uid ≠ 0) ∧
      (l.carryOut m files app endpoint log workerId (m.runnerAs user account)).result = .ok p
  escalated : ∀ p, (l.launch m files app endpoint log workerId).result = .ok p →
    m.user? ≠ some user →
    p.command = (Command.adapter l.config app).asUser user app.appDir ∧
    (m.runnerAs user account).uid m = 0
  /-- What is started directly is not the superuser's. -/
  direct : ∀ p, (l.launch m files app endpoint log workerId).result = .ok p → m.user? = some user →
    p.command = Command.adapter l.config app ∧ (m.runnerAs user account).uid m ≠ 0

theorem superuser_launches (l : Launcher) (files : Files) (endpoint : Endpoint) (log : Option Path)
    (workerId : String) (h : accountFor m.accounts app = .ok (user, account))
    (hroot : account.uid = 0) :
    SuperuserLaunches l m files app endpoint log workerId user account := by
  have started : ∀ p, (l.launch m files app endpoint log workerId).result = .ok p ↔
      Ready m files app account ∧ (m.user? = some user → m.caller.uid ≠ 0) ∧
        (l.carryOut m files app endpoint log workerId (m.runnerAs user account)).result =
          .ok p := by
    intro p
    rw [launch_ok]
    constructor
    · rintro ⟨runner, hr, hp⟩
      obtain ⟨hready, hguard, rfl⟩ := (runnerFor_ok h).mp hr
      exact ⟨hready, hguard, hp⟩
    · rintro ⟨hready, hguard, hp⟩
      exact ⟨_, (runnerFor_ok h).mpr ⟨hready, hguard, rfl⟩, hp⟩
  have command : ∀ p, (l.launch m files app endpoint log workerId).result = .ok p →
      p.command = Command.forWorker l.config app user (m.user? ≠ some user) := by
    intro p hp
    obtain ⟨sink, rfl⟩ := carryOut_ok ((started p).mp hp).2.2
    rfl
  refine { refused := fun hname huid => ?_, reason := ?_, started,
           escalated := fun p hp hname => ?_, direct := fun p hp hname => ?_ }
  · rw [launch_eq]
    cases hr : runnerFor m files app with
    | error failure => exact ⟨failure, rfl⟩
    | ok runner => exact absurd huid (((runnerFor_ok h).mp hr).2.1 hname)
  · rw [launch_error, ← runnerFor_superuser h]
    constructor
    · rintro (hr | ⟨runner, -, hr⟩)
      · exact hr
      · exact (carryOut_underway hr).elim
    · exact .inl
  · rw [command p hp]
    simp [Command.forWorker, Runner.uid, Machine.runnerAs, hname, hroot]
  · rw [command p hp]
    simpa [Command.forWorker, Runner.uid, Machine.runnerAs,
      hname] using ((started p).mp hp).2.1 hname

def twoNames : Accounts :=
  [⟨"root", 0, 0, ⟨"/root"⟩⟩, ⟨"toor", 0, 0, ⟨"/root"⟩⟩, ⟨"alice", 1000, 1000, ⟨"/home/alice"⟩⟩]

def rootHost : Machine :=
  { accounts := twoNames, caller := { uid := 0, gid := 0, privileged := true } }

def aliceHost : Machine :=
  { accounts := twoNames, caller := { uid := 1000, gid := 1000, privileged := false } }

def appAs (user : String) : AppSpec where
  appDir := ⟨"/"⟩
  runAs := some (.user user)
  urlPrefix := "/"
  logDir := none
  settings := {}

def somewhere : Endpoint := { address := .port 41234, secret := "" }

theorem superuser_launches_toor :
    accountFor rootHost.accounts (appAs "toor") = .ok ("toor", ⟨"toor", 0, 0, ⟨"/root"⟩⟩) ∧
      SuperuserLaunches {} rootHost {} (appAs "toor") somewhere none "00ff" "toor" ⟨"toor", 0,
      0, ⟨"/root"⟩⟩ :=
  ⟨rfl, superuser_launches {} {} somewhere none "00ff" rfl rfl⟩

/-- Under its other name the superuser becomes what it may not be, and anybody may ask for
`root`. -/
theorem superuser_launched :
    accountFor rootHost.accounts (appAs "toor") = .ok ("toor", ⟨"toor", 0, 0, ⟨"/root"⟩⟩) ∧
    accountFor aliceHost.accounts (appAs "root") = .ok ("root", ⟨"root", 0, 0, ⟨"/root"⟩⟩) ∧
    (launch {} rootHost {} (appAs "toor") somewhere none "00ff").result.toOption.map
      Invocation.command =
      some ((Command.adapter {} (appAs "toor")).asUser "toor" ⟨"/"⟩) ∧
    (launch {} aliceHost {} (appAs "root") somewhere none "00ff").result.toOption.map
      Invocation.command =
      some ((Command.adapter {} (appAs "root")).asUser "root" ⟨"/"⟩) := by
  refine ⟨rfl, rfl, ?_, ?_⟩
  · decide +kernel
  · decide +kernel

end Launcher

end AppHost.Launch
