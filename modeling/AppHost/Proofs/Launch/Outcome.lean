import AppHost.Launch.Launcher

/-!
# What becomes of a launch

A launch asks all its questions before it changes anything. `Inquiry` lists what they can find out;
`Launcher.carryOut` is what is done once they are answered, and it fails for reasons of its own.
-/

namespace AppHost

/-- What can go wrong once a launch has begun to change things. -/
def Failure.Underway : Failure → Prop
  | .logFile .. | .notADirectory _ | .bookmark .. | .spawn _ | .io _ => True
  | _ => False

namespace Launch

-- ---------------------------------------------------------------------------
-- Attempts
-- ---------------------------------------------------------------------------

namespace Attempt

variable {a : Attempt α} {next : Files → α → Attempt β}

theorem eq_ok {v : α} (h : a.result = .ok v) : a = .ok a.files v := by
  cases a
  cases h
  rfl

theorem andThen_ok {v : β} :
    (a.andThen next).result = .ok v ↔ ∃ u, a.result = .ok u ∧ (next a.files u).result = .ok v := by
  unfold andThen
  cases a.result <;> simp [failed]

theorem andThen_error {failure : Failure} :
    (a.andThen next).result = .error failure ↔
      a.result = .error failure ∨ ∃ u, a.result = .ok u ∧
      (next a.files u).result = .error failure := by
  unfold andThen
  cases a.result <;> simp [failed]

end Attempt

-- ---------------------------------------------------------------------------
-- The questions
-- ---------------------------------------------------------------------------

/-- Nothing is in the way of running the application as the account. -/
structure Ready (m : Machine) (files : Files) (app : AppSpec) (account : Account) : Prop where
  home : account.hasHome = true
  dir : app.appDir.text ≠ ""
  found : ∃ v, files.find m.caller app.appDir = .ok v

def Machine.runnerAs (m : Machine) (user : String) (account : Account) : Runner where
  user
  account
  switchUser := m.user? ≠ some user

inductive Inquiry (m : Machine) (files : Files) (app : AppSpec) : Except Failure Runner → Prop where
  | unaccounted {failure : Failure} (h : accountFor m.accounts app = .error failure) :
      Inquiry m files app (.error failure)
  | homeless {user : String} {account : Account}
      (h : accountFor m.accounts app = .ok (user, account))
      (hhome : account.hasHome = false) : Inquiry m files app (.error (.noHomeDirectory user))
  | nowhere {user : String} {account : Account}
      (h : accountFor m.accounts app = .ok (user, account))
      (hdir : app.appDir.text = "") : Inquiry m files app (.error .noAppDir)
  | missing {user : String} {account : Account} {e : IoError}
      (h : accountFor m.accounts app = .ok (user, account))
      (hfound : files.find m.caller app.appDir = .error e) :
        Inquiry m files app (.error (.appDirNotFound app.appDir))
  | superuser {user : String} {account : Account}
      (h : accountFor m.accounts app = .ok (user, account))
      (hready : Ready m files app account) (hname : m.user? = some user)
        (hroot : m.caller.uid = 0) :
      Inquiry m files app (.error .superuserLaunch)
  | answered {user : String} {account : Account}
      (h : accountFor m.accounts app = .ok (user, account))
      (hready : Ready m files app account) (hguard : m.user? = some user → m.caller.uid ≠ 0) :
      Inquiry m files app (.ok (m.runnerAs user account))

theorem inquiry (m : Machine) (files : Files) (app : AppSpec) :
    Inquiry m files app (runnerFor m files app) := by
  unfold runnerFor
  cases h : accountFor m.accounts app with
  | error failure => exact .unaccounted h
  | ok v =>
    obtain ⟨user, account⟩ := v
    simp only [bind, Except.bind, pure, Except.pure, throw, throwThe, MonadExceptOf.throw]
    cases hhome : account.hasHome with
    | false => exact .homeless h hhome
    | true =>
      by_cases hdir : app.appDir.text = ""
      · have hnowhere : Inquiry m files app (.error .noAppDir) := .nowhere h hdir
        simpa [hdir] using hnowhere
      · cases hfound : files.find m.caller app.appDir with
        | error e => simpa [hdir] using Inquiry.missing h hfound
        | ok v =>
          have hready : Ready m files app account := ⟨hhome, hdir, v, hfound⟩
          by_cases hguard : m.user? = some user ∧ m.caller.uid = 0
          · simpa [hdir, hguard.1, Caller.isSuperuser, hguard.2] using Inquiry.superuser h hready
              hguard.1 hguard.2
          · have := Inquiry.answered h hready fun hname hroot => hguard ⟨hname, hroot⟩
            simpa [hdir, Caller.isSuperuser, hguard, Machine.runnerAs] using this

variable {m : Machine} {files : Files} {app : AppSpec} {user : String} {account : Account}

theorem runnerFor_of_ready (h : accountFor m.accounts app = .ok (user, account))
    (hready : Ready m files app account) :
    runnerFor m files app =
      if m.user? = some user ∧ m.caller.uid = 0 then .error .superuserLaunch
      else .ok (m.runnerAs user account) := by
  have hinquiry := inquiry m files app
  generalize runnerFor m files app = r at hinquiry
  cases hinquiry with
  | unaccounted h' => cases h.symm.trans h'
  | homeless h' hhome =>
    cases h.symm.trans h'
    simp [hready.home] at hhome
  | nowhere _ hdir => exact absurd hdir hready.dir
  | missing _ hfound =>
    obtain ⟨v, hv⟩ := hready.found
    cases hv.symm.trans hfound
  | superuser h' _ hname hroot =>
    cases h.symm.trans h'
    exact (if_pos ⟨hname, hroot⟩).symm
  | answered h' _ hguard =>
    cases h.symm.trans h'
    exact (if_neg fun hself => hguard hself.1 hself.2).symm

theorem runnerFor_ok (h : accountFor m.accounts app = .ok (user, account)) {runner : Runner} :
    runnerFor m files app = .ok runner ↔
      Ready m files app account ∧ (m.user? = some user → m.caller.uid ≠ 0) ∧
      runner = m.runnerAs user account := by
  constructor
  · intro hr
    have hinquiry := inquiry m files app
    rw [hr] at hinquiry
    cases hinquiry with
    | answered h' hready hguard =>
      cases h.symm.trans h'
      exact ⟨hready, hguard, rfl⟩
  · rintro ⟨hready, hguard, rfl⟩
    rw [runnerFor_of_ready h hready, if_neg fun hself => hguard hself.1 hself.2]

theorem runnerFor_superuser (h : accountFor m.accounts app = .ok (user, account)) :
    runnerFor m files app = .error .superuserLaunch ↔
      Ready m files app account ∧ m.user? = some user ∧ m.caller.uid = 0 := by
  constructor
  · intro hr
    have hinquiry := inquiry m files app
    rw [hr] at hinquiry
    cases hinquiry with
    | unaccounted h' => cases h.symm.trans h'
    | superuser h' hready hname hroot =>
      cases h.symm.trans h'
      exact ⟨hready, hname, hroot⟩
  · rintro ⟨hready, hself⟩
    rw [runnerFor_of_ready h hready, if_pos hself]

/-- An application that names no account names no user, or one that nobody has. -/
theorem accountFor_error {accounts : Accounts} {app : AppSpec} {failure : Failure}
    (h : accountFor accounts app = .error failure) :
    failure = .noRunAs ∨ (∃ users, failure = .unresolvedRunAs users) ∨
      ∃ user, failure = .userNotFound user := by
  unfold accountFor at h
  cases huser : app.runAsUser with
  | error e =>
    obtain rfl : e = failure := by simpa [huser, bind, Except.bind] using h
    unfold AppSpec.runAsUser at huser
    split at huser
    · exact .inl (Except.error.inj huser).symm
    · split at huser
      · exact .inl (Except.error.inj huser).symm
      · simp at huser
    · exact .inr (.inl ⟨_, (Except.error.inj huser).symm⟩)
  | ok user =>
    cases hn : accounts.named? user with
    | none =>
      refine .inr (.inr ⟨user, ?_⟩)
      simpa [huser, hn, bind, Except.bind, throw, throwThe, MonadExceptOf.throw, eq_comm] using h
    | some account => simp [huser, hn, bind, Except.bind, pure, Except.pure] at h

-- ---------------------------------------------------------------------------
-- What is done once they are answered
-- ---------------------------------------------------------------------------

def Launcher.carryOut (l : Launcher) (m : Machine) (files : Files) (app : AppSpec)
    (endpoint : Endpoint) (log : Option Path) (workerId : String) (runner : Runner) :
    Attempt Invocation :=
  (prepareLog m files app runner.account log).andThen fun files sink =>
    (checkAppDir m files app).andThen fun files _ =>
      (prepareBookmarks m files app runner.account).andThen fun files _ =>
        start m files (l.invocation m app endpoint workerId runner sink)

variable {failure : Failure}

theorem prepareLog_error {log : Option Path}
    (h : (prepareLog m files app account log).result = .error failure) :
    (∃ path reason, failure = .logFile path reason) ∨ ∃ e, failure = .io e := by
  unfold prepareLog at h
  split at h
  · cases h
  · dsimp only at h
    split at h
    · obtain h | ⟨_, -, h⟩ := Attempt.andThen_error.mp h
      · unfold makeLogAsUser at h
        repeat' split at h
        all_goals cases h <;> simp
      · cases h
    · obtain h | ⟨_, -, h⟩ := Attempt.andThen_error.mp h
      · unfold openLog at h
        dsimp only at h
        split at h <;> cases h
        simp
      · cases h

theorem checkAppDir_error (h : (checkAppDir m files app).result = .error failure) :
    (∃ e, failure = .io e) ∨ failure = .notADirectory app.appDir := by
  unfold checkAppDir at h
  repeat' split at h
  all_goals cases h <;> simp

theorem makeBookmarkDir_error {c : Caller} {dir : Path} {mode : Nat} {owner : Option Account}
    (h : (makeBookmarkDir files c dir mode owner).result = .error failure) :
    ∃ path reason, failure = .bookmark path reason := by
  unfold makeBookmarkDir at h
  repeat' split at h
  all_goals cases h <;> simp

theorem prepareBookmarks_error
    (h : (prepareBookmarks m files app account).result = .error failure) :
    ∃ path reason, failure = .bookmark path reason := by
  unfold prepareBookmarks makeBookmarkDirs at h
  repeat' split at h
  · cases h
  · cases h
  · obtain h | ⟨_, -, h⟩ := Attempt.andThen_error.mp h
    · exact makeBookmarkDir_error h
    · exact makeBookmarkDir_error h

theorem start_error {p : Invocation} (h : (start m files p).result = .error failure) :
    ∃ reason, failure = .spawn reason := by
  unfold start at h
  split at h <;> cases h
  exact ⟨_, rfl⟩

theorem start_ok {p q : Invocation} (h : (start m files p).result = .ok q) : q = p := by
  unfold start at h
  split at h <;> cases h
  rfl

namespace Launcher

variable {l : Launcher} {endpoint : Endpoint} {log : Option Path} {workerId : String}
  {runner : Runner}

theorem launch_eq (l : Launcher) (m : Machine) (files : Files) (app : AppSpec) (endpoint : Endpoint)
    (log : Option Path) (workerId : String) :
    l.launch m files app endpoint log workerId =
      match runnerFor m files app with
      | .error failure => .failed files failure
      | .ok runner => l.carryOut m files app endpoint log workerId runner := rfl

theorem launch_ok {p : Invocation} :
    (l.launch m files app endpoint log workerId).result = .ok p ↔
      ∃ runner, runnerFor m files app = .ok runner ∧
        (l.carryOut m files app endpoint log workerId runner).result = .ok p := by
  rw [launch_eq]
  cases runnerFor m files app <;> simp [Attempt.failed]

theorem launch_error :
    (l.launch m files app endpoint log workerId).result = .error failure ↔
      runnerFor m files app = .error failure ∨ ∃ runner, runnerFor m files app = .ok runner ∧
        (l.carryOut m files app endpoint log workerId runner).result = .error failure := by
  rw [launch_eq]
  cases runnerFor m files app <;> simp [Attempt.failed]

theorem carryOut_underway
    (h : (l.carryOut m files app endpoint log workerId runner).result = .error failure) :
    failure.Underway := by
  obtain h | ⟨sink, -, h⟩ := Attempt.andThen_error.mp h
  · obtain ⟨path, reason, rfl⟩ | ⟨e, rfl⟩ := prepareLog_error h <;> trivial
  obtain h | ⟨_, -, h⟩ := Attempt.andThen_error.mp h
  · obtain ⟨e, rfl⟩ | rfl := checkAppDir_error h <;> trivial
  obtain h | ⟨_, -, h⟩ := Attempt.andThen_error.mp h
  · obtain ⟨path, reason, rfl⟩ := prepareBookmarks_error h
    trivial
  · obtain ⟨reason, rfl⟩ := start_error h
    trivial

/-- What cannot go wrong underway has to be found out before. -/
theorem launch_error_first (h : ¬failure.Underway) :
    (l.launch m files app endpoint log workerId).result = .error failure ↔
      runnerFor m files app = .error failure := by
  rw [launch_error]
  constructor
  · rintro (hr | ⟨runner, -, hcarry⟩)
    · exact hr
    · exact absurd (carryOut_underway hcarry) h
  · exact .inl

theorem carryOut_ok {p : Invocation}
    (h : (l.carryOut m files app endpoint log workerId runner).result = .ok p) :
    ∃ sink, p = l.invocation m app endpoint workerId runner sink := by
  obtain ⟨sink, -, h⟩ := Attempt.andThen_ok.mp h
  obtain ⟨_, -, h⟩ := Attempt.andThen_ok.mp h
  obtain ⟨_, -, h⟩ := Attempt.andThen_ok.mp h
  exact ⟨sink, start_ok h⟩

end Launcher

end Launch

end AppHost
