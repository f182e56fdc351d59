import AppHost.Files.Change

/-!
# A machine to run on

The accounts and files of a bare machine, and a directory for a script to work in, which the script
furnishes. Everything is done as a superuser that lacks a superuser's privileges.
-/

namespace AppHost.Simulation

def host : Caller := { uid := 0, gid := 0, privileged := false }

def accounts : Accounts := [
  { name := "root", uid := 0, gid := 0, home := ⟨"/root"⟩ },
  { name := "daemon", uid := 1, gid := 1, home := ⟨"/usr/sbin"⟩ },
  { name := "nobody", uid := 65534, gid := 65534, home := ⟨"/nonexistent"⟩ }]

def workDir : Path := ⟨"/tmp/.tmpq7Xw2k"⟩

def rootNode (content : Content) (mode : Nat) : Node := { content, mode, owner := 0, group := 0 }

def bareFiles : Files :=
  let dirs :=
    [["bin"], ["dev"], ["etc"], ["home"], ["proc"], ["root"], ["run"], ["sys"], ["tmp"], ["usr"],
      ["usr", "bin"], ["usr", "lib"], ["usr", "sbin"], ["var"], ["var", "lib"], ["var", "log"],
      workDir.names]
  let made := dirs.foldl (fun fs place => Files.put fs place (rootNode .directory 0o755)) {}
  made.put ["dev", "null"] (rootNode (.file "") 0o666)

/-- Something a script puts in place. Directories above it are made. -/
inductive Furnishing where
  | dir (path : Path) (mode : Nat)
  | file (path : Path) (mode : Nat) (text : String)
  deriving Repr

def setModeAt (fs : Files) (p : Path) (mode : Nat) : Except IoError Files := do
  let (place, _) ← fs.find host p
  fs.setMode host place mode

def furnish (fs : Files) : Furnishing → Except IoError Files
  | .dir path mode => do setModeAt (← fs.makeAllDirs host path) path mode
  | .file path mode text => do
    let fs ← fs.makeAllDirs host (path.parent.getD ⟨""⟩)
    let (fs, place) ← fs.openFile host path 0o666
    setModeAt (fs.write host place fun _ => text) path mode

def workTree (fs : Files) : Option (List Files.Listed) := fs.list host workDir.names

end AppHost.Simulation
