import AppHost.Launch.Attempt

/-!
# What a worker finds

A launch prepares two places in the file system: the worker's log, and the directory in which its
application saves state.

A worker's error stream goes to a file that belongs to the user it runs as. Either the host opens
the file and hands it over, or, for applications that ask for it, the file is made by a helper that
runs as that user, and the worker writes it itself.

Applications that save their state get a directory for each user below a common root. The root can
be passed through but not listed; what is below belongs to its user alone. What exists already is
left as it is.
-/

namespace AppHost.Launch

-- ---------------------------------------------------------------------------
-- Log files
-- ---------------------------------------------------------------------------

def logDirMode : Nat := 0o755

/-- Makes the directory of a log, unless it exists. Opening the file shows whether that worked. -/
def makeLogDir (files : Files) (c : Caller) (dir : Path) (account : Account) : Files :=
  match files.makeDir c dir logDirMode with
  | .error _ => files
  | .ok made =>
    match made.find c dir with
    | .error _ => made
    | .ok (place, _) => orUnchanged made (made.setOwner c place account)

def openLog (files : Files) (c : Caller) (path : Path) (account : Account) (mode : Nat) :
    Attempt Place :=
  let files := match path.parent with
    | some dir => makeLogDir files c dir account
    | none => files
  match files.openFile c path mode with
  | .error e => .failed files (.logFile path e.message)
  | .ok (files, place) =>
    let files := orUnchanged files (files.setOwner c place account)
    .ok (orUnchanged files (files.setMode c place mode)) place

def directoryOf (path : Path) : Path :=
  match path.parent with
  | some dir => if dir.text = "" then ⟨"."⟩ else dir
  | none => path

/-- What the helper does as the log's owner: it makes the directories, creates the file and sets
its bits. It stops where something fails. -/
def helperMakesLog (files : Files) (owner : Caller) (path : Path) (mode : Nat) : Files × Bool :=
  match files.makeAllDirs owner (directoryOf path) with
  | .error _ => (files, false)
  | .ok files =>
    let touched : Except IoError (Files × Place) :=
      match files.find owner path with
      | .ok (place, node) =>
        if node.ownedBy owner ∨ node.permits owner .write then .ok (files, place)
        else .error .permissionDenied
      | .error _ => files.openFile owner path 0o666
    match touched with
    | .error _ => (files, false)
    | .ok (files, place) =>
      match files.setMode owner place mode with
      | .error _ => (files, false)
      | .ok files => (files, true)

def makeLogAsUser (files : Files) (c : Caller) (shell : Option IoError) (path : Path)
    (account : Account) (mode : Nat) : Attempt Unit :=
  if !c.canBecome account then .failed files (.io .notPermitted)
  else match shell with
    | some e => .failed files (.io e)
    | none =>
      match helperMakesLog files (c.become account) path mode with
      | (files, true) => .ok files ()
      | (files, false) => .failed files (.logFile path "helper exited with exit status: 1")

def removeLog (files : Files) (remover : Option Caller) (path : Path) : Files :=
  match remover with
  | none => files
  | some c => if path.text = "/dev/null" then files else orUnchanged files (files.remove c path)

-- ---------------------------------------------------------------------------
-- Bookmark directories
-- ---------------------------------------------------------------------------

def bookmarkRootMode : Nat := 0o711

def bookmarkUserMode : Nat := 0o700

/-- Makes one directory and sets its bits, which the process's mask may have withheld. If an owner
is given the directory is handed over. Whatever stands at the path already will do. -/
def makeBookmarkDir (files : Files) (c : Caller) (dir : Path) (mode : Nat)
    (owner : Option Account) : Attempt Unit :=
  match files.makeDir c dir mode with
  | .ok made =>
    match made.find c dir with
    | .error _ => .ok made ()
    | .ok (place, _) =>
      let made := orUnchanged made (made.setMode c place mode)
      match owner with
      | none => .ok made ()
      | some account => .ok (orUnchanged made (made.setOwner c place account)) ()
  | .error e =>
    match files.find c dir with
    | .ok _ => .ok files ()
    | .error _ => .failed files (.bookmark dir e.message)

def makeBookmarkDirs (files : Files) (c : Caller) (root : Path) (account : Account) :
    Attempt Unit :=
  (makeBookmarkDir files c root bookmarkRootMode none).andThen fun files _ =>
    makeBookmarkDir files c (root.join account.name) bookmarkUserMode (some account)

end AppHost.Launch
