import AppHost.Files.Basic

/-!
# Changing files

The operations on files that the host uses. Each takes the files as they are and gives the files as
they become, or the error for which nothing was done.
-/

namespace AppHost.Files

def without (mode mask : Nat) : Nat := mode - (mode &&& mask)

def setUidBit : Nat := 0o4000
def setGidBit : Nat := 0o2000
def groupRunBit : Nat := 0o0010

def makeDir (fs : Files) (c : Caller) (p : Path) (mode : Nat) : Except IoError Files := do
  let (dir, name?) ← fs.target c p
  let some name := name? | throw .alreadyExists
  if (fs.get? (dir ++ [name])).isSome then throw .alreadyExists
  if !fs.canChange c dir then throw .permissionDenied
  return fs.put (dir ++ [name])
    { content := .directory, mode := without (mode &&& 0o1777) c.umask, owner := c.uid,
      group := c.gid }

def makeDirs (fs : Files) (c : Caller) (p : Path) : (fuel : Nat) → Except IoError Files
  | 0 => .error .notFound
  | fuel + 1 =>
    if p.text = "" then .ok fs
    else match fs.makeDir c p 0o777 with
      | .ok fs => .ok fs
      | .error e =>
        if e = .notFound then
          match p.parent with
          | none => .error (.other "failed to create whole tree")
          | some above => do
            let fs ← fs.makeDirs c above fuel
            match fs.makeDir c p 0o777 with
            | .ok fs => return fs
            | .error e => if fs.isDirectory c p then return fs else throw e
        else if fs.isDirectory c p then .ok fs
        else .error e

/-- Makes a directory with its parents; a path has fewer of them than characters. -/
def makeAllDirs (fs : Files) (c : Caller) (p : Path) : Except IoError Files :=
  fs.makeDirs c p (p.text.length + 1)

def openFile (fs : Files) (c : Caller) (p : Path) (mode : Nat) :
    Except IoError (Files × Place) := do
  let (dir, name?) ← fs.target c p
  let some name := name? | throw .isADirectory
  if p.endsInSlash then throw .isADirectory
  let place := dir ++ [name]
  match fs.get? place with
  | some node =>
    match node.content with
    | .directory => throw .isADirectory
    | .socket => throw .noSuchDevice
    | .file _ => if node.permits c .write then return (fs, place) else throw .permissionDenied
  | none =>
    if !fs.canChange c dir then throw .permissionDenied
    return (fs.put place
      { content := .file "", mode := without (mode &&& 0o7777) c.umask,
        owner := c.uid, group := c.gid }, place)

/-- What a file's mode becomes when somebody writes to it who might misuse the rights it lends to
those who run it. -/
def writtenMode (c : Caller) (mode : Nat) : Nat :=
  if c.privileged then mode
  else
    let mode := without mode setUidBit
    if mode &&& groupRunBit ≠ 0 then without mode setGidBit else mode

def write (fs : Files) (c : Caller) (place : Place) (change : String → String) : Files :=
  match fs.get? place with
  | some { content := .file text, mode, owner, group } =>
    fs.put place { content := .file (change text), mode := writtenMode c mode, owner, group }
  | _ => fs

def append (fs : Files) (c : Caller) (place : Place) (text : String) : Files :=
  if text = "" then fs else fs.write c place (· ++ text)

def setMode (fs : Files) (c : Caller) (place : Place) (mode : Nat) : Except IoError Files :=
  match fs.get? place with
  | none => .error .notFound
  | some node =>
    if node.ownedBy c then .ok (fs.put place { node with mode := mode &&& 0o7777 })
    else .error .notPermitted

/-- Gives a node to an account. Without privilege one can only keep what one has. -/
def setOwner (fs : Files) (c : Caller) (place : Place) (a : Account) : Except IoError Files :=
  match fs.get? place with
  | none => .error .notFound
  | some node =>
    if c.privileged ∨
      (node.owner = c.uid ∧ a.uid = node.owner ∧ (a.gid = node.group ∨ a.gid = c.gid)) then
      .ok (fs.put place { node with owner := a.uid, group := a.gid })
    else .error .notPermitted

def remove (fs : Files) (c : Caller) (p : Path) : Except IoError Files := do
  let (dir, name?) ← fs.target c p
  let some name := name? | throw .isADirectory
  let place := dir ++ [name]
  match fs.get? place with
  | none => throw .notFound
  | some node =>
    if !fs.canChange c dir then throw .permissionDenied
    if node.isDirectory then throw .isADirectory
    if p.endsInSlash then throw .notADirectory
    return fs.erase place

def readText (fs : Files) (c : Caller) (p : Path) : Except IoError String := do
  let (_, node) ← fs.find c p
  if !node.permits c .read then throw .permissionDenied
  match node.content with
  | .file text => return text
  | .directory => throw .isADirectory
  | .socket => throw .noSuchDevice

/-! ## Listing -/

structure Listed where
  names : List String
  node : Node
  deriving Repr

/-- Everything below a directory, if the caller may look at all of it: it has to read directories
and files, and to search directories that are not empty. -/
def listBelow (fs : Files) (c : Caller) (place : Place) (names : List String) :
    (fuel : Nat) → Option (List Listed)
  | 0 => some []
  | fuel + 1 => do
    let node ← fs.get? place
    if !node.permits c .read then none
    let children := fs.children place
    if !children.isEmpty && !node.permits c .search then none
    let parts ← children.mapM fun name => do
      let child ← fs.get? (place ++ [name])
      let names := names ++ [name]
      match child.content with
      | .directory =>
        return { names, node := child } :: (← fs.listBelow c (place ++ [name]) names fuel)
      | .file _ => if child.permits c .read then some [{ names, node := child }] else none
      | .socket => return [{ names, node := child }]
    return parts.flatten

def list (fs : Files) (c : Caller) (place : Place) : Option (List Listed) :=
  fs.listBelow c place [] (fs.nodes.length + 1)

end AppHost.Files
