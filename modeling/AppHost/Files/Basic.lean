import AppHost.Account
import AppHost.OsError

/-!
# Files

What stands at each path, with its permission bits and its owner, and how the system finds its way
along a path. There are no links: a path's names lead down from the root, one directory at a time.

A caller follows a path only through directories it may search. What stops it first decides the
error: a name that is not there, something in the way that is no directory, a directory that is
closed to it, or a name that is too long.
-/

namespace AppHost

inductive Content where
  | directory
  | file (text : String)
  | socket
  deriving DecidableEq, Repr, Inhabited

structure Node where
  content : Content
  mode : Nat
  owner : Nat
  group : Nat
  deriving DecidableEq, Repr, Inhabited

inductive Access where
  | read
  | write
  | search
  deriving DecidableEq, Repr

def Access.bit : Access → Nat
  | .read => 2
  | .write => 1
  | .search => 0

namespace Node

def isDirectory (n : Node) : Bool := n.content = .directory

/-- One class of permissions applies: the owner's, the group's, or everybody else's. -/
def permits (n : Node) (c : Caller) (access : Access) : Bool :=
  c.privileged ||
    let shift := if n.owner = c.uid then 6 else if n.group = c.gid then 3 else 0
    n.mode.testBit (shift + access.bit)

def ownedBy (n : Node) (c : Caller) : Bool := c.privileged || n.owner = c.uid

end Node

abbrev Place := List String

structure Files where
  nodes : List (Place × Node) :=
    [([], { content := .directory, mode := 0o755, owner := 0, group := 0 })]
  deriving DecidableEq, Repr, Inhabited

namespace Files

def get? (fs : Files) (place : Place) : Option Node := fs.nodes.lookup place

def replaced (node : Node) (place : Place) : List (Place × Node) → List (Place × Node)
  | [] => []
  | entry :: rest =>
    if entry.1 = place then (place, node) :: rest else entry :: replaced node place rest

def put (fs : Files) (place : Place) (node : Node) : Files :=
  if (fs.get? place).isSome then { nodes := replaced node place fs.nodes }
  else { nodes := fs.nodes ++ [(place, node)] }

def erase (fs : Files) (place : Place) : Files := { nodes := fs.nodes.filter (·.1 ≠ place) }

theorem lookup_replaced_self {node : Node} {place : Place} {nodes : List (Place × Node)}
    (h : (nodes.lookup place).isSome) : (replaced node place nodes).lookup place = some node := by
  induction nodes with
  | nil => simp at h
  | cons entry rest ih =>
    rw [replaced]
    split
    · simp
    · next hne =>
      have hb : (place == entry.1) = false := by simpa using Ne.symm hne
      rw [List.lookup_cons, hb] at h ⊢
      exact ih h

theorem lookup_replaced_of_ne {node : Node} {place other : Place} (h : other ≠ place)
    (nodes : List (Place × Node)) :
    (replaced node place nodes).lookup other = nodes.lookup other := by
  induction nodes with
  | nil => rfl
  | cons entry rest ih =>
    rw [replaced]
    split
    · next he =>
      have hb : (other == place) = false := by simpa using h
      rw [List.lookup_cons, List.lookup_cons, he, hb]
    · rw [List.lookup_cons, List.lookup_cons, ih]

@[simp] theorem get?_put_self (fs : Files) (place : Place) (node : Node) :
    (fs.put place node).get? place = some node := by
  unfold put
  split
  · next h => exact lookup_replaced_self h
  · next h =>
    have hn : fs.nodes.lookup place = none := Option.not_isSome_iff_eq_none.1 h
    simp [get?, List.lookup_append, hn]

theorem get?_put_of_ne {fs : Files} {place other : Place} (h : other ≠ place) (node : Node) :
    (fs.put place node).get? other = fs.get? other := by
  unfold put
  split
  · exact lookup_replaced_of_ne h fs.nodes
  · have hb : (other == place) = false := by simpa using h
    simp [get?, List.lookup_append, List.lookup_cons, hb]

theorem replaced_replaced (first second : Node) (place : Place) (nodes : List (Place × Node)) :
    replaced second place (replaced first place nodes) = replaced second place nodes := by
  induction nodes with
  | nil => rfl
  | cons entry rest ih =>
    by_cases he : entry.1 = place
    · simp [replaced, he]
    · simp [replaced, he, ih]

theorem replaced_append {place : Place} {nodes : List (Place × Node)}
    (h : nodes.lookup place = none) (first second : Node) :
    replaced second place (nodes ++ [(place, first)]) = nodes ++ [(place, second)] := by
  induction nodes with
  | nil => simp [replaced]
  | cons entry rest ih =>
    have hne : entry.1 ≠ place := by
      rintro rfl
      simp at h
    have hb : (place == entry.1) = false := by simpa using Ne.symm hne
    rw [List.lookup_cons, hb] at h
    rw [List.cons_append, replaced, if_neg hne, ih h, List.cons_append]

@[simp] theorem put_put (fs : Files) (place : Place) (first second : Node) :
    (fs.put place first).put place second = fs.put place second := by
  rw [put, get?_put_self, Option.isSome_some, if_pos rfl]
  unfold put
  split
  · rw [replaced_replaced]
  · next h => rw [replaced_append (Option.not_isSome_iff_eq_none.1 h)]

@[simp] theorem get?_erase_self (fs : Files) (place : Place) :
    (fs.erase place).get? place = none := by
  unfold erase get?
  induction fs.nodes with
  | nil => rfl
  | cons entry rest ih =>
    by_cases he : entry.1 = place
    · rw [List.filter_cons_of_neg (by simpa using he)]
      exact ih
    · have hb : (place == entry.1) = false := by simpa using Ne.symm he
      rw [List.filter_cons_of_pos (by simpa using he), List.lookup_cons, hb]
      exact ih

def children (fs : Files) (place : Place) : List String :=
  (fs.nodes.filterMap fun entry =>
    match entry.1.reverse with
    | [] => none
    | name :: above => if above.reverse = place then some name else none).mergeSort

end Files

/-! ## Paths that the system accepts -/

def maxNameBytes : Nat := 255

def maxPathBytes : Nat := 4095

namespace IoError

def nameTooLong : IoError := .os 36
def notPermitted : IoError := .os 1
def noSuchDevice : IoError := .os 6

end IoError

namespace Path

/-- A path that names nothing, or that cannot be handed to the system. -/
def acceptable (p : Path) : Except IoError Unit :=
  if p.text.toList.contains '\x00' then .error (.other "file name contained an unexpected NUL byte")
  else if p.text = "" then .error .notFound
  else if maxPathBytes < p.text.utf8ByteSize then .error .nameTooLong
  else .ok ()

def names (p : Path) : List String := (p.segments.filter (· ≠ [])).map String.ofList

/-- A path that ends in a slash has to lead to a directory. -/
def endsInSlash (p : Path) : Bool := p.text.toList.getLast? = some '/'

def start (p : Path) (c : Caller) : Place := if p.isAbsolute then [] else c.workDir

end Path

namespace Files

def searchable (fs : Files) (c : Caller) (place : Place) : Except IoError Unit :=
  match fs.get? place with
  | none => .error .notFound
  | some node =>
    if !node.isDirectory then .error .notADirectory
    else if !node.permits c .search then .error .permissionDenied
    else .ok ()

def step (fs : Files) (c : Caller) (place : Place) (name : String) : Except IoError Place := do
  fs.searchable c place
  if name = "." then return place
  else if name = ".." then return place.dropLast
  else if maxNameBytes < name.utf8ByteSize then throw .nameTooLong
  else if (fs.get? (place ++ [name])).isSome then return place ++ [name]
  else throw .notFound

def walk (fs : Files) (c : Caller) (place : Place) (names : List String) : Except IoError Place :=
  names.foldlM (fs.step c) place

def find (fs : Files) (c : Caller) (p : Path) : Except IoError (Place × Node) := do
  p.acceptable
  let place ← fs.walk c (p.start c) p.names
  match fs.get? place with
  -- A slash at the end asks for a directory, but not for leave to search it.
  | some node =>
    if p.endsInSlash && !node.isDirectory then throw .notADirectory else return (place, node)
  | none => throw .notFound

def isDirectory (fs : Files) (c : Caller) (p : Path) : Bool :=
  match fs.find c p with
  | .ok (_, node) => node.isDirectory
  | .error _ => false

/-- Where a path's last name would stand: its directory and the name. There is no name if the path
ends at the root or in dots. -/
def target (fs : Files) (c : Caller) (p : Path) : Except IoError (Place × Option String) := do
  p.acceptable
  match p.names.reverse with
  | [] => return (p.start c, none)
  | last :: above =>
    let dir ← fs.walk c (p.start c) above.reverse
    fs.searchable c dir
    if last = "." ∨ last = ".." then return (dir, none)
    else if maxNameBytes < last.utf8ByteSize then throw .nameTooLong
    else return (dir, some last)

def canChange (fs : Files) (c : Caller) (place : Place) : Bool :=
  (fs.get? place).any fun node => node.permits c .write && node.permits c .search

end Files

end AppHost
