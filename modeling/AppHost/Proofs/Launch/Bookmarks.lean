import AppHost.Proofs.Files.Growth
import AppHost.Proofs.Launch.Outcome

/-!
# Bookmark directories, before and after

Preparing the bookmark directories of an account changes nothing that stands, and what it creates it
creates complete. `bookmark_dirs` tells for every state of the files what is left: on success
something stands at both paths, on failure at most the root is new.

What stands there already is not looked at. A file in the place of a directory counts as one
(`bookmark_dirs_taken`), and no other mistake is possible.
-/

namespace AppHost.Launch

open Files (nowhere)

variable {files : Files} {c : Caller} {root dir : Path} {account : Account} {mode : Nat}

/-- What preparing one directory comes to. -/
inductive Prepared (files : Files) (c : Caller) (dir : Path) (mode : Nat) :
    Attempt Unit → Prop where
  | made {place : Place} {node : Node} (hnone : files.get? place = none)
      (hcontent : node.content = .directory)
      (hmode : node.mode = mode &&& 0o7777)
        (hfound : (files.put place node).find c dir = .ok (place, node)) :
      Prepared files c dir mode (.ok (files.put place node) ())
  | stood {found : Place × Node} (hfound : files.find c dir = .ok found) :
      Prepared files c dir mode (.ok files ())
  | refused {e e' : IoError} (hmake : files.makeDir c dir mode = .error e)
      (hfound : files.find c dir = .error e') :
      Prepared files c dir mode (.failed files (.bookmark dir e.message))

theorem makeBookmarkDir_prepared (files : Files) (c : Caller) (dir : Path) (mode : Nat)
    (owner : Option Account) :
    Prepared files c dir mode (makeBookmarkDir files c dir mode owner) := by
  unfold makeBookmarkDir
  cases hmake : files.makeDir c dir mode with
  | error e =>
    cases hfound : files.find c dir with
    | ok found => exact .stood hfound
    | error e' => exact .refused hmake hfound
  | ok made =>
    obtain ⟨above, name, node, htarget, hnone, hcontent, howner, rfl⟩ := Files.makeDir_ok hmake
    -- Its maker may set the bits of a directory; whether it can be handed over does not matter
    -- here.
    have hset : (files.put (above ++ [name]) node).setMode c (above ++ [name]) mode =
        .ok (files.put (above ++ [name]) { node with mode := mode &&& 0o7777 }) := by
      simp [Files.setMode, Node.ownedBy, howner]
    have hmade : ∀ new : Node, new.content = .directory → new.mode = mode &&& 0o7777 →
        Prepared files c dir mode (.ok (files.put (above ++ [name]) new) ()) :=
          fun new hdirectory hmode =>
      .made hnone hdirectory hmode (Files.target_find htarget hnone hdirectory)
    simp only [Files.target_find htarget hnone hcontent, hset, orUnchanged]
    cases owner with
    | none => exact hmade _ hcontent rfl
    | some account =>
      dsimp only
      split
      · next given hgive =>
        simp only [Files.setOwner, Files.get?_put_self, Files.put_put] at hgive
        split at hgive
        · cases hgive
          exact hmade _ hcontent rfl
        · cases hgive
      · exact hmade _ hcontent rfl

namespace Prepared

variable {a : Attempt Unit}

theorem grows (h : Prepared files c dir mode a) : files.Grows nowhere a.files := by
  cases h with
  | made hnone hcontent => exact .put_new hnone (hcontent ▸ trivial)
  | stood => exact .refl _ _
  | refused => exact .refl _ _

theorem success (h : Prepared files c dir mode a) :
    a.result = .ok () ↔ ∃ found, a.files.find c dir = .ok found := by
  cases h with
  | made _ _ _ hfound => exact ⟨fun _ => ⟨_, hfound⟩, fun _ => rfl⟩
  | stood hfound => exact ⟨fun _ => ⟨_, hfound⟩, fun _ => rfl⟩
  | refused _ hfound => simp [Attempt.failed, hfound]

theorem created (h : Prepared files c dir mode a) :
    a.files = files ∨ ∃ place node, files.get? place = none ∧ node.content = .directory ∧
      node.mode = mode &&& 0o7777 ∧ a.files = files.put place node ∧
      a.files.find c dir = .ok (place, node) := by
  cases h with
  | made hnone hcontent hmode hfound => exact .inr ⟨_, _, hnone, hcontent, hmode, rfl, hfound⟩
  | stood => exact .inl rfl
  | refused => exact .inl rfl

theorem clear {place : Place} (h : Prepared files c dir mode a)
    (hclear : ∀ old, files.get? place = some old → old.isDirectory = true) {node : Node}
    (hnode : a.files.get? place = some node) : node.isDirectory = true := by
  obtain hsame | ⟨made, new, -, hcontent, -, hput, -⟩ := h.created
  · exact hclear node (hsame ▸ hnode)
  · rw [hput] at hnode
    by_cases heq : place = made
    · rw [heq, Files.get?_put_self] at hnode
      obtain rfl := Option.some.inj hnode
      simp [Node.isDirectory, hcontent]
    · exact hclear node (Files.get?_put_of_ne heq new ▸ hnode)

theorem reason {failure : Failure} (h : Prepared files c dir mode a)
    (herror : a.result = .error failure) :
    a.files = files ∧ ∃ e, failure = .bookmark dir e.message ∧
      files.makeDir c dir mode = .error e := by
  cases h with
  | made => cases herror
  | stood => cases herror
  | refused hmake => exact ⟨rfl, _, (Except.error.inj herror).symm, hmake⟩

end Prepared

/-- What is left of the files when the directories of an account have been asked for. -/
structure BookmarkDirs (files : Files) (c : Caller) (root : Path) (account : Account)
    (a : Attempt Unit) : Prop where
  /-- It succeeds if and only if both paths lead somewhere in the end. -/
  success : a.result = .ok () ↔
    ∀ dir ∈ [root, root.join account.name], ∃ found, a.files.find c dir = .ok found
  /-- They lead to directories, unless something else has stood there before. -/
  directory : a.result = .ok () → ∀ dir ∈ [root, root.join account.name], ∀ place node,
    a.files.find c dir = .ok (place, node) →
      (node.isDirectory = true ↔ ∀ old, files.get? place = some old → old.isDirectory = true)
  /-- What stands keeps its content, its mode and its owner, whatever comes of it. -/
  kept : ∀ place node, files.get? place = some node → a.files.get? place = some node
  /-- A failure leaves nothing new but the root, which has its bits. -/
  undone : ∀ failure, a.result = .error failure →
    a.files = files ∨ ∃ place node, files.get? place = none ∧
    node.content = .directory ∧ node.mode = 0o711 ∧ a.files = files.put place node ∧
      a.files.find c root = .ok (place, node)
  /-- It fails for a directory that could not be made. -/
  reason : ∀ failure, a.result = .error failure → ∃ dir ∈ [root, root.join account.name], ∃ mode e,
    failure = .bookmark dir e.message ∧ a.files.makeDir c dir mode = .error e

theorem BookmarkDirs.refused {e : IoError}
    (hmake : files.makeDir c root bookmarkRootMode = .error e)
    (hmissing : ¬∃ found, files.find c root = .ok found) :
    BookmarkDirs files c root account (.failed files (.bookmark root e.message)) where
  success := ⟨nofun, fun hall => absurd (hall root (by simp)) hmissing⟩
  directory := nofun
  kept _ _ hnode := hnode
  undone _ _ := .inl rfl
  reason failure hfailure :=
    ⟨root, by simp, bookmarkRootMode, e, (Except.error.inj hfailure).symm, hmake⟩

theorem BookmarkDirs.below {first second : Attempt Unit}
    (hroot : Prepared files c root bookmarkRootMode first) (hfirst : first.result = .ok ())
    (huser : Prepared first.files c (root.join account.name) bookmarkUserMode second) :
    BookmarkDirs files c root account second := by
  obtain ⟨⟨rootPlace, rootNode⟩, hfound⟩ := hroot.success.mp hfirst
  have hkept : ∀ place node, files.get? place = some node → second.files.get? place = some node :=
    fun _ _ hnode => huser.grows.same (hroot.grows.same hnode id) id
  refine {
    success := ?_
    directory := fun _ dir _ place node hdir => ⟨fun hnode old hold => ?_, fun hclear => ?_⟩
    kept := hkept
    undone := fun failure hfailure => ?_
    reason := fun failure hfailure => ?_ }
  · rw [huser.success]
    simp only [List.mem_cons, List.not_mem_nil, or_false, forall_eq_or_imp, forall_eq]
    exact (and_iff_right ⟨_, huser.grows.find_kept hfound⟩).symm
  · obtain rfl := Option.some.inj ((hkept _ _ hold).symm.trans (Files.find_ok.mp hdir).2.2.2)
    exact hnode
  · exact huser.clear (fun _ => hroot.clear hclear) (Files.find_ok.mp hdir).2.2.2
  · rw [(huser.reason hfailure).1]
    exact hroot.created
  · obtain ⟨hfiles, e, hreason, hmake⟩ := huser.reason hfailure
    exact ⟨_, by simp, bookmarkUserMode, e, hreason, hfiles ▸ hmake⟩

theorem bookmark_dirs (files : Files) (c : Caller) (root : Path) (account : Account) :
    BookmarkDirs files c root account (makeBookmarkDirs files c root account) := by
  have hroot := makeBookmarkDir_prepared files c root bookmarkRootMode none
  unfold makeBookmarkDirs
  generalize makeBookmarkDir files c root bookmarkRootMode none = first at hroot
  cases hfirst : first.result with
  | error failure =>
    obtain ⟨hfiles, e, rfl, hmake⟩ := hroot.reason hfirst
    have hmissing : ¬∃ found, files.find c root = .ok found := by
      rw [← hfiles, ← hroot.success, hfirst]
      nofun
    rw [Attempt.andThen, hfirst, hfiles]
    exact .refused hmake hmissing
  | ok u =>
    rw [Attempt.eq_ok hfirst, Attempt.ok_andThen]
    exact .below hroot hfirst (makeBookmarkDir_prepared ..)

def bookmarkHost : Caller := { uid := 0, gid := 0, privileged := true }

def visitor : Account := ⟨"alice", 1000, 1000, ⟨"/home/alice"⟩⟩

/-- A root for bookmarks in which somebody has put a file of the account's name. -/
def takenFiles : Files :=
  (({} : Files).put ["b"] { content := .directory, mode := 0o711, owner := 0, group := 0 }).put
    ["b", "alice"]
    { content := .file "", mode := 0o644, owner := 0, group := 0 }

/-- The launch goes on with a file for a directory. -/
theorem bookmark_dirs_taken :
    makeBookmarkDirs takenFiles bookmarkHost ⟨"/b"⟩ visitor = .ok takenFiles () ∧
      takenFiles.isDirectory bookmarkHost ((Path.mk "/b").join visitor.name) = false ∧
      ¬∀ (files : Files) (c : Caller) (root : Path) (account : Account),
        (makeBookmarkDirs files c root account).result = .ok () →
          (makeBookmarkDirs files c root account).files.isDirectory c root = true ∧
            (makeBookmarkDirs files c root account).files.isDirectory c
              (root.join account.name) = true := by
  have hmade : makeBookmarkDirs takenFiles bookmarkHost ⟨"/b"⟩ visitor = .ok takenFiles () := by rfl
  have hfile : takenFiles.isDirectory bookmarkHost ((Path.mk "/b").join visitor.name) = false := by
    rfl
  refine ⟨hmade, hfile, fun hall => ?_⟩
  have h := (hall takenFiles bookmarkHost ⟨"/b"⟩ visitor (congrArg Attempt.result hmade)).2
  rw [hmade] at h
  exact Bool.false_ne_true (hfile.symm.trans h)

end AppHost.Launch
