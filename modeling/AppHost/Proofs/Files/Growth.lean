import AppHost.Files.Change
import Mathlib.Tactic.SplitIfs

/-!
# Files that only grow

Preparing a launch adds directories and files and hands them over; it removes nothing and writes
nothing. `Grows own fs fs'` says so of the files before and after, with the places whose mode and
owner may change, and each operation that creates something is shown to be of that kind.

Where a path leads does not change then, as long as the places that may change are no directories
(`Grows.walk_ok`): all the caller could search it can still search.
-/

namespace AppHost

def Content.Blank : Content → Prop
  | .directory => True
  | .file text => text = ""
  | .socket => False

namespace Files

section Answers

variable {e : IoError} {x : Except IoError α} {f : α → Except IoError β} {v : α} {w : β}

theorem bind_ok : (x >>= f) = .ok w ↔ ∃ v, x = .ok v ∧ f v = .ok w := by
  cases x <;> simp [bind, Except.bind]

theorem check_ok {x : Except IoError Unit} {f : Unit → Except IoError β} :
    (x >>= f) = .ok w ↔ x = .ok () ∧ f () = .ok w := by
  cases x <;> simp [bind, Except.bind]

theorem pure_ok {u : α} : (pure u : Except IoError α) = .ok v ↔ u = v := by
  simp [pure, Except.pure]

theorem throw_ok : (throw e : Except IoError α) = .ok v ↔ False := by
  simp [throw, throwThe, MonadExceptOf.throw]

theorem throw_bind : (throw e >>= f : Except IoError β) = throw e := rfl

theorem throw_unless_ok {r : Prop} [Decidable r] :
    (if r then throw e else x) = .ok v ↔ ¬ r ∧ x = .ok v := by
  split <;> simp [throw_ok, *]

end Answers

/-- Nothing is lost and nothing is written. -/
structure Grows (own : Place → Prop) (fs fs' : Files) : Prop where
  kept : ∀ {place node}, fs.get? place = some node →
    ∃ node', fs'.get? place = some node' ∧ node'.content = node.content
  /-- Modes and owners change at the given places only. -/
  same : ∀ {place node}, fs.get? place = some node → ¬ own place → fs'.get? place = some node
  added : ∀ {place node}, fs.get? place = none → fs'.get? place = some node → node.content.Blank

abbrev nowhere : Place → Prop := fun _ => False

variable {own own' : Place → Prop} {fs fs' fs'' : Files} {c : Caller} {p : Path} {place dir : Place}
  {node node' : Node} {name : String} {mode : Nat}

namespace Grows

theorem refl (own : Place → Prop) (fs : Files) : fs.Grows own fs where
  kept h := ⟨_, h, rfl⟩
  same h _ := h
  added h h' := by simp [h] at h'

theorem trans (h : fs.Grows own fs') (h' : fs'.Grows own fs'') : fs.Grows own fs'' where
  kept hnode := by
    obtain ⟨node, hnode, hcontent⟩ := h.kept hnode
    obtain ⟨node', hnode', hcontent'⟩ := h'.kept hnode
    exact ⟨node', hnode', hcontent'.trans hcontent⟩
  same hnode hown := h'.same (h.same hnode hown) hown
  added {place node} hnone hnode := by
    cases hmid : fs'.get? place with
    | none => exact h'.added hmid hnode
    | some mid =>
      obtain ⟨node', hnode', hcontent⟩ := h'.kept hmid
      obtain rfl : node' = node := Option.some.inj (hnode'.symm.trans hnode)
      exact hcontent ▸ h.added hnone hmid

/-- Only what stood before counts among the places that may change. -/
theorem mono (h : fs.Grows own fs')
    (hown : ∀ place, (fs.get? place).isSome → own place → own' place) : fs.Grows own' fs' where
  kept := h.kept
  same hnode hnot := h.same hnode fun howned => hnot (hown _ (by simp [hnode]) howned)
  added := h.added

theorem weaken (h : fs.Grows nowhere fs') : fs.Grows own fs' := h.mono fun _ _ => False.elim

theorem put_new (hnone : fs.get? place = none) (hblank : node.content.Blank) :
    fs.Grows own (fs.put place node) := by
  have hne {other : Place} {n : Node} (h : fs.get? other = some n) : other ≠ place := by
    rintro rfl
    simp [hnone] at h
  refine { kept := fun h => ⟨_, (get?_put_of_ne (hne h) node).trans h, rfl⟩,
           same := fun h _ => (get?_put_of_ne (hne h) node).trans h,
           added := fun {other n} h h' => ?_ }
  by_cases heq : other = place
  · subst heq
    obtain rfl : node = n := by simpa using h'
    exact hblank
  · simp [get?_put_of_ne heq, h] at h'

theorem put_own (hnode : fs.get? place = some node) (hcontent : node'.content = node.content)
    (hown : own place) : fs.Grows own (fs.put place node') := by
  refine { kept := fun {other n} h => ?_, same := fun {other n} h hnot => ?_,
           added := fun {other n} h h' => ?_ }
  · by_cases heq : other = place
    · subst heq
      obtain rfl : node = n := Option.some.inj (hnode.symm.trans h)
      exact ⟨node', get?_put_self .., hcontent⟩
    · exact ⟨n, (get?_put_of_ne heq _).trans h, rfl⟩
  · have hne : other ≠ place := fun heq => hnot (heq ▸ hown)
    exact (get?_put_of_ne hne _).trans h
  · have hne : other ≠ place := by
      rintro rfl
      simp [hnode] at h
    simp [get?_put_of_ne hne, h] at h'

end Grows

-- ---------------------------------------------------------------------------
-- Finding the way
-- ---------------------------------------------------------------------------

theorem searchable_ok :
    fs.searchable c place = .ok () ↔
      ∃ node, fs.get? place = some node ∧ node.isDirectory = true ∧
      node.permits c .search = true := by
  unfold searchable
  cases hnode : fs.get? place with
  | none => simp
  | some node =>
    cases hdir : node.isDirectory <;> cases hopen : node.permits c .search <;> simp [hdir, hopen]

theorem step_ok :
    fs.step c dir name = .ok place ↔ fs.searchable c dir = .ok () ∧
    if name = "." then place = dir
    else if name = ".." then place = dir.dropLast
    else name.utf8ByteSize ≤ maxNameBytes ∧ (fs.get? (dir ++ [name])).isSome ∧
    place = dir ++ [name] := by
  unfold step
  rw [check_ok]
  refine and_congr_right fun _ => ?_
  split_ifs
  · rw [pure_ok, eq_comm]
  · rw [pure_ok, eq_comm]
  · grind
  · rw [pure_ok]
    grind
  · grind

theorem walk_append (fs : Files) (c : Caller) (place : Place) (above below : List String) :
    fs.walk c place (above ++ below) = fs.walk c place above >>= fun dir =>
      fs.walk c dir below := by
  simp [walk, List.foldlM_append]

theorem find_ok :
    fs.find c p = .ok (place, node) ↔
      p.acceptable = .ok () ∧ fs.walk c (p.start c) p.names = .ok place ∧
      (p.endsInSlash = true → node.isDirectory = true) ∧ fs.get? place = some node := by
  unfold find
  rw [check_ok]
  refine and_congr_right fun _ => ?_
  simp only [bind_ok]
  constructor
  · rintro ⟨q, hwalk, h⟩
    split at h
    · next n hnode =>
      obtain ⟨hslash, h⟩ := throw_unless_ok.mp h
      obtain ⟨rfl, rfl⟩ := Prod.mk.inj (pure_ok.mp h)
      exact ⟨hwalk, by simpa using hslash, hnode⟩
    · simp [throw_ok] at h
  · rintro ⟨hwalk, hslash, hnode⟩
    refine ⟨place, hwalk, ?_⟩
    simp only [hnode]
    exact throw_unless_ok.mpr ⟨by simpa using hslash, rfl⟩

/-- Where something of the path's last name would be created. -/
theorem target_ok (h : fs.target c p = .ok (dir, some name)) :
    p.acceptable = .ok () ∧ ∃ above, p.names = above ++ [name] ∧
      fs.walk c (p.start c) above = .ok dir ∧ fs.searchable c dir = .ok () ∧ name ≠ "." ∧
      name ≠ ".." ∧ name.utf8ByteSize ≤ maxNameBytes := by
  unfold target at h
  obtain ⟨hacc, h⟩ := check_ok.mp h
  refine ⟨hacc, ?_⟩
  split at h
  · simp [pure_ok] at h
  · next last above hnames =>
    obtain ⟨q, hwalk, h⟩ := bind_ok.mp h
    obtain ⟨hsearch, h⟩ := check_ok.mp h
    split at h
    · simp [pure_ok] at h
    · next hdots =>
      simp only [throw_unless_ok, pure_ok, Prod.mk.injEq, Option.some.injEq] at h
      obtain ⟨hlong, rfl, rfl⟩ := h
      refine ⟨above.reverse, by simpa using congrArg List.reverse hnames, hwalk, hsearch, ?_⟩
      simpa [not_or, and_assoc] using And.intro hdots hlong

namespace Grows

variable (h : fs.Grows own fs') (hown : ∀ place, own place → fs.searchable c place ≠ .ok ())

include h hown

theorem searchable_ok (hplace : fs.searchable c place = .ok ()) :
    fs'.searchable c place = .ok () := by
  obtain ⟨node, hnode, hdir⟩ := Files.searchable_ok.mp hplace
  exact Files.searchable_ok.mpr ⟨node, h.same hnode fun howned => hown _ howned hplace, hdir⟩

theorem step_ok (hstep : fs.step c dir name = .ok place) : fs'.step c dir name = .ok place := by
  obtain ⟨hdir, hname⟩ := Files.step_ok.mp hstep
  refine Files.step_ok.mpr ⟨h.searchable_ok hown hdir, ?_⟩
  split_ifs at hname ⊢
  · exact hname
  · exact hname
  · obtain ⟨hlong, hthere, rfl⟩ := hname
    obtain ⟨node, hnode⟩ := Option.isSome_iff_exists.mp hthere
    obtain ⟨node', hnode', -⟩ := h.kept hnode
    exact ⟨hlong, by simp [hnode'], rfl⟩

theorem walk_ok {start : Place} {names : List String} (hwalk : fs.walk c start names = .ok place) :
    fs'.walk c start names = .ok place := by
  induction names generalizing start with
  | nil => exact hwalk
  | cons name names ih =>
    obtain ⟨next, hstep, hrest⟩ := bind_ok.mp hwalk
    exact bind_ok.mpr ⟨next, h.step_ok hown hstep, ih hrest⟩

/-- What was created under the path's last name is where the path leads. -/
theorem walk_target (htarget : fs.target c p = .ok (dir, some name))
    (hthere : (fs'.get? (dir ++ [name])).isSome) :
    fs'.walk c (p.start c) p.names = .ok (dir ++ [name]) := by
  obtain ⟨-, above, hnames, hwalk, hdir, hdot, hdots, hlong⟩ := target_ok htarget
  have hstep : fs'.step c dir name = .ok (dir ++ [name]) := by
    refine Files.step_ok.mpr ⟨h.searchable_ok hown hdir, ?_⟩
    rw [if_neg hdot, if_neg hdots]
    exact ⟨hlong, hthere, rfl⟩
  rw [hnames, walk_append]
  exact bind_ok.mpr ⟨dir, h.walk_ok hown hwalk, bind_ok.mpr ⟨_, hstep, rfl⟩⟩

end Grows

/-- What was found is found as it was, if nothing that stood has changed. -/
theorem Grows.find_kept (h : fs.Grows nowhere fs') (hfind : fs.find c p = .ok (place, node)) :
    fs'.find c p = .ok (place, node) := by
  obtain ⟨hacc, hwalk, hslash, hnode⟩ := Files.find_ok.mp hfind
  exact Files.find_ok.mpr ⟨hacc, h.walk_ok (fun _ => False.elim) hwalk, hslash, h.same hnode id⟩

/-- A file is found where it was, whatever becomes of its mode and its owner. -/
theorem Grows.find_ok (h : fs.Grows (· = place) fs') (hfind : fs.find c p = .ok (place, node))
    (hfile : node.isDirectory = false) :
    ∃ node', fs'.find c p = .ok (place, node') ∧ node'.content = node.content := by
  obtain ⟨hacc, hwalk, hslash, hnode⟩ := Files.find_ok.mp hfind
  -- No path leads through a file, so what becomes of it closes no way.
  have hclosed : fs.searchable c place ≠ .ok () := by
    intro hplace
    obtain ⟨n, hn, hdir, -⟩ := Files.searchable_ok.mp hplace
    obtain rfl : node = n := Option.some.inj (hnode.symm.trans hn)
    simp [hfile] at hdir
  obtain ⟨node', hnode', hcontent⟩ := h.kept hnode
  have hwalk' := h.walk_ok (fun _ howned => howned ▸ hclosed) hwalk
  refine ⟨node', Files.find_ok.mpr ⟨hacc, hwalk', fun hs => ?_, hnode'⟩, hcontent⟩
  exact absurd (hslash hs) (by simp [hfile])

-- ---------------------------------------------------------------------------
-- The operations
-- ---------------------------------------------------------------------------

/-- A directory put where a path's last name would stand is where the path leads. -/
theorem target_find (htarget : fs.target c p = .ok (dir, some name))
    (hnone : fs.get? (dir ++ [name]) = none) (hcontent : node.content = .directory) :
    (fs.put (dir ++ [name]) node).find c p = .ok (dir ++ [name], node) := by
  have hgrows : fs.Grows nowhere (fs.put (dir ++ [name]) node) :=
    .put_new hnone (hcontent ▸ trivial)
  have hwalk := hgrows.walk_target (fun _ => False.elim) htarget (by simp)
  exact find_ok.mpr ⟨(target_ok htarget).1, hwalk,
    fun _ => by simp [Node.isDirectory, hcontent], by simp⟩

theorem makeDir_ok (h : fs.makeDir c p mode = .ok fs') :
    ∃ dir name node, fs.target c p = .ok (dir, some name) ∧ fs.get? (dir ++ [name]) = none ∧
      node.content = .directory ∧ node.owner = c.uid ∧ fs' = fs.put (dir ++ [name]) node := by
  unfold makeDir at h
  obtain ⟨⟨dir, name?⟩, htarget, h⟩ := bind_ok.mp h
  cases name? with
  | none => simp [throw_ok] at h
  | some name =>
    simp only [throw_bind, throw_unless_ok, pure_ok] at h
    obtain ⟨hnone, -, rfl⟩ := h
    exact ⟨dir, name, _, htarget, by simpa using hnone, rfl, rfl, rfl⟩

theorem makeDir_grows (h : fs.makeDir c p mode = .ok fs') : fs.Grows own fs' := by
  obtain ⟨dir, name, node, -, hnone, hcontent, -, rfl⟩ := makeDir_ok h
  exact .put_new hnone (hcontent ▸ trivial)

/-- The directory that was made is found where it was missing. -/
theorem makeDir_find (h : fs.makeDir c p mode = .ok fs')
    (hfind : fs'.find c p = .ok (place, node)) : fs.get? place = none := by
  obtain ⟨dir, name, n, htarget, hnone, hcontent, -, rfl⟩ := makeDir_ok h
  obtain ⟨rfl, -⟩ :=
    Prod.mk.inj (Except.ok.inj (hfind.symm.trans (target_find htarget hnone hcontent)))
  exact hnone

theorem makeDirs_grows {fuel : Nat} (h : fs.makeDirs c p fuel = .ok fs') : fs.Grows own fs' := by
  induction fuel generalizing fs' p with
  | zero => cases h
  | succ fuel ih =>
    unfold makeDirs at h
    split at h
    · cases h
      exact .refl own fs
    · split at h
      · next hmade =>
        cases h
        exact makeDir_grows hmade
      · split_ifs at h
        · cases hparent : p.parent with
          | none => simp [hparent] at h
          | some above =>
            simp only [hparent] at h
            obtain ⟨mid, habove, h⟩ := bind_ok.mp h
            have hmid : fs.Grows own mid := ih habove
            split at h
            · next hmade =>
              cases h
              exact hmid.trans (makeDir_grows hmade)
            · split_ifs at h
              cases h
              exact hmid
        · cases h
          exact .refl own fs

theorem openFile_ok (h : fs.openFile c p mode = .ok (fs', place)) :
    ∃ dir name, fs.target c p = .ok (dir, some name) ∧ p.endsInSlash = false ∧
    place = dir ++ [name] ∧
      ((∃ node text, fs.get? place = some node ∧ node.content = .file text ∧ fs' = fs) ∨
        ∃ node, fs.get? place = none ∧ node.content = .file "" ∧ fs' = fs.put place node) := by
  unfold openFile at h
  obtain ⟨⟨dir, name?⟩, htarget, h⟩ := bind_ok.mp h
  cases name? with
  | none => simp [throw_ok] at h
  | some name =>
    simp only [throw_bind, throw_unless_ok] at h
    obtain ⟨hslash, h⟩ := h
    refine ⟨dir, name, htarget, by simpa using hslash, ?_⟩
    split at h
    · next node hnode =>
      split at h
      · simp [throw_ok] at h
      · simp [throw_ok] at h
      · next text hcontent =>
        split_ifs at h
        obtain ⟨rfl, rfl⟩ := Prod.mk.inj (pure_ok.mp h)
        exact ⟨rfl, .inl ⟨node, text, hnode, hcontent, rfl⟩⟩
    · next hnone =>
      obtain ⟨-, h⟩ := throw_unless_ok.mp h
      obtain ⟨rfl, rfl⟩ := Prod.mk.inj (pure_ok.mp h)
      exact ⟨rfl, .inr ⟨_, hnone, rfl, rfl⟩⟩

theorem openFile_grows (h : fs.openFile c p mode = .ok (fs', place)) : fs.Grows own fs' := by
  obtain ⟨dir, name, -, -, rfl, ⟨node, text, -, -, rfl⟩ | ⟨node, hnone, hcontent, rfl⟩⟩ :=
    openFile_ok h
  · exact .refl own _
  · exact .put_new hnone (hcontent ▸ rfl)

theorem openFile_find (h : fs.openFile c p mode = .ok (fs', place)) :
    ∃ node, fs'.find c p = .ok (place, node) ∧ node.isDirectory = false := by
  have hgrows : fs.Grows nowhere fs' := openFile_grows h
  obtain ⟨dir, name, htarget, hslash, rfl, hplace⟩ := openFile_ok h
  obtain ⟨node, hnode, hfile⟩ : ∃ node, fs'.get? (dir ++ [name]) = some node ∧
      node.isDirectory = false := by
    obtain ⟨node, text, hnode, hcontent, rfl⟩ | ⟨node, -, hcontent, rfl⟩ := hplace
    · exact ⟨node, hnode, by simp [Node.isDirectory, hcontent]⟩
    · exact ⟨node, get?_put_self .., by simp [Node.isDirectory, hcontent]⟩
  have hwalk := hgrows.walk_target (c := c) (fun _ => False.elim) htarget (by simp [hnode])
  exact ⟨node, Files.find_ok.mpr ⟨(target_ok htarget).1, hwalk, by simp [hslash], hnode⟩, hfile⟩

theorem setMode_grows (h : fs.setMode c place mode = .ok fs') : fs.Grows (· = place) fs' := by
  unfold setMode at h
  split at h
  · cases h
  · next hnode =>
    split_ifs at h
    cases h
    exact .put_own hnode rfl rfl

theorem setOwner_grows {account : Account} (h : fs.setOwner c place account = .ok fs') :
    fs.Grows (· = place) fs' := by
  unfold setOwner at h
  split at h
  · cases h
  · next hnode =>
    split_ifs at h
    cases h
    exact .put_own hnode rfl rfl

end Files

end AppHost
