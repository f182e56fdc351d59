import AppHost.Registry
import AppHost.Proofs.Json.Unambiguous
import AppHost.Proofs.Validation

/-!
# What a key tells of its application

The last line of a key is the compact form of the settings, so a key determines them
(`key_determines_settings`) and every policy treats the specs that share its key alike.

The lines before it are texts that may hold line breaks and commas of their own, and an empty text
may stand for something absent. `key_separates` says for which applications they can be told apart:
between two legible ones the key decides, and every other shares its key with an application that it
is not.
-/

namespace AppHost

-- ---------------------------------------------------------------------------
-- Texts with a separator
-- ---------------------------------------------------------------------------

theorem intercalate_inj {c : Char} {xs ys : List String} (hx : ∀ s ∈ xs, c ∉ s.toList)
    (hy : ∀ s ∈ ys, c ∉ s.toList) (hxs : xs ≠ []) (hys : ys ≠ [])
    (h : String.intercalate (String.singleton c) xs = String.intercalate (String.singleton c) ys) :
    xs = ys := by
  have hsplit : ∀ zs : List String, (∀ s ∈ zs, c ∉ s.toList) → zs ≠ [] →
      (String.intercalate (String.singleton c) zs).toList.splitOn c = zs.map String.toList := by
    intro zs hz hne
    rw [String.toList_intercalate, String.toList_singleton, List.splitOn_intercalate]
    · simpa using hz
    · simpa using hne
  have hmap := hsplit xs hx hxs
  rw [h, hsplit ys hy hys] at hmap
  exact (List.map_injective_iff.mpr fun _ _ => String.toList_inj.mp) hmap.symm

/-- A text with a separator in it is two texts with the separator between them. -/
theorem exists_intercalate {c : Char} {s : String} (h : c ∈ s.toList) :
    ∃ u v, s = u ++ String.singleton c ++ v := by
  obtain ⟨us, vs, hs⟩ := List.append_of_mem h
  refine ⟨String.ofList us, String.ofList vs, ?_⟩
  rw [← String.toList_inj]
  simp [hs]

-- ---------------------------------------------------------------------------
-- Settings
-- ---------------------------------------------------------------------------

theorem WorkerMode.name_inj {m n : WorkerMode} (h : m.name = n.name) : m = n := by
  cases m <;> cases n <;> first | rfl | exact absurd h (by decide)

theorem Json.ofOption_inj {f : α → Json} (hf : ∀ a b, f a = f b → a = b) (hnull : ∀ a, f a ≠ .null)
    {x y : Option α} (h : Json.ofOption f x = Json.ofOption f y) : x = y := by
  cases x with
  | none =>
    cases y with
    | none => rfl
    | some b => exact absurd h.symm (hnull b)
  | some a =>
    cases y with
    | none => exact absurd h (hnull a)
    | some b => rw [hf a b h]

theorem Json.strings_inj {xs ys : List String} (h : Json.strings xs = Json.strings ys) : xs = ys :=
  (List.map_injective_iff.mpr fun _ _ => Json.str.inj) (Json.array.inj h)

theorem AppDefaults.toJson_inj {d e : AppDefaults} (h : d.toJson = e.toJson) : d = e := by
  have hstr : ∀ x y : String, Json.str x = .str y → x = y := fun _ _ => Json.str.inj
  have hpath : ∀ x y : Path, Json.str x.text = .str y.text → x = y := fun x y h => by
    cases x
    cases y
    cases h
    rfl
  simp only [toJson, Json.object.injEq, List.cons.injEq, Prod.mk.injEq, true_and, and_true,
    Json.ofNat, Json.int.injEq, Json.bool.injEq, Int.natCast_inj] at h
  obtain ⟨hinit, hidle, hinterval, hlinger, hpreserve, hreconnect, hsanitize, hprotocols, hdir,
      hmode, hpython⟩ := h
  have hprotocols := Json.strings_inj hprotocols
  have hdir := Json.ofOption_inj hpath nofun hdir
  have hpython := Json.ofOption_inj hstr nofun hpython
  cases d
  cases e
  simp_all

theorem AppSettings.toJson_inj {s t : AppSettings} (h : s.toJson = t.toJson) : s = t := by
  have hstr : ∀ x y : String, Json.str x = .str y → x = y := fun _ _ => Json.str.inj
  simp only [toJson, Json.object.injEq, List.cons.injEq, Prod.mk.injEq, true_and, and_true,
    Json.ofNat, Json.int.injEq, Json.bool.injEq, Json.str.injEq, Int.natCast_inj] at h
  obtain ⟨hmode, hlog, htracking, hmax, hdefaults⟩ := h
  have hmode := WorkerMode.name_inj hmode
  have htracking := Json.ofOption_inj hstr nofun htracking
  have hdefaults := AppDefaults.toJson_inj hdefaults
  obtain ⟨_, _, _, ⟨_⟩, _⟩ := s
  obtain ⟨_, _, _, ⟨_⟩, _⟩ := t
  simp_all

theorem Json.integral_ofOption {f : α → Json} (hf : ∀ a, Integral (f a)) (x : Option α) :
    Integral (Json.ofOption f x) := by
  cases x with
  | none => exact .null
  | some a => exact hf a

theorem Json.integral_strings (xs : List String) : Integral (Json.strings xs) := by
  refine .array fun item hitem => ?_
  obtain ⟨s, -, rfl⟩ := List.mem_map.mp hitem
  exact .str s

theorem AppDefaults.integral_toJson (d : AppDefaults) : d.toJson.Integral := by
  refine .object fun f hf => ?_
  simp only [List.mem_cons, List.not_mem_nil, or_false] at hf
  rcases hf with rfl | rfl | rfl | rfl | rfl | rfl | rfl | rfl | rfl | rfl | rfl
  · exact .int _
  · exact .int _
  · exact .int _
  · exact .int _
  · exact .bool _
  · exact .bool _
  · exact .bool _
  · exact Json.integral_strings _
  · exact Json.integral_ofOption (fun _ => .str _) _
  · exact .int _
  · exact Json.integral_ofOption (fun _ => .str _) _

theorem AppSettings.integral_toJson (s : AppSettings) : s.toJson.Integral := by
  refine .object fun f hf => ?_
  simp only [List.mem_cons, List.not_mem_nil, or_false] at hf
  rcases hf with rfl | rfl | rfl | rfl | rfl
  · exact .str _
  · exact .bool _
  · exact Json.integral_ofOption (fun _ => .str _) _
  · exact .object (by simpa using .int _)
  · exact s.appDefaults.integral_toJson

-- ---------------------------------------------------------------------------
-- The last line
-- ---------------------------------------------------------------------------

def lastLine (text : String) : String :=
  String.ofList (text.toList.reverse.takeWhile (· ≠ '\n')).reverse

theorem lastLine_append (start : List Char) {line : List Char} (h : '\n' ∉ line) :
    lastLine (String.ofList (start ++ '\n' :: line)) = String.ofList line := by
  have hline : ∀ c ∈ line.reverse, decide (c ≠ '\n') = true := by
    intro c hc
    simp only [ne_eq, decide_not, Bool.not_eq_true', decide_eq_false_iff_not]
    rintro rfl
    exact h (List.mem_reverse.mp hc)
  have hstop : (line.reverse ++ '\n' :: start.reverse).takeWhile (· ≠ '\n') = line.reverse := by
    rw [List.takeWhile_append_of_pos hline]
    simp
  rw [lastLine, String.toList_ofList, List.reverse_append, List.reverse_cons, List.append_assoc,
    List.singleton_append, hstop, List.reverse_reverse]

namespace AppSpec

/-- The texts on the lines before the settings. -/
def captions (app : AppSpec) : List String :=
  [app.appDir.text, app.runAsText, app.urlPrefix, (app.logDir.map Path.text).getD ""]

def heading (app : AppSpec) : String := String.intercalate "\n" app.captions

theorem key_toList (app : AppSpec) :
    app.key = String.ofList (app.heading.toList ++ '\n' :: app.settings.toJson.text) := by
  rw [← String.toList_inj]
  simp [key, heading, captions, Json.compact]

theorem lastLine_key (app : AppSpec) : lastLine app.key = app.settings.toJson.compact := by
  rw [key_toList, lastLine_append _ app.settings.integral_toJson.one_line, Json.compact]

theorem key_eq_iff {a b : AppSpec} :
    a.key = b.key ↔ a.heading = b.heading ∧ a.settings = b.settings := by
  constructor
  · intro h
    have hline : a.settings.toJson.compact = b.settings.toJson.compact := by
      rw [← lastLine_key, h, lastLine_key]
    have hsettings : a.settings = b.settings :=
      AppSettings.toJson_inj
        (a.settings.integral_toJson.compact_inj b.settings.integral_toJson hline)
    refine ⟨?_, hsettings⟩
    rw [key_toList, key_toList, hsettings, String.ofList_inj] at h
    exact String.toList_inj.mp (List.append_cancel_right h)
  · rintro ⟨hheading, hsettings⟩
    rw [key_toList, key_toList, hheading, hsettings]

/-- What two specs that share their key have in common. -/
structure Interchangeable (a b : AppSpec) : Prop where
  settings : a.settings = b.settings
  oneLine : '\n' ∉ (lastLine a.key).toList
  /-- No other settings print as the key's last line. -/
  decoded : ∀ s : AppSettings, s.toJson.compact = lastLine a.key ↔ s = b.settings
  answered : ∀ (p : Policy) url id, (p.admission a url id).2 = (p.admission b url id).2
  /-- A worker that is spawned for either has the same limits and timeouts. -/
  spawned : ∀ (p : Policy) url id,
    (p.admission a url id).1.pool.workers.map (fun w => (w.app.settings, w.entry)) =
      (p.admission b url id).1.pool.workers.map (fun w => (w.app.settings, w.entry))

theorem key_determines_settings {a b : AppSpec} (h : a.key = b.key) : a.Interchangeable b := by
  have hsettings : a.settings = b.settings := (key_eq_iff.mp h).2
  have hlimit : Policy.limitFor a = Policy.limitFor b := by
    funext url
    rw [Policy.limitFor, Policy.limitFor, hsettings]
  constructor
  case settings => exact hsettings
  case oneLine =>
    rw [lastLine_key, Json.compact, String.toList_ofList]
    exact a.settings.integral_toJson.one_line
  case decoded =>
    intro s
    rw [lastLine_key, hsettings]
    exact ⟨fun hs =>
      AppSettings.toJson_inj (s.integral_toJson.compact_inj b.settings.integral_toJson hs),
      fun hs => by rw [hs]⟩
  case answered =>
    intro p url id
    unfold Policy.admission
    split
    · rfl
    · split
      · rfl
      · dsimp only
        rw [hlimit]
  case spawned =>
    intro p url id
    unfold Policy.admission
    split
    · rfl
    · split
      · simp [Pool.spawn, hsettings]
      · dsimp only
        rw [hlimit]

end AppSpec

namespace AppConfig

def alicesApp : AppConfig where
  appDir := "/apps/hello"
  runAs := some (.user "alice")
  urlPrefix := "bob\n/"

/-- It lies in a directory whose name goes on after a line break. -/
def bobsApp : AppConfig where
  appDir := "/apps/hello\nalice"
  runAs := some (.user "bob")

theorem alicesApp_key : alicesApp.toSpec.key = bobsApp.toSpec.key :=
  AppSpec.key_eq_iff.mpr ⟨rfl, rfl⟩

end AppConfig

theorem AppSpec.key_determines_settings_alice :
    AppConfig.alicesApp.toSpec.key = AppConfig.bobsApp.toSpec.key ∧
      AppConfig.alicesApp.toSpec.Interchangeable AppConfig.bobsApp.toSpec :=
  ⟨AppConfig.alicesApp_key, key_determines_settings AppConfig.alicesApp_key⟩

-- ---------------------------------------------------------------------------
-- The lines before
-- ---------------------------------------------------------------------------

/-- Whether the identity can be told from its text. -/
def RunAs.Legible : RunAs → Prop
  | .user name => ',' ∉ name.toList
  | .candidates names => 2 ≤ names.length ∧ ∀ name ∈ names, ',' ∉ name.toList

theorem RunAs.comma_mem_describe {names : List String} (h : 2 ≤ names.length) :
    ',' ∈ (RunAs.candidates names).describe.toList := by
  match names with
  | a :: b :: rest => simp [describe]

theorem RunAs.Legible.describe_inj {r s : RunAs} (hr : r.Legible) (hs : s.Legible)
    (h : r.describe = s.describe) : r = s := by
  cases r with
  | user name =>
    cases s with
    | user other => exact congrArg RunAs.user h
    | candidates others =>
      have hcomma := comma_mem_describe hs.1
      rw [← h] at hcomma
      exact absurd hcomma hr
  | candidates names =>
    cases s with
    | user other =>
      have hcomma := comma_mem_describe hr.1
      rw [h] at hcomma
      exact absurd hcomma hs
    | candidates others =>
      refine congrArg RunAs.candidates (intercalate_inj (c := ',') hr.2 hs.2 ?_ ?_ h)
      · rintro rfl
        exact absurd hr.1 (by decide)
      · rintro rfl
        exact absurd hs.1 (by decide)

namespace AppConfig

/-- The parts of an application, besides its settings, that a key is made from. -/
structure Same (a b : AppConfig) : Prop where
  appDir : a.appDir = b.appDir
  runAs : a.runAs = b.runAs
  urlPrefix : a.urlPrefix = b.urlPrefix
  logDir : a.logDir = b.logDir

/-- Nothing in the application's texts can be taken for what stands between them, and nothing that
is given for something that is absent. -/
structure Legible (app : AppConfig) : Prop where
  lines : ∀ text ∈ app.toSpec.captions, '\n' ∉ text.toList
  runAs : ∀ r, app.runAs = some r → r.Legible
  logDir : app.logDir ≠ some ""

variable {a b : AppConfig}

theorem captions_toSpec (app : AppConfig) :
    app.toSpec.captions =
      [app.appDir, (app.runAs.map RunAs.describe).getD "", app.urlPrefix, app.logDir.getD ""] := by
  obtain ⟨_, _, runAs, _, logDir, _⟩ := app
  cases runAs <;> cases logDir <;> rfl

theorem Legible.same (ha : a.Legible) (hb : b.Legible) (hva : a.fault? = none)
    (hvb : b.fault? = none) (h : a.toSpec.key = b.toSpec.key) : a.Same b := by
  have hcaptions : a.toSpec.captions = b.toSpec.captions :=
    intercalate_inj (c := '\n') ha.lines hb.lines nofun nofun (AppSpec.key_eq_iff.mp h).1
  obtain ⟨r, hr, -⟩ := (fault?_eq_none.mp hva).2.1
  obtain ⟨s, hs, -⟩ := (fault?_eq_none.mp hvb).2.1
  simp only [captions_toSpec, hr, hs, Option.map_some, Option.getD_some, List.cons.injEq,
    and_true] at hcaptions
  obtain ⟨hdir, hrun, hprefix, hlog⟩ := hcaptions
  refine ⟨hdir, ?_, hprefix, ?_⟩
  · rw [hr, hs, (ha.runAs r hr).describe_inj (hb.runAs s hs) hrun]
  · have hda := ha.logDir
    have hdb := hb.logDir
    revert hlog hda hdb
    cases a.logDir <;> cases b.logDir <;> simp_all [eq_comm]

/-- Another application, not told apart by its key. -/
def Twin (a b : AppConfig) : Prop := b.fault? = none ∧ b.toSpec.key = a.toSpec.key ∧ ¬a.Same b

theorem heading_toSpec (app : AppConfig) :
    app.toSpec.heading = app.appDir ++ "\n" ++ (app.runAs.map RunAs.describe).getD "" ++ "\n" ++
      app.urlPrefix ++ "\n" ++ app.logDir.getD "" := by
  rw [AppSpec.heading, captions_toSpec, ← String.toList_inj]
  simp

theorem Twin.of_heading {s : RunAs} (hva : a.fault? = none) (hport : b.listenPort = a.listenPort)
    (hsettings : b.settings = a.settings) (habs : (Path.mk b.appDir).isAbsolute = true)
    (hrun : b.runAs = some s) (hs : s ≠ .candidates [])
    (hheading : b.toSpec.heading = a.toSpec.heading) (hne : ¬a.Same b) : a.Twin b := by
  refine ⟨fault?_eq_none.mpr ⟨habs, ⟨s, hrun, hs⟩, ?_⟩,
    AppSpec.key_eq_iff.mpr ⟨hheading, hsettings⟩, hne⟩
  rw [hport]
  exact (fault?_eq_none.mp hva).2.2

theorem ne_of_append {s u v : String} {c : Char} (h : s = u ++ String.singleton c ++ v) :
    s ≠ u ∧ s ≠ v := by
  have hlength := congrArg String.length h
  simp only [String.length_append, String.length_singleton] at hlength
  refine ⟨?_, ?_⟩ <;>
  · rintro rfl
    omega

theorem isAbsolute_append (s t : String) (h : (Path.mk s).isAbsolute = true) :
    (Path.mk (s ++ t)).isAbsolute = true := by
  simp only [Path.isAbsolute, String.toList_append, decide_eq_true_eq] at h ⊢
  rw [List.head?_append, h, Option.some_or]

theorem isAbsolute_of_append {u v : String} {c : Char} (hc : c ≠ '/')
    (h : (Path.mk (u ++ String.singleton c ++ v)).isAbsolute = true) :
    (Path.mk u).isAbsolute = true := by
  simp only [Path.isAbsolute, decide_eq_true_eq, String.toList_append,
    String.toList_singleton] at h ⊢
  cases hu : u.toList with
  | nil =>
    rw [hu] at h
    exact absurd (Option.some.inj h) hc
  | cons d ds => simpa [hu] using h

/-- An application with a line break in one of its texts has a twin whose lines end elsewhere. -/
theorem twin_of_line_break (h : a.fault? = none)
    (hline : ∃ text ∈ a.toSpec.captions, '\n' ∈ text.toList) : ∃ b, a.Twin b := by
  obtain ⟨habs, ⟨r, hr, hne⟩, -⟩ := fault?_eq_none.mp h
  obtain ⟨text, htext, hbreak⟩ := hline
  obtain ⟨u, v, heq⟩ := exists_intercalate hbreak
  have huser : ∀ name, (RunAs.user name).describe = name := fun _ => rfl
  simp only [captions_toSpec, hr, Option.map_some, Option.getD_some, List.mem_cons,
    List.not_mem_nil, or_false] at htext
  rcases htext with rfl | rfl | rfl | rfl
  · refine ⟨{ a with
        appDir := u, runAs := some (.user v), urlPrefix := r.describe ++ "\n" ++ a.urlPrefix },
      .of_heading h rfl rfl (isAbsolute_of_append (by decide) (heq ▸ habs)) rfl (by simp) ?_
        fun hsame => (ne_of_append heq).1 hsame.appDir⟩
    simp [heading_toSpec, hr, heq, huser, String.append_assoc]
  · refine ⟨{ a with appDir := a.appDir ++ "\n" ++ u, runAs := some (.user v) },
      .of_heading h rfl rfl ?_ rfl (by simp) ?_ fun hsame =>
        (ne_of_append (v := u) (c := '\n') rfl).1 hsame.appDir.symm⟩
    · rw [String.append_assoc]
      exact isAbsolute_append _ _ habs
    · simp [heading_toSpec, hr, heq, huser, String.append_assoc]
  · refine ⟨{ a with runAs := some (.user (r.describe ++ "\n" ++ u)), urlPrefix := v },
      .of_heading h rfl rfl habs rfl (by simp) ?_ fun hsame => (ne_of_append heq).2 hsame.urlPrefix⟩
    simp [heading_toSpec, hr, heq, huser, String.append_assoc]
  · refine ⟨{ a with urlPrefix := a.urlPrefix ++ "\n" ++ u, logDir := some v },
      .of_heading h rfl rfl habs hr hne ?_
        fun hsame => (ne_of_append (v := u) (c := '\n') rfl).1 hsame.urlPrefix.symm⟩
    simp [heading_toSpec, heq, String.append_assoc]

/-- One user may stand for candidates, and candidates for one user. -/
theorem twin_of_identity {r : RunAs} (h : a.fault? = none) (hr : a.runAs = some r)
    (hr' : ¬r.Legible) : ∃ b, a.Twin b := by
  obtain ⟨habs, -, -⟩ := fault?_eq_none.mp h
  cases r with
  | user name =>
    obtain ⟨u, v, heq⟩ := exists_intercalate (c := ',') (by simpa [RunAs.Legible] using hr')
    refine ⟨{ a with runAs := some (.candidates [u, v]) },
      .of_heading h rfl rfl habs rfl (by simp) ?_ ?_⟩
    · simp [heading_toSpec, hr, RunAs.describe, heq]
    · intro hsame
      have := hr.symm.trans hsame.runAs
      cases this
  | candidates names =>
    refine ⟨{ a with runAs := some (.user (RunAs.candidates names).describe) },
      .of_heading h rfl rfl habs rfl (by simp) ?_ ?_⟩
    · simp [heading_toSpec, hr, RunAs.describe]
    · intro hsame
      have := hr.symm.trans hsame.runAs
      cases this

/-- No log directory and an empty one are one to the key. -/
theorem twin_of_log_dir (h : a.fault? = none) (hlog : a.logDir = some "") : ∃ b, a.Twin b := by
  obtain ⟨habs, ⟨r, hr, hne⟩, -⟩ := fault?_eq_none.mp h
  refine ⟨{ a with logDir := none }, .of_heading h rfl rfl habs hr hne ?_ ?_⟩
  · simp [heading_toSpec, hlog]
  · intro hsame
    have := hlog.symm.trans hsame.logDir
    cases this

structure KeySeparates (a : AppConfig) : Prop where
  /-- What a key leaves of the texts before the settings is how they read one after another. -/
  shared : ∀ b : AppConfig,
    a.toSpec.key = b.toSpec.key ↔ a.toSpec.heading = b.toSpec.heading ∧ a.settings = b.settings
  legible : a.Legible → ∀ b : AppConfig, b.fault? = none → b.Legible →
    a.toSpec.key = b.toSpec.key → a.Same b
  illegible : ¬a.Legible → ∃ b, a.Twin b

theorem key_separates (h : a.fault? = none) : a.KeySeparates := by
  refine ⟨fun b => AppSpec.key_eq_iff, fun ha b hb hlegible => ha.same hlegible h hb,
    fun hillegible => ?_⟩
  by_cases hline : ∃ text ∈ a.toSpec.captions, '\n' ∈ text.toList
  · exact twin_of_line_break h hline
  by_cases hlog : a.logDir = some ""
  · exact twin_of_log_dir h hlog
  obtain ⟨r, hr, hr'⟩ : ∃ r, a.runAs = some r ∧ ¬r.Legible := by
    by_contra hall
    refine hillegible ⟨fun text htext hbreak => hline ⟨text, htext, hbreak⟩, fun r hr => ?_, hlog⟩
    by_contra hr'
    exact hall ⟨r, hr, hr'⟩
  exact twin_of_identity h hr hr'

theorem key_separates_bob : bobsApp.fault? = none ∧ bobsApp.KeySeparates :=
  ⟨rfl, key_separates rfl⟩

/-- Two users' applications share a key, and so do one with no log directory and one with an empty
one. -/
theorem key_shared : alicesApp.fault? = none ∧ bobsApp.fault? = none ∧
    alicesApp.toSpec.key = bobsApp.toSpec.key ∧ alicesApp.appDir ≠ bobsApp.appDir ∧
    alicesApp.runAs ≠ bobsApp.runAs ∧ alicesApp.urlPrefix ≠ bobsApp.urlPrefix ∧
    { bobsApp with logDir := some "" }.fault? = none ∧
    { bobsApp with logDir := some "" }.toSpec.key = bobsApp.toSpec.key :=
  ⟨rfl, rfl, alicesApp_key, by decide, by decide, by decide, rfl, AppSpec.key_eq_iff.mpr ⟨rfl, rfl⟩⟩

end AppConfig

end AppHost
