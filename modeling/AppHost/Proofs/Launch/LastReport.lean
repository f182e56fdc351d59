import AppHost.Proofs.Launch.Signals
import Mathlib.Data.List.TakeWhile

/-!
# Which process the worker is

A worker may print its number more than once, and between other lines. The number that counts is the
one in the last report before the end marker, unless that is zero: `scanned_for_reports`. No other
line matters, wherever it stands, and whatever happens to the process in between.
-/

namespace AppHost.Launch

-- ---------------------------------------------------------------------------
-- Reports
-- ---------------------------------------------------------------------------

theorem afterTag?_eq_some {tag text payload : List Char} :
    afterTag? tag text = some payload ↔ text = tag ++ payload := by
  induction tag generalizing text with
  | nil => simp [afterTag?]
  | cons t tag ih =>
    cases text with
    | nil => simp [afterTag?]
    | cons c text =>
      by_cases h : t = c
      · simp [afterTag?, h, ih]
      · simp [afterTag?, h, Ne.symm h]

/-- A tagged line with launch info that gives this number. -/
def Reports (text : String) (pid : UInt32) : Prop :=
  ∃ payload info, text = launchInfoTag ++ payload ∧ LaunchInfo.read? payload.toList = some info ∧
    info.pid = pid

theorem Reports.unique (h : Reports text p) (h' : Reports text q) : p = q := by
  obtain ⟨payload, info, rfl, hinfo, rfl⟩ := h
  obtain ⟨payload', info', htext, hinfo', rfl⟩ := h'
  obtain rfl : payload = payload' := String.append_right_inj _ |>.mp htext
  rw [Option.some.inj (hinfo.symm.trans hinfo')]

theorem endMarker_untagged (payload : String) : launchInfoTag ++ payload ≠ endMarker := by
  intro h
  have hhead := congrArg (fun text : String => text.toList.head?) h
  simp [launchInfoTag, endMarker] at hhead

-- ---------------------------------------------------------------------------
-- One line
-- ---------------------------------------------------------------------------

namespace Scan

variable {s : Scan} {text : String} {p : UInt32}

theorem line_ended (h : s.ended = true) (text : String) : s.line text = s := by
  simp [line, h]

theorem line_endMarker (s : Scan) : s.line endMarker = { s with ended := true } := by
  cases h : s.ended with
  | true => rw [line_ended h, ← h]
  | false =>
    have hnone : afterTag? launchInfoTag.toList endMarker.toList = none := by decide
    simp [line, h, hnone]

theorem line_reports (h : s.ended = false) (hr : Reports text p) :
    s.line text = { s with pid := p } := by
  obtain ⟨payload, info, rfl, hinfo, rfl⟩ := hr
  have htag : afterTag? launchInfoTag.toList (launchInfoTag.toList ++ payload.toList) =
      some payload.toList :=
    afterTag?_eq_some.mpr rfl
  simp [line, h, htag, hinfo]

theorem line_other (hr : ∀ p, ¬Reports text p) (hend : text ≠ endMarker) : s.line text = s := by
  unfold line
  split
  · rfl
  · split
    · next payload htag =>
      split
      · next info hinfo =>
        -- The line would report this number.
        refine absurd ⟨String.ofList payload, info, ?_, ?_, rfl⟩ (hr info.pid)
        · rw [← String.toList_inj, afterTag?_eq_some.mp htag]
          simp
        · rwa [String.toList_ofList]
      · rfl
    · rfl

/-- Tagged lines are looked at for what they report alone. -/
theorem line_tagged (s : Scan) (payload : String) :
    (s.line (launchInfoTag ++ payload)).ended = s.ended := by
  cases h : s.ended with
  | true => rw [line_ended h, h]
  | false =>
    by_cases hr : ∃ p, Reports (launchInfoTag ++ payload) p
    · obtain ⟨p, hr⟩ := hr
      rw [line_reports h hr, h]
    · rw [line_other (not_exists.mp hr) (endMarker_untagged payload), h]

theorem lines_append (s : Scan) (texts more : List String) :
    s.lines (texts ++ more) = (s.lines texts).lines more := by
  simp [lines]

theorem lines_concat (s : Scan) (texts : List String) (text : String) :
    s.lines (texts ++ [text]) = (s.lines texts).line text := by
  simp [lines]

end Scan

-- ---------------------------------------------------------------------------
-- All lines
-- ---------------------------------------------------------------------------

/-- The last of the reports before the first end marker gives this number. -/
def LastReport (texts : List String) (pid : UInt32) : Prop :=
  ∃ pre text post, texts.takeWhile (· ≠ endMarker) = pre ++ text :: post ∧ Reports text pid ∧
    ∀ other ∈ post, ∀ p, ¬Reports other p

section
variable {texts : List String} {text : String} {pid : UInt32}

theorem not_lastReport_nil : ¬LastReport [] pid := by
  rintro ⟨pre, text, post, htexts, -⟩
  simp at htexts

theorem ne_endMarker_of_mem (h : endMarker ∉ texts) :
    ∀ text ∈ texts, decide (text ≠ endMarker) = true := by
  intro text htext
  rw [decide_eq_true_eq]
  rintro rfl
  exact h htext

theorem takeWhile_unended (h : endMarker ∉ texts) : texts.takeWhile (· ≠ endMarker) = texts :=
  List.takeWhile_eq_self_iff.mpr (ne_endMarker_of_mem h)

theorem takeWhile_ended (h : endMarker ∈ texts) (more : List String) :
    (texts ++ more).takeWhile (· ≠ endMarker) = texts.takeWhile (· ≠ endMarker) := by
  obtain ⟨pre, post, rfl⟩ := List.append_of_mem h
  induction pre with
  | nil => simp
  | cons text pre ih => by_cases htext : text = endMarker <;> simp_all

theorem lastReport_after_end (h : endMarker ∈ texts) (more : List String) :
    LastReport (texts ++ more) pid ↔ LastReport texts pid := by
  unfold LastReport
  rw [takeWhile_ended h]

theorem lastReport_endMarker (texts : List String) :
    LastReport (texts ++ [endMarker]) pid ↔ LastReport texts pid := by
  by_cases h : endMarker ∈ texts
  · exact lastReport_after_end h _
  · unfold LastReport
    rw [List.takeWhile_append_of_pos (ne_endMarker_of_mem h), takeWhile_unended h]
    simp

theorem lastReport_concat (h : endMarker ∉ texts) (hend : text ≠ endMarker) :
    LastReport (texts ++ [text]) pid ↔
      Reports text pid ∨ ((∀ p, ¬Reports text p) ∧ LastReport texts pid) := by
  have hmem : endMarker ∉ texts ++ [text] := by simp [h, hend.symm]
  unfold LastReport
  rw [takeWhile_unended h, takeWhile_unended hmem]
  exact exists_last_append

/-- How far the lines have been looked at, told by the lines. -/
structure Found (texts : List String) (s : Scan) : Prop where
  ended : s.ended = true ↔ endMarker ∈ texts
  reported : ∀ pid, LastReport texts pid → s.pid = pid
  unreported : (∀ pid, ¬LastReport texts pid) → s.pid = 0

theorem Found.nil : Found [] {} where
  ended := by simp
  reported _ h := absurd h not_lastReport_nil
  unreported _ := rfl

/-- A line that moves no report up and does not end the scan. -/
theorem Found.keep {s : Scan} (h : Found texts s)
    (hmem : endMarker ∈ texts ++ [text] ↔ endMarker ∈ texts)
    (hlast : ∀ pid, LastReport (texts ++ [text]) pid ↔ LastReport texts pid) :
    Found (texts ++ [text]) s where
  ended := h.ended.trans hmem.symm
  reported pid hpid := h.reported pid ((hlast pid).mp hpid)
  unreported hnone := h.unreported fun pid hpid => hnone pid ((hlast pid).mpr hpid)

theorem Found.line {s : Scan} (h : Found texts s) (text : String) :
    Found (texts ++ [text]) (s.line text) := by
  cases hended : s.ended with
  | true =>
    have hmem : endMarker ∈ texts := h.ended.mp hended
    rw [Scan.line_ended hended]
    exact h.keep (by simp [hmem]) fun _ => lastReport_after_end hmem _
  | false =>
    have hmem : endMarker ∉ texts := fun hmem => by simp [h.ended.mpr hmem] at hended
    by_cases hend : text = endMarker
    · subst hend
      rw [Scan.line_endMarker]
      exact {
        ended := by simp
        reported := fun pid hpid => h.reported pid ((lastReport_endMarker texts).mp hpid)
        unreported := fun hnone => h.unreported fun pid hpid =>
          hnone pid ((lastReport_endMarker texts).mpr hpid) }
    · have hlast : ∀ pid, LastReport (texts ++ [text]) pid ↔
          Reports text pid ∨ ((∀ p, ¬Reports text p) ∧ LastReport texts pid) :=
            fun _ => lastReport_concat hmem hend
      by_cases hr : ∃ pid, Reports text pid
      · obtain ⟨p, hp⟩ := hr
        rw [Scan.line_reports hended hp]
        refine { ended := by simp [hended, hmem, Ne.symm hend], reported := fun pid hpid => ?_,
                 unreported := fun hnone => absurd ((hlast p).mpr (.inl hp)) (hnone p) }
        rcases (hlast pid).mp hpid with hpid | ⟨hno, -⟩
        · exact hp.unique hpid
        · exact absurd hp (hno p)
      · have hno : ∀ p, ¬Reports text p := not_exists.mp hr
        rw [Scan.line_other hno hend]
        refine h.keep (by simp [hmem, Ne.symm hend]) fun pid => ?_
        rw [hlast]
        simp [hno]

theorem found (texts : List String) : Found texts (Scan.lines {} texts) := by
  induction texts using List.reverseRecOn with
  | nil => exact .nil
  | append_singleton texts text ih =>
    rw [Scan.lines_concat]
    exact ih.line text

end

/-- A line is as good as not there if it comes after the end marker, or neither reports nor ends
anything. -/
theorem Scan.lines_without {pre : List String} {text : String}
    (h : endMarker ∈ pre ∨ (text ≠ endMarker ∧ ∀ pid, ¬Reports text pid)) (post : List String) :
    Scan.lines {} (pre ++ text :: post) = Scan.lines {} (pre ++ post) := by
  have hline : (Scan.lines {} pre).line text = Scan.lines {} pre := by
    rcases h with h | ⟨hend, hr⟩
    · exact line_ended ((found pre).ended.mpr h) text
    · exact line_other hr hend
  rw [lines_append, lines_append, lines, List.foldl_cons, hline]
  rfl

-- ---------------------------------------------------------------------------
-- The number that is in force
-- ---------------------------------------------------------------------------

namespace Supervisor

/-- How a worker's output decides which process signals go to. -/
structure Scanned (spawned : UInt32) (gracePeriod : Nat) (es : List (Time × Event)) : Prop where
  reported : ∀ pid, LastReport (linesOf es) pid → pid ≠ 0 →
    (run spawned gracePeriod es).child.pid = pid
  /-- There is no report, or the last one is none. -/
  unreported : (∀ pid, LastReport (linesOf es) pid → pid = 0) →
    (run spawned gracePeriod es).child.pid = spawned
  /-- The same for a stream of bytes that is read as these lines. -/
  read : ∀ output, (Text.readLines output).lines = linesOf es →
    (({ spawnedPid := spawned, gracePeriod } : Child).report (reportedPid output)).pid =
      (run spawned gracePeriod es).child.pid
  ended : (run spawned gracePeriod es).scan.ended = true ↔ endMarker ∈ linesOf es
  /-- Lines after the end marker, and lines that report nothing, among them tagged ones, could be
  left out. -/
  others : ∀ pre text post, linesOf es = pre ++ text :: post →
    endMarker ∈ pre ∨ (text ≠ endMarker ∧ ∀ pid, ¬Reports text pid) →
    (run spawned gracePeriod es).scan = Scan.lines {} (pre ++ post)
  tagged : ∀ now payload,
    (run spawned gracePeriod (es ++ [(now, .line (launchInfoTag ++ payload))])).scan.ended =
    (run spawned gracePeriod es).scan.ended

theorem scanned_for_reports (spawned : UInt32) (gracePeriod : Nat) (es : List (Time × Event)) :
    Scanned spawned gracePeriod es := by
  have htrack := track spawned gracePeriod es
  have hfound := found (linesOf es)
  refine { reported := fun pid hlast hne => ?_, unreported := fun hzero => ?_,
           read := fun output houtput => ?_, ended := ?_,
           others := fun pre text post hes h => ?_, tagged := fun now payload => ?_ }
  · rw [htrack.pid_eq, inForce, hfound.reported pid hlast]
    simp [hne]
  · have hpid : (Scan.lines {} (linesOf es)).pid = 0 := by
      by_cases hlast : ∃ pid, LastReport (linesOf es) pid
      · obtain ⟨pid, hlast⟩ := hlast
        rw [hfound.reported pid hlast, hzero pid hlast]
      · exact hfound.unreported (not_exists.mp hlast)
    rw [htrack.pid_eq, inForce, hpid]
    simp
  · rw [htrack.pid_eq, reportedPid, houtput]
    rfl
  · rw [htrack.scan]
    exact hfound.ended
  · rw [htrack.scan, hes, Scan.lines_without h]
  · rw [run_append]
    exact Scan.line_tagged _ payload

/-- The second report counts, and the marker of the third line hides the last. -/
example :
    (run 4242 1000 [(1, .line "worker_launch_info: [7]"), (2, .line "worker_launch_info: [8]"),
      (3, .line "==END=="), (4, .line "worker_launch_info: [9]")]).child.pid = 8 := by
  decide +kernel

end Supervisor

end AppHost.Launch
