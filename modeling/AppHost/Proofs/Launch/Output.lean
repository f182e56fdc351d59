import AppHost.Files.Change
import AppHost.Proofs.Launch.LastReport
import AppHost.Proofs.Text.Lines

/-!
# What becomes of a worker's output

The host reads both of a worker's streams line by line. As long as the lines are text it reads them
all, whatever they end in, and each line of the error stream goes to the log with a line feed. The
first line that is not text ends the reading, and what comes after it is lost (`output_cut_off`).
`heard_while_readable` says so of every stream.
-/

namespace AppHost

theorem Files.content_append {files : Files} {place : Place} {node : Node} {old : String}
    (c : Caller) (text : String) (h : files.get? place = some node)
    (hcontent : node.content = .file old) :
    ((files.append c place text).get? place).map Node.content = some (.file (old ++ text)) := by
  obtain ⟨content, mode, owner, group⟩ := node
  subst hcontent
  unfold append
  split
  · next htext => simp [h, htext]
  · simp [write, h]

namespace Launch

open Text

def inLines (texts : List String) : String := String.join (texts.map (· ++ "\n"))

structure Heard (stream : List UInt8) : Prop where
  split : ∃ bodies, Splits stream bodies ∧ ∀ other, Splits stream other → other = bodies
  /-- If all of them are text there is no rest, and all are read; else those before the first that
  is none. -/
  read : ∀ texts rest, Splits stream (texts.map bytes ++ rest) →
    (∀ body ∈ rest.head?, ¬Readable body) →
    readLines stream = { lines := texts, complete := rest.isEmpty } ∧
    logText stream = inLines texts ∧
      reportedPid stream = (Scan.lines {} texts).pid
  complete : ∀ bodies, Splits stream bodies →
    ((readLines stream).complete = true ↔ ∀ body ∈ bodies, Readable body)
  appended : ∀ (files : Files) c place node old, files.get? place = some node →
    node.content = .file old →
    ((files.append c place (logText stream)).get? place).map Node.content =
      some (.file (old ++ logText stream))

theorem heard_while_readable (stream : List UInt8) : Heard stream := by
  obtain ⟨bodies, hsplit⟩ := exists_splits stream
  refine {
    split := ⟨bodies, hsplit, fun other hother => hother.eq_cutLines.trans hsplit.eq_cutLines.symm⟩
    read := fun texts rest h hrest => ?_
    complete := fun other hother => ?_
    appended := fun files c place node old h hcontent => Files.content_append c _ h hcontent }
  · have hread := readLines_eq h hrest
    exact ⟨hread, by rw [logText, hread, inLines], by rw [reportedPid, hread]⟩
  · obtain ⟨texts, rest, rfl, hrest⟩ := exists_texts other
    rw [readLines_eq hother hrest]
    cases rest with
    | nil =>
      have hall : ∀ body ∈ texts.map bytes ++ [], Readable body := by
        intro body hbody
        obtain ⟨text, -, rfl⟩ := List.mem_map.mp (List.append_nil _ ▸ hbody)
        exact ⟨text, rfl⟩
      exact iff_of_true rfl hall
    | cons body more =>
      exact iff_of_false (by simp) fun hall => hrest body rfl (hall body (by simp))

/-- Between two lines of text there is one that is none. -/
def illegible : List UInt8 := bytes "ok\n" ++ [255, 10] ++ bytes "worker_launch_info: [7]\n"

/-- A worker reports its number, but not in time. -/
theorem output_cut_off :
    Splits illegible [bytes "ok", [255], bytes "worker_launch_info: [7]"] ∧
      Reports "worker_launch_info: [7]" 7 ∧ reportedPid illegible = 0 ∧
      ¬∀ stream, (readLines stream).complete = true := by
  have hcut : (readLines illegible).complete = false := by decide +kernel
  have hpid : (LaunchInfo.read? "[7]".toList).map LaunchInfo.pid = some 7 := by decide +kernel
  obtain ⟨info, hinfo, hpid⟩ := Option.map_eq_some_iff.mp hpid
  refine ⟨splits_iff.mpr ?_, ⟨"[7]", info, ?_, hinfo, hpid⟩, ?_, fun h => ?_⟩
  · decide +kernel
  · decide +kernel
  · decide +kernel
  · exact absurd (h illegible) (by simp [hcut])

end Launch

end AppHost
