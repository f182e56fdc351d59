import AppHost.Text.Lines
import Mathlib.Data.List.Basic

/-!
# The lines of a stream

`Splits` says what the lines of a stream of bytes are, apart from any reader. Every stream has its
lines, and no others (`splits_iff`). A reader reads the lines before the first one that is not text
(`readLines_eq`).
-/

namespace AppHost.Text

-- ---------------------------------------------------------------------------
-- Lines of bytes
-- ---------------------------------------------------------------------------

/-- A stream and its lines, without their ends: a line feed, or a carriage return and a line feed,
or, after the last line, the end of the stream. -/
inductive Splits : List UInt8 → List (List UInt8) → Prop
  | done : Splits [] []
  | last {body : List UInt8} (hne : body ≠ []) (hfree : 10 ∉ body) : Splits body [body]
  | line {body rest : List UInt8} {bodies : List (List UInt8)} (hfree : 10 ∉ body)
      (hreturn : body.getLast? ≠ some 13)
      (hrest : Splits rest bodies) : Splits (body ++ 10 :: rest) (body :: bodies)
  | returned {body rest : List UInt8} {bodies : List (List UInt8)} (hfree : 10 ∉ body)
      (hrest : Splits rest bodies) :
      Splits (body ++ 13 :: 10 :: rest) (body :: bodies)

theorem exists_splits (stream : List UInt8) : ∃ bodies, Splits stream bodies := by
  by_cases hmem : 10 ∈ stream
  · obtain ⟨line, rest, hstream, hfree⟩ := List.eq_append_cons_of_mem hmem
    have hlt : rest.length < stream.length := by
      rw [hstream, List.length_append, List.length_cons]
      omega
    obtain ⟨bodies, hrest⟩ := exists_splits rest
    rw [hstream]
    by_cases hreturn : line.getLast? = some 13
    · obtain ⟨body, rfl⟩ : ∃ body, line = body ++ [13] :=
        ⟨_, (List.dropLast_append_getLast? 13 hreturn).symm⟩
      refine ⟨body :: bodies, ?_⟩
      rw [List.append_assoc]
      exact .returned (fun h => hfree (List.mem_append_left _ h)) hrest
    · exact ⟨line :: bodies, .line hfree hreturn hrest⟩
  · by_cases hne : stream = []
    · exact ⟨[], hne ▸ .done⟩
    · exact ⟨[stream], .last hne hmem⟩
termination_by stream.length

section
variable {body rest stream : List UInt8} {bodies : List (List UInt8)}

theorem cutLines_free (hne : body ≠ []) (hfree : 10 ∉ body) : cutLines body = [body] := by
  induction body with
  | nil => exact absurd rfl hne
  | cons b body ih =>
    obtain ⟨hb, hfree⟩ : 10 ≠ b ∧ 10 ∉ body := by simpa using hfree
    cases body with
    | nil => simp [cutLines, pushByte, Ne.symm hb]
    | cons c body =>
      have hbody : (c :: body).foldr pushByte [] = [c :: body] := ih nofun hfree
      rw [cutLines, List.foldr_cons, hbody, pushByte, if_neg (Ne.symm hb)]

theorem cutLines_line (hfree : 10 ∉ body) (rest : List UInt8) :
    cutLines (body ++ 10 :: rest) = (body ++ [10]) :: cutLines rest := by
  induction body with
  | nil => simp [cutLines, pushByte]
  | cons b body ih =>
    obtain ⟨hb, hfree⟩ : 10 ≠ b ∧ 10 ∉ body := by simpa using hfree
    have hbody : (body ++ 10 :: rest).foldr pushByte [] = (body ++ [10]) :: cutLines rest :=
      ih hfree
    rw [cutLines, List.cons_append, List.foldr_cons, hbody, pushByte, if_neg (Ne.symm hb),
      List.cons_append]

theorem dropLineEnd_free (hfree : 10 ∉ body) : dropLineEnd body = body := by
  unfold dropLineEnd
  have hmem : 10 ∉ body.reverse := by simpa using hfree
  split
  · next h => simp [h] at hmem
  · next h => simp [h] at hmem
  · rfl

theorem dropLineEnd_line (hreturn : body.getLast? ≠ some 13) :
    dropLineEnd (body ++ [10]) = body := by
  unfold dropLineEnd
  rw [List.reverse_append, List.reverse_singleton, List.singleton_append]
  split
  · next rest h =>
    have hhead : body.reverse.head? = some 13 := by rw [(List.cons.inj h).2, List.head?_cons]
    exact absurd (List.head?_reverse.symm.trans hhead) hreturn
  · next rest _ h => rw [← (List.cons.inj h).2, List.reverse_reverse]
  · next h => exact absurd rfl (h _)

theorem dropLineEnd_returned (body : List UInt8) : dropLineEnd (body ++ [13, 10]) = body := by
  simp [dropLineEnd]

theorem Splits.eq_cutLines (h : Splits stream bodies) :
    bodies = (cutLines stream).map dropLineEnd := by
  induction h with
  | done => rfl
  | last hne hfree => rw [cutLines_free hne hfree, List.map_singleton, dropLineEnd_free hfree]
  | line hfree hreturn _ ih => rw [cutLines_line hfree, List.map_cons, dropLineEnd_line hreturn, ih]
  | @returned body rest _ hfree _ ih =>
    have hline : 10 ∉ body ++ [13] := by simpa using hfree
    rw [← List.singleton_append (l := 10 :: rest), ← List.append_assoc, cutLines_line hline,
      List.map_cons, List.append_assoc, List.singleton_append, dropLineEnd_returned, ih]

theorem splits_iff : Splits stream bodies ↔ bodies = (cutLines stream).map dropLineEnd := by
  refine ⟨Splits.eq_cutLines, fun h => ?_⟩
  obtain ⟨bodies', h'⟩ := exists_splits stream
  rwa [h, ← h'.eq_cutLines]

end

-- ---------------------------------------------------------------------------
-- Lines of text
-- ---------------------------------------------------------------------------

/-- The bytes that a text is written as. -/
def bytes (text : String) : List UInt8 := text.toUTF8.data.toList

def Readable (body : List UInt8) : Prop := ∃ text, bytes text = body

theorem fromUTF8?_eq_some {body : List UInt8} {text : String} :
    String.fromUTF8? ⟨body.toArray⟩ = some text ↔ bytes text = body := by
  unfold String.fromUTF8? bytes
  split
  · next h =>
    rw [Option.some.injEq]
    constructor
    · rintro rfl
      rfl
    · rintro rfl
      rfl
  · next h =>
    refine ⟨nofun, ?_⟩
    rintro rfl
    exact absurd text.isValidUTF8 h

theorem fromUTF8?_bytes (text : String) : String.fromUTF8? ⟨(bytes text).toArray⟩ = some text :=
  fromUTF8?_eq_some.mpr rfl

theorem fromUTF8?_eq_none {body : List UInt8} :
    String.fromUTF8? ⟨body.toArray⟩ = none ↔ ¬Readable body := by
  rw [Option.eq_none_iff_forall_ne_some]
  simp only [ne_eq, fromUTF8?_eq_some, Readable, not_exists]

section
variable {stream : List UInt8} {bodies : List (List UInt8)}

theorem lineTexts (h : Splits stream bodies) :
    (cutLines stream).map lineText? = bodies.map fun body => String.fromUTF8? ⟨body.toArray⟩ := by
  rw [h.eq_cutLines, List.map_map]
  rfl

theorem filterMap_takeWhile_isSome (texts : List String) (rest : List (Option String)) :
    ((texts.map some ++ rest).takeWhile Option.isSome).filterMap id =
      texts ++ (rest.takeWhile Option.isSome).filterMap id := by
  rw [List.takeWhile_append_of_pos (by simp)]
  simp

/-- A reader stops where a line is not text, and only there. -/
theorem readLines_eq {texts : List String} {rest : List (List UInt8)}
    (h : Splits stream (texts.map bytes ++ rest)) (hrest : ∀ body ∈ rest.head?, ¬Readable body) :
    readLines stream = { lines := texts, complete := rest.isEmpty } := by
  have htexts : (cutLines stream).map lineText? =
      texts.map some ++ rest.map fun body => String.fromUTF8? ⟨body.toArray⟩ := by
    rw [lineTexts h, List.map_append, List.map_map]
    congr 1
    exact List.map_congr_left fun text _ => fromUTF8?_bytes text
  rw [readLines, htexts, filterMap_takeWhile_isSome]
  cases rest with
  | nil => simp
  | cons body more => simp [fromUTF8?_eq_none.mpr (hrest body rfl)]

/-- The lines up to the first that is not text, if there is one. -/
theorem exists_texts (bodies : List (List UInt8)) :
    ∃ (texts : List String) (rest : List (List UInt8)), bodies = texts.map bytes ++ rest ∧
      ∀ body ∈ rest.head?, ¬Readable body := by
  induction bodies with
  | nil => exact ⟨[], [], rfl, nofun⟩
  | cons body bodies ih =>
    by_cases hbody : Readable body
    · obtain ⟨text, rfl⟩ := hbody
      obtain ⟨texts, rest, rfl, hrest⟩ := ih
      exact ⟨text :: texts, rest, rfl, hrest⟩
    · refine ⟨[], body :: bodies, rfl, ?_⟩
      rintro _ ⟨⟩
      exact hbody

end

end AppHost.Text
