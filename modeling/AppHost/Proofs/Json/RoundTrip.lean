import AppHost.Proofs.Json.Unambiguous

/-!
# Reading back what was printed

The reader gets back an object of plain values from its compact form: `read?_compact`. So nothing
that stands in one of its texts can end that text, or pass for another field.
-/

namespace AppHost.Json

/-- A text, a truth value or nothing. -/
inductive Plain : Json → Prop
  | null : Plain .null
  | bool (value : Bool) : Plain (.bool value)
  | str (value : String) : Plain (.str value)

theorem Plain.integral {a : Json} (h : Plain a) : Integral a := by
  cases h with
  | null => exact .null
  | bool value => exact .bool value
  | str value => exact .str value

theorem plain_ofOption {f : α → Json} (hf : ∀ a, Plain (f a)) (x : Option α) :
    Plain (ofOption f x) := by
  cases x with
  | none => exact .null
  | some a => exact hf a

theorem skipBlanks_of_not_blank {c : Char} (h : isBlank c = false) (cs : List Char) :
    skipBlanks (c :: cs) = c :: cs :=
  List.dropWhile_cons_of_neg (by simp [h])

theorem value_of_plain {a : Json} (h : Plain a) (depth : Nat) (rest : List Char) :
    value .kept depth (a.text ++ rest) = some (a, rest) := by
  unfold value
  cases h with
  | null => simp [text, skipBlanks_of_not_blank (c := 'n') rfl]
  | bool value =>
    cases value with
    | true => simp [text, skipBlanks_of_not_blank (c := 't') rfl]
    | false => simp [text, skipBlanks_of_not_blank (c := 'f') rfl]
  | str value =>
    simp [text, stringText, skipBlanks_of_not_blank (c := '"') rfl, stringAfterQuote_stringText]

section
variable {f : String × Json} {fs : List (String × Json)} {names : String → Scan Json}
  {rest : List Char}

/-- The reader of a field's value goes by its name, and need only be good at the value that
follows. -/
theorem field_fieldText (h : names f.1 (f.2.text ++ rest) = some (f.2, rest)) :
    field .kept names (fieldText f ++ rest) = some (f, rest) := by
  have htext : fieldText f ++
      rest = '"' :: (f.1.toList.flatMap escapeChar ++ '"' :: ':' :: (f.2.text ++ rest)) := by
    simp [fieldText, stringText]
  unfold field
  rw [htext, skipBlanks_of_not_blank rfl]
  simp [stringAfterQuote_stringText, skipBlanks_of_not_blank (c := ':') rfl, h]

/-- The first field and those after it, each behind its comma. -/
theorem fields_flatMap {scan : Scan (String × Json)} {fuel : Nat} (hfuel : fs.length < fuel)
    (h : ∀ g ∈ f :: fs, ∀ rest, scan (fieldText g ++ rest) = some (g, rest)) (rest : List Char) :
    fields scan (fieldText f ++ fs.flatMap (',' :: fieldText ·) ++ '\x7d' :: rest) fuel =
      some (f :: fs, rest) := by
  induction fs generalizing f fuel with
  | nil =>
    obtain ⟨fuel, rfl⟩ := Nat.exists_eq_add_of_lt hfuel
    simp [fields, h f List.mem_cons_self, skipBlanks_of_not_blank (c := '\x7d') rfl]
  | cons g gs ih =>
    obtain ⟨fuel, rfl⟩ : ∃ n, fuel = n + 1 := ⟨fuel - 1, by omega⟩
    have hlength : gs.length < fuel := by simpa using hfuel
    have hrest := ih hlength fun x hx => h x (List.mem_cons_of_mem f hx)
    rw [List.append_assoc] at hrest
    simp [fields, h f List.mem_cons_self, skipBlanks_of_not_blank (c := ',') rfl, hrest]

end

theorem length_le_flatMap (fs : List (String × Json)) :
    fs.length ≤ (fs.flatMap (',' :: fieldText ·)).length := by
  induction fs with
  | nil => simp
  | cons f fs ih =>
    simp only [List.length_cons, List.flatMap_cons, List.length_append]
    omega

theorem object_text (fields : List (String × Json)) :
    (Json.object fields).text = '\x7b' :: separated (fields.map fieldText) ++ ['\x7d'] := by
  rw [text, fieldTexts_eq]

theorem objectAfterBrace_separated {fields : List (String × Json)} {scan : Scan (String × Json)}
    (h : ∀ g ∈ fields, ∀ rest, scan (fieldText g ++ rest) = some (g, rest)) (rest : List Char) :
    objectAfterBrace scan (separated (fields.map fieldText) ++ '\x7d' :: rest) =
      some (fields, rest) := by
  unfold objectAfterBrace
  cases fields with
  | nil => simp [separated, skipBlanks_of_not_blank (c := '\x7d') rfl]
  | cons f fs =>
    have htext : separated ((f :: fs).map fieldText) ++ '\x7d' :: rest =
        fieldText f ++ fs.flatMap (',' :: fieldText ·) ++ '\x7d' :: rest := by
      rw [List.map_cons, separated_cons, List.flatMap_map]
    have hfuel : fs.length <
        (fieldText f ++ fs.flatMap (',' :: fieldText ·) ++ '\x7d' :: rest).length + 1 := by
      have := length_le_flatMap fs
      simp only [List.length_append]
      omega
    have hread := fields_flatMap hfuel h rest
    obtain ⟨cs, hquote⟩ : ∃ cs,
        fieldText f ++ fs.flatMap (',' :: fieldText ·) ++ '\x7d' :: rest = '"' :: cs := ⟨_, rfl⟩
    rw [htext]
    rw [hquote] at hread ⊢
    rw [skipBlanks_of_not_blank rfl]
    exact hread

theorem value_object {fields : List (String × Json)} (h : ∀ f ∈ fields, Plain f.2) (depth : Nat)
    (rest : List Char) :
    value .kept (depth + 1) ((Json.object fields).text ++ rest) = some (.object fields, rest) := by
  have hfield : ∀ f ∈ fields, ∀ rest,
      field .kept (fun _ => value .kept depth) (fieldText f ++ rest) = some (f, rest) :=
    fun f hf rest => field_fieldText (value_of_plain (h f hf) depth rest)
  have hfields := objectAfterBrace_separated hfield rest
  unfold value
  rw [object_text, List.cons_append, List.cons_append, List.append_assoc,
    skipBlanks_of_not_blank rfl]
  simp [hfields]

/-- What is printed of an object with plain values reads as that object. -/
theorem read?_compact {fields : List (String × Json)} (h : ∀ f ∈ fields, Plain f.2) :
    read? (Json.object fields).compact = some (.object fields) := by
  obtain ⟨depth, hdepth⟩ : ∃ depth, maxDepth = depth + 1 := ⟨_, rfl⟩
  have hvalue := value_object h depth []
  rw [List.append_nil] at hvalue
  rw [read?, compact, String.toList_ofList, hdepth, hvalue]
  rfl

end AppHost.Json
