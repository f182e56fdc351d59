import AppHost.Json.Printer
import AppHost.Json.Reader
import Mathlib.Data.List.Basic

/-!
# The compact form is unambiguous

A value whose numbers are all integers can be told from its compact form, also when more text comes
after it: `Integral.unambiguous`. Its strings are read back by the reader, its numerals by where
they stop, and the items between two brackets one by one. The form has no line break in it.
-/

namespace AppHost.Json

-- ---------------------------------------------------------------------------
-- Strings
-- ---------------------------------------------------------------------------

theorem zeroPadded_digits (n : Nat) (h : n < 32) :
    Text.zeroPadded 4 (Text.digits 16 n) =
      ['0', '0', Text.digit (n / 16), Text.digit (n % 16)] := by
  rw [Text.digits]
  split
  · next hn =>
    obtain hlt : n < 16 := by omega
    simp [Text.zeroPadded, Nat.div_eq_of_lt hlt, Nat.mod_eq_of_lt hlt, Text.digit]
  · next hn =>
    have hdiv : n / 16 < 16 := by omega
    rw [Text.digits, dif_pos (.inr hdiv)]
    simp [Text.zeroPadded]

theorem numeral?_digits : ∀ n < 32,
    Text.numeral? 16 ['0', '0', Text.digit (n / 16), Text.digit (n % 16)] = some n := by
  decide

def pieceOf (c : Char) : Piece :=
  if c.toNat < 32 ∧ c ∉ ['\n', '\r', '\t', '\x08', '\x0c'] then .unit c.toNat else .char c

theorem pieces_escapeChar (c : Char) (rest : List Char) :
    pieces (escapeChar c ++ rest) = andThen (pieceOf c) (pieces rest) := by
  unfold escapeChar
  split
  case h_8 =>
    next hquote hback hn hr ht hb hf =>
    split
    · next hlt =>
      have hpiece : pieceOf c = .unit c.toNat := if_pos ⟨hlt, by simpa using ⟨hn, hr, ht, hb, hf⟩⟩
      rw [zeroPadded_digits _ hlt, hpiece]
      simp [pieces, numeral?_digits _ hlt]
    · next hge =>
      have hpiece : pieceOf c = .char c := if_neg fun h => hge h.1
      rw [List.cons_append, List.nil_append, hpiece, pieces.eq_def]
      split <;> simp_all [Nat.not_lt.mpr]
  all_goals simp [pieces, letterEscape?, pieceOf]

theorem pieces_flatMap (cs rest : List Char) :
    pieces (cs.flatMap escapeChar ++ '"' :: rest) = some (cs.map pieceOf, rest) := by
  induction cs with
  | nil => simp [pieces]
  | cons c cs ih => simp [pieces_escapeChar, ih, andThen]

theorem joinPieces_unit (n : Nat) (h : n < 32) (ps : List Piece) :
    joinPieces (.unit n :: ps) = (joinPieces ps).map (Char.ofNat n :: ·) := by
  have hhigh : isHighSurrogate n = false := by simp [isHighSurrogate]; omega
  have hlow : isLowSurrogate n = false := by simp [isLowSurrogate]; omega
  match ps with
  | [] | .char _ :: _ | .unit _ :: _ => simp [joinPieces, hhigh, hlow]

theorem joinPieces_cons (c : Char) (ps : List Piece) :
    joinPieces (pieceOf c :: ps) = (joinPieces ps).map (c :: ·) := by
  unfold pieceOf
  split
  · next h => rw [joinPieces_unit _ h.1, Char.ofNat_toNat]
  · rw [joinPieces]

/-- The reader gets back the string that was printed. -/
theorem stringAfterQuote_stringText (s : String) (rest : List Char) :
    stringAfterQuote .kept (s.toList.flatMap escapeChar ++ '"' :: rest) = some (s, rest) := by
  have hjoin : ∀ cs, joinPieces (cs.map pieceOf) = some cs := by
    intro cs
    induction cs with
    | nil => rfl
    | cons c cs ih => rw [List.map_cons, joinPieces_cons, ih, Option.map_some]
  simp [stringAfterQuote, pieces_flatMap, hjoin]

theorem stringText_unambiguous {s t : String} {rest rest' : List Char}
    (h : stringText s ++ rest = stringText t ++ rest') : s = t ∧ rest = rest' := by
  have h : s.toList.flatMap escapeChar ++ '"' :: rest = t.toList.flatMap escapeChar ++
      '"' :: rest' := by
    simpa [stringText] using h
  have hread := stringAfterQuote_stringText s rest
  rw [h, stringAfterQuote_stringText] at hread
  simpa [eq_comm] using hread

-- ---------------------------------------------------------------------------
-- Numerals
-- ---------------------------------------------------------------------------

/-- The text that comes after a value: there is none, or it goes on with a comma or closes a
bracket. -/
def Follows (rest : List Char) : Prop := ∀ c ∈ rest.head?, c ∈ [',', ']', '\x7d']

theorem follows_nil : Follows [] := nofun

theorem follows_cons {c : Char} (h : c ∈ [',', ']', '\x7d']) (rest : List Char) :
    Follows (c :: rest) := by
  rintro d ⟨⟩
  exact h

def isNumeral (c : Char) : Bool := c.isDigit || c = '-'

theorem toList_int (n : Int) : (toString n).toList =
    if 0 ≤ n then Nat.toDigits 10 n.toNat else '-' :: Nat.toDigits 10 (-n).toNat := by
  rw [Int.toString_eq_repr, Int.repr_eq_if]
  split <;> simp [Nat.repr_eq_ofList_toDigits]

theorem isNumeral_int (n : Int) : ∀ c ∈ (toString n).toList, isNumeral c = true := by
  have hdigits : ∀ m c, c ∈ Nat.toDigits 10 m → isNumeral c = true := by
    intro m c hc
    rw [isNumeral, Nat.isDigit_of_mem_toDigits (by decide) (by decide) hc, Bool.true_or]
  intro c hc
  rw [toList_int] at hc
  split at hc
  · exact hdigits _ c hc
  · rcases List.mem_cons.mp hc with rfl | hc
    · rfl
    · exact hdigits _ c hc

theorem int_ne_nil (n : Int) : (toString n).toList ≠ [] := by
  rw [toList_int]
  split
  · exact Nat.toDigits_ne_nil
  · exact List.cons_ne_nil _ _

theorem toDigits_inj {n m : Nat} (h : Nat.toDigits 10 n = Nat.toDigits 10 m) : n = m := by
  rw [← Nat.ofDigitChars_ten_toDigits (n := n), h, Nat.ofDigitChars_ten_toDigits]

theorem int_inj {n m : Int} (h : (toString n).toList = (toString m).toList) : n = m := by
  have hminus : ∀ a b, Nat.toDigits 10 a ≠ '-' :: b := by
    intro a b hab
    have hdigit := Nat.isDigit_of_mem_toDigits (by decide) (by decide) (hab ▸ List.mem_cons_self)
    exact absurd hdigit (by decide)
  rw [toList_int, toList_int] at h
  split at h <;> split at h
  · have := toDigits_inj h
    omega
  · exact absurd h (hminus _ _)
  · exact absurd h.symm (hminus _ _)
  · have := toDigits_inj (List.cons.inj h).2
    omega

/-- A numeral goes as far as its characters do. -/
theorem takeWhile_int (n : Int) (hrest : Follows rest) :
    ((toString n).toList ++ rest).takeWhile isNumeral = (toString n).toList := by
  rw [List.takeWhile_append_of_pos (isNumeral_int n)]
  cases rest with
  | nil => simp
  | cons c cs =>
    have hc : isNumeral c = false := by
      have hmem := hrest c rfl
      simp only [List.mem_cons, List.not_mem_nil, or_false] at hmem
      rcases hmem with rfl | rfl | rfl <;> decide
    rw [List.takeWhile_cons_of_neg (by simp [hc]), List.append_nil]

theorem int_unambiguous {n m : Int} (hrest : Follows rest) (hrest' : Follows rest')
    (h : (toString n).toList ++ rest = (toString m).toList ++ rest') : n = m ∧ rest = rest' := by
  have htext : (toString n).toList = (toString m).toList := by
    rw [← takeWhile_int n hrest, h, takeWhile_int m hrest']
  rw [htext] at h
  exact ⟨int_inj htext, List.append_cancel_left h⟩

-- ---------------------------------------------------------------------------
-- Items between brackets
-- ---------------------------------------------------------------------------

theorem separated_cons (item : List Char) (items : List (List Char)) :
    separated (item :: items) = item ++ items.flatMap (',' :: ·) := by
  induction items generalizing item with
  | nil => simp [separated]
  | cons next items ih => rw [separated, ih next, List.flatMap_cons, List.cons_append]; simp

theorem not_follows_append {cs : List Char} (h : ¬Follows cs) (rest : List Char) :
    ¬Follows (cs ++ rest) := by
  cases cs with
  | nil => exact absurd follows_nil h
  | cons c cs => exact h

section
variable {f : α → List Char} {xs ys : List α} {close : Char} {rest rest' : List Char}

/-- The text after an item goes on with the next or closes the bracket. -/
theorem follows_tail (hclose : close ∈ [']', '\x7d']) (xs : List α) (rest : List Char) :
    Follows (xs.flatMap (',' :: f ·) ++ close :: rest) := by
  cases xs with
  | nil => exact follows_cons (List.mem_cons_of_mem _ hclose) rest
  | cons => exact follows_cons (by simp) _

theorem tail_unambiguous (hclose : close ∈ [']', '\x7d'])
    (hf : ∀ x ∈ xs, ∀ y ∈ ys, ∀ rest rest', Follows rest → Follows rest' →
      f x ++ rest = f y ++ rest' → x = y ∧ rest = rest')
    (h : xs.flatMap (',' :: f ·) ++ close :: rest = ys.flatMap (',' :: f ·) ++ close :: rest') :
    xs = ys ∧ rest = rest' := by
  have hcomma : close ≠ ',' := by
    rintro rfl
    simp at hclose
  induction xs generalizing ys with
  | nil =>
    cases ys with
    | nil => exact ⟨rfl, (List.cons.inj h).2⟩
    | cons y ys => exact absurd (List.cons.inj h).1 hcomma
  | cons x xs ih =>
    cases ys with
    | nil => exact absurd (List.cons.inj h).1.symm hcomma
    | cons y ys =>
      simp only [List.flatMap_cons, List.cons_append, List.append_assoc] at h
      obtain ⟨rfl, htail⟩ := hf x (by simp) y (by simp) _ _ (follows_tail hclose xs rest)
        (follows_tail hclose ys rest') (List.cons.inj h).2
      obtain ⟨rfl, hrest⟩ := ih (fun a ha b hb => hf a (by simp [ha]) b (by simp [hb])) htail
      exact ⟨rfl, hrest⟩

/-- Items that can each be told from their text can be told from the text between the brackets. -/
theorem separated_unambiguous (hclose : close ∈ [']', '\x7d'])
    (hopen : ∀ x ∈ xs ++ ys, ¬Follows (f x))
    (hf : ∀ x ∈ xs, ∀ y ∈ ys, ∀ rest rest', Follows rest → Follows rest' →
      f x ++ rest = f y ++ rest' → x = y ∧ rest = rest')
    (h : separated (xs.map f) ++ close :: rest = separated (ys.map f) ++ close :: rest') :
    xs = ys ∧ rest = rest' := by
  have hends : ∀ rest, Follows (close :: rest) := follows_cons (List.mem_cons_of_mem _ hclose)
  cases xs with
  | nil =>
    cases ys with
    | nil => exact ⟨rfl, (List.cons.inj h).2⟩
    | cons y ys =>
      simp only [List.map_nil, separated, List.nil_append, List.map_cons, separated_cons,
        List.append_assoc] at h
      exact absurd (hends rest) (h.symm ▸ not_follows_append (hopen y (by simp)) _)
  | cons x xs =>
    cases ys with
    | nil =>
      simp only [List.map_nil, separated, List.nil_append, List.map_cons, separated_cons,
        List.append_assoc] at h
      exact absurd (hends rest') (h ▸ not_follows_append (hopen x (by simp)) _)
    | cons y ys =>
      simp only [List.map_cons, separated_cons, List.append_assoc, List.flatMap_map] at h
      obtain ⟨rfl, htail⟩ := hf x (by simp) y (by simp) _ _ (follows_tail hclose xs rest)
        (follows_tail hclose ys rest') h
      obtain ⟨rfl, hrest⟩ := tail_unambiguous hclose
        (fun a ha b hb => hf a (by simp [ha]) b (by simp [hb])) htail
      exact ⟨rfl, hrest⟩

end

-- ---------------------------------------------------------------------------
-- Values
-- ---------------------------------------------------------------------------

/-- Every number in the value is an integer. -/
inductive Integral : Json → Prop
  | null : Integral .null
  | bool (value : Bool) : Integral (.bool value)
  | int (value : Int) : Integral (.int value)
  | str (value : String) : Integral (.str value)
  | array {items : List Json} (h : ∀ item ∈ items, Integral item) : Integral (.array items)
  | object {fields : List (String × Json)} (h : ∀ f ∈ fields, Integral f.2) :
      Integral (.object fields)

theorem itemTexts_eq (items : List Json) : itemTexts items = items.map text := by
  induction items with
  | nil => rfl
  | cons item items ih => rw [itemTexts, ih, List.map_cons]

def fieldText (f : String × Json) : List Char := stringText f.1 ++ ':' :: f.2.text

theorem fieldTexts_eq (fields : List (String × Json)) :
    fieldTexts fields = fields.map fieldText := by
  induction fields with
  | nil => rfl
  | cons f fields ih => rw [fieldTexts, ih, List.map_cons, fieldText]

def kindOf (c : Char) : Nat :=
  if isNumeral c then 2 else match c with
    | 'n' => 0
    | 't' | 'f' => 1
    | '"' => 3
    | '[' => 4
    | '\x7b' => 5
    | _ => 6

def kind : Json → Nat
  | .null => 0
  | .bool _ => 1
  | .int _ | .real _ => 2
  | .str _ => 3
  | .array _ => 4
  | .object _ => 5

theorem Integral.text_cons {a : Json} (h : Integral a) :
    ∃ c cs, a.text = c :: cs ∧ kindOf c = a.kind := by
  cases h with
  | null => exact ⟨_, _, rfl, rfl⟩
  | bool value => cases value <;> exact ⟨_, _, rfl, rfl⟩
  | int value =>
    obtain ⟨c, cs, hcs⟩ := List.exists_cons_of_ne_nil (int_ne_nil value)
    have hc : isNumeral c = true := isNumeral_int value c (hcs ▸ List.mem_cons_self)
    exact ⟨c, cs, hcs, by simp [kindOf, hc, kind]⟩
  | str | array | object => exact ⟨_, _, rfl, rfl⟩

theorem Integral.not_follows {a : Json} (h : Integral a) : ¬Follows a.text := by
  obtain ⟨c, cs, htext, hkind⟩ := h.text_cons
  intro hfollows
  have hmem : c ∈ [',', ']', '\x7d'] := hfollows c (by rw [htext]; rfl)
  have hother : kindOf c = 6 := by
    simp only [List.mem_cons, List.not_mem_nil, or_false] at hmem
    rcases hmem with rfl | rfl | rfl <;> decide
  cases h <;> simp [kind, hother] at hkind

theorem not_follows_fieldText (f : String × Json) : ¬Follows (fieldText f) := by
  intro h
  exact absurd (h '"' rfl) (by decide)

theorem Integral.kind_eq {a b : Json} (ha : Integral a) (hb : Integral b)
    (h : a.text ++ rest = b.text ++ rest') : a.kind = b.kind := by
  obtain ⟨c, cs, hac, hka⟩ := ha.text_cons
  obtain ⟨d, ds, hbd, hkb⟩ := hb.text_cons
  rw [hac, hbd] at h
  rw [← hka, ← hkb, (List.cons.inj h).1]

theorem Integral.unambiguous {a b : Json} (ha : Integral a) (hb : Integral b)
    {rest rest' : List Char} (hrest : Follows rest) (hrest' : Follows rest')
    (h : a.text ++ rest = b.text ++ rest') : a = b ∧ rest = rest' := by
  have hkind := ha.kind_eq hb h
  induction ha generalizing b rest rest' with
  | null =>
    cases hb with
    | null => exact ⟨rfl, List.append_cancel_left h⟩
    | _ => simp [kind] at hkind
  | bool value =>
    cases hb with
    | bool value' => cases value <;> cases value' <;> simp_all [text]
    | _ => simp [kind] at hkind
  | int value =>
    cases hb with
    | int value' =>
      obtain ⟨rfl, heq⟩ := int_unambiguous hrest hrest' h
      exact ⟨rfl, heq⟩
    | _ => simp [kind] at hkind
  | str value =>
    cases hb with
    | str value' =>
      obtain ⟨rfl, heq⟩ := stringText_unambiguous h
      exact ⟨rfl, heq⟩
    | _ => simp [kind] at hkind
  | @array items hitems ih =>
    cases hb with
    | @array items' hitems' =>
      simp only [text, itemTexts_eq, List.cons_append, List.append_assoc, List.cons.injEq, true_and,
        List.nil_append] at h
      obtain ⟨rfl, heq⟩ := separated_unambiguous (by simp)
        (fun x hx => (List.mem_append.mp hx).elim (fun hx => (hitems x hx).not_follows)
          fun hx => (hitems' x hx).not_follows)
        (fun x hx y hy rest rest' hr hr' heq =>
          ih x hx (hitems' y hy) hr hr' heq ((hitems x hx).kind_eq (hitems' y hy) heq)) h
      exact ⟨rfl, heq⟩
    | _ => simp [kind] at hkind
  | @object fields hfields ih =>
    cases hb with
    | @object fields' hfields' =>
      simp only [text, fieldTexts_eq, List.cons_append, List.append_assoc, List.cons.injEq,
        true_and, List.nil_append] at h
      obtain ⟨rfl, heq⟩ := separated_unambiguous (by simp) (fun f _ => not_follows_fieldText f)
        (fun f hf g hg rest rest' hr hr' heq => by
          simp only [fieldText, List.append_assoc, List.cons_append] at heq
          obtain ⟨hname, heq⟩ := stringText_unambiguous heq
          have heq := (List.cons.inj heq).2
          obtain ⟨hvalue, hrest⟩ :=
            ih f hf (hfields' g hg) hr hr' heq ((hfields f hf).kind_eq (hfields' g hg) heq)
          exact ⟨Prod.ext hname hvalue, hrest⟩) h
      exact ⟨rfl, heq⟩
    | _ => simp [kind] at hkind

theorem Integral.compact_inj {a b : Json} (ha : Integral a) (hb : Integral b)
    (h : a.compact = b.compact) : a = b := by
  have htext : a.text ++ [] = b.text ++ [] := by
    simpa [compact, String.ofList_inj] using h
  exact (ha.unambiguous hb follows_nil follows_nil htext).1

-- ---------------------------------------------------------------------------
-- One line
-- ---------------------------------------------------------------------------

theorem newline_notMem_escapeChar (c : Char) : '\n' ∉ escapeChar c := by
  unfold escapeChar
  split
  case h_8 =>
    next hn _ _ _ _ =>
    split
    · next hlt =>
      rw [zeroPadded_digits _ hlt]
      have hdigit : ∀ n < 16, Text.digit n ≠ '\n' := by decide
      have h₁ := hdigit (c.toNat / 16) (by omega)
      have h₂ := hdigit (c.toNat % 16) (Nat.mod_lt _ (by omega))
      simp [h₁.symm, h₂.symm]
    · simpa [eq_comm] using hn
  all_goals simp

theorem newline_notMem_stringText (s : String) : '\n' ∉ stringText s := by
  simp [stringText, newline_notMem_escapeChar]

theorem exists_of_mem_separated {c : Char} (hc : c ≠ ',') {items : List (List Char)}
    (h : c ∈ separated items) : ∃ item ∈ items, c ∈ item := by
  cases items with
  | nil => cases h
  | cons item items =>
    rw [separated_cons, List.mem_append, List.mem_flatMap] at h
    rcases h with h | ⟨x, hx, h⟩
    · exact ⟨item, List.mem_cons_self, h⟩
    · exact ⟨x, List.mem_cons_of_mem _ hx, (List.mem_cons.mp h).resolve_left hc⟩

theorem Integral.one_line {a : Json} (ha : Integral a) : '\n' ∉ a.text := by
  induction ha with
  | null => decide
  | bool value => cases value <;> decide
  | int value => exact fun h => absurd (isNumeral_int value _ h) (by decide)
  | str value => exact newline_notMem_stringText value
  | @array items _ ih =>
    intro h
    simp only [text, itemTexts_eq, List.cons_append, List.mem_cons, List.mem_append,
      List.not_mem_nil, or_false] at h
    have h := (h.resolve_left (by decide)).resolve_right (by decide)
    obtain ⟨_, ht, h⟩ := exists_of_mem_separated (by decide) h
    obtain ⟨item, hitem, rfl⟩ := List.mem_map.mp ht
    exact ih item hitem h
  | @object fields _ ih =>
    intro h
    simp only [text, fieldTexts_eq, List.cons_append, List.mem_cons, List.mem_append,
      List.not_mem_nil, or_false] at h
    have h := (h.resolve_left (by decide)).resolve_right (by decide)
    obtain ⟨_, ht, h⟩ := exists_of_mem_separated (by decide) h
    obtain ⟨f, hf, rfl⟩ := List.mem_map.mp ht
    simp only [fieldText, List.mem_append, List.mem_cons] at h
    rcases h with h | h | h
    · exact newline_notMem_stringText f.1 h
    · exact absurd h (by decide)
    · exact ih f hf h

end AppHost.Json
