import AppHost.Launch.Command

/-!
# What a shell reads in a script

Before it does anything else a shell cuts its script into words and operators. `Shell.read` cuts by
the rules of the standard, and tells a character that stands for itself from one that the shell
would act on. It stops short of the grammar: it does not follow an expansion into what it comes to,
and a reserved word is a word to it. Braces, which some shells expand, have no such meaning in the
standard.

`script_words` says that in the script that runs an application's command as another user the shell
finds the words it was written from, and one operator.
-/

namespace AppHost.Launch

namespace Shell

/-- A character of a word. -/
inductive Piece where
  | literal (c : Char)
  /-- It begins an expansion, or makes the word a pattern or an assignment. -/
  | active (c : Char)
  deriving DecidableEq, Repr

inductive Token where
  | word (pieces : List Piece)
  | operator (text : List Char)
  deriving DecidableEq, Repr

def Token.plain (text : String) : Token := .word (text.toList.map .literal)

/-- The end of a line separates commands as a semicolon does. -/
def operators : List (List Char) :=
  [['&'], ['&', '&'], ['|'], ['|', '|'], [';'], [';', ';'], [';', '&'], ['('], [')'], ['<'],
    ['<', '<'], ['<', '<', '-'], ['<', '&'], ['<', '>'], ['>'], ['>', '>'], ['>', '&'],
    ['>', '|'], ['\n']]

/-- What the reader is in the middle of. -/
inductive Part where
  | gap
  | operator (text : List Char)
  | word (pieces : List Piece)
  deriving DecidableEq, Repr

namespace Part

def tokens : Part → List Token
  | .gap => []
  | .operator text => [.operator text]
  | .word pieces => [.word pieces]

/-- What ends where a word begins or goes on. -/
def before : Part → List Token
  | .word _ => []
  | part => part.tokens

def pieces : Part → List Piece
  | .word pieces => pieces
  | _ => []

def inWord : Part → Bool
  | .word _ => true
  | _ => false

/-- The operator that this character makes of the one before it. -/
def extended? (part : Part) (c : Char) : Option (List Char) :=
  match part with
  | .operator text => if text ++ [c] ∈ operators then some (text ++ [c]) else none
  | _ => none

/-- A tilde counts only as the first character of a word, an equals sign only after it. -/
def piece (part : Part) (c : Char) : Piece :=
  if c ∈ ['$', '`', '*', '?', '['] then .active c
  else if c = '~' ∧ part.inWord = false then .active c
  else if c = '=' ∧ part.inWord = true then .active c
  else .literal c

end Part

inductive Place where
  | plain (part : Part)
  | escaped (part : Part)
  | single (pieces : List Piece)
  | double (pieces : List Piece)
  | doubleEscaped (pieces : List Piece)
  | comment
  deriving DecidableEq, Repr

structure Reader where
  tokens : List Token := []
  place : Place := .plain .gap
  deriving DecidableEq, Repr

namespace Reader

def push (r : Reader) (part : Part) (piece : Piece) : Reader :=
  { tokens := r.tokens ++ part.before, place := .plain (.word (part.pieces ++ [piece])) }

def plain (r : Reader) (part : Part) (c : Char) : Reader :=
  if c = '\\' then { r with place := .escaped part }
  else if c = '\'' then { tokens := r.tokens ++ part.before, place := .single part.pieces }
  else if c = '"' then { tokens := r.tokens ++ part.before, place := .double part.pieces }
  else if c = ' ' ∨ c = '\t' then { tokens := r.tokens ++ part.tokens, place := .plain .gap }
  else match part.extended? c with
    | some text => { r with place := .plain (.operator text) }
    | none =>
      if [c] ∈ operators then { tokens := r.tokens ++ part.tokens, place := .plain (.operator [c]) }
      else if c = '#' ∧ part.inWord = false then
        { tokens := r.tokens ++ part.tokens, place := .comment }
      else r.push part (part.piece c)

/-- A line that ends in a backslash goes on in the next, whatever it was in the middle of. -/
def step (r : Reader) (c : Char) : Reader :=
  match r.place with
  | .plain part => r.plain part c
  | .escaped part => if c = '\n' then { r with place := .plain part } else r.push part (.literal c)
  | .single pieces =>
    if c = '\'' then { r with place := .plain (.word pieces) }
    else { r with place := .single (pieces ++ [.literal c]) }
  | .double pieces =>
    if c = '"' then { r with place := .plain (.word pieces) }
    else if c = '\\' then { r with place := .doubleEscaped pieces }
    else if c = '$' ∨ c = '`' then { r with place := .double (pieces ++ [.active c]) }
    else { r with place := .double (pieces ++ [.literal c]) }
  | .doubleEscaped pieces =>
    if c = '\n' then { r with place := .double pieces }
    else if c ∈ ['$', '`', '"', '\\'] then { r with place := .double (pieces ++ [.literal c]) }
    else { r with place := .double (pieces ++ [.literal '\\', .literal c]) }
  | .comment => if c = '\n' then { r with place := .plain (.operator ['\n']) } else r

/-- The tokens of a script that ends here; there are none if it ends inside a quotation. -/
def finish (r : Reader) : Option (List Token) :=
  match r.place with
  | .plain part => some (r.tokens ++ part.tokens)
  | .comment => some r.tokens
  | _ => none

end Reader

def read (script : String) : Option (List Token) := (script.toList.foldl Reader.step {}).finish

-- ---------------------------------------------------------------------------
-- Quoted words
-- ---------------------------------------------------------------------------

variable {c : Char} {cs : List Char} {part : Part} {ts : List Token} {ps : List Piece}

theorem step_ordinary (hc : c ∉ shellSpecials) (hpart : part.extended? c = none) :
    Reader.step ⟨ts, .plain part⟩ c =
      ⟨ts ++ part.before, .plain (.word (part.pieces ++ [.literal c]))⟩ := by
  have hne : ∀ d ∈ shellSpecials, c ≠ d := fun d hd heq => hc (heq ▸ hd)
  simp only [shellSpecials, List.forall_mem_cons] at hne
  simp [Reader.step, Reader.plain, Reader.push, Part.piece, operators, hpart, hne]

theorem foldl_ordinary (h : ∀ c ∈ cs, c ∉ shellSpecials) :
    cs.foldl Reader.step ⟨ts, .plain (.word ps)⟩ =
      ⟨ts, .plain (.word (ps ++ cs.map .literal))⟩ := by
  induction cs generalizing ps with
  | nil => simp
  | cons c cs ih =>
    have hstep : Reader.step ⟨ts, .plain (.word ps)⟩ c =
        ⟨ts, .plain (.word (ps ++ [.literal c]))⟩ := by
      rw [step_ordinary (h c List.mem_cons_self) rfl]
      simp [Part.before, Part.pieces]
    rw [List.foldl_cons, hstep, ih fun d hd => h d (List.mem_cons_of_mem c hd)]
    simp

/-- Between quotes a quote of the word's own ends the quotation, and a new one begins after it. -/
theorem foldl_quoteChar (c : Char) :
    (quoteChar c).foldl Reader.step ⟨ts, .single ps⟩ = ⟨ts, .single (ps ++ [.literal c])⟩ := by
  by_cases hc : c = '\''
  · subst hc
    simp [quoteChar, Reader.step, Reader.plain, Reader.push, Part.before, Part.pieces]
  · simp [quoteChar, Reader.step, hc]

theorem foldl_quoted (cs : List Char) :
    (cs.flatMap quoteChar).foldl Reader.step ⟨ts, .single ps⟩ =
      ⟨ts, .single (ps ++ cs.map .literal)⟩ := by
  induction cs generalizing ps with
  | nil => simp
  | cons c cs ih =>
    rw [List.flatMap_cons, List.foldl_append, foldl_quoteChar, ih]
    simp

theorem foldl_quoteChars (cs : List Char) :
    (quoteChars cs).foldl Reader.step ⟨ts, .plain .gap⟩ =
      ⟨ts, .plain (.word (cs.map .literal))⟩ := by
  unfold quoteChars
  split
  · next h =>
    simp only [Bool.and_eq_true, Bool.not_eq_true', List.isEmpty_eq_false_iff, List.all_eq_true,
      List.contains_eq_mem, decide_eq_false_iff_not] at h
    obtain ⟨hne, hplain⟩ := h
    obtain ⟨c, cs, rfl⟩ := List.exists_cons_of_ne_nil hne
    rw [List.foldl_cons, step_ordinary (hplain c List.mem_cons_self) rfl,
      foldl_ordinary fun d hd => hplain d (List.mem_cons_of_mem c hd)]
    simp [Part.before, Part.tokens, Part.pieces]
  · -- The opening quote, what stands between, and the closing one.
    have hopen : Reader.step ⟨ts, .plain .gap⟩ '\'' = ⟨ts, .single []⟩ := by
      simp [Reader.step, Reader.plain, Part.before, Part.tokens, Part.pieces]
    rw [List.cons_append, List.foldl_cons, hopen, List.foldl_append, foldl_quoted]
    simp [Reader.step]

-- ---------------------------------------------------------------------------
-- Command lines
-- ---------------------------------------------------------------------------

theorem step_space : Reader.step ⟨ts, .plain (.word ps)⟩ ' ' = ⟨ts ++ [.word ps], .plain .gap⟩ := by
  simp [Reader.step, Reader.plain, Part.tokens]

theorem toList_commandLine (words : List String) :
    (commandLine words).toList =
      [' '].intercalate (words.map fun word => quoteChars word.toList) := by
  rw [commandLine, String.toList_intercalate, List.map_map]
  congr 1
  exact List.map_congr_left fun word _ => String.toList_ofList

theorem finish_commandLine (words : List String) :
    ((commandLine words).toList.foldl Reader.step ⟨ts, .plain .gap⟩).finish =
      some (ts ++ words.map .plain) := by
  rw [toList_commandLine]
  induction words generalizing ts with
  | nil => rfl
  | cons word words ih =>
    cases words with
    | nil => simp [foldl_quoteChars, Reader.finish, Part.tokens, Token.plain]
    | cons next words =>
      rw [List.map_cons, List.map_cons, List.intercalate_cons_cons, List.foldl_append,
        List.foldl_append, foldl_quoteChars, List.foldl_cons, step_space, List.foldl_nil]
      refine ih.trans ?_
      simp [Token.plain]

example : read "cd /srv/it's;ls" = none := by cbv

example :
    read "ls $HOME ~ # all" = some [.plain "ls", .word (.active '$' :: "HOME".toList.map .literal),
      .word [.active '~']] := by cbv

end Shell

/-- The shell that `su` runs is told to enter the application's directory and then to run, word for
word, the command that would be run without `su`. -/
theorem script_words (config : LauncherConfig) (app : AppSpec) (user : String) :
    ∃ script, (Command.forWorker config app user true).program = "su" ∧
      (Command.forWorker config app user true).args = ["-s", "/bin/bash", "--login", "-p", "--",
        user, "-c", script] ∧
      Shell.read script = some (.plain "cd" :: .plain app.appDir.text :: .operator ['&', '&'] ::
        ((Command.forWorker config app user false).program ::
          (Command.forWorker config app user false).args).map .plain) := by
  let c := Command.adapter config app
  refine ⟨c.script app.appDir, rfl, rfl, ?_⟩
  have hcd : "cd ".toList.foldl Shell.Reader.step {} = ⟨[.plain "cd"], .plain .gap⟩ := by cbv
  have hand (ts : List Shell.Token) (ps : List Shell.Piece) :
      " && ".toList.foldl Shell.Reader.step ⟨ts, .plain (.word ps)⟩ =
        ⟨ts ++ [.word ps, .operator ['&', '&']], .plain .gap⟩ := by
    simp [Shell.Reader.step, Shell.Reader.plain, Shell.Part.tokens, Shell.Part.extended?,
      Shell.operators]
  rw [Shell.read, Command.script, String.toList_append, String.toList_append, String.toList_append,
    List.foldl_append, List.foldl_append, List.foldl_append, hcd, quoteWord, String.toList_ofList,
    Shell.foldl_quoteChars, hand, Shell.finish_commandLine]
  simp [Command.forWorker, c, Shell.Token.plain]

end AppHost.Launch
