import Mathlib.Data.List.Basic

/-!
# The words of a shell command

`shellSplit` reads a command the way `shlex.split` does: blanks separate words,
single quotes keep everything, double quotes keep everything but a backslash in
front of a double quote or of a backslash, and outside of quotes a backslash
keeps the next character.  `shellJoin` is `shlex.join`, which quotes every word
that has a character of its own meaning.  What is joined is read back as it was
(`shellSplit_shellJoin`).
-/

namespace ShadowDataPlane.Foundation

/-! ## Reading -/

/-- Why a text has no words. -/
inductive ShellError where
  | noClosingQuotation
  | noEscapedCharacter
deriving DecidableEq, Repr

/-- The state of the reader; an escape returns to the quotes it stands in. -/
inductive ShellState where
  | blank
  | word
  | quoted (mark : Char)
  | escaped (within : Option Char)
deriving DecidableEq, Repr

/-- The lexer between two characters. -/
structure ShellLexer where
  state : ShellState := .blank
  token : List Char := []
  quoted : Bool := false
  words : List (List Char) := []
deriving DecidableEq, Repr

/-- The blanks which separate words. -/
def shellBlank (char : Char) : Bool :=
  char = ' ' || char = '\t' || char = '\r' || char = '\n'

/-- The marks which open and close quotes. -/
def shellQuote (char : Char) : Bool := char = '\'' || char = '"'

namespace ShellLexer

/-- A token is a word unless nothing was read at all. -/
def emit (lexer : ShellLexer) : ShellLexer :=
  if lexer.token = [] ∧ lexer.quoted = false then lexer
  else
    { lexer with
      token := []
      quoted := false
      words := lexer.words ++ [lexer.token] }

/-- The reader takes one character. -/
def feed (lexer : ShellLexer) (char : Char) : ShellLexer :=
  match lexer.state with
  | .blank =>
      if shellBlank char then lexer.emit
      else if char = '\\' then { lexer with state := .escaped none }
      else if shellQuote char then { lexer with state := .quoted char }
      else { lexer with state := .word, token := [char] }
  | .word =>
      if shellBlank char then { lexer.emit with state := .blank }
      else if shellQuote char then { lexer with state := .quoted char }
      else if char = '\\' then { lexer with state := .escaped none }
      else { lexer with token := lexer.token ++ [char] }
  | .quoted mark =>
      if char = mark then { lexer with state := .word, quoted := true }
      else if char = '\\' ∧ mark = '"' then
        { lexer with state := .escaped (some mark), quoted := true }
      else { lexer with token := lexer.token ++ [char], quoted := true }
  | .escaped none =>
      { lexer with state := .word, token := lexer.token ++ [char] }
  | .escaped (some mark) =>
      -- Only the mark and the backslash lose their backslash.
      if char = '\\' ∨ char = mark then
        { lexer with state := .quoted mark, token := lexer.token ++ [char] }
      else
        { lexer with
          state := .quoted mark
          token := lexer.token ++ ['\\', char] }

/-- The reader takes a text. -/
def read (lexer : ShellLexer) (text : List Char) : ShellLexer :=
  text.foldl feed lexer

/-- The end of the text. -/
def finish (lexer : ShellLexer) : Except ShellError (List (List Char)) :=
  match lexer.state with
  | .quoted _ => .error .noClosingQuotation
  | .escaped _ => .error .noEscapedCharacter
  | _ => .ok lexer.emit.words

end ShellLexer

/-- `shlex.split`. -/
def shellSplit (text : List Char) : Except ShellError (List (List Char)) :=
  (ShellLexer.read {} text).finish

/-! ## Writing -/

/-- The characters which need no quotes. -/
def shellSafe (char : Char) : Bool :=
  char.isAlphanum || char = '_' || char = '@' || char = '%' || char = '+' ||
    char = '=' || char = ':' || char = ',' || char = '.' || char = '/' ||
    char = '-'

/-- A single quote leaves the quotes and comes back. -/
def quoteChar (char : Char) : List Char :=
  if char = '\'' then ['\'', '"', '\'', '"', '\''] else [char]

/-- `shlex.quote`. -/
def shellQuoted (word : List Char) : List Char :=
  if word = [] then ['\'', '\'']
  else if word.all shellSafe then word
  else '\'' :: word.flatMap quoteChar ++ ['\'']

/-- `shlex.join`. -/
def shellJoin (words : List (List Char)) : List Char :=
  [' '].intercalate (words.map shellQuoted)

/-! ## What is written is read back -/

theorem not_special_of_safe {char : Char} (safe : shellSafe char = true) :
    shellBlank char = false ∧ shellQuote char = false ∧ char ≠ '\\' := by
  have notUnsafe : ∀ other, shellSafe other = false → char ≠ other := by
    rintro other isUnsafe rfl
    rw [safe] at isUnsafe
    cases isUnsafe
  refine ⟨?_, ?_, notUnsafe _ rfl⟩
  · simp [shellBlank, notUnsafe ' ' rfl, notUnsafe '\t' rfl,
      notUnsafe '\r' rfl, notUnsafe '\n' rfl]
  · simp [shellQuote, notUnsafe '\'' rfl, notUnsafe '"' rfl]

namespace ShellLexer

@[simp]
theorem read_nil (lexer : ShellLexer) : lexer.read [] = lexer := rfl

@[simp]
theorem read_cons (lexer : ShellLexer) (char : Char) (text : List Char) :
    lexer.read (char :: text) = (lexer.feed char).read text := rfl

theorem read_append (lexer : ShellLexer) (text others : List Char) :
    lexer.read (text ++ others) = (lexer.read text).read others :=
  List.foldl_append

/-- Safe characters lengthen the token. -/
theorem read_safe
    {text : List Char} (safe : text.all shellSafe = true)
    (token : List Char) (quoted : Bool) (words : List (List Char)) :
    read ⟨.word, token, quoted, words⟩ text =
      ⟨.word, token ++ text, quoted, words⟩ := by
  induction text generalizing token with
  | nil => simp
  | cons char text induction =>
      rw [List.all_cons, Bool.and_eq_true] at safe
      rcases not_special_of_safe safe.1 with ⟨notBlank, notQuote, notEscape⟩
      rw [read_cons]
      simp only [feed, notBlank, notQuote, notEscape, Bool.false_eq_true,
        if_false]
      rw [induction safe.2, List.append_assoc, List.singleton_append]

/-- Between single quotes every character lengthens the token. -/
theorem read_flatMap_quoteChar
    (word token : List Char) (words : List (List Char)) :
    read ⟨.quoted '\'', token, true, words⟩ (word.flatMap quoteChar) =
      ⟨.quoted '\'', token ++ word, true, words⟩ := by
  induction word generalizing token with
  | nil => simp
  | cons char word induction =>
      rw [List.flatMap_cons, read_append]
      by_cases isQuote : char = '\''
      · subst isQuote
        have stepped : read ⟨.quoted '\'', token, true, words⟩
            (quoteChar '\'') =
              ⟨.quoted '\'', token ++ ['\''], true, words⟩ := rfl
        rw [stepped, induction, List.append_assoc, List.singleton_append]
      · have stepped : read ⟨.quoted '\'', token, true, words⟩
            (quoteChar char) =
              ⟨.quoted '\'', token ++ [char], true, words⟩ := by
          simp [quoteChar, isQuote, feed]
        rw [stepped, induction, List.append_assoc, List.singleton_append]

/-- A quoted word is read as the token. -/
theorem read_shellQuoted (word : List Char) (words : List (List Char)) :
    ∃ quoted, (word = [] → quoted = true) ∧
      read ⟨.blank, [], false, words⟩ (shellQuoted word) =
        ⟨.word, word, quoted, words⟩ := by
  by_cases isEmpty : word = []
  · subst isEmpty
    exact ⟨true, fun _ => rfl, rfl⟩
  rw [shellQuoted, if_neg isEmpty]
  by_cases safe : word.all shellSafe = true
  · refine ⟨false, fun isNil => absurd isNil isEmpty, ?_⟩
    rw [if_pos safe]
    cases word with
    | nil => exact absurd rfl isEmpty
    | cons char word =>
        rw [List.all_cons, Bool.and_eq_true] at safe
        rcases not_special_of_safe safe.1 with ⟨notBlank, notQuote, notEscape⟩
        rw [read_cons]
        simp only [feed, notBlank, notQuote, notEscape, Bool.false_eq_true,
          if_false]
        exact read_safe safe.2 [char] false words
  · refine ⟨true, fun _ => rfl, ?_⟩
    rw [if_neg safe]
    cases word with
    | nil => exact absurd rfl isEmpty
    | cons char word =>
        have opened : read ⟨.blank, [], false, words⟩
            ('\'' :: quoteChar char) =
              ⟨.quoted '\'', [char], true, words⟩ := by
          by_cases isQuote : char = '\''
          · subst isQuote
            rfl
          · simp [quoteChar, isQuote, feed, shellBlank, shellQuote]
        rw [List.flatMap_cons, ← List.cons_append, List.append_assoc,
          read_append, opened, read_append, read_flatMap_quoteChar]
        rfl

/-- A word behind which a blank stands is emitted. -/
theorem feed_blank
    {word : List Char} {quoted : Bool} (emptyQuoted : word = [] → quoted = true)
    (words : List (List Char)) :
    feed ⟨.word, word, quoted, words⟩ ' ' =
      ⟨.blank, [], false, words ++ [word]⟩ := by
  have some : ¬(word = [] ∧ quoted = false) := by
    rintro ⟨isEmpty, unquoted⟩
    rw [emptyQuoted isEmpty] at unquoted
    cases unquoted
  simp only [feed, shellBlank, emit, if_neg some]
  rfl

/-- Words which are joined are read one after another. -/
theorem finish_read_shellJoin (words earlier : List (List Char)) :
    (read ⟨.blank, [], false, earlier⟩ (shellJoin words)).finish =
      .ok (earlier ++ words) := by
  induction words generalizing earlier with
  | nil => simp [shellJoin, finish, emit]
  | cons word words induction =>
      rcases read_shellQuoted word earlier with ⟨quoted, emptyQuoted, isRead⟩
      cases words with
      | nil =>
          have some : ¬(word = [] ∧ quoted = false) := by
            rintro ⟨isEmpty, unquoted⟩
            rw [emptyQuoted isEmpty] at unquoted
            cases unquoted
          simp only [shellJoin, List.map_cons, List.map_nil,
            List.intercalate_singleton, isRead, finish, emit, if_neg some]
      | cons next words =>
          have joined : shellJoin (word :: next :: words) =
              shellQuoted word ++ ' ' :: shellJoin (next :: words) := by
            simp only [shellJoin, List.map_cons,
              List.intercalate_cons_cons, List.singleton_append,
              List.append_assoc]
          rw [joined, read_append, isRead, read_cons, feed_blank emptyQuoted,
            induction, List.append_assoc, List.singleton_append]

end ShellLexer

/-- What is joined is read back as it was. -/
theorem shellSplit_shellJoin (words : List (List Char)) :
    shellSplit (shellJoin words) = .ok words :=
  ShellLexer.finish_read_shellJoin words []

end ShadowDataPlane.Foundation
