import BurnAfterRead.Relational.Dialect

/-!
# The tokens of a statement

How an engine divides the text of a statement, in each dialect: words and numbers, bound values, quoted
texts and names, single signs. White space and comments divide tokens and are none. A reader goes through
the text sign by sign and keeps what it is in the middle of, so what a text is divided into follows from
its parts wherever a token ends between them.
-/

namespace BurnAfterRead

/-- A lexical unit of a statement. -/
inductive Token where
  /-- A keyword or a name without quotes. -/
  | word (text : List Char)
  | number (text : List Char)
  /-- The place of a bound value: its mark and what tells which value. -/
  | parameter (mark : Char) (text : List Char)
  /-- What stands in quotes. The sign that opens it tells a text from a name. -/
  | quoted (opening : Char) (text : List Char)
  | sign (c : Char)
  /-- A quote or a comment that does not end. -/
  | unended
  deriving DecidableEq, Repr

/-- The sign that ends a quote, of a sign that opens one. -/
def Dialect.closing? : Dialect → Char → Option Char
  | _, '\'' => some '\''
  | _, '"' => some '"'
  | .mysql, '`' => some '`'
  | .sqlite, '`' => some '`'
  | .mssql, '[' => some ']'
  | .sqlite, '[' => some ']'
  | _, _ => none

namespace Token

/-- What a reader is in the middle of. -/
inductive Reading where
  | gap
  | word (text : List Char)
  | number (text : List Char)
  | parameter (mark : Char) (text : List Char)
  | quoted (opening closing : Char) (text : List Char)
  /-- Behind a backslash in a quote. -/
  | escape (opening closing : Char) (text : List Char)
  /-- Behind a sign that ends a quote, unless it comes twice and stands for itself. -/
  | closed (opening closing : Char) (text : List Char)
  | hyphen
  | slash
  | lineComment
  | comment
  /-- Behind a star in a comment. -/
  | star
  deriving DecidableEq, Repr

/-- A character that a word may begin with. Letters outside ASCII are among them. -/
def beginsWord (c : Char) : Bool := c.isAlpha || c = '_' || 127 < c.toNat

/-- A character that a word or a number may go on with. -/
def continuesWord (c : Char) : Bool := beginsWord c || c.isDigit || c = '$'

/-- What is there if the text ends here. -/
def Reading.finish : Reading → List Token
  | gap | lineComment => []
  | word text => [.word text]
  | number text => [.number text]
  | parameter mark text => [.parameter mark text]
  | closed opening _ text => [.quoted opening text]
  | hyphen => [.sign '-']
  | slash => [.sign '/']
  | quoted .. | escape .. | comment | star => [.unended]

/-- Reads a sign between tokens. -/
def begin (d : Dialect) (c : Char) : Reading × List Token :=
  if c.isWhitespace then (.gap, [])
  else if beginsWord c then (.word [c], [])
  else if c.isDigit then (.number [c], [])
  else if c = '$' ∨ c = '@' ∨ c = '?' then (.parameter c [], [])
  else if c = '-' then (.hyphen, [])
  else if c = '/' then (.slash, [])
  else if c = '#' ∧ d = .mysql then (.lineComment, [])
  else
    match d.closing? c with
    | some closing => (.quoted c closing [], [])
    | none => (.gap, [.sign c])

/-- Reads a sign behind the end of what was read so far. -/
def beginAfter (d : Dialect) (reading : Reading) (c : Char) : Reading × List Token :=
  ((begin d c).1, reading.finish ++ (begin d c).2)

/-- Reads a sign: what the reader is in the middle of then, and the tokens that ended. -/
def step (d : Dialect) (reading : Reading) (c : Char) : Reading × List Token :=
  match reading with
  | .gap => begin d c
  | .word text =>
    if continuesWord c then (.word (text ++ [c]), []) else beginAfter d reading c
  | .number text =>
    if continuesWord c then (.number (text ++ [c]), []) else beginAfter d reading c
  | .parameter mark text =>
    if continuesWord c then (.parameter mark (text ++ [c]), []) else beginAfter d reading c
  | .quoted opening closing text =>
    if c = closing then (.closed opening closing text, [])
    else if c = '\\' ∧ d = .mysql ∧ closing ≠ '`' then (.escape opening closing text, [])
    else (.quoted opening closing (text ++ [c]), [])
  | .escape opening closing text => (.quoted opening closing (text ++ [c]), [])
  | .closed opening closing text =>
    if c = closing then (.quoted opening closing (text ++ [c]), []) else beginAfter d reading c
  | .hyphen => if c = '-' then (.lineComment, []) else beginAfter d reading c
  | .slash => if c = '*' then (.comment, []) else beginAfter d reading c
  | .lineComment => (if c = '\n' then .gap else .lineComment, [])
  | .comment => (if c = '*' then .star else .comment, [])
  | .star => (if c = '/' then .gap else if c = '*' then .star else .comment, [])

/-- The tokens of a text that is read on from here. -/
def read (d : Dialect) : Reading → List Char → List Token
  | reading, [] => reading.finish
  | reading, c :: cs => (step d reading c).2 ++ read d (step d reading c).1 cs

/-- What the reader is in the middle of behind a text. -/
def behind (d : Dialect) : Reading → List Char → Reading
  | reading, [] => reading
  | reading, c :: cs => behind d (step d reading c).1 cs

/-- The tokens of a statement. -/
def ofStatement (d : Dialect) (statement : String) : List Token := read d .gap statement.toList

/-- Before the text `cs`, what the reader is in the middle of is at its end. -/
def Ends (d : Dialect) (reading : Reading) (cs : List Char) : Prop :=
  read d reading cs = reading.finish ++ read d .gap cs

/-- Where a token ends between two texts, the tokens are those of the one and those of the other. -/
theorem read_append {d : Dialect} {reading : Reading} {cs rest : List Char}
    (h : Ends d (behind d reading cs) rest) :
    read d reading (cs ++ rest) = read d reading cs ++ read d .gap rest := by
  induction cs generalizing reading with
  | nil => exact h
  | cons c cs ih =>
    rw [List.cons_append, read, read, ih h, List.append_assoc]

theorem ends_gap (d : Dialect) (cs : List Char) : Ends d .gap cs := rfl

theorem ends_nil (d : Dialect) (reading : Reading) : Ends d reading [] :=
  (List.append_nil _).symm

/-- A text whose first sign belongs to no token before it. -/
theorem ends_of_step {d : Dialect} {reading : Reading} {cs : List Char}
    (h : ∀ c, cs.head? = some c → step d reading c = beginAfter d reading c) : Ends d reading cs := by
  cases cs with
  | nil => exact ends_nil d reading
  | cons c cs =>
    unfold Ends
    rw [read, h c rfl]
    exact List.append_assoc _ _ _

theorem ends_word {d : Dialect} {text cs : List Char}
    (h : ∀ c, cs.head? = some c → continuesWord c = false) : Ends d (.word text) cs :=
  ends_of_step fun c hc => if_neg (by rw [h c hc]; exact Bool.false_ne_true)

theorem ends_closed {d : Dialect} {opening closing : Char} {text cs : List Char}
    (h : cs.head? ≠ some closing) : Ends d (.closed opening closing text) cs :=
  ends_of_step fun c hc => if_neg (show ¬c = closing from fun hsame => h (hsame ▸ hc))

theorem read_word {d : Dialect} {cs : List Char} (h : ∀ c ∈ cs, continuesWord c = true)
    (text rest : List Char) :
    read d (.word text) (cs ++ rest) = read d (.word (text ++ cs)) rest := by
  induction cs generalizing text with
  | nil => rw [List.nil_append, List.append_nil]
  | cons c cs ih =>
    have hstep : step d (.word text) c = (.word (text ++ [c]), []) := if_pos (h c List.mem_cons_self)
    rw [List.cons_append, read, hstep, List.nil_append,
      ih fun x hx => h x (List.mem_cons_of_mem _ hx), List.append_assoc, List.singleton_append]

theorem read_quoted {d : Dialect} {closing : Char} {cs : List Char}
    (h : ∀ c ∈ cs, c ≠ closing ∧ c ≠ '\\') (opening : Char) (text rest : List Char) :
    read d (.quoted opening closing text) (cs ++ rest) =
      read d (.quoted opening closing (text ++ cs)) rest := by
  induction cs generalizing text with
  | nil => rw [List.nil_append, List.append_nil]
  | cons c cs ih =>
    obtain ⟨hclosing, hbackslash⟩ := h c List.mem_cons_self
    have hstep : step d (.quoted opening closing text) c = (.quoted opening closing (text ++ [c]), []) :=
      (if_neg hclosing).trans (if_neg fun hescape => hbackslash hescape.1)
    rw [List.cons_append, read, hstep, List.nil_append,
      ih fun x hx => h x (List.mem_cons_of_mem _ hx), List.append_assoc, List.singleton_append]

/-- A word between signs that do not belong to it is one token. -/
theorem read_gap_word {d : Dialect} {c : Char} {cs rest : List Char} (hblank : c.isWhitespace = false)
    (hbegins : beginsWord c = true) (hcontinues : ∀ x ∈ cs, continuesWord x = true)
    (hrest : ∀ x, rest.head? = some x → continuesWord x = false) :
    read d .gap (c :: cs ++ rest) = .word (c :: cs) :: read d .gap rest := by
  have hstep : step d .gap c = (.word [c], []) :=
    (if_neg (by rw [hblank]; exact Bool.false_ne_true)).trans (if_pos hbegins)
  rw [List.cons_append, read, hstep, List.nil_append, read_word hcontinues, List.singleton_append]
  exact ends_word hrest

/-- A text in single quotes that has neither quotes nor backslashes is one token. -/
theorem read_gap_quoted {d : Dialect} {cs rest : List Char} (h : ∀ c ∈ cs, c ≠ '\'' ∧ c ≠ '\\')
    (hrest : rest.head? ≠ some '\'') :
    read d .gap ('\'' :: cs ++ '\'' :: rest) = .quoted '\'' cs :: read d .gap rest := by
  have hopen : step d .gap '\'' = (.quoted '\'' '\'' [], []) := by cases d <;> decide
  have hclose : step d (.quoted '\'' '\'' cs) '\'' = (.closed '\'' '\'' cs, []) := rfl
  rw [List.cons_append, read, hopen, List.nil_append, read_quoted h, List.nil_append, read, hclose,
    List.nil_append]
  exact ends_closed hrest

/-- A text with a quote in it ends there, and what follows is read as tokens and a comment. -/
example :
    ofStatement .mssql "name='x' OR 1=1 --'" =
      [.word "name".toList, .sign '=', .quoted '\'' ['x'], .word "OR".toList, .number ['1'], .sign '=',
        .number ['1']] := by decide +kernel

end Token

end BurnAfterRead
