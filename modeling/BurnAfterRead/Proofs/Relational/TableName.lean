import BurnAfterRead.Proofs.Relational.Tokens
import BurnAfterRead.Proofs.Text.Trim

/-!
# The table's name in the statements

The name of the table is written into the statements as it is. A name is accepted only if it is a word of
letters, digits and underscores, so it is one token wherever it stands, and all other tokens of a statement
are the same for every name.
-/

namespace BurnAfterRead

namespace Text

theorem isAlpha_toUpper {c : Char} (h : c.isAlpha = true) : c.toUpper.isAlpha = true := by
  unfold Char.toUpper
  split
  · rename_i hsmall
    simp only [UInt32.le_iff_toNat_le] at hsmall
    obtain ⟨hlow, hhigh⟩ : 97 ≤ c.toNat ∧ c.toNat ≤ 122 := hsmall
    have hval : (c.val + ('A'.val - 'a'.val)).toNat = c.toNat - 32 := by
      have hgap : ('A'.val - 'a'.val).toNat = 2 ^ 32 - 32 := by decide
      rw [UInt32.toNat_add, hgap, Char.toNat_val]
      omega
    refine isAlpha_iff.2 (Or.inl ?_)
    show 65 ≤ (c.val + ('A'.val - 'a'.val)).toNat ∧ (c.val + ('A'.val - 'a'.val)).toNat ≤ 90
    omega
  · exact h

theorem isWhitespace_of_isAlpha {c : Char} (h : c.isAlpha = true) : c.isWhitespace = false := by
  rw [Bool.eq_false_iff]
  intro hwhite
  simp only [Char.isWhitespace, Bool.or_eq_true, decide_eq_true_eq] at hwhite
  obtain ((rfl | rfl) | rfl) | rfl := hwhite <;> exact absurd h (by decide)

end Text

/-- A character of a table's name: an ASCII letter, a digit or an underscore. -/
def IsNameChar (c : Char) : Prop := c.isAlpha = true ∨ c.isDigit = true ∨ c = '_'

/-- What a table may be called. -/
structure IsTableName (table : String) : Prop where
  filled : 1 ≤ table.length
  short : table.length ≤ 64
  plain : ∀ c ∈ table.toList, IsNameChar c
  noDigit : ∀ c, table.toList.head? = some c → c.isDigit = false

/-- The name of a table as a dialect writes it: for SQL Server with a capital first letter. -/
def Dialect.written (d : Dialect) (table : String) : List Char :=
  match d, table.toList with
  | .mssql, c :: cs => c.toUpper :: cs
  | _, cs => cs

theorem IsNameChar.continuesWord {c : Char} (h : IsNameChar c) : Token.continuesWord c = true := by
  obtain hletter | hdigit | rfl := h
  · simp [Token.continuesWord, Token.beginsWord, hletter]
  · simp [Token.continuesWord, hdigit]
  · decide

theorem IsNameChar.ne_quote {c : Char} (h : IsNameChar c) : c ≠ '\'' ∧ c ≠ '\\' := by
  obtain hletter | hdigit | rfl := h
  · constructor <;> rintro rfl <;> exact absurd hletter (by decide)
  · constructor <;> rintro rfl <;> exact absurd hdigit (by decide)
  · decide

/-- A character that the name of a table may begin with. -/
def IsNameStart (c : Char) : Prop := c.isAlpha = true ∨ c = '_'

theorem IsNameStart.toUpper {c : Char} (h : IsNameStart c) : IsNameStart c.toUpper := by
  obtain hletter | rfl := h
  · exact Or.inl (Text.isAlpha_toUpper hletter)
  · exact Or.inr (by decide)

theorem IsNameStart.isNameChar {c : Char} (h : IsNameStart c) : IsNameChar c :=
  h.imp_right Or.inr

theorem IsNameStart.isWhitespace {c : Char} (h : IsNameStart c) : c.isWhitespace = false := by
  obtain hletter | rfl := h
  · exact Text.isWhitespace_of_isAlpha hletter
  · decide

theorem IsNameStart.beginsWord {c : Char} (h : IsNameStart c) : Token.beginsWord c = true := by
  obtain hletter | rfl := h
  · simp [Token.beginsWord, hletter]
  · decide

theorem IsTableName.exists_cons {table : String} (h : IsTableName table) :
    ∃ c cs, table.toList = c :: cs ∧ IsNameStart c ∧ ∀ x ∈ cs, IsNameChar x := by
  obtain ⟨hfilled, -, hplain, hnoDigit⟩ := h
  cases hcs : table.toList with
  | nil =>
    have hlength : table.toList.length = table.length := String.length_toList
    rw [hcs, List.length_nil] at hlength
    omega
  | cons c cs =>
    rw [hcs] at hplain hnoDigit
    refine ⟨c, cs, rfl, ?_, fun x hx => hplain x (List.mem_cons_of_mem _ hx)⟩
    have hdigit : c.isDigit = false := hnoDigit c rfl
    obtain hletter | htrue | hline := hplain c List.mem_cons_self
    · exact Or.inl hletter
    · rw [htrue] at hdigit
      cases hdigit
    · exact Or.inr hline

/-- The name as it is written is a word in every dialect: the capital of a letter is a letter. -/
theorem IsTableName.written_eq_cons {table : String} (h : IsTableName table) (d : Dialect) :
    ∃ c cs, d.written table = c :: cs ∧ IsNameStart c ∧ ∀ x ∈ cs, IsNameChar x := by
  obtain ⟨c, cs, hcs, hstart, hplain⟩ := h.exists_cons
  unfold Dialect.written
  rw [hcs]
  cases d with
  | mssql => exact ⟨c.toUpper, cs, rfl, hstart.toUpper, hplain⟩
  | postgres | mysql | sqlite => exact ⟨c, cs, rfl, hstart, hplain⟩

namespace Statements

/-- A part of a statement. -/
inductive Part where
  | fixed (text : String)
  /-- The name of the table. -/
  | table
  /-- The name of the table, in quotes. -/
  | tableText
  deriving DecidableEq, Repr

namespace Part

/-- The text of a part, with a name in its place. -/
def write (name : String) : Part → String
  | fixed text => text
  | table => name
  | tableText => "'" ++ name ++ "'"

/-- The tokens of a part. -/
def tokens (d : Dialect) (name : List Char) : Part → List Token
  | fixed text => Token.ofStatement d text
  | table => [.word name]
  | tableText => [.quoted '\'' name]

/-- The text of some parts, one after the other. -/
def writeAll (name : String) (parts : List Part) : String :=
  parts.foldr (fun part rest => part.write name ++ rest) ""

end Part

/-- The statements in the order in which they are declared. -/
def all (s : Statements) : List String :=
  [s.createTable, s.selectById, s.insert, s.delete, s.deleteExpired]

/-- The parts of the statement that creates the table. -/
def creation : Dialect → List Part
  | .postgres =>
    [.fixed "CREATE TABLE IF NOT EXISTS ", .table,
      .fixed " (id UUID PRIMARY KEY, value TEXT NOT NULL, expires_at TIMESTAMPTZ NOT NULL)"]
  | .mssql =>
    [.fixed "IF NOT EXISTS (SELECT * FROM sysobjects WHERE name=", .tableText,
      .fixed (" and xtype='U') " ++ "CREATE TABLE "), .table,
      .fixed (" (ID VARCHAR(36) NOT NULL PRIMARY KEY, Value NVARCHAR(MAX) NOT NULL, " ++
        "ExpiresAt DATETIMEOFFSET NOT NULL)")]
  | .mysql =>
    [.fixed "CREATE TABLE IF NOT EXISTS ", .table,
      .fixed (" (id VARCHAR(36) NOT NULL PRIMARY KEY, value LONGTEXT NOT NULL, " ++
        "expires_at DATETIME(6) NOT NULL)")]
  | .sqlite =>
    [.fixed "CREATE TABLE IF NOT EXISTS ", .table,
      .fixed " (id TEXT NOT NULL PRIMARY KEY, value TEXT NOT NULL, expires_at DATETIME NOT NULL)"]

/-- The parts of the five statements. -/
def parts (d : Dialect) : List (List Part) :=
  let (id, value, expiresAt) := d.columns
  let (first, second, third) := d.placeholders
  [creation d,
    [.fixed ("SELECT " ++ id ++ ", " ++ value ++ ", " ++ expiresAt ++ " FROM "), .table,
      .fixed (" WHERE " ++ id ++ " = " ++ first)],
    [.fixed "INSERT INTO ", .table,
      .fixed (" (" ++ id ++ ", " ++ value ++ ", " ++ expiresAt ++ ") VALUES (" ++ first ++ ", " ++ second ++
        ", " ++ third ++ ")")],
    [.fixed "DELETE FROM ", .table, .fixed (" WHERE " ++ id ++ " = " ++ first)],
    [.fixed "DELETE FROM ", .table, .fixed (" WHERE " ++ expiresAt ++ " < " ++ d.currentTime)]]

theorem isNameChar_iff {c : Char} : (c.isAlphanum || decide (c = '_')) = true ↔ IsNameChar c := by
  simp [Char.isAlphanum, IsNameChar, or_assoc]

theorem isTableName_iff {table : String} :
    isTableName table.toList = true ↔ IsTableName table := by
  have hlength : table.toList.length = table.length := String.length_toList
  constructor
  · intro h
    cases hcs : table.toList with
    | nil =>
      rw [hcs] at h
      cases h
    | cons c cs =>
      rw [hcs] at h hlength
      simp only [isTableName, Bool.and_eq_true, decide_eq_true_eq, List.all_eq_true, isNameChar_iff,
        Bool.not_eq_true'] at h
      obtain ⟨⟨hshort, hplain⟩, hdigit⟩ := h
      rw [hlength] at hshort
      rw [List.length_cons] at hlength
      refine ⟨by omega, hshort, hcs ▸ hplain, fun x hx => ?_⟩
      rw [hcs, List.head?_cons] at hx
      exact Option.some.inj hx ▸ hdigit
  · rintro ⟨hfilled, hshort, hplain, hdigit⟩
    cases hcs : table.toList with
    | nil =>
      rw [hcs, List.length_nil] at hlength
      omega
    | cons c cs =>
      rw [hcs] at hlength hplain hdigit
      simp only [isTableName, Bool.and_eq_true, decide_eq_true_eq, List.all_eq_true, isNameChar_iff,
        Bool.not_eq_true']
      exact ⟨⟨hlength ▸ hshort, hplain⟩, hdigit c rfl⟩

theorem exists_new_iff {d : Dialect} {table : String} :
    (∃ s, new d table = .ok s) ↔ IsTableName table := by
  rw [← isTableName_iff]
  unfold new
  split
  · rename_i h
    exact ⟨fun _ => h, fun _ => ⟨_, rfl⟩⟩
  · rename_i h
    refine ⟨?_, fun hname => absurd hname h⟩
    rintro ⟨s, hs⟩
    cases hs

/-- The parts of the statements, written one after the other with a name in its places, are the
statements. -/
theorem all_eq_parts {d : Dialect} {table : String} {s : Statements} (h : new d table = .ok s) :
    s.all = (parts d).map (Part.writeAll (tableName d table)) := by
  unfold new at h
  split at h
  · obtain rfl := Except.ok.inj h
    clear h
    generalize tableName d table = name
    have hopen : "IF NOT EXISTS (SELECT * FROM sysobjects WHERE name='" =
        "IF NOT EXISTS (SELECT * FROM sysobjects WHERE name=" ++ "'" := by decide +kernel
    have hclose : "' and xtype='U') " = "'" ++ " and xtype='U') " := by decide +kernel
    unfold all parts creation create
    cases d <;>
      simp only [Part.writeAll, Part.write, Dialect.columns, Dialect.placeholders, Dialect.currentTime,
        List.map_cons, List.map_nil, List.foldr_cons, List.foldr_nil, String.append_assoc,
        String.append_empty, hopen, hclose, -String.reduceAppend]
  · cases h

theorem toList_tableName (d : Dialect) (table : String) :
    (tableName d table).toList = d.written table := by
  cases d with
  | mssql =>
    unfold tableName capitalized Dialect.written
    cases table.toList with
    | nil => rfl
    | cons c cs => exact String.toList_ofList
  | postgres | mysql | sqlite => rfl

/-- Whether a part follows that begins with a blank. -/
def blankFollows : List Part → Bool
  | .fixed text :: _ => text.toList.head? = some ' '
  | _ => false

/-- Whether a token ends wherever a part ends. -/
def isDivided (d : Dialect) : List Part → Bool
  | [] => true
  | .fixed text :: rest =>
    (rest.isEmpty || decide (Token.behind d .gap text.toList = .gap)) && isDivided d rest
  | .table :: rest => blankFollows rest && isDivided d rest
  | .tableText :: rest => blankFollows rest && isDivided d rest

theorem isDivided_of_mem_parts (d : Dialect) : ∀ ps ∈ parts d, isDivided d ps = true := by
  cases d <;> decide +kernel

theorem head?_writeAll {ps : List Part} (h : blankFollows ps = true) (name : String) :
    (Part.writeAll name ps).toList.head? = some ' ' := by
  cases ps with
  | nil => cases h
  | cons part ps =>
    cases part with
    | fixed text =>
      have htext : text.toList.head? = some ' ' := of_decide_eq_true h
      have hall : (Part.writeAll name (.fixed text :: ps)).toList =
          text.toList ++ (Part.writeAll name ps).toList := String.toList_append
      rw [hall, List.head?_append, htext, Option.some_or]
    | table | tableText => cases h

/-- The tokens of divided parts that are written one after the other are those of each part. -/
theorem ofStatement_writeAll {d : Dialect} {table : String} (h : IsTableName table) {ps : List Part}
    (hps : isDivided d ps = true) :
    Token.ofStatement d (Part.writeAll (tableName d table) ps) =
      ps.flatMap (Part.tokens d (d.written table)) := by
  obtain ⟨c, cs, hname, hstart, hplain⟩ := h.written_eq_cons d
  induction ps with
  | nil => rfl
  | cons part ps ih =>
    have hall : (Part.writeAll (tableName d table) (part :: ps)).toList =
        (part.write (tableName d table)).toList ++ (Part.writeAll (tableName d table) ps).toList :=
      String.toList_append
    unfold Token.ofStatement at ih ⊢
    rw [hall, List.flatMap_cons]
    cases part with
    | fixed text =>
      obtain ⟨hend, hrest⟩ := Bool.and_eq_true_iff.1 hps
      rw [← ih hrest]
      refine Token.read_append ?_
      obtain hlast | hgap := Bool.or_eq_true_iff.1 hend
      · rw [List.isEmpty_iff.1 hlast]
        exact Token.ends_nil d _
      · rw [show Token.behind d .gap (Part.write _ (.fixed text)).toList = .gap from of_decide_eq_true hgap]
        exact Token.ends_gap d _
    | table =>
      obtain ⟨hblank, hrest⟩ := Bool.and_eq_true_iff.1 hps
      have hnext := head?_writeAll hblank (tableName d table)
      rw [← ih hrest, Part.write, toList_tableName, Part.tokens, hname, List.singleton_append]
      refine Token.read_gap_word hstart.isWhitespace hstart.beginsWord
        (fun x hx => (hplain x hx).continuesWord) fun x hx => ?_
      obtain rfl : ' ' = x := Option.some.inj (hnext.symm.trans hx)
      decide
    | tableText =>
      obtain ⟨hblank, hrest⟩ := Bool.and_eq_true_iff.1 hps
      have hnext := head?_writeAll hblank (tableName d table)
      have htext : (Part.write (tableName d table) .tableText).toList =
          '\'' :: d.written table ++ ['\''] := by
        rw [Part.write, String.toList_append, String.toList_append, toList_tableName]
        rfl
      rw [← ih hrest, htext, Part.tokens, List.append_assoc, List.singleton_append, List.singleton_append]
      refine Token.read_gap_quoted (fun x hx => ?_) (by rw [hnext]; decide)
      rw [hname] at hx
      obtain rfl | hx := List.mem_cons.1 hx
      · exact hstart.isNameChar.ne_quote
      · exact (hplain x hx).ne_quote

/-- The name of a table is confined to its places. Statements are made of a name exactly if it is one to 64
ASCII letters, digits and underscores without a digit in front, and for any other text there is a report.
The tokens of the statements on two tables are the same, one by one, but for the tokens at the places of
the name: each of these is the whole name, as the dialect writes it. The name has one place in each
statement, and SQL Server's test for the table has one more, in quotes. -/
theorem table_name_confined (d : Dialect) :
    (∀ table, (∃ s, new d table = .ok s) ↔ IsTableName table) ∧
      (∀ table, ¬IsTableName table →
        new d table = .error (.badConfiguration
          ("invalid table name '" ++ table ++ "': use letters, digits, and underscores"))) ∧
      (∀ table s, new d table = .ok s →
        s.all.map (Token.ofStatement d) =
          (parts d).map fun ps => ps.flatMap (Part.tokens d (d.written table))) ∧
      (parts d).map (List.count .table) = [1, 1, 1, 1, 1] ∧
      (parts d).map (List.count .tableText) = [if d = .mssql then 1 else 0, 0, 0, 0, 0] := by
  refine ⟨fun _ => exists_new_iff, ?_, ?_, ?_, ?_⟩
  · intro table h
    rw [← isTableName_iff] at h
    exact if_neg h
  · intro table s hs
    rw [all_eq_parts hs, List.map_map]
    refine List.map_congr_left fun ps hps => ?_
    exact ofStatement_writeAll (exists_new_iff.1 ⟨s, hs⟩) (isDivided_of_mem_parts d ps hps)
  · cases d <;> decide +kernel
  · cases d <;> decide +kernel

/-- A name that SQL Server is given with a capital, and one that would end a quote. -/
theorem table_name_confined_to_capital :
    (∃ s, new .mssql "ledger" = .ok s ∧
        s.all.map (Token.ofStatement .mssql) =
          (parts .mssql).map fun ps => ps.flatMap (Part.tokens .mssql "Ledger".toList)) ∧
      ∃ report, new .mssql "led'ger" = .error (.badConfiguration report) := by
  obtain ⟨accepted, rejected, divided, -⟩ := table_name_confined .mssql
  have hname : IsTableName "ledger" := by
    rw [← isTableName_iff]
    decide +kernel
  have hother : ¬IsTableName "led'ger" := by
    rw [← isTableName_iff]
    decide +kernel
  have hcapital : Dialect.mssql.written "ledger" = "Ledger".toList := by decide +kernel
  obtain ⟨s, hs⟩ := (accepted "ledger").2 hname
  exact ⟨⟨s, hs, hcapital ▸ divided "ledger" s hs⟩, _, rejected "led'ger" hother⟩

end Statements

end BurnAfterRead
