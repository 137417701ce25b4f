/-!
# TOML values and tables

A document is a table of values and further tables. Tables remember how they came about, because
that decides whether they may still grow: a table with a header of its own, or written inline, is
complete; one that is only implied by the header of a table below it may get its own header later;
and one that is implied by a dotted key grows by further dotted keys.
-/

namespace BurnAfterRead.Toml

/-- How a table came about. -/
inductive Origin where
  /-- By a header of its own, or inline. -/
  | defined
  /-- By the header of a table below it. -/
  | header
  /-- By a dotted key. -/
  | dotted
  deriving DecidableEq, Repr

/-- A value, a table, or an array of tables. -/
inductive Node where
  | text (s : String)
  | integer (n : Int)
  | decimal (x : Float)
  | boolean (b : Bool)
  /-- A date, a time of day, or both. -/
  | moment
  | array (items : List Node)
  /-- A table written between braces. -/
  | inlineTable (origin : Origin) (entries : List (String × Node))
  | table (origin : Origin) (entries : List (String × Node))
  /-- Tables with the same header, the last one last. -/
  | tables (items : List (List (String × Node)))
  deriving Inhabited

/-- The entries of a table in order. -/
abbrev Entries : Type := List (String × Node)

namespace Entries

def find? (entries : Entries) (key : String) : Option Node := entries.lookup key

/-- Sets the value of a key, in its place or at the end. -/
def set (key : String) (node : Node) : Entries → Entries
  | [] => [(key, node)]
  | (k, old) :: rest => if k = key then (k, node) :: rest else (k, old) :: set key node rest

def erase (entries : Entries) (key : String) : Entries := entries.filter (·.1 != key)

/-- Changes the table that a path of keys leads to. Tables on the way are made where they are
missing; of an array of tables the last one is taken. `origin` tells what made the way: a dotted key
may not pass through tables that came about otherwise. -/
def changeAt (origin : Origin) (change : Origin → Entries → Option Entries) :
    List String → Origin → Entries → Option Entries
  | [], here, entries => change here entries
  | key :: path, _, entries =>
    match entries.find? key with
    | none => do
      let inner ← changeAt origin change path origin []
      some (entries ++ [(key, .table origin inner)])
    | some (.table there inner) =>
      if origin = .dotted ∧ there = .defined then none
      else do
        let inner ← changeAt origin change path there inner
        some (entries.set key (.table there inner))
    | some (.tables items) =>
      match items.getLast? with
      | some last => do
        let last ← changeAt origin change path .defined last
        some (entries.set key (.tables (items.dropLast ++ [last])))
      | none => none
    | some _ => none

/-- Adds a value under a key that may be dotted. -/
def addValue (path : List String) (key : String) (value : Node) (here : Origin)
    (entries : Entries) : Option Entries :=
  changeAt .dotted (fun there inner =>
    if (there == .dotted) == path.isEmpty || (inner.find? key).isSome then none
    else some (inner ++ [(key, value)])) path here entries

/-- Adds a value within braces, where all tables are written inline. -/
def addInline : List String → String → Node → Origin → Entries → Option Entries
  | [], key, value, _, entries =>
    if (entries.find? key).isSome then none else some (entries ++ [(key, value)])
  | step :: path, key, value, _, entries =>
    match entries.find? step with
    | none => do
      let inner ← addInline path key value .dotted []
      some (entries ++ [(step, .inlineTable .dotted inner)])
    | some (.inlineTable .dotted inner) => do
      let inner ← addInline path key value .dotted inner
      some (entries.set step (.inlineTable .dotted inner))
    | some _ => none

/-- Begins the table of a header: it must not be there, or only be implied by a header. -/
def openTable (path : List String) (key : String) (entries : Entries) : Option Entries :=
  changeAt .header (fun _ inner =>
    match inner.find? key with
    | none => some (inner ++ [(key, .table .defined [])])
    | some (.table .header below) => some (inner.erase key ++ [(key, .table .defined below)])
    | some _ => none) path .defined entries

/-- Begins one more table of an array of tables. -/
def openArray (path : List String) (key : String) (entries : Entries) : Option Entries :=
  changeAt .header (fun _ inner =>
    match inner.find? key with
    | none => some (inner ++ [(key, .tables [[]])])
    | some (.tables items) => some (inner.set key (.tables (items ++ [[]])))
    | some _ => none) path .defined entries

end Entries

end BurnAfterRead.Toml
