/-!
# TOML tables

A TOML text builds one tree of tables out of key-value lines and headers. This module holds the tree
and the rules by which it grows; `ViewTree.Toml.Reader` holds the grammar.

The rules are about saying things twice. No key is given two values and no table two headers. A
table that was only passed through on the way to another one may still get its header; one that was
opened by a header or closed in braces is not extended by dotted keys; one that was made by dotted
keys gets no header. So each table remembers its **origin**.
-/

set_option autoImplicit false

namespace ViewTree.Toml

/-- How a table came about. -/
inductive Origin where
  /-- It has a header of its own. -/
  | header
  /-- A header passed through it. -/
  | implied
  /-- Dotted keys passed through it. -/
  | dotted
  /-- It is written in braces. -/
  | braces
deriving DecidableEq

/-- A value under a key. Of numbers and dates nobody asks more than that they are well formed. -/
inductive Item where
  | bool (value : Bool)
  | string (value : String)
  | number
  | date
  | array (items : List Item)
  | table (origin : Origin) (entries : List (String × Item))
  /-- The tables under a doubled header: the earlier ones, last one first, and the last one. -/
  | tables (earlier : List (List (String × Item))) (last : List (String × Item))

/-- The entries of a table in the order of their first mention. -/
abbrev Entries : Type := List (String × Item)

namespace Entries

/-- Sets the item under a key. -/
def set (key : String) (item : Item) : Entries → Entries
  | [] => [(key, item)]
  | entry :: rest => if entry.1 = key then (key, item) :: rest else entry :: set key item rest

/-- Changes the table that a header's path leads to, making the tables on the way. Through an array
of tables the path goes to its last one. -/
def updateAt (change : Entries → Option Entries) : List String → Entries → Option Entries
  | [], entries => change entries
  | key :: path, entries =>
    match entries.lookup key with
    | none => do
      let inner ← updateAt change path []
      pure (entries.set key (.table .implied inner))
    | some (.table .braces _) => none
    | some (.table origin inner) => do
      let inner ← updateAt change path inner
      pure (entries.set key (.table origin inner))
    | some (.tables earlier last) => do
      let last ← updateAt change path last
      pure (entries.set key (.tables earlier last))
    | some _ => none

/-- Adds a value under a key that is not there yet. -/
def add (key : String) (item : Item) (entries : Entries) : Option Entries :=
  match entries.lookup key with
  | none => some (entries ++ [(key, item)])
  | some _ => none

/-- Adds a value under a dotted key. The table that gets it must come from dotted keys, and those on
the way must have no header and no braces. -/
def addDotted (item : Item) (key : String) : List String → Entries → Option Entries
  | [], entries => entries.add key item
  | next :: path, entries =>
    match entries.lookup key with
    | none => do
      let inner ← addDotted item next path []
      pure (entries.set key (.table .dotted inner))
    | some (.table .dotted inner) => do
      let inner ← addDotted item next path inner
      pure (entries.set key (.table .dotted inner))
    | some (.table .implied inner) =>
      if path.isEmpty then none
      else do
        let inner ← addDotted item next path inner
        pure (entries.set key (.table .implied inner))
    | some (.tables earlier last) =>
      if path.isEmpty then none
      else do
        let last ← addDotted item next path last
        pure (entries.set key (.tables earlier last))
    | some _ => none

/-- Adds values under dotted keys, one after the other. -/
def addAll : List (String × List String × Item) → Entries → Option Entries
  | [], entries => some entries
  | (key, path, item) :: rest, entries => do
    let entries ← entries.addDotted item key path
    entries.addAll rest

end Entries

/-! ## Sections -/

/-- What a header opens: a table, or one more table of an array. -/
inductive Header where
  | table (path : List String) (key : String)
  | tables (path : List String) (key : String)

/-- A header with the values below it. -/
structure Section where
  header : Header
  values : List (String × List String × Item)

/-- Enters a section into the tree. -/
def Section.enter (s : Section) (root : Entries) : Option Entries :=
  match s.header with
  | .table path key =>
    root.updateAt (fun entries =>
      match entries.lookup key with
      | none => do
        let inner ← Entries.addAll s.values []
        pure (entries.set key (.table .header inner))
      | some (.table .implied inner) => do
        let inner ← Entries.addAll s.values inner
        pure (entries.set key (.table .header inner))
      | some _ => none) path
  | .tables path key =>
    root.updateAt (fun entries =>
      match entries.lookup key with
      | none => do
        let inner ← Entries.addAll s.values []
        pure (entries.set key (.tables [] inner))
      | some (.tables earlier last) => do
        let inner ← Entries.addAll s.values []
        pure (entries.set key (.tables (last :: earlier) inner))
      | some _ => none) path

/-- Enters sections one after the other. -/
def enterAll : List Section → Entries → Option Entries
  | [], root => some root
  | s :: rest, root => do
    let root ← s.enter root
    enterAll rest root

end ViewTree.Toml
