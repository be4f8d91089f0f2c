import PushDelivery.Toml.Quoted

/-!
# TOML values

A TOML document is a table: a list of named values, no name twice, in the order in which the text
introduces them. Real numbers, dates and times are checked when they are read but not kept, because
no setting holds one. A text may hold numbers of any size, and even integers of false digits;
`Value.isRepresentable` tells whether machine numbers can represent all that a value holds.
-/

namespace PushDelivery.Toml

inductive Value where
  | string (text : String)
  /-- An integer. It is none if its text has the form of an integer but not the digits of one. -/
  | integer (n : Option Int)
  /-- A real number, of which only this is kept: whether it is within the range of doubles. -/
  | real (inRange : Bool)
  | boolean (b : Bool)
  /-- A date, a time, or both. -/
  | moment
  | array (items : List Value)
  | table (entries : List (String × Value))

abbrev Table := List (String × Value)

mutual

/-- Whether machine numbers can represent the numbers in a value: its integers are some that fit a
signed or an unsigned 128-bit word, and its real numbers are within the range of doubles. -/
def Value.isRepresentable : Value → Bool
  | .integer n => n.any fun n =>
    -0x80000000000000000000000000000000 ≤ n ∧ n < 0x100000000000000000000000000000000
  | .real inRange => inRange
  | .array items => Value.areRepresentable items
  | .table entries => Table.isRepresentable entries
  | _ => true

def Value.areRepresentable : List Value → Bool
  | [] => true
  | v :: rest => v.isRepresentable && Value.areRepresentable rest

def Table.isRepresentable : List (String × Value) → Bool
  | [] => true
  | (_, v) :: rest => v.isRepresentable && Table.isRepresentable rest

end

end PushDelivery.Toml

/-!
## Assembling a TOML document

A document is a list of statements: a header opens a table, a doubled header opens a new element of
an array of tables, and a pair puts a value into the table opened last. No statement may give a name
twice, extend a value that is complete, or define a table for the second time. To tell, a table
under assembly remembers how it came to be.
-/

namespace PushDelivery.Toml

/-- How a table came to be. -/
inductive Origin where
  /-- A header opened it. -/
  | header
  /-- It was passed through on the way to the table of a header. -/
  | implied
  /-- It was passed through by the key of a pair. -/
  | dotted
  deriving DecidableEq

/-- A part of a document under assembly. -/
inductive Node where
  | complete (value : Value)
  | table (origin : Origin) (entries : List (String × Node))
  /-- An array of tables that doubled headers opened, the last first. -/
  | tables (elements : List (List (String × Node)))

abbrev Node.Entries := List (String × Node)

mutual

def Node.value : Node → Value
  | .complete v => v
  | .table _ entries => .table (Node.values entries)
  | .tables elements => .array (Node.elementValues elements).reverse

def Node.values : List (String × Node) → Table
  | [] => []
  | (name, node) :: rest => (name, node.value) :: Node.values rest

def Node.elementValues : List (List (String × Node)) → List Value
  | [] => []
  | entries :: rest => .table (Node.values entries) :: Node.elementValues rest

end

namespace Assembly

open Node (Entries)

/-- The entries with another node under a name that they have. -/
def replace (name : String) (node : Node) (entries : Entries) : Entries :=
  entries.map fun (n, old) => if n = name then (n, node) else (n, old)

/-- A change to the table that a path leads to, given how the table came to be. -/
abbrev Change := Origin → Entries → Option Entries

/-- Makes a change to the table to which names lead. Tables that are missing on the way come to be
with the given origin. An array of tables leads on to its last element. -/
def changeAt (missing : Origin) (change : Change) : List String → Change
  | [], origin, entries => change origin entries
  | name :: path, _, entries =>
    match entries.lookup name with
    | none => do
      return entries ++ [(name, .table missing (← changeAt missing change path missing []))]
    | some (.table origin inner) =>
      if missing = .dotted ∧ origin = .header then none
      else do
        return replace name (.table origin (← changeAt missing change path origin inner)) entries
    | some (.tables (last :: earlier)) => do
      let last ← changeAt missing change path .header last
      return replace name (.tables (last :: earlier)) entries
    | some _ => none

/-- Puts a value under a new name. A key of several parts must end in a table that such keys made,
and a key of one part in a table that no such key made. -/
def putPair (path : KeyPath) (value : Value) : Change :=
  changeAt .dotted
    (fun origin entries =>
      if (origin = .dotted) = path.parents.isEmpty ∨ (entries.lookup path.name).isSome then none
      else some (entries ++ [(path.name, .complete value)]))
    path.parents

/-- Opens the table of a header: a new one, or one that was only passed through by headers. -/
def openTable (path : KeyPath) : Change :=
  changeAt .implied
    (fun _ entries =>
      match entries.lookup path.name with
      | none => some (entries ++ [(path.name, .table .header [])])
      | some (.table .implied inner) => some (replace path.name (.table .header inner) entries)
      | some _ => none)
    path.parents

/-- Opens a new element of an array of tables. -/
def openElement (path : KeyPath) : Change :=
  changeAt .implied
    (fun _ entries =>
      match entries.lookup path.name with
      | none => some (entries ++ [(path.name, .tables [[]])])
      | some (.tables elements) => some (replace path.name (.tables ([] :: elements)) entries)
      | some _ => none)
    path.parents

end Assembly

inductive Statement where
  | table (path : KeyPath)
  | element (path : KeyPath)
  | pair (path : KeyPath) (value : Value)

/-- A document under assembly: its entries, and the names that lead to the table opened last. -/
structure Assembly where
  entries : Node.Entries := []
  place : List String := []

namespace Assembly

def add (a : Assembly) : Statement → Option Assembly
  | .table path => do
    return ⟨← openTable path .header a.entries, path.parents ++ [path.name]⟩
  | .element path => do
    return ⟨← openElement path .header a.entries, path.parents ++ [path.name]⟩
  | .pair path value => do
    return { a with entries := ← changeAt .implied (putPair path value) a.place .header a.entries }

end Assembly

def tableOfPairs (pairs : List (KeyPath × Value)) : Option Table :=
  (pairs.foldlM (fun entries (path, value) => Assembly.putPair path value .header entries)
    []).map Node.values

/-- The document that statements make. -/
def documentOf (statements : List Statement) : Option Table :=
  (statements.foldlM Assembly.add {}).map fun a => Node.values a.entries

end PushDelivery.Toml
