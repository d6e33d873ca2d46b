import GyroDelay.Config.Tree

/-!
# Tables in TOML

Tables are opened by headers and by dotted keys. A header may open a table only once, and a
dotted key may neither reopen a table that a header has opened nor reach into a value.
-/

namespace GyroDelay.Toml

open Config (Tree)

/-- How a table came about. -/
inductive Kind where
  /-- By a header of its own, or as the whole document. -/
  | opened
  /-- As part of the path of a header. -/
  | implied
  /-- By a dotted key. -/
  | dotted
deriving Repr, DecidableEq

/-- What stands behind a key while a document is read. -/
inductive Node where
  /-- A value. -/
  | value (tree : Tree)
  /-- A table. -/
  | table (kind : Kind) (entries : List (String × Node))
  /-- An array of tables, the last one first. -/
  | tables (items : List (List (String × Node)))

/-- The entries of a table in the order in which their keys first occur. -/
abbrev Entries := List (String × Node)

/-- Changes what stands behind a key, if `change` allows it. -/
def alter (key : String) (change : Option Node → Option Node) : Entries → Option Entries
  | [] => (change none).map fun node => [(key, node)]
  | (k, node) :: rest =>
    if k = key then (change (some node)).map fun node => (k, node) :: rest
    else (alter key change rest).map ((k, node) :: ·)

/-- Changes the table at a path, seen from a table of the given kind. Tables that are
missing on the way come about by the header or the dotted key that names them. -/
def enter (byDots : Bool) (change : Kind → Entries → Option Entries) :
    (path : List String) → Kind → Entries → Option Entries
  | [], kind, entries => change kind entries
  | key :: path, _, entries =>
    alter key (fun
      | none =>
        let kind := if byDots then Kind.dotted else Kind.implied
        (enter byDots change path kind []).map (Node.table kind)
      | some (.value _) => none
      | some (.tables []) => none
      | some (.tables (last :: before)) =>
        (enter byDots change path .opened last).map fun last => Node.tables (last :: before)
      | some (.table kind entries) =>
        if byDots && kind = .opened then none
        else (enter byDots change path kind entries).map (Node.table kind)) entries

/-- Puts a value behind a dotted key, which must be new. -/
def assign (path : List String) (value : Tree) (entries : Entries) : Option Entries :=
  match path.getLast? with
  | none => none
  | some key =>
    let parents := path.dropLast
    enter true (fun kind entries =>
      if !parents.isEmpty && kind ≠ .dotted then none
      else alter key (fun
        | none => some (.value value)
        | some _ => none) entries) parents .opened entries

/-- Opens the table of a header. -/
def openTable (path : List String) (entries : Entries) : Option Entries :=
  match path.getLast? with
  | none => none
  | some key =>
    enter false (fun _ entries =>
      alter key (fun
        | none => some (.table .opened [])
        | some (.table .implied inner) => some (.table .opened inner)
        | some _ => none) entries) path.dropLast .opened entries

/-- Adds a table to the array of tables of a header. -/
def openArrayTable (path : List String) (entries : Entries) : Option Entries :=
  match path.getLast? with
  | none => none
  | some key =>
    enter false (fun _ entries =>
      alter key (fun
        | none => some (.tables [[]])
        | some (.tables items) => some (.tables ([] :: items))
        | some _ => none) entries) path.dropLast .opened entries

mutual

/-- The tree of a node. -/
def Node.toTree : Node → Tree
  | .value tree => tree
  | .table _ entries => .record (entriesToMembers entries)
  | .tables items => .list (itemsToTrees items [])

/-- The members of a table. -/
def entriesToMembers : List (String × Node) → List (Option String × Tree)
  | [] => []
  | (key, node) :: rest => (some key, node.toTree) :: entriesToMembers rest

/-- The trees of an array of tables, in front of those in `done`. -/
def itemsToTrees : List (List (String × Node)) → List Tree → List Tree
  | [], done => done
  | item :: items, done => itemsToTrees items (.record (entriesToMembers item) :: done)

end

end GyroDelay.Toml
