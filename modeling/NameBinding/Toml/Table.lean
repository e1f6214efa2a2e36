import NameBinding.Toml.Basic

set_option autoImplicit false

/-!
# Building tables

The entries of a table may stand in several places of a file: below its own
heading, below the headings of tables inside it, and behind dotted keys.  But no
key may be given a value twice, no table may have two headings, and a table that
dotted keys made up cannot be given a heading, nor the other way round.
-/

namespace NameBinding.Toml

/-- What stands under a key while a file is read. -/
inductive Item where
  | value (value : Value)
  /-- A table.  It is implicit as long as only what is inside it was named, and
  dotted if that was done by dotted keys. -/
  | table (implicit dotted : Bool) (entries : List (String × Item))
  /-- An array of tables that have a heading each. -/
  | tables (earlier : List (List (String × Item))) (last : List (String × Item))
  deriving Inhabited

namespace Item

mutual

/-- The value that has been built. -/
def toValue : Item → Value
  | .value v => v
  | .table _ _ entries => .table (entryValues entries)
  | .tables earlier last => .array (tableValues earlier ++ [.table (entryValues last)])

/-- The entries of a table, as values. -/
def entryValues : List (String × Item) → List (String × Value)
  | [] => []
  | (key, item) :: rest => (key, toValue item) :: entryValues rest

/-- The tables of an array, as values. -/
def tableValues : List (List (String × Item)) → List Value
  | [] => []
  | entries :: rest => .table (entryValues entries) :: tableValues rest

end

end Item

/-- The entries of a table while a file is read. -/
abbrev Entries := List (String × Item)

namespace Entries

/-- Replaces what stands under a key, or adds something under a new key at the end.
`change` may refuse. -/
def change? (key : String) (change : Option Item → Option Item) : Entries → Option Entries
  | [] => (change none).map fun item => [(key, item)]
  | (k, item) :: rest =>
    if k = key then (change (some item)).map fun item => (k, item) :: rest
    else (change? key change rest).map ((k, item) :: ·)

/-- Changes the entries of the table that a path leads to, starting in a table that
is or is not dotted.  Tables on the way that do not exist yet are made, dotted if
`byDots` is set; and with `byDots` the path leads through no table that has a
heading.  Of an array of tables, the path leads into the last one. -/
def changeAt? (byDots : Bool) (change : (dotted : Bool) → Entries → Option Entries) :
    (path : List String) → (dotted : Bool) → Entries → Option Entries
  | [], dotted, entries => change dotted entries
  | key :: path, _, entries =>
    entries.change? key fun
      | none => (changeAt? byDots change path byDots []).map (.table true byDots)
      | some (.value _) => none
      | some (.table implicit dotted inner) =>
        if byDots && !implicit then none
        else (changeAt? byDots change path dotted inner).map (.table implicit dotted)
      | some (.tables earlier last) =>
        (changeAt? byDots change path false last).map (.tables earlier)

/-- Gives a key of a table a value, for the first time.  The key is the last one
behind the dotted keys `path`. -/
def addValue? (path : List String) (key : String) (value : Value) (entries : Entries) :
    Option Entries :=
  let add := fun (dotted : Bool) (inner : Entries) =>
    if dotted = path.isEmpty then none
    else
      inner.change? key fun
        | none => some (.value value)
        | some _ => none
  entries.changeAt? true add path false

/-- Gives a table its heading. -/
def addTable? (path : List String) (key : String) (entries : Entries) : Option Entries :=
  let add := fun (_ : Bool) (inner : Entries) =>
    inner.change? key fun
      | none => some (.table false false [])
      | some (.table true false entries) => some (.table false false entries)
      | some _ => none
  entries.changeAt? false add path false

/-- Adds a table to the array of tables under a key. -/
def addToTables? (path : List String) (key : String) (entries : Entries) : Option Entries :=
  let add := fun (_ : Bool) (inner : Entries) =>
    inner.change? key fun
      | none => some (.tables [] [])
      | some (.tables earlier last) => some (.tables (earlier ++ [last]) [])
      | some _ => none
  entries.changeAt? false add path false

/-- The table that consists of these values of dotted keys. -/
def ofPairs? (pairs : List (List String × String × Value)) : Option Entries :=
  pairs.foldlM (fun entries p => addValue? p.1 p.2.1 p.2.2 entries) []

end Entries

end NameBinding.Toml
