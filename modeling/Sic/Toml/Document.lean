import Sic.Toml.Reader
import Std.Data.TreeMap
import Std.Data.TreeSet

/-!
# The tables of a TOML document

The items of a document define keys, each within a table.  `Document.ofItems?` collects them; it
fails where a key is defined again.  Two kinds of key may be defined again.

* A table that so far is only implied, as `a` is by `[a.b]`, may still be defined itself.
* A key that is noted to hold an array may be given another value.

An array of tables gets a further table with every head that names it.

A table written on one line has a body of its own beside the table that its keys define in the
document, and a dotted key inside it needs tables on its way in both.  The body is what the key is
given as its value, so one table may be entered in two places; therefore tables have numbers, and
entries refer to them by number.
-/

set_option autoImplicit false

namespace Sic

namespace Toml

/-- What a key is defined as. -/
inductive Entry where
  | value (v : Value)
  /-- A table, by its number. -/
  | table (t : Nat)
  /-- An array of tables, by the number of the last; no key leads to the others. -/
  | tables (last : Nat)

/-- The keys of a table with what they are defined as. -/
abbrev Entries := Std.TreeMap Text Entry

/-- The tables of a document by their numbers, of which 0 is the document's own, the tables that are
only implied, and the keys that are noted to hold arrays. -/
structure Document where
  tables : Array Entries
  implied : Std.TreeSet Key
  arrays : Std.TreeSet Key

namespace Document

/-- The document without keys. -/
def empty : Document := ⟨#[∅], ∅, ∅⟩

/-- The keys of a table. -/
def entries (d : Document) (t : Nat) : Entries := d.tables.getD t ∅

/-- The keys of the document itself. -/
def root (d : Document) : Entries := d.entries 0

/-- Adds a table without keys, and gives its number. -/
def newTable (d : Document) : Document × Nat :=
  let t := d.tables.size
  ({ d with tables := d.tables.push ∅ }, t)

/-- Gives a key of a table a meaning. -/
def set (d : Document) (t : Nat) (name : Text) (e : Entry) : Document :=
  { d with tables := d.tables.modify t (·.insert name e) }

/-- Gives a key of a table a new table, and that table's number. -/
def setNew (d : Document) (t : Nat) (name : Text) : Document × Nat :=
  let (d, u) := d.newTable
  (d.set t name (.table u), u)

/-- The table that a key leads to; in an array of tables it leads to the last. -/
def enter? (d : Document) (t : Nat) (name : Text) : Option Nat :=
  match (d.entries t)[name]? with
  | some (.table u) => some u
  | some (.tables last) => some last
  | _ => none

/-- The table that a path leads to. -/
def find? (d : Document) (path : Key) : Option Nat := path.foldlM d.enter? 0

/-! ## Notes on keys -/

/-- Marks a table as implied. -/
def imply (d : Document) (path : Key) : Document := { d with implied := d.implied.insert path }

/-- Takes the mark of an implied table away. -/
def confirm (d : Document) (path : Key) : Document := { d with implied := d.implied.erase path }

/-- Notes whether what a path leads to is an array. -/
def note (d : Document) (path : Key) (isArray : Bool) : Document :=
  { d with arrays := if isArray then d.arrays.insert path else d.arrays.erase path }

/-- Where the kind of a key's value is noted: with the key or, if its name is empty, with the table
it belongs to. -/
def notedAt (table : Key) (name : Text) : Key :=
  if name.isEmpty && !table.isEmpty then table else table ++ [name]

/-! ## Definitions -/

/-- Defines a key of a table. -/
def define? (d : Document) (table : Key) (name : Text) (e : Entry) : Option Document := do
  let t ← d.find? table
  let path := table ++ [name]
  if !(d.entries t).contains name then some (d.set t name e)
  else if d.arrays.contains path then some ((d.set t name e).confirm path)
  else if d.implied.contains path then some (d.confirm path)
  else none

/-- Makes sure that there are tables on the way along a path from a table, implying those that are
missing; `above` are the keys on the way to that table, the last first. -/
def reach? (d : Document) (t : Nat) (above : Key) : Key → Option Document
  | [] => some d
  | k :: path =>
    if !(d.entries t).contains k then
      let (d, u) := d.setNew t k
      reach? (d.imply (k :: above).reverse) u (k :: above) path
    else do reach? d (← d.enter? t k) (k :: above) path

/-- Opens a table. -/
def openTable? (d : Document) (path : Key) : Option Document := do
  let name ← path.getLast?
  let d ← d.reach? 0 [] path.dropLast
  let (d, t) := d.newTable
  d.define? path.dropLast name (.table t)

/-- Opens a further table in an array of tables. -/
def openElement? (d : Document) (path : Key) : Option Document := do
  let name ← path.getLast?
  let d ← d.reach? 0 [] path.dropLast
  let t ← d.find? path.dropLast
  let (d, u) := d.newTable
  match (d.entries t)[name]? with
  | none | some (.tables _) => some (d.set t name (.tables u))
  | some _ => none

/-- Opens the tables that the parts of a dotted key name, one inside the other. -/
def openParts? (d : Document) (table : Key) : Key → Option Document
  | [] => some d
  | k :: path => do
    let d ← (d.imply (table ++ [k])).openTable? (table ++ [k])
    openParts? d (table ++ [k]) path

/-- Gives a key in the body of a table on one line a meaning; the path leads there from the body. -/
def setInBody? (d : Document) (body : Nat) (name : Text) (e : Entry) : Key → Option Document
  | [] => some (d.set body name e)
  | k :: path =>
    match (d.entries body)[k]? with
    | none =>
      let (d, u) := d.setNew body k
      setInBody? d u name e path
    | some (.table u) => setInBody? d u name e path
    | some _ => none

mutual

/-- What a key is to be defined as for a value.  What stands inside the value is defined on the
way. -/
def entryOf? (d : Document) (table : Key) (name : Text) (inArray : Bool) :
    Value → Option (Document × Entry)
  | .array items => do
    let d ← defineItems? (d.note (notedAt table name) true) table name items
    some (d, .value (.array items))
  | .table entries => do
    let path := table ++ [name]
    let d := d.imply path
    let d ← if inArray then d.openElement? path else d.openTable? path
    let (d, body) := d.newTable
    let d ← defineEntries? d path body entries
    some (d, .table body)
  | v => some (d, .value v)

/-- Defines what stands inside the values of an array. -/
def defineItems? (d : Document) (table : Key) (name : Text) : List Value → Option Document
  | [] => some d
  | v :: rest => do
    let (d, _) ← entryOf? d table name true v
    defineItems? d table name rest

/-- Defines the entries of a table on one line, both in the table at its path and in its body. -/
def defineEntries? (d : Document) (table : Key) (body : Nat) :
    List (Key × Value) → Option Document
  | [] => some d
  | (k, v) :: rest => do
    let name ← k.getLast?
    let inner := table ++ k.dropLast
    let d ← d.openParts? table k.dropLast
    let (d, e) ← entryOf? d inner name false v
    let d ← d.define? inner name e
    let d ← (d.note (notedAt inner name) v.isArray).setInBody? body name e k.dropLast
    defineEntries? d table body rest

end

/-- Takes up an item; `table` is the table opened by the last head. -/
def addItem? (d : Document) (table : Key) : Item → Option (Document × Key)
  | .table k => do
    let d ← d.openTable? k
    some (d.note k false, k)
  | .arrayTable k => do
    let d ← d.openElement? k
    some (d.note k false, k)
  | .pair k v => do
    let (d, body) := d.newTable
    let d ← d.defineEntries? table body [(k, v)]
    some (d, table)

/-- Collects the items of a document. -/
def ofItems? (items : List Item) : Option Document :=
  (items.foldlM (fun (d, table) i => addItem? d table i) (empty, [])).map Prod.fst

/-- Reads a document. -/
def parse? (t : Text) : Option Document := (Toml.parse? t).bind ofItems?

end Document

end Toml

end Sic
