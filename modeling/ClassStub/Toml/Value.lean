import ClassStub.Toml.Moment
import ClassStub.Toml.Number

/-!
# TOML values

A value is a string, a number, a truth value, a moment in time, an array or a
table.  A table remembers how it came about, because that decides which later
statements may still add to it:

* one written in braces is **closed**, nothing can be added;
* one with a **header** of its own has its entries below the header;
* one **implied** by the header of a table inside it may still get a header;
* one made by a **dotted** key may be added to by dotted keys.
-/

namespace ClassStub.Toml

/-- How a table came about. -/
inductive Form where
  | closed
  | headed
  | implied
  | dotted
  deriving DecidableEq

/-- A TOML value.  An array of tables that have headers of their own is kept with
its last table in front, to which entries are added. -/
inductive Value where
  | string (text : String)
  | integer (number : Int64)
  | float (number : Decimal)
  | boolean (truth : Bool)
  | moment (moment : Moment)
  | array (items : List Value)
  | table (form : Form) (entries : List (String × Value))
  | tables (last : List (String × Value)) (earlier : List (List (String × Value)))

/-- The entries of a table, each key once. -/
abbrev Table := List (String × Value)

namespace Table

/-- Gives a key a value, in the place of an earlier one if there is one. -/
def set (key : String) (value : Value) : Table → Table
  | [] => [(key, value)]
  | entry :: more => if entry.1 = key then (key, value) :: more else entry :: set key value more

/-- The value that a key was given is the one that is found. -/
theorem lookup_set_self (key : String) (value : Value) (table : Table) :
    (table.set key value).lookup key = some value := by
  induction table with
  | nil => rw [set, List.lookup_cons_self]
  | cons entry more ih =>
    by_cases same : entry.1 = key
    · rw [set, if_pos same, List.lookup_cons_self]
    · have other : (key == entry.1) = false := by simpa using fun h => same h.symm
      rw [set, if_neg same, List.lookup_cons, other, ih]

/-- Changes the table that a path leads to.  Tables that do not exist yet are
made on the way, and of an array of tables the last one is meant.  A dotted path
does not lead through a table that has a header of its own. -/
def alter (dotted : Bool) (change : Form → Table → Option Table) :
    List String → Form → Table → Option Table
  | [], form, table => change form table
  | key :: path, _, table =>
    match table.lookup key with
    | none => do
      let form := if dotted then Form.dotted else Form.implied
      let inner ← alter dotted change path form []
      return table.set key (.table form inner)
    | some (.table form inner) => do
      guard (form ≠ .closed ∧ ¬(dotted ∧ form = .headed))
      let inner ← alter dotted change path form inner
      return table.set key (.table form inner)
    | some (.tables last earlier) => do
      let last ← alter dotted change path .headed last
      return table.set key (.tables last earlier)
    | some _ => none

/-- Gives a dotted key a value.  Tables on the way to it have to be made by dotted
keys, and the key must be new. -/
def define (path : List String) (key : String) (value : Value) : Form → Table → Option Table :=
  alter true (fun form table => do
    guard (path.isEmpty ∨ form = .dotted)
    guard (table.lookup key).isNone
    return table.set key value) path

/-- Gives a key a table with a header of its own, which may have been implied
before. -/
def openTable (key : String) (table : Table) : Option Table :=
  match table.lookup key with
  | none => some (table.set key (.table .headed []))
  | some (.table .implied inner) => some (table.set key (.table .headed inner))
  | some _ => none

/-- Gives the array of tables at a key a new last table. -/
def openElement (key : String) (table : Table) : Option Table :=
  match table.lookup key with
  | none => some (table.set key (.tables [] []))
  | some (.tables last earlier) => some (table.set key (.tables [] (last :: earlier)))
  | some _ => none

end Table

end ClassStub.Toml
