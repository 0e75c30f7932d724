import TreeDump.Toml.Basic
import TreeDump.Value

/-!
# Tables of a settings file

Keys are dotted, so that a statement may reach into tables of tables, and an array of tables is
reached into at its last element.  What may not be extended any more is marked.

* `Fields.changeAt` changes the table behind a key and makes the tables on the way to it.
* `Marks` keeps what is declared and what is immutable.
-/

namespace TreeDump.Toml

abbrev Fields := List (String × Value)

namespace Fields

/-- The fields with another value for a name that is among them. -/
def replace (name : String) (value : Value) (fields : Fields) : Fields :=
  fields.map fun field => if field.1 == name then (name, value) else field

/-- The fields with a value for a name.  A new name comes last. -/
def put (name : String) (value : Value) (fields : Fields) : Fields :=
  if (fields.lookup name).isSome then fields.replace name value else fields ++ [(name, value)]

/-- The fields after a change of the table behind a key.  With `enterArrays` the way to it leads
through the last elements of arrays too. -/
def changeAt (enterArrays : Bool) (change : Fields → Except Cause Fields) :
    Key → Fields → Except Cause Fields
  | [], fields => change fields
  | name :: key, fields =>
    match fields.lookup name with
    | none => (changeAt enterArrays change key []).map fun inner =>
      fields ++ [(name, .table inner)]
    | some (.table inner) => (changeAt enterArrays change key inner).map fun inner =>
      fields.replace name (.table inner)
    | some (.list items) =>
      match enterArrays, items.getLast? with
      | true, some (.table inner) => (changeAt enterArrays change key inner).map fun inner =>
        fields.replace name (.list (items.dropLast ++ [.table inner]))
      | _, _ => .error .overwritten
    | some _ => .error .overwritten

/-- A table with one more table at the end of the array under a name. -/
def extendArray (name : String) (fields : Fields) : Except Cause Fields :=
  match fields.lookup name with
  | none => .ok (fields ++ [(name, .list [.table []])])
  | some (.list items) => .ok (fields.replace name (.list (items ++ [.table []])))
  | some _ => .error .overwritten

/-- A table with a value under a name that is not yet in it. -/
def define (clash : Cause) (name : String) (value : Value) (fields : Fields) :
    Except Cause Fields :=
  if (fields.lookup name).isSome then .error clash else .ok (fields ++ [(name, value)])

end Fields

/-! ## Marks -/

inductive Mark where
  | declared
  /-- It holds a value that was written out, and nothing below it may change. -/
  | immutable
deriving Repr, DecidableEq

abbrev Marks := List (Key × Mark)

namespace Marks

def isDeclared (marks : Marks) (key : Key) : Bool := marks.contains (key, .declared)

/-- Whether a key lies at or below one that is immutable.  The empty key never does. -/
def isImmutable (marks : Marks) (key : Key) : Bool :=
  marks.any fun (marked, mark) => mark == .immutable && marked.isPrefixOf key

def clearBelow (marks : Marks) (key : Key) : Marks :=
  marks.filter fun (marked, _) => !key.isPrefixOf marked

end Marks

end TreeDump.Toml
