import SourceReport.Text.Blank

/-!
# Data values

The values that documents and settings files hold, whatever format they are written in. A table
lists its entries in the order of their first appearance, each key once.

* `Table.find?` looks a key up; `Table.set` adds an entry or replaces the value of one in place.
* `Value.same` compares two values.
* `Value.kind` names the kind of a value in messages.
-/

namespace SourceReport.Data

/-- A day of the calendar. -/
structure Date where
  year : Nat
  month : Nat
  day : Nat
deriving DecidableEq

/-- A time of day, to the microsecond. -/
structure Time where
  hour : Nat
  minute : Nat
  second : Nat
  microsecond : Nat
deriving DecidableEq

/-- The distance of a local time from universal time. -/
structure Offset where
  /-- Minutes east of the zero meridian. -/
  minutes : Int
  /-- The offset as it is called. -/
  name : Text
deriving DecidableEq

/-- A value of a document or a settings file. -/
inductive Value where
  | null
  | bool (b : Bool)
  | int (i : Int)
  | float (x : Float)
  | text (t : Text)
  | date (d : Date)
  | time (t : Time)
  | dateTime (d : Date) (t : Time) (offset : Option Offset)
  | list (items : List Value)
  | table (entries : List (Text × Value))

instance : Inhabited Value := ⟨.null⟩

namespace Value

mutual

/-- Whether two values are the same. -/
def same : Value → Value → Bool
  | .null, .null => true
  | .bool b, .bool c => b = c
  | .int i, .int j => i = j
  | .float x, .float y => x = y
  | .text t, .text u => t = u
  | .date d, .date e => d = e
  | .time t, .time u => t = u
  | .dateTime d t o, .dateTime e u p => d = e ∧ t = u ∧ o = p
  | .list vs, .list ws => sameItems vs ws
  | .table t, .table u => sameEntries t u
  | _, _ => false

/-- Whether two lists have the same items. -/
def sameItems : List Value → List Value → Bool
  | [], [] => true
  | v :: vs, w :: ws => v.same w && sameItems vs ws
  | _, _ => false

/-- Whether two tables have the same entries in the same order. -/
def sameEntries : List (Text × Value) → List (Text × Value) → Bool
  | [], [] => true
  | (key, v) :: t, (key', w) :: u => key = key' && v.same w && sameEntries t u
  | _, _ => false

end

mutual

theorem same_iff : ∀ v w : Value, v.same w = true ↔ v = w
  | .list vs, w => by cases w <;> simp [Value.same, sameItems_iff vs]
  | .table t, w => by cases w <;> simp [Value.same, sameEntries_iff t]
  | .null, w | .bool _, w | .int _, w | .float _, w | .text _, w | .date _, w | .time _, w
  | .dateTime .., w => by cases w <;> simp [Value.same]

theorem sameItems_iff : ∀ vs ws : List Value, sameItems vs ws = true ↔ vs = ws
  | [], ws => by cases ws <;> simp [sameItems]
  | v :: vs, ws => by cases ws <;> simp [sameItems, same_iff v, sameItems_iff vs]

theorem sameEntries_iff : ∀ t u : List (Text × Value), sameEntries t u = true ↔ t = u
  | [], u => by cases u <;> simp [sameEntries]
  | (key, v) :: t, u => by
    cases u <;> simp [sameEntries, same_iff v, sameEntries_iff t, Prod.ext_iff]

end

instance : DecidableEq Value := fun v w => decidable_of_iff _ (v.same_iff w)

end Value

/-- The entries of a table in the order of their first appearance. -/
abbrev Table := List (Text × Value)

namespace Table

/-- The value under a key. -/
def find? (t : Table) (key : Text) : Option Value := t.lookup key

/-- Adds an entry at the end, or replaces the value of the key where it stands. -/
def set (key : Text) (value : Value) : Table → Table
  | [] => [(key, value)]
  | (k, v) :: rest => if k = key then (k, value) :: rest else (k, v) :: set key value rest

/-- The value under a key, where an absent key and a null value mean the same. -/
def present? (t : Table) (key : Text) : Option Value :=
  match t.find? key with
  | some .null => none
  | found => found

end Table

/-- The name of a value's kind in messages. -/
def Value.kind : Value → Text
  | .null => "NoneType"
  | .bool _ => "bool"
  | .int _ => "int"
  | .float _ => "float"
  | .text _ => "str"
  | .date _ => "date"
  | .time _ => "time"
  | .dateTime .. => "datetime"
  | .list _ => "list"
  | .table _ => "dict"

/-- A table, or the empty table for any other value. -/
def Value.asTable : Option Value → Table
  | some (.table entries) => entries
  | _ => []

end SourceReport.Data
