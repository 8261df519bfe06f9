import SourceReport.Document.Error

/-!
# Fields of a document

Documents are tables of texts, integers and lists of further tables. A field is missing if its key
is absent or its value is null; a value of another kind is refused.
-/

namespace SourceReport

open Data (Value Table)

/-- A kind of values, with its name in messages. -/
structure FieldKind (α : Type) where
  name : Text
  read? : Value → Option α

namespace FieldKind

/-- Texts. -/
def text : FieldKind Text where
  name := "str"
  read?
    | .text t => some t
    | _ => none

/-- Integers; truth values are none. -/
def int : FieldKind Int where
  name := "int"
  read?
    | .int n => some n
    | _ => none

end FieldKind

/-- The list of values of one kind. -/
def FieldKind.all? {α : Type} (kind : FieldKind α) (vs : List Value) : Option (List α) :=
  vs.mapM kind.read?

/-- A table of a document and its place. -/
structure Fields where
  place : Text
  table : Table

namespace Fields

variable {α : Type}

/-- A value of a kind. -/
def checked (f : Fields) (key : Text) (kind : FieldKind α) (v : Value) : Loading α :=
  match kind.read? v with
  | some a => .ok a
  | none => .refuse f.place (.wrongKind key kind.name v.kind)

/-- The field under a key, if there is one. -/
def optional (f : Fields) (key : Text) (kind : FieldKind α) : Loading (Option α) :=
  match f.table.present? key with
  | none => .ok none
  | some v => do return some (← f.checked key kind v)

/-- The field under a key. -/
def require (f : Fields) (key : Text) (kind : FieldKind α) : Loading α :=
  match f.table.present? key with
  | none => .refuse f.place (.missingKey key)
  | some v => f.checked key kind v

/-- The place of an element of the list under a key. -/
def elementPlace (key : Text) (index : Nat) : Text := key ++ "[" ++ Text.ofNat index ++ "]"

/-- The tables of a list, each with its place below `front`. -/
def numbered (front key : Text) (tables : List Table) : List Fields :=
  tables.mapIdx fun index t => ⟨front ++ elementPlace key index, t⟩

/-- The list of tables under a key; without the key it is empty. -/
def tables (f : Fields) (front key : Text) : Loading (List Fields) :=
  let kind : FieldKind Table := ⟨"dict", fun
    | .table t => some t
    | _ => none⟩
  match f.table.find? key with
  | none => .ok []
  | some (.list vs) =>
    match kind.all? vs with
    | some ts => .ok (numbered front key ts)
    | none => .refuse f.place (.noTables key)
  | some _ => .refuse f.place (.noTables key)

end Fields

end SourceReport
