import SourceReport.Data.Toml.Key

/-!
# Tables under construction

The tables of a TOML text grow while it is read. What stands under a key may come in several parts,
far from each other in the text; each part is an entry of its own until the whole table is read. The
parts are then assembled (`assemble`).

* `Node.meet` decides what becomes of a node that is added under a key that has been taken. It
  depends on how the tables came to be: a header opens a table once, while tables that are only on
  the way to others can be met again.
* `append` adds a node. Parts that come together must agree, entry by entry (`checkParts`), and they
  must be assembled where the table is looked at (`look`).
* Parts are assembled entry by entry, too, and what has several parts in their table must agree.
* Indentation spreads from a table to the tables that are merged into it. No table with indentation
  can be merged that leaves an entry of it in several parts (`indent`).
* `finish` is the value of a whole table.
-/

namespace SourceReport.Data.Toml

/-- How a table came to be. -/
inductive Origin where
  /-- By a header of its own. -/
  | opened
  /-- On the way of a header or of a dotted key to something deeper. -/
  | passed
  /-- On the way of a header with double brackets, by the name of a list that is being read. -/
  | joining
deriving DecidableEq

/-- A part of a key where it stands in a table. -/
structure Key where
  text : Text
  /-- Whether a point follows it in a dotted key. -/
  dotted : Bool
deriving DecidableEq

/-- What stands under a key. -/
inductive Node where
  | value (v : Value)
  /-- A single table. A header behind a space makes indented tables, except for the first one on the
  way of its path. -/
  | table (origin : Origin) (indented : Bool) (entries : List (Key × Node))
  /-- A list of tables. -/
  | tables (items : List (List (Key × Node)))

/-- The entries of a table under construction. -/
abbrev Entries := List (Key × Node)

/-- The entries of a table; any other node has none. -/
def Node.entries : Node → Entries
  | .table _ _ entries => entries
  | _ => []

/-- Whether the node is a single table. -/
def Node.isTable : Node → Bool
  | .table .. => true
  | _ => false

/-- Whether the node is a single table with indentation. -/
def Node.isIndented : Node → Bool
  | .table _ indented _ => indented
  | _ => false

/-- The table with other entries; any other node stays. -/
def Node.setEntries (entries : Entries) : Node → Node
  | .table origin indented _ => .table origin indented entries
  | other => other

/-- The table with indentation; any other node stays. -/
def Node.indent : Node → Node
  | .table origin _ entries => .table origin true entries
  | other => other

/-- What becomes of a node that is added under a key that has been taken. -/
inductive Meeting where
  | refused (c : Conflict)
  /-- A node takes the place of the last part. -/
  | replaced (node : Node)
  /-- A node takes the place of all parts. -/
  | alone (node : Node)
  /-- It is a further part. -/
  | apart
  /-- It is a further part, which must agree with the others. -/
  | checkedApart
  /-- Its entries are added to the last part. -/
  | merged

/-- The meeting of the last part under a key with a new node. `dotted` tells whether a dotted key is
involved, `adjacent` whether no other table has been added since the last part. -/
def Node.meet (key : Text) (dotted adjacent : Bool) : Node → Node → Meeting
  | .tables old, .tables new => .replaced (.tables (old ++ new))
  | .tables old, .table .joining _ new => .replaced (.tables (old ++ [new]))
  | .table _ _ old, .table .joining _ new => .alone (.tables [old, new])
  | .table .opened .., .table .passed .. => .apart
  | .table .., .table .passed .. => if dotted || !adjacent then .checkedApart else .merged
  | .table .opened .., .table .opened .. => .refused (.present key)
  | .table .., .table .opened .. => if dotted then .refused .redefined else .apart
  | _, _ => .refused (.present key)

namespace Entries

/-- The parts under a key in order. -/
def parts (key : Text) (es : Entries) : List (Key × Node) := es.filter (·.1.text = key)

/-- The last part under a key. -/
def lastPart? (key : Text) (es : Entries) : Option (Key × Node) := (es.parts key).getLast?

/-- The keys in the order of their first appearance. -/
def keys (es : Entries) : List Text := (es.map (·.1.text)).eraseDups

/-- The key of the last single table. -/
def lastTable? (es : Entries) : Option Text :=
  (es.filter (·.2.isTable)).getLast?.map (·.1.text)

/-- Puts a node in the place of the last part under a key. -/
def replaceLast (key : Text) (node : Node) : Entries → Entries
  | [] => []
  | (k, old) :: rest =>
    if k.text = key ∧ (parts key rest).isEmpty then (k, node) :: rest
    else (k, old) :: replaceLast key node rest

/-- Puts a node in the place of all parts under its key. -/
def replaceAll (key : Key) (node : Node) : Entries → Entries
  | [] => []
  | (k, old) :: rest =>
    if k.text = key.text then (key, node) :: rest.filter (·.1.text ≠ key.text)
    else (k, old) :: replaceAll key node rest

/-- Indents what stands under a key, which must not have several parts. -/
def indent (key : Text) (es : Entries) : Except Conflict Entries :=
  match es.parts key with
  | [(_, node)] => .ok (es.replaceLast key node.indent)
  | [] => .ok es
  | _ => .error .scattered

/-- Adds an entry whose key is free, or has parts of which the last is a single table. -/
def push (key : Key) (node : Node) (es : Entries) : Except Conflict Entries :=
  match es.lastPart? key.text with
  | none | some (_, .table ..) => .ok (es ++ [(key, node)])
  | some _ => .error (.present key.text)

/-- The entries of all parts that are single tables. -/
def entriesOf (parts : Entries) : Entries := parts.flatMap (·.2.entries)

/-! ## Adding entries and assembling parts -/

mutual

/-- Adds a node under a key; `checked` tells whether parts are checked that come together. -/
def appendWithin : (fuel : Nat) → (checked : Bool) → Key → Node → Entries →
    Except Conflict Entries
  | 0, _, _, _, es => .ok es
  | fuel + 1, checked, key, node, es =>
    match es.lastPart? key.text with
    | none => .ok (es ++ [(key, node)])
    | some (k, last) => do
      lookWithin fuel key.text es
      let adjacent := es.lastTable? = some key.text
      match Node.meet key.text (key.dotted || k.dotted) adjacent last node with
      | .refused c => throw c
      | .replaced node => return es.replaceLast key.text node
      | .alone node => return es.replaceAll key node
      | .apart => return es ++ [(key, node)]
      | .checkedApart =>
        let es := es ++ [(key, node)]
        if checked then checkPartsWithin fuel key.text es
        return es
      | .merged =>
        let merged ← node.entries.foldlM (fun inner (key, node) => do
          let inner ← appendWithin fuel true key node inner
          lookWithin fuel key.text inner
          if last.isIndented then inner.indent key.text else return inner) last.entries
        return es.replaceLast key.text (last.setEntries merged)

/-- Looks at what stands under a key; several parts must be a table together. -/
def lookWithin : (fuel : Nat) → Text → Entries → Except Conflict Unit
  | 0, _, _ => .ok ()
  | fuel + 1, key, es =>
    match es.parts key with
    | first :: second :: more => (assembleWithin fuel (first :: second :: more)).map fun _ => ()
    | _ => .ok ()

/-- The table of several parts. -/
def assembleWithin : (fuel : Nat) → (parts : Entries) → Except Conflict Entries
  | 0, _ => .ok []
  | fuel + 1, parts => do
    let whole : Entries ← (entriesOf parts).foldlM
      (fun whole (key, node) => whole.push key node) []
    whole.keys.forM fun key => checkPartsWithin fuel key whole
    return whole

/-- Checks that the parts under a key agree: their entries can be added to one table, and the parts
in that table agree, too. -/
def checkPartsWithin : (fuel : Nat) → Text → Entries → Except Conflict Unit
  | 0, _, _ => .ok ()
  | fuel + 1, key, es =>
    match es.parts key with
    | first :: second :: more => do
      let whole : Entries ← (entriesOf (first :: second :: more)).foldlM
        (fun whole (key, node) => appendWithin fuel false key node whole) []
      (keys whole).forM fun key => checkPartsWithin fuel key whole
    | _ => .ok ()

end

end Entries

mutual

/-- The number of tables inside each other. -/
def Node.height : Node → Nat
  | .value _ => 0
  | .table _ _ entries => heightOfEntries entries + 1
  | .tables items => heightOfTables items + 1

/-- The height of the highest entry. -/
def heightOfEntries : List (Key × Node) → Nat
  | [] => 0
  | (_, node) :: rest => max node.height (heightOfEntries rest)

/-- The height of the highest entry in tables. -/
def heightOfTables : List (List (Key × Node)) → Nat
  | [] => 0
  | entries :: rest => max (heightOfEntries entries) (heightOfTables rest)

end

namespace Entries

/-- The height of the highest entry. -/
def height (es : Entries) : Nat := heightOfEntries es

/-- Fuel for entries of a height. Any two steps go down by a table, so it is never used up. -/
def fuelFor (height : Nat) : Nat := 2 * height + 2

/-- Adds a node under a key. -/
def append (checked : Bool) (key : Key) (node : Node) (es : Entries) : Except Conflict Entries :=
  appendWithin (fuelFor (max node.height es.height)) checked key node es

/-- Checks that the parts under each key agree. -/
def checkParts (es : Entries) : Except Conflict Unit :=
  es.keys.forM fun key => checkPartsWithin (fuelFor es.height) key es

/-- Looks at what stands under a key; several parts must be a table together. -/
def look (key : Text) (es : Entries) : Except Conflict Unit :=
  lookWithin (fuelFor es.height) key es

/-- The table of several parts. -/
def assemble (parts : Entries) : Except Conflict Entries :=
  assembleWithin (fuelFor parts.height) parts

/-- The tables on the way of a dotted key to its value, and the value. -/
def dottedNode (v : Value) : List Text → Node
  | [] => .value v
  | [last] => .table .passed false [(⟨last, false⟩, .value v)]
  | key :: rest => .table .passed false [(⟨key, true⟩, dottedNode v rest)]

/-- Adds a value under a key, which may be dotted. The parts that dotted keys add are always
checked. -/
def assign (checked : Bool) (path : KeyPath) (v : Value) (es : Entries) :
    Except Conflict Entries :=
  match path.tail with
  | [] => es.append checked ⟨path.head, false⟩ (.value v)
  | tail => es.append true ⟨path.head, true⟩ (dottedNode v tail)

/-! ## Values -/

/-- The value of a table whose height is below the fuel. -/
def finishWithin : (fuel : Nat) → Entries → Except Conflict Table
  | 0, _ => .ok []
  | fuel + 1, es =>
    es.keys.mapM fun key => do
      match es.parts key with
      | [(_, .value v)] => return (key, v)
      | [(_, .tables items)] =>
        let tables ← items.mapM (finishWithin fuel)
        return (key, .list (tables.map .table))
      | [(_, .table _ _ entries)] => return (key, .table (← finishWithin fuel entries))
      | parts => return (key, .table (← finishWithin fuel (← assemble parts)))

/-- The value of a table. -/
def finish (es : Entries) : Except Conflict Table := finishWithin (es.height + 1) es

end Entries

end SourceReport.Data.Toml
