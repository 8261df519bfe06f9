import SourceReport.Data.Toml.Values

/-!
# Reading TOML

`read?` reads a text as a table. The text is a sequence of statements, each on lines of its own: a
header in single or double brackets, or a key with its value. Blank lines and comments may stand
between them and a comment behind each.

* A header opens a table, and what follows it up to the next header are its entries. A header whose
  path goes on from that of another one belongs to the table of the latter, if it follows that table
  directly.
* A header is indented if a space stands in front of it on its line. Its tables take that along.
* Headers in double brackets that follow each other with one path are the tables of one list.
  Behind the first of the two closing brackets any code point may stand.
* Entries that cannot stand together make the text malformed if they belong to the document as a
  whole; inside a table they are refused as a conflict (`Scope`).
-/

namespace SourceReport.Data.Toml

/-- The text after the end of a line: blanks, a comment if there is one, and the newline. `comment`
tells whether the text starts inside the comment, which a carriage return ends, too. -/
def endLine (comment : Bool) : Text → Except Stop Text
  | [] => .ok []
  | c :: rest =>
    if c = '\n' then .ok rest
    else if comment then
      if c = '\r' then .ok (if rest.head? = some '\n' then rest.drop 1 else rest)
      else if isForbidden c then .error (.invalid (c :: rest))
      else endLine true rest
    else if isSpace c || c = '\r' then endLine false rest
    else if c = '#' then endLine true rest
    else .error (.unexpected (c :: rest))

/-- The next statement of a text. -/
structure Upcoming where
  /-- Whether a space stands in front of it on its line. -/
  indented : Bool
  /-- The text from the statement on. It is empty if none follows. -/
  text : Text

/-- Finds the next statement. `comment` tells whether the text starts inside a comment, `returned`
whether a carriage return outside comments has been passed on the line, and `indented` whether a
space has been. Only a header stands behind a carriage return. -/
def nextStatement (comment returned indented : Bool) : Text → Except Stop Upcoming
  | [] => .ok ⟨indented, []⟩
  | c :: rest =>
    if c = '\n' then nextStatement false false false rest
    else if comment then
      if c = '\r' then nextStatement false false false rest
      else if isForbidden c then .error (.invalid (c :: rest))
      else nextStatement true false false rest
    else if c = '\r' then nextStatement false true indented rest
    else if isSpace c then nextStatement false returned (indented || c = ' ') rest
    else if c = '#' then nextStatement true false false rest
    else if returned && c ≠ '[' then .error (.invalid (c :: rest))
    else .ok ⟨indented, c :: rest⟩

/-! ## Headers -/

/-- A header up to the end of its path. -/
structure Header where
  indented : Bool
  double : Bool
  path : KeyPath
  /-- The text behind the path. -/
  rest : Text

namespace Header

/-- Reads a header up to the end of its path. -/
def read (fuel : Nat) (s : Upcoming) : Except Stop Header := do
  match Text.dropFront? "[[" s.text with
  | some inner =>
    let (path, rest) ← readKey fuel inner
    return ⟨s.indented, true, path, rest⟩
  | none =>
    let (path, rest) ← readKey fuel (s.text.drop 1)
    return ⟨s.indented, false, path, rest⟩

/-- The text after the line of the header. -/
def close (h : Header) : Except Stop Text :=
  match h.rest with
  | c :: rest =>
    if c = ']' then endLine false (if h.double then rest.drop 1 else rest)
    else .error (.unexpected (c :: rest))
  | [] => .error (.invalid [])

/-- The path from the table of another header on, unless it does not go on from there. -/
def below? (h : Header) (outer : List Text) : Option (Text × List Text) :=
  if outer.isPrefixOf h.path.toList then
    match h.path.toList.drop outer.length with
    | name :: inner => some (name, inner)
    | [] => none
  else none

end Header

/-- What stands under the first name of a path that leads to a table or a list of tables. The tables
below it on the way are indented with the header. -/
def enclosed (indented : Bool) (first : Origin) (node : Node) : List Text → Node
  | [] => node
  | name :: inner => .table first false [(⟨name, false⟩, below node inner)]
where
  /-- What stands under a further name of the path. -/
  below (node : Node) : List Text → Node
    | [] => node
    | name :: inner => .table .passed indented [(⟨name, false⟩, below node inner)]

/-! ## Tables -/

/-- Whose entries are added. -/
inductive Scope where
  | document
  | table

namespace Scope

/-- What a conflict among the entries makes of the reading. -/
def stop (scope : Scope) (rest : Text) (c : Conflict) : Stop :=
  match scope with
  | .document => .invalid rest
  | .table => .refused (.conflict c)

/-- Puts a value under a key. -/
def assign (scope : Scope) (path : KeyPath) (v : Value) (es : Entries) :
    Except Conflict Entries := do
  match scope with
  | .document => es.assign true path v
  | .table =>
    let es ← es.assign false path v
    es.look path.head
    return es

/-- Adds the node of a header. -/
def add (scope : Scope) (name : Text) (node : Node) (es : Entries) :
    Except Conflict Entries := do
  match scope with
  | .document => es.append true ⟨name, false⟩ node
  | .table =>
    let es ← es.append false ⟨name, false⟩ node
    es.look name
    return es

end Scope

/-- Reads the keys and values up to the next header or the end of the text. -/
def readAssignments (scope : Scope) :
    (fuel : Nat) → Entries → Text → Except Stop (Entries × Upcoming)
  | 0, _, t => .error (.invalid t)
  | fuel + 1, es, t => do
    let s ← nextStatement false false false t
    match s.text with
    | [] => return (es, s)
    | c :: rest =>
      if c = '[' then return (es, s)
      else
        let ((path, v), after) ← readEntry fuel nestingRoom (c :: rest)
        let rest ← endLine false after
        let es ← (scope.assign path v es).mapError (scope.stop rest)
        readAssignments scope fuel es rest

mutual

/-- Reads the tables whose headers go on from a path, and adds them to its entries. `lists` are the
paths of the lists that are being read. -/
def readInner (scope : Scope) (lists : List (List Text)) (path : List Text) :
    (fuel : Nat) → Entries → Upcoming → Except Stop (Entries × Upcoming)
  | 0, _, s => .error (.invalid s.text)
  | fuel + 1, es, s => do
    if s.text.isEmpty then return (es, s)
    let h ← Header.read fuel s
    match h.below? path with
    | none => return (es, s)
    | some (name, inner) =>
      let (node, after) ← readNode lists h name inner fuel
      let es ← (scope.add name node es).mapError (scope.stop after.text)
      readInner scope lists path fuel es after

/-- Reads the table of a header, or the list that it starts. The path goes on from the outer table
with a name and further ones. -/
def readNode (lists : List (List Text)) (h : Header) (name : Text) (inner : List Text) :
    (fuel : Nat) → Except Stop (Node × Upcoming)
  | 0 => .error (.invalid h.rest)
  | fuel + 1 => do
    let (entries, after) ← readTable lists h fuel
    match inner with
    | [] =>
      if h.double then
        let (more, rest) ← readSiblings (h.path.toList :: lists) h.path fuel after
        return (.tables (entries :: more), rest)
      else return (.table .opened h.indented entries, after)
    | inner =>
      let node := if h.double then .tables [entries] else .table .opened h.indented entries
      let first := if h.double && lists.contains [name] then Origin.joining else .passed
      return (enclosed h.indented first node inner, after)

/-- Reads the entries of the table of a header. -/
def readTable (lists : List (List Text)) (h : Header) :
    (fuel : Nat) → Except Stop (Entries × Upcoming)
  | 0 => .error (.invalid h.rest)
  | fuel + 1 => do
    let t ← h.close
    let (es, s) ← readAssignments .table fuel [] t
    let (es, s) ← readInner .table lists h.path.toList fuel es s
    es.checkParts.mapError (Scope.table.stop s.text)
    return (es, s)

/-- Reads the further tables of a list. -/
def readSiblings (lists : List (List Text)) (path : KeyPath) :
    (fuel : Nat) → Upcoming → Except Stop (List Entries × Upcoming)
  | 0, s => .error (.invalid s.text)
  | fuel + 1, s => do
    if s.text.isEmpty then return ([], s)
    let h ← Header.read fuel s
    if h.double && h.path = path then
      let (es, after) ← readTable lists h fuel
      let (more, rest) ← readSiblings lists path fuel after
      return (es :: more, rest)
    else return ([], s)

end

/-- Reads all statements and the tables that they make. -/
def readDocument (fuel : Nat) (t : Text) : Except Stop Table := do
  let (es, s) ← readAssignments .document fuel [] t
  let (es, _) ← readInner .document [] [] fuel es s
  es.finish.mapError fun c => .refused (.conflict c)

/-- Reads a text as a table. Every third step of the readers takes a code point at least, so the
fuel is never used up. -/
def read? (t : Text) : Except FormatError Table :=
  (readDocument (4 * t.length + 8) t).mapError (.ofStop t)

end SourceReport.Data.Toml
