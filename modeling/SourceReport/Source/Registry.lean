import SourceReport.Files.Tree
import SourceReport.Source.Basic

/-!
# Registries

A registry keeps sources under their identities, in the order of their first registration, each with
the name it is shown under. Registering a source again changes nothing; registering another text
under the same identity is refused unless it shall replace the first one.

* `Registry.insert` registers a source and answers its identity;
* `Registry.showAs` changes the name a source is shown under, not its identity;
* a `Workbench` adds sources held in hand: one that is both held and registered is one buffer, so
  clearing it in hand clears it in the registry.
-/

namespace SourceReport

/-- A registered source. -/
structure Registered where
  source : Source
  /-- The name in reports; at first that of the source. -/
  shown : SourceName
  /-- The place on the workbench of the buffer that is registered, if it is held. -/
  held : Option Nat

/-- Sources under their identities. -/
structure Registry where
  entries : List Registered

/-- Why a source is not registered or not found. -/
inductive RegistryError where
  /-- No source is registered under the identity. -/
  | unknown (id : SourceId)
  /-- Another text is registered under the identity; `name` is that of the text refused. -/
  | collision (id : SourceId) (name : SourceName)
deriving DecidableEq

/-- The message names the identity. -/
def RegistryError.message : RegistryError → Text
  | .unknown id => "source not found in cache: " ++ id.display
  | .collision id _ => "a different source is already registered as " ++ id.display

/-- A file that cannot be read as a source. -/
structure ReadError where
  path : Path
  fault : Fault
deriving DecidableEq

/-- What is said of the file for some reason. -/
def ReadError.describe (e : ReadError) (reason : Text) : Text :=
  "cannot read source " ++ e.path.toText ++ ": " ++ reason

/-- The message names the file and the fault. -/
def ReadError.message (e : ReadError) : Text := e.describe (e.fault.message e.path)

namespace Registry

/-- Nothing is registered. -/
def empty : Registry := ⟨[]⟩

instance : Inhabited Registry := ⟨empty⟩

/-- The entry of an identity. -/
def find? (r : Registry) (id : SourceId) : Option Registered :=
  r.entries.find? fun e : Registered => e.source.id = id

/-- The source of an identity. -/
def source? (r : Registry) (id : SourceId) : Option Source := (r.find? id).map (·.source)

/-- The source of an identity, or the reason why there is none. -/
def fetch (r : Registry) (id : SourceId) : Except RegistryError Source :=
  match r.source? id with
  | some s => .ok s
  | none => .error (.unknown id)

/-- Whether a source is registered under the identity. -/
def contains (r : Registry) (id : SourceId) : Bool := (r.find? id).isSome

/-- The name a source is shown under. -/
def shown? (r : Registry) (id : SourceId) : Option SourceName := (r.find? id).map (·.shown)

/-- What stands for a source in reports: its name, or its identity if it is not registered. -/
def display (r : Registry) (id : SourceId) : Text :=
  match r.shown? id with
  | some name => name.display
  | none => id.display

/-- The identities in the order of registration. -/
def ids (r : Registry) : List SourceId := r.entries.map (·.source.id)

/-- The number of sources. -/
def size (r : Registry) : Nat := r.entries.length

/-- Changes the entry of an identity. -/
def modify (r : Registry) (id : SourceId) (f : Registered → Registered) : Registry :=
  ⟨r.entries.map fun e => if e.source.id = id then f e else e⟩

/-- Registers a source. -/
def insert (r : Registry) (s : Source) (replace : Bool) (held : Option Nat) :
    Except RegistryError (SourceId × Registry) :=
  let entry : Registered := ⟨s, s.name, held⟩
  match r.source? s.id with
  | none => .ok (s.id, ⟨r.entries ++ [entry]⟩)
  | some existing =>
    if replace then .ok (s.id, r.modify s.id fun _ => entry)
    else if existing.content = s.content then .ok (s.id, r)
    else .error (.collision s.id s.name)

/-- Changes the name a source is shown under; `none` if it is not registered. -/
def showAs (r : Registry) (id : SourceId) (name : SourceName) : Option Registry :=
  if r.contains id then some (r.modify id fun e => { e with shown := name }) else none

end Registry

/-- Reads a file as a source. -/
def Tree.readSource? (tree : Tree) (path : Path) : Except ReadError Source :=
  match h : tree.readText? path with
  | .error fault => .error ⟨path, fault⟩
  | .ok content => .ok (.ofEncodable (.file path) content (Tree.loneSurrogate?_of_readText? h))

/-- A registry and the buffers held in hand. -/
structure Workbench where
  registry : Registry
  held : List Source

namespace Workbench

/-- An empty registry, and nothing in hand. -/
def empty : Workbench := ⟨.empty, []⟩

/-- Takes a source in hand; answers its place. -/
def hold (w : Workbench) (s : Source) : Nat × Workbench :=
  (w.held.length, { w with held := w.held ++ [s] })

/-- Clears a buffer in hand, also where it is registered. -/
def clear (w : Workbench) (place : Nat) : Workbench where
  registry := ⟨w.registry.entries.map fun e =>
    if e.held = some place then { e with source := e.source.clear } else e⟩
  held := w.held.modify place Source.clear

/-- Registers a buffer in hand; `none` if nothing is held at the place. -/
def register (w : Workbench) (place : Nat) (replace : Bool) :
    Option (Except RegistryError (SourceId × Workbench)) :=
  w.held[place]?.map fun s => do
    let (id, r) ← w.registry.insert s replace (some place)
    return (id, { w with registry := r })

end Workbench

end SourceReport
