import SourceReport.Source.Registry

/-!
# Operations on sources

What can be done to sources in hand and to registered ones. A `Store` has four ways to change its
state, and every `Operation` is made of these.

* `Store.perform` does an operation and answers, `Store.run` does a list of them.
* `Workbench.store` is a registry with the buffers in hand.

Results:
* `Store.perform_of_new?`: the operations that make a source first.
-/

namespace SourceReport

/-- Why an operation is refused. -/
inductive Trouble where
  | encoding (e : EncodingError)
  | fileName (e : Path.NameError)
  | read (e : ReadError)
  | registry (e : RegistryError)
deriving DecidableEq

/-- What can be done to sources in hand and to registered ones. -/
inductive Operation where
  /-- Takes a new source in hand. -/
  | make (name : SourceName) (content : Text)
  /-- Clears the buffer at a place in hand. -/
  | clear (place : Nat)
  /-- Registers the buffer at a place in hand. -/
  | insert (place : Nat) (replace : Bool)
  | insertText (name content : Text) (replace : Bool)
  | insertAnonymous (content : Text)
  | insertFile (tree : Tree) (path : Path) (replace : Bool)
  | showAs (id : SourceId) (name : SourceName)

/-- The answer to an operation. -/
inductive Answer where
  | held (place : Nat)
  | done
  /-- Nothing is held at the place. -/
  | absent
  | registered (id : SourceId)
  /-- Whether a source is registered under the identity. -/
  | shown (known : Bool)
  | refused (t : Trouble)
deriving DecidableEq

/-- The operation had nothing to do. -/
def Answer.isFailure : Answer → Bool
  | .absent | .shown false | .refused _ => true
  | _ => false

/-- The identity under which a source is registered now. -/
def Answer.registered? : Answer → Option SourceId
  | .registered id => some id
  | _ => none

namespace Operation

/-- A source in memory. -/
def ofText (name : SourceName) (content : Text) : Except Trouble Source :=
  (Source.ofText? name content).mapError .encoding

/-- The source in a file. -/
def ofFile (tree : Tree) (path : Path) : Except Trouble Source :=
  match Path.nameError? path.toText with
  | some e => .error (.fileName e)
  | none => (tree.readSource? path).mapError .read

/-- The source that an operation makes and registers, and whether it replaces another one. -/
def new? : Operation → Option (Except Trouble Source × Bool)
  | .insertText name content replace => some (ofText (.snippet name) content, replace)
  | .insertAnonymous content => some (ofText .anonymous content, false)
  | .insertFile tree path replace => some (ofFile tree path, replace)
  | _ => none

/-- The identity whose entry an operation changes that was answered. -/
def subject (op : Operation) (a : Answer) : Option SourceId :=
  match op, a with
  | _, .registered id => some id
  | .showAs id _, .shown true => some id
  | _, _ => none

end Operation

/-- What a store of sources has to do. -/
structure Store (σ : Type) where
  /-- Takes a source in hand; answers its place. -/
  hold : σ → Source → Nat × σ
  clear : σ → Nat → σ
  /-- Registers the source at a place; `none` if there is none. -/
  put : σ → Nat → Bool → Option (Except RegistryError (SourceId × σ))
  /-- Changes the name a source is shown under; `none` if it is not registered. -/
  showAs : σ → SourceId → SourceName → Option σ

namespace Store

variable {σ : Type} (S : Store σ)

/-- Registers the source at a place. -/
def register (s : σ) (place : Nat) (replace : Bool) : Answer × σ :=
  match S.put s place replace with
  | none => (.absent, s)
  | some (.error e) => (.refused (.registry e), s)
  | some (.ok (id, s')) => (.registered id, s')

/-- Takes a new source in hand and registers it. -/
def registerNew (s : σ) (made : Except Trouble Source) (replace : Bool) : Answer × σ :=
  match made with
  | .error t => (.refused t, s)
  | .ok source => S.register (S.hold s source).2 (S.hold s source).1 replace

/-- Does an operation. -/
def perform (s : σ) : Operation → Answer × σ
  | .make name content =>
    match Operation.ofText name content with
    | .error t => (.refused t, s)
    | .ok source => (.held (S.hold s source).1, (S.hold s source).2)
  | .clear place => (.done, S.clear s place)
  | .insert place replace => S.register s place replace
  | .insertText name content replace =>
    S.registerNew s (Operation.ofText (.snippet name) content) replace
  | .insertAnonymous content => S.registerNew s (Operation.ofText .anonymous content) false
  | .insertFile tree path replace => S.registerNew s (Operation.ofFile tree path) replace
  | .showAs id name =>
    match S.showAs s id name with
    | none => (.shown false, s)
    | some s' => (.shown true, s')

/-- Does operations in order. -/
def run (s : σ) : List Operation → List Answer × σ
  | [] => ([], s)
  | op :: rest =>
    ((S.perform s op).1 :: (run (S.perform s op).2 rest).1, (run (S.perform s op).2 rest).2)

variable {S} {s s' : σ} {id : SourceId}

theorem register_of_ok {place : Nat} {replace : Bool}
    (h : S.put s place replace = some (.ok (id, s'))) :
    S.register s place replace = (.registered id, s') := by
  unfold register
  rw [h]

theorem register_of_error {place : Nat} {replace : Bool} {e : RegistryError}
    (h : S.put s place replace = some (.error e)) :
    S.register s place replace = (.refused (.registry e), s) := by
  unfold register
  rw [h]

theorem register_of_none {place : Nat} {replace : Bool} (h : S.put s place replace = none) :
    S.register s place replace = (.absent, s) := by
  unfold register
  rw [h]

theorem perform_make_of_ok {name : SourceName} {content : Text} {source : Source}
    (h : Operation.ofText name content = .ok source) :
    S.perform s (.make name content) = (.held (S.hold s source).1, (S.hold s source).2) := by
  simp only [perform, h]

theorem perform_make_of_error {name : SourceName} {content : Text} {t : Trouble}
    (h : Operation.ofText name content = .error t) :
    S.perform s (.make name content) = (.refused t, s) := by
  simp only [perform, h]

theorem perform_showAs_of_some {name : SourceName} (h : S.showAs s id name = some s') :
    S.perform s (.showAs id name) = (.shown true, s') := by
  simp only [perform, h]

theorem perform_showAs_of_none {name : SourceName} (h : S.showAs s id name = none) :
    S.perform s (.showAs id name) = (.shown false, s) := by
  simp only [perform, h]

/-- **Operations that make a source** register it afterwards. -/
theorem perform_of_new? {s : σ} {op : Operation} {made : Except Trouble Source} {replace : Bool}
    (h : op.new? = some (made, replace)) : S.perform s op = S.registerNew s made replace := by
  cases op <;> simp_all [Operation.new?, perform]

end Store

namespace Workbench

/-- Changes the name a registered source is shown under. -/
def showAs (w : Workbench) (id : SourceId) (name : SourceName) : Option Workbench :=
  (w.registry.showAs id name).map fun r => { w with registry := r }

/-- The operations on a workbench. -/
def store : Store Workbench where
  hold := hold
  clear := clear
  put := register
  showAs := showAs

end Workbench

end SourceReport
