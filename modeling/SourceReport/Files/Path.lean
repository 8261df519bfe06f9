import SourceReport.Text.Integer

/-!
# Paths

A path is a root and the parts between slashes. Empty parts and single points are dropped, double
points are kept: what they mean depends on the directories.

* Exactly two slashes at the front stay two, any other number of them becomes one.
* The path without root and parts is written `.`.
-/

namespace SourceReport

/-- A path of a file or a directory. -/
structure Path where
  /-- The slashes at the front: none, one or two. -/
  root : Text
  /-- The parts, none of them empty or a single point. -/
  parts : List Text
deriving DecidableEq

namespace Path

/-- The parts of a text that count. -/
def partsOf (t : Text) : List Text :=
  (t.splitOn ('/' : CodePoint)).filter fun part => part ≠ [] && part ≠ "."

/-- Reads a path. -/
def ofText (t : Text) : Path :=
  let root : Text := match (t.takeWhile fun c : CodePoint => c = '/').length with
    | 0 => []
    | 2 => "//"
    | _ => "/"
  ⟨root, partsOf t⟩

/-- Writes a path. -/
def toText (p : Path) : Text :=
  match p.root ++ Text.join "/" p.parts with
  | [] => "."
  | t => t

/-- A path with a root does not depend on the working directory. -/
def isAbsolute (p : Path) : Bool := !p.root.isEmpty

/-- The last part. -/
def name (p : Path) : Text := p.parts.getLastD []

/-- The directory that holds the path; a path without parts holds itself. -/
def parent (p : Path) : Path := ⟨p.root, p.parts.dropLast⟩

/-- The directories above a path, the nearest one first. -/
def parents (p : Path) : List Path :=
  (List.range p.parts.length).map fun n => ⟨p.root, p.parts.take (p.parts.length - 1 - n)⟩

/-- A path below a directory; an absolute path stands for itself. -/
def append (directory p : Path) : Path :=
  if p.isAbsolute then p else ⟨directory.root, directory.parts ++ p.parts⟩

instance : HDiv Path Path Path := ⟨append⟩

/-- The ending of the name from its last point on; a point at either end of the name counts not. -/
def extension (p : Path) : Text :=
  let fromEnd := p.name.reverse
  let ending := fromEnd.takeWhile fun c : CodePoint => c ≠ '.'
  let stem := fromEnd.drop (ending.length + 1)
  if ending.isEmpty || stem.isEmpty then [] else '.' :: ending.reverse

/-- Takes double points back, as far as there are parts before them. -/
def collapse (p : Path) : Path :=
  let step (done : List Text) (part : Text) : List Text :=
    if part = ".." then done.drop 1 else part :: done
  ⟨p.root, (p.parts.foldl step []).reverse⟩

/-! ## Names that files can have -/

/-- Why no file can have a name. -/
inductive NameError where
  /-- The name holds the character zero. -/
  | zero
  /-- The name holds surrogates between two positions that have no encoding. -/
  | surrogates (first last : Nat) (c : CodePoint)
deriving DecidableEq

/-- The message names the positions. -/
def NameError.message : NameError → Text
  | .zero => "embedded null byte"
  | .surrogates first last c =>
    let subject : Text :=
      if first = last then
        "character '\\u" ++ Text.hexDigits 4 c.val ++ "' in position " ++ Text.ofNat first
      else "characters in position " ++ Text.ofNat first ++ "-" ++ Text.ofNat last
    "'utf-8' codec can't encode " ++ subject ++ ": surrogates not allowed"

/-- A surrogate that stands for a byte of a name that is not UTF-8. -/
def isEscapedByte (c : CodePoint) : Bool := 0xDC80 ≤ c.val && c.val ≤ 0xDCFF

/-- Why no file can be called by a text, if that is so. -/
def nameError? (t : Text) : Option NameError :=
  match t.findIdx? fun c : CodePoint => c.isSurrogate && !isEscapedByte c with
  | some first =>
    let run := (t.drop first).takeWhile (·.isSurrogate)
    some (.surrogates first (first + run.length - 1) (run.headD .replacement))
  | none => if t.any fun c : CodePoint => c.val = 0 then some .zero else none

end Path

end SourceReport
