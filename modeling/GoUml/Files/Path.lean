import GoUml.Files.RawText
import GoUml.Text.Basic

/-!
# Paths

A path is kept as it is written and compared by its components. Repeated and trailing slashes and
dots that are not in front vanish from the components; dots in front and steps up stay, so `a` and
`./a` are different paths.
-/

namespace GoUml

open Text

structure Path where
  raw : RawText
  deriving DecidableEq, Inhabited

/-- One part of a path. -/
inductive Component where
  | root
  | here
  | up
  | name (name : RawText)
  deriving DecidableEq

namespace Path

/-- What a path reads as. -/
def text (p : Path) : String := p.raw.display

def slash : UInt8 := 0x2F

def dot : UInt8 := 0x2E

def isRooted (p : Path) : Bool := p.raw.head? == some slash

/-- The pieces between slashes, behind the slash in front of a rooted path. -/
def pieces (p : Path) : List RawText :=
  let all := splitList slash p.raw
  if p.isRooted then all.tail else all

/-- A piece that adds nothing. -/
def isIdle (piece : RawText) : Bool := piece == [] || piece == [dot]

def componentOf (piece : RawText) : Component := if piece == [dot, dot] then .up else .name piece

def components (p : Path) : List Component :=
  let named (pieces : List RawText) : List Component :=
    (pieces.filter fun piece => !isIdle piece).map componentOf
  if p.isRooted then .root :: named p.pieces
  else match p.pieces with
    | [] => []
    | first :: rest => if first == [dot] then .here :: named rest else named (first :: rest)

/-- Whether two paths have the same components. -/
def same (p q : Path) : Bool := p.components == q.components

/-- The components that are names. -/
def names (p : Path) : List RawText :=
  p.components.filterMap fun | .name n => some n | _ => none

/-- The last component, if it is a name. -/
def fileName? (p : Path) : Option RawText :=
  match p.components.getLast? with
  | some (.name n) => some n
  | _ => none

/-- What follows the last dot of the file name, unless the name begins with that dot. -/
def extension? (p : Path) : Option RawText := do
  let name ← p.fileName?
  match (splitList dot name).reverse with
  | last :: before => if before.all (·.isEmpty) && before.length ≤ 1 then none else some last
  | [] => none

/-- Whether the way it is written asks for a directory. -/
def asksDirectory (p : Path) : Bool :=
  match p.pieces.getLast? with
  | some last => isIdle last
  | none => false

/-- The path of an entry of the directory `p`. -/
def join (p : Path) (name : RawText) : Path :=
  if p.raw == [] || p.raw.getLast? == some slash then ⟨p.raw ++ name⟩
  else ⟨p.raw ++ slash :: name⟩

/-- The pieces without idle ones at the end; a dot in front of a path that is not rooted stays. -/
def trimIdle (rooted : Bool) : List RawText → List RawText
  | [] => []
  | first :: rest =>
    match rest.reverse.dropWhile isIdle with
    | [] => if (if rooted then isIdle first else first == []) then [] else [first]
    | kept => first :: kept.reverse

/-- The path without its last component. -/
def parent? (p : Path) : Option Path :=
  match trimIdle p.isRooted p.pieces with
  | [] => none
  | pieces =>
    let outer := [slash].intercalate (trimIdle p.isRooted pieces.dropLast)
    some ⟨if p.isRooted then slash :: outer else outer⟩

/-- The path and what is above it, at most `limit` steps up. -/
def ancestorsUpTo : Nat → Path → List Path
  | 0, p => [p]
  | limit + 1, p =>
    match p.parent? with
    | none => [p]
    | some outer => p :: ancestorsUpTo limit outer

/-- The path and everything above it, from the inside out. A step up takes a component away. -/
def ancestors (p : Path) : List Path := ancestorsUpTo p.components.length p

/-- The components of `p` below `outer`, if it lies there. -/
def below? (p outer : Path) : Option (List Component) :=
  if outer.components.isPrefixOf p.components then
    some (p.components.drop outer.components.length)
  else none

/-- What the names among components read as, with slashes between neighbours; the root is an empty
name. -/
def slashed (components : List Component) : String :=
  joinWith "/" <| components.filterMap fun
    | .name n => some n.display
    | .root => some ""
    | _ => none

end Path

end GoUml
