import GoUml.Files.Path

/-!
# File trees

A file system: everything below its root, and the directory that paths start from unless they start
from the root. Directories list their entries by name in ascending order. Some of them cannot be
listed: what they hold is there, and paths lead to it, but asking for their entries fails.
-/

namespace GoUml

/-- What a file holds: a text, or bytes that are no text. -/
inductive Contents where
  | text (text : String)
  | bytes (size : Nat)
  deriving DecidableEq, Inhabited

namespace Contents

/-- Reads bytes as a text if they are one. -/
def ofBytes (bytes : ByteArray) : Contents :=
  match String.fromUTF8? bytes with
  | some s => .text s
  | none => .bytes bytes.size

/-- The number of bytes. -/
def size : Contents → Nat
  | .text s => s.utf8ByteSize
  | .bytes size => size

def text? : Contents → Option String
  | .text s => some s
  | .bytes _ => none

end Contents

inductive Node where
  | file (contents : Contents)
  | directory (entries : List (RawText × Node))
  deriving Inhabited

namespace Node

def isDirectory : Node → Bool
  | .directory _ => true
  | .file _ => false

def entries : Node → List (RawText × Node)
  | .directory entries => entries
  | .file _ => []

def contents? : Node → Option Contents
  | .file contents => some contents
  | .directory _ => none

/-- The directory without entries. -/
def emptyDirectory : Node := .directory []

/-- The entry of that name. -/
def child? (name : RawText) (node : Node) : Option Node :=
  (node.entries.find? fun e => e.1 == name).map (·.2)

/-- Puts an entry in its place by name, over one of the same name. -/
def putEntry (name : RawText) (node : Node) : List (RawText × Node) → List (RawText × Node)
  | [] => [(name, node)]
  | (n, old) :: rest =>
    if name < n then (name, node) :: (n, old) :: rest
    else if name = n then (name, node) :: rest
    else (n, old) :: putEntry name node rest

/-- Puts a node at the end of a row of names, making the directories that lead there. -/
def put (new : Node) : List RawText → Node → Node
  | [], _ => new
  | name :: rest, node =>
    .directory (putEntry name (put new rest ((node.child? name).getD emptyDirectory)) node.entries)

/-- Takes away the node at the end of a row of names. -/
def remove : List RawText → Node → Node
  | [], node => node
  | [name], node => .directory (node.entries.filter fun e => e.1 != name)
  | name :: rest, node =>
    match node.child? name with
    | some child => .directory (putEntry name (remove rest child) node.entries)
    | none => node

end Node

/-- How a directory cannot be listed: it does not open, or its entries break off. -/
inductive ListingFault where
  | unopened
  | brokenOff
  deriving DecidableEq, Inhabited

/-- A file system and the names that lead from its root to the working directory; the faults are at
the directories that cannot be listed. -/
structure Tree where
  top : Node
  home : List RawText
  faults : List (List RawText × ListingFault) := []
  deriving Inhabited

namespace Tree

/-- The tree that holds nothing but the way to the working directory. -/
def empty (home : List RawText) : Tree where
  top := Node.put .emptyDirectory home .emptyDirectory
  home

/-! ### Looking up -/

/-- The way from a node up to the root, the node first. -/
abbrev Trail := List (RawText × Node)

/-- One step along a path. A step up leads out of a directory only, and from the root nowhere
else. -/
def stepAlong (trail : Trail) : Component → Option Trail
  | .root | .here => some trail
  | .up =>
    match trail with
    | [(name, .directory entries)] => some [(name, .directory entries)]
    | (_, .directory _) :: outer => some outer
    | _ => none
  | .name name =>
    match trail with
    | (_, node) :: _ => (node.child? name).map fun child => (name, child) :: trail
    | [] => none

/-- The components of a path from the root on. -/
def fromRoot (tree : Tree) (p : Path) : List Component :=
  if p.isRooted then p.components else tree.home.map .name ++ p.components

/-- The way to what a path names. The empty path names nothing. -/
def trail? (tree : Tree) (p : Path) : Option Trail := do
  if p.raw == [] then none
  else
    let trail ← (tree.fromRoot p).foldlM stepAlong [([], tree.top)]
    match trail with
    | (_, node) :: _ => if p.asksDirectory && !node.isDirectory then none else some trail
    | [] => none

/-- What a path names. -/
def find? (tree : Tree) (p : Path) : Option Node := do
  let (_, node) ← (← tree.trail? p).head?
  return node

def contains (tree : Tree) (p : Path) : Bool := (tree.find? p).isSome

def isDirectory (tree : Tree) (p : Path) : Bool := (tree.find? p).any Node.isDirectory

def isFile (tree : Tree) (p : Path) : Bool := (tree.find? p).any fun node => !node.isDirectory

/-- What the file at a path holds. -/
def contents? (tree : Tree) (p : Path) : Option Contents := (tree.find? p).bind Node.contents?

/-- The text of the file at a path. -/
def text? (tree : Tree) (p : Path) : Option String := (tree.contents? p).bind Contents.text?

/-- The names that lead from the root to what a path names. -/
def namesTo? (tree : Tree) (p : Path) : Option (List RawText) :=
  (tree.trail? p).map fun trail => (trail.map (·.1)).reverse.tail

/-- Why the directory that a path names cannot be listed. -/
def listingFault? (tree : Tree) (p : Path) : Option ListingFault :=
  (tree.namesTo? p).bind (List.lookup · tree.faults)

/-- The absolute path of what a path names, without dots and steps up. -/
def canonical? (tree : Tree) (p : Path) : Option Path :=
  (tree.namesTo? p).map fun names => names.foldl Path.join ⟨[Path.slash]⟩

/-! ### Changing -/

/-- Writes a file below the working directory and makes the directories that lead there; a path that
ends with a slash is a directory. -/
def write (tree : Tree) (p : Path) (contents : Contents) : Tree :=
  let node := if p.raw.getLast? == some Path.slash then Node.emptyDirectory else .file contents
  { tree with top := Node.put node (tree.home ++ p.names) tree.top }

/-- Takes away a file or a directory below the working directory with all it holds. -/
def remove (tree : Tree) (p : Path) : Tree :=
  { tree with top := tree.top.remove (tree.home ++ p.names) }

/-- Writes a file into a directory that is there already, over a file but not over a directory. -/
def save? (tree : Tree) (p : Path) (contents : Contents) : Option Tree := do
  let name ← p.fileName?
  if p.asksDirectory || tree.isDirectory p then none
  else
    let outer ← p.parent?
    let outer : Path := if outer.raw == [] then ⟨[Path.dot]⟩ else outer
    let names ← tree.namesTo? outer
    if tree.isDirectory outer then
      some { tree with top := Node.put (.file contents) (names ++ [name]) tree.top }
    else none

end Tree

end GoUml
