import GoUml.Catalog

/-!
# Method sets

A method set maps method names to signature keys, and the first method of a name stays. A struct
satisfies an interface when its own and promoted methods include every method the interface asks
for, directly or through the interfaces it embeds, with the same key. Pointer and value receivers
are not told apart.
-/

namespace GoUml

/-- Method names with the keys of their signatures. -/
abbrev MethodSet := Table String

namespace MethodSet

/-- Adds a method unless there is one of that name. -/
def add (set : MethodSet) (f : Function) : MethodSet := set.insertNew f.name f.signatureKey

def addAll (set : MethodSet) (fs : List Function) : MethodSet := fs.foldl add set

/-- The method set of a list of functions. -/
def ofFunctions (fs : List Function) : MethodSet := addAll Table.empty fs

/-- Adds the method of the predeclared interface `error`. -/
def addError (set : MethodSet) : MethodSet := set.insertNew "Error" (parenthesized [] ["string"])

/-- Whether the set has the method with the same signature. -/
def includes (set : MethodSet) (f : Function) : Bool := set.find? f.name == some f.signatureKey

/-- Whether every method of `required` is in the set with the same signature. -/
def satisfies (set required : MethodSet) : Bool :=
  required.entries.all fun entry => set.find? entry.1 == some entry.2

end MethodSet

/-! ### What an interface requires -/

/-- An entity by path and name. -/
abbrev EntityKey := String × String

def Interface.entityKey (i : Interface) : EntityKey := (i.package.path, i.name)

def Struct.entityKey (s : Struct) : EntityKey := (s.package.path, s.name)

/-- The methods found so far and the interfaces already looked into. -/
structure Requirements where
  methods : MethodSet
  visited : List EntityKey

namespace Catalog

/-- Looks into the embedded interfaces in order, and stops at the first one that is not loaded or
that `visit` refuses. -/
def requireEmbeds (c : Catalog) (visit : Interface → Requirements → Bool × Requirements) :
    List TypeView → Requirements → Bool × Requirements
  | [], found => (true, found)
  | e :: rest, found =>
    match e.package with
    | none =>
      requireEmbeds c visit rest
        (if e.goName == "error" then { found with methods := found.methods.addError } else found)
    | some package =>
      match c.findInterface? package.path e.goName with
      | none => (false, found)
      | some inner =>
        match visit inner found with
        | (true, found) => requireEmbeds c visit rest found
        | (false, found) => (false, found)

/-- Collects what an interface requires, looking into each interface once. It fails on a type set
and on an embedded interface that is not loaded; what was found before is kept. Every step down
visits one more interface, so `fuel` above the number of interfaces never runs out. -/
def require (c : Catalog) : (fuel : Nat) → Interface → Requirements → Bool × Requirements
  | 0, _, found => (false, found)
  | fuel + 1, i, found =>
    if i.typeSet then (false, found)
    else if found.visited.contains i.entityKey then (true, found)
    else requireEmbeds c (require c fuel) i.embedded
      { methods := found.methods.addAll i.methods, visited := i.entityKey :: found.visited }

/-- Enough steps to look into every interface of the catalog and one more. -/
def requireFuel (c : Catalog) : Nat := c.interfaces.all.length + 2

/-- The methods that an interface requires, unless no struct can have them. -/
def requiredMethods? (c : Catalog) (i : Interface) : Option MethodSet :=
  match c.require c.requireFuel i ⟨Table.empty, []⟩ with
  | (true, found) => some found.methods
  | (false, _) => none

/-! ### What a struct has -/

/-- What an embedded field of a struct brings in. -/
inductive Promoted where
  | struct (s : Struct)
  | interface (i : Interface)
  | methods (fs : List Function)

/-- What the type called `name` in the package at `path` brings in when it is embedded. -/
def promoted? (c : Catalog) (path name : String) : Option Promoted :=
  match c.find? path name with
  | some (.struct s) => some (.struct s)
  | some (.interface i) => some (.interface i)
  | some (.defined d) => some (.methods d.methods)
  | some (.typeAlias _) => none
  | none => none

/-- The methods found so far, the structs already looked into, and what is promoted from one level
deeper. -/
structure Promotion where
  methods : MethodSet
  visited : List EntityKey
  deeper : List Promoted

/-- Takes one embedded field of a struct. -/
def promoteField (c : Catalog) (p : Promotion) (f : Field) : Promotion :=
  match f.composed.package with
  | none => if f.composed.goName == "error" then { p with methods := p.methods.addError } else p
  | some package =>
    { p with deeper := p.deeper ++ (c.promoted? package.path f.composed.goName).toList }

/-- Takes one item of a level. An interface adds what it requires as far as that is found. -/
def promoteOne (c : Catalog) (p : Promotion) : Promoted → Promotion
  | .methods fs => { p with methods := p.methods.addAll fs }
  | .interface i =>
    { p with methods := (c.require c.requireFuel i ⟨p.methods, []⟩).2.methods }
  | .struct s =>
    if p.visited.contains s.entityKey then p
    else s.embeddedFields.foldl (promoteField c)
      { p with methods := p.methods.addAll s.methods, visited := s.entityKey :: p.visited }

/-- Takes level after level, so that shallower methods come first. A level that is not the last
visits a struct not visited before, so `fuel` above the number of structs never runs out. -/
def promoteLevels (c : Catalog) : (fuel : Nat) → Promotion → MethodSet
  | 0, p => p.methods
  | fuel + 1, p =>
    if p.deeper.isEmpty then p.methods
    else promoteLevels c fuel (p.deeper.foldl (promoteOne c) { p with deeper := [] })

/-- The methods of a struct, its own and those promoted through embedded fields. -/
def methodSet (c : Catalog) (s : Struct) : MethodSet :=
  c.promoteLevels (c.structs.all.length + 3) ⟨Table.empty, [], [.struct s]⟩

end Catalog

end GoUml
