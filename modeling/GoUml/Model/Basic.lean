/-!
# Packages as they are declared

The model of a Go package after its type references have been resolved: named types carry the
package that declares them, and each declared type carries the shape it stands for. Types are
compared by structure; the comparison is decidable.
-/

namespace GoUml

/-- A package, identified by import path; the name is the one its sources declare. -/
structure PackageId where
  name : String
  path : String
  deriving DecidableEq, Inhabited

/-- A parameter or result; the name is empty when it has none. -/
structure ParamOf (τ : Type) where
  name : String
  type : τ

structure SignatureOf (τ : Type) where
  params : List (ParamOf τ)
  results : List (ParamOf τ)

/-- A field of a struct body; an embedded field is named after its type. -/
structure FieldOf (τ : Type) where
  name : String
  type : τ
  embedded : Bool

/-- A method of an interface body. -/
structure MethodOf (τ : Type) where
  name : String
  signature : SignatureOf τ

/-- A type. A tuple stands for the terms of a union, and an empty one for a type that could not be
read. -/
inductive GoType where
  | basic (name : String)
  | named (name : String) (package : Option PackageId)
  | typeParam (name : String)
  | pointer (elem : GoType)
  | slice (elem : GoType)
  | array (elem : GoType)
  | chan (elem : GoType)
  | map (key value : GoType)
  | signature (signature : SignatureOf GoType)
  | struct (fields : List (FieldOf GoType))
  | interface (methods : List (MethodOf GoType)) (embeds : List GoType)
  | tuple (elems : List GoType)
  deriving Inhabited

abbrev Param := ParamOf GoType
abbrev Signature := SignatureOf GoType
abbrev StructField := FieldOf GoType
abbrev InterfaceMethod := MethodOf GoType

namespace GoType

def isStruct : GoType → Bool
  | .struct _ => true
  | _ => false

def isInterface : GoType → Bool
  | .interface _ _ => true
  | _ => false

end GoType

/-! ### Equality of types -/

mutual

def GoType.same : GoType → GoType → Bool
  | .basic a, .basic b => a == b
  | .named a p, .named b q => a == b && p == q
  | .typeParam a, .typeParam b => a == b
  | .pointer a, .pointer b => a.same b
  | .slice a, .slice b => a.same b
  | .array a, .array b => a.same b
  | .chan a, .chan b => a.same b
  | .map k v, .map k' v' => k.same k' && v.same v'
  | .signature s, .signature s' => SignatureOf.same s s'
  | .struct fs, .struct fs' => sameFields fs fs'
  | .interface ms es, .interface ms' es' => sameMethods ms ms' && sameTypes es es'
  | .tuple es, .tuple es' => sameTypes es es'
  | _, _ => false

def SignatureOf.same : SignatureOf GoType → SignatureOf GoType → Bool
  | ⟨ps, rs⟩, ⟨ps', rs'⟩ => sameParams ps ps' && sameParams rs rs'

def sameParams : List (ParamOf GoType) → List (ParamOf GoType) → Bool
  | [], [] => true
  | ⟨n, t⟩ :: ps, ⟨n', t'⟩ :: ps' => n == n' && t.same t' && sameParams ps ps'
  | _, _ => false

def sameFields : List (FieldOf GoType) → List (FieldOf GoType) → Bool
  | [], [] => true
  | ⟨n, t, e⟩ :: fs, ⟨n', t', e'⟩ :: fs' => n == n' && t.same t' && e == e' && sameFields fs fs'
  | _, _ => false

def sameMethods : List (MethodOf GoType) → List (MethodOf GoType) → Bool
  | [], [] => true
  | ⟨n, s⟩ :: ms, ⟨n', s'⟩ :: ms' => n == n' && SignatureOf.same s s' && sameMethods ms ms'
  | _, _ => false

def sameTypes : List GoType → List GoType → Bool
  | [], [] => true
  | t :: ts, t' :: ts' => t.same t' && sameTypes ts ts'
  | _, _ => false

end

mutual

theorem GoType.same_iff : ∀ (a b : GoType), a.same b = true ↔ a = b
  | .basic _, b => by cases b <;> simp [GoType.same]
  | .named _ _, b => by cases b <;> simp [GoType.same]
  | .typeParam _, b => by cases b <;> simp [GoType.same]
  | .pointer a, b => by cases b <;> simp [GoType.same, GoType.same_iff a]
  | .slice a, b => by cases b <;> simp [GoType.same, GoType.same_iff a]
  | .array a, b => by cases b <;> simp [GoType.same, GoType.same_iff a]
  | .chan a, b => by cases b <;> simp [GoType.same, GoType.same_iff a]
  | .map k v, b => by cases b <;> simp [GoType.same, GoType.same_iff k, GoType.same_iff v]
  | .signature s, b => by cases b <;> simp [GoType.same, SignatureOf.same_iff s]
  | .struct fs, b => by cases b <;> simp [GoType.same, sameFields_iff fs]
  | .interface ms es, b => by
    cases b <;> simp [GoType.same, sameMethods_iff ms, sameTypes_iff es]
  | .tuple es, b => by cases b <;> simp [GoType.same, sameTypes_iff es]

theorem SignatureOf.same_iff : ∀ (a b : SignatureOf GoType), SignatureOf.same a b = true ↔ a = b
  | ⟨ps, rs⟩, ⟨ps', rs'⟩ => by simp [SignatureOf.same, sameParams_iff ps, sameParams_iff rs]

theorem sameParams_iff : ∀ a b : List (ParamOf GoType), sameParams a b = true ↔ a = b
  | [], b => by cases b <;> simp [sameParams]
  | ⟨n, t⟩ :: ps, [] => by simp [sameParams]
  | ⟨n, t⟩ :: ps, ⟨n', t'⟩ :: ps' => by
    simp [sameParams, GoType.same_iff t, sameParams_iff ps]

theorem sameFields_iff : ∀ a b : List (FieldOf GoType), sameFields a b = true ↔ a = b
  | [], b => by cases b <;> simp [sameFields]
  | ⟨n, t, e⟩ :: fs, [] => by simp [sameFields]
  | ⟨n, t, e⟩ :: fs, ⟨n', t', e'⟩ :: fs' => by
    simp [sameFields, GoType.same_iff t, sameFields_iff fs, and_assoc]

theorem sameMethods_iff : ∀ a b : List (MethodOf GoType), sameMethods a b = true ↔ a = b
  | [], b => by cases b <;> simp [sameMethods]
  | ⟨n, s⟩ :: ms, [] => by simp [sameMethods]
  | ⟨n, s⟩ :: ms, ⟨n', s'⟩ :: ms' => by
    simp [sameMethods, SignatureOf.same_iff s, sameMethods_iff ms]

theorem sameTypes_iff : ∀ a b : List GoType, sameTypes a b = true ↔ a = b
  | [], b => by cases b <;> simp [sameTypes]
  | t :: ts, [] => by simp [sameTypes]
  | t :: ts, t' :: ts' => by simp [sameTypes, GoType.same_iff t, sameTypes_iff ts]

end

instance : DecidableEq GoType := fun a b => decidable_of_iff _ (GoType.same_iff a b)

instance : DecidableEq Signature := fun a b => decidable_of_iff _ (SignatureOf.same_iff a b)

/-- A declared type and the shape it stands for. -/
structure Declaration where
  name : String
  isAlias : Bool
  underlying : GoType
  deriving DecidableEq

/-- A method declared for the type named `receiver`. -/
structure MethodDecl where
  receiver : String
  pointerReceiver : Bool
  name : String
  signature : Signature
  deriving DecidableEq

/-- An import; the local name is the one the importing file gives it, if it does. -/
structure Import where
  path : String
  name : String
  localName : Option String
  deriving DecidableEq

structure Package where
  name : String
  path : String
  imports : List Import
  declarations : List Declaration
  methods : List MethodDecl
  deriving DecidableEq

def Package.id (p : Package) : PackageId := ⟨p.name, p.path⟩

/-! ### Builders -/

/-- A parameter or result without a name. -/
def ParamOf.unnamed {τ : Type} (type : τ) : ParamOf τ := ⟨"", type⟩

namespace MethodDecl

/-- A method that is declared for values. -/
def ofValue (receiver name : String) (signature : Signature) : MethodDecl :=
  ⟨receiver, false, name, signature⟩

def withPointerReceiver (m : MethodDecl) : MethodDecl := { m with pointerReceiver := true }

/-- The method built anew with results that have no names. -/
def unnameResults (m : MethodDecl) : MethodDecl :=
  let built := ofValue m.receiver m.name
    ⟨m.signature.params, m.signature.results.map fun r => .unnamed r.type⟩
  if m.pointerReceiver then built.withPointerReceiver else built

end MethodDecl

namespace Package

def empty (name path : String) : Package := ⟨name, path, [], [], []⟩

def withImport (p : Package) (i : Import) : Package := { p with imports := p.imports ++ [i] }

def withDeclaration (p : Package) (d : Declaration) : Package :=
  { p with declarations := p.declarations ++ [d] }

def withMethod (p : Package) (m : MethodDecl) : Package := { p with methods := p.methods ++ [m] }

/-- The package built anew from its parts, with methods whose results have no names. -/
def unnameResults (p : Package) : Package :=
  let imported := p.imports.foldl withImport (empty p.name p.path)
  let declared := p.declarations.foldl withDeclaration imported
  (p.methods.map MethodDecl.unnameResults).foldl withMethod declared

end Package

end GoUml
