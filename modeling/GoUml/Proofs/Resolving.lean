import GoUml.Proofs.LoadOrder
import GoUml.Proofs.Underlying

/-!
# What the packages of a load resolve to

A resolved package has the declarations of its sources in their order, and of their imports each one
once. The shape of a declared type is where following declarations through the whole load ends.
-/

namespace GoUml.Go.Load

/-- The name of the package at a path: that of the first loaded one, else what the path suggests. -/
inductive Names (load : Load) (path : String) : String → Prop
  | loaded {before after : List SourcePackage} {p : SourcePackage}
      (hload : load = before ++ p :: after)
      (hbefore : ∀ q ∈ before, q.path ≠ path) (hpath : p.path = path) : Names load path p.name
  | outside (hnone : ∀ p ∈ load, p.path ≠ path) : Names load path (suggestedName path)

def scopeIn (source : SourcePackage) (file : SourceFile) (typeParams : List String) : Scope :=
  ⟨⟨source.name, source.path⟩, file.imports, typeParams⟩

structure DeclaresType (load : Load) (source : SourcePackage) (file : SourceFile) (spec : TypeSpec)
    (d : Declaration) : Prop where
  name : d.name = spec.name
  isAlias : d.isAlias = spec.isAlias
  shape : load.Follows ⟨scopeIn source file spec.typeParams, spec⟩ [(source.path, spec.name)]
    d.underlying

structure DeclaresMethod (load : Load) (source : SourcePackage) (file : SourceFile)
    (spec : MethodSpec) (m : MethodDecl) : Prop where
  receiver : m.receiver = spec.receiver
  pointerReceiver : m.pointerReceiver = spec.pointerReceiver
  name : m.name = spec.name
  signature : m.signature =
    load.resolveSignature (scopeIn source file spec.typeParams) spec.signature

/-- A package with all names bound by the load. -/
structure ResolvesTo (load : Load) (source : SourcePackage) (p : Package) : Prop where
  name : p.name = source.name
  path : p.path = source.path
  imports_nodup : p.imports.Nodup
  imports_sorted : p.imports.Pairwise fun i j => Text.rowNotAfter
    ([i.path, i.name] ++ i.localName.toList) ([j.path, j.name] ++ j.localName.toList) = true
  mem_imports : ∀ i, i ∈ p.imports ↔ ∃ spec ∈ source.imports,
    i.path = spec.path ∧ load.Names spec.path i.name ∧ i.localName = spec.localName
  declarations : List.Forall₂ (fun found d => load.DeclaresType source found.1 found.2 d)
    source.types p.declarations
  methods : List.Forall₂ (fun found m => load.DeclaresMethod source found.1 found.2 m)
    source.methods p.methods

variable {load : Load} {source : SourcePackage}

end GoUml.Go.Load
