import GoUml.Go.Resolution
import GoUml.Proofs.OrderIndependence
import Mathlib.Data.Fintype.Perm
import Mathlib.Data.List.Find

/-!
# Resolution does not depend on the order of loading

Resolution reads three things of a load: the declaration behind a path and name, the name of the
package at a path, and the number of declarations, which bounds how far declarations are followed.
The first two are searches through lists, one for the last hit and one for the first. Loads that
answer alike resolve everything alike, and that is all the argument below uses of them. Packages
with different paths answer alike in any order, because only one of them can be hit; the files of
a package answer alike in any order when no type name is declared twice in it.
-/

namespace GoUml.Go

theorem nodup_eraseDups {α : Type} [DecidableEq α] (l : List α) : l.eraseDups.Nodup := by
  induction hlength : l.length using Nat.strong_induction_on generalizing l with
  | _ n ih =>
    cases l with
    | nil => simp
    | cons a rest =>
      rw [List.eraseDups_cons, List.nodup_cons]
      constructor
      · simp
      · refine ih _ ?_ _ rfl
        have hle := List.length_filter_le (fun b => !b == a) rest
        simp only [List.length_cons] at hlength
        omega

theorem eraseDups_perm {α : Type} [DecidableEq α] {l l' : List α} (h : l.Perm l') :
    l.eraseDups.Perm l'.eraseDups := by
  rw [List.perm_ext_iff_of_nodup (nodup_eraseDups l) (nodup_eraseDups l')]
  intro a
  rw [List.mem_eraseDups, List.mem_eraseDups, h.mem_iff]

namespace Load

variable {load other : Load}

/-- Two loads give the same answers to all that resolution asks. -/
structure Agrees (load other : Load) : Prop where
  find? : ∀ path name, load.find? path name = other.find? path name
  packageName : ∀ path, load.packageName path = other.packageName path
  size : load.declarations.length = other.declarations.length

theorem Agrees.resolveName_eq (h : load.Agrees other) (scope : Scope) (name : String) :
    load.resolveName scope name = other.resolveName scope name := by
  simp only [resolveName, h.find?]

theorem Agrees.resolveQualified_eq (h : load.Agrees other) (scope : Scope)
    (qualifier name : String) :
    load.resolveQualified scope qualifier name = other.resolveQualified scope qualifier name := by
  have himported : load.importedAs? qualifier = other.importedAs? qualifier := by
    funext spec
    simp only [importedAs?, h.packageName]
  rw [resolveQualified, resolveQualified, himported]

mutual

theorem Agrees.resolve_eq (h : load.Agrees other) (scope : Scope) :
    ∀ type : TypeExpr, load.resolve scope type = other.resolve scope type
  | .name name => by rw [resolve, resolve, h.resolveName_eq]
  | .qualified package name => by rw [resolve, resolve, h.resolveQualified_eq]
  | .pointer elem => by rw [resolve, resolve, h.resolve_eq scope elem]
  | .slice elem => by rw [resolve, resolve, h.resolve_eq scope elem]
  | .array elem => by rw [resolve, resolve, h.resolve_eq scope elem]
  | .map key value => by
    rw [resolve, resolve, h.resolve_eq scope key, h.resolve_eq scope value]
  | .chan elem => by rw [resolve, resolve, h.resolve_eq scope elem]
  | .func signature => by rw [resolve, resolve, h.resolveSignature_eq scope signature]
  | .struct fields => by rw [resolve, resolve, h.resolveFields_eq scope fields]
  | .interface methods embeds => by
    rw [resolve, resolve, h.resolveMethods_eq scope methods, h.resolveAll_eq scope embeds]
  | .union terms => by rw [resolve, resolve, h.resolveAll_eq scope terms]
  | .approx term => by rw [resolve, resolve, h.resolve_eq scope term]
  | .unknown => by rw [resolve, resolve]

theorem Agrees.resolveSignature_eq (h : load.Agrees other) (scope : Scope) :
    ∀ signature : SignatureOf TypeExpr,
      load.resolveSignature scope signature = other.resolveSignature scope signature
  | ⟨params, results⟩ => by
    rw [resolveSignature, resolveSignature, h.resolveParams_eq scope params,
      h.resolveParams_eq scope results]

theorem Agrees.resolveParams_eq (h : load.Agrees other) (scope : Scope) :
    ∀ params : List (ParamOf TypeExpr),
      load.resolveParams scope params = other.resolveParams scope params
  | [] => by rw [resolveParams, resolveParams]
  | ⟨_, type⟩ :: rest => by
    rw [resolveParams, resolveParams, h.resolve_eq scope type, h.resolveParams_eq scope rest]

theorem Agrees.resolveFields_eq (h : load.Agrees other) (scope : Scope) :
    ∀ fields : List (FieldOf TypeExpr),
      load.resolveFields scope fields = other.resolveFields scope fields
  | [] => by rw [resolveFields, resolveFields]
  | ⟨_, type, _⟩ :: rest => by
    rw [resolveFields, resolveFields, h.resolve_eq scope type, h.resolveFields_eq scope rest]

theorem Agrees.resolveMethods_eq (h : load.Agrees other) (scope : Scope) :
    ∀ methods : List (MethodOf TypeExpr),
      load.resolveMethods scope methods = other.resolveMethods scope methods
  | [] => by rw [resolveMethods, resolveMethods]
  | ⟨_, signature⟩ :: rest => by
    rw [resolveMethods, resolveMethods, h.resolveSignature_eq scope signature,
      h.resolveMethods_eq scope rest]

theorem Agrees.resolveAll_eq (h : load.Agrees other) (scope : Scope) :
    ∀ types : List TypeExpr, load.resolveAll scope types = other.resolveAll scope types
  | [] => by rw [resolveAll, resolveAll]
  | type :: rest => by
    rw [resolveAll, resolveAll, h.resolve_eq scope type, h.resolveAll_eq scope rest]

end

theorem Agrees.target?_eq (h : load.Agrees other) (type : GoType) :
    load.target? type = other.target? type := by
  simp only [target?, h.find?]

theorem Agrees.underlyingUpTo_eq (h : load.Agrees other) (limit : Nat) (scope : Scope)
    (type : TypeExpr) (visited : List (String × String)) :
    load.underlyingUpTo limit scope type visited =
      other.underlyingUpTo limit scope type visited := by
  induction limit generalizing scope type visited with
  | zero => exact h.resolve_eq scope type
  | succ limit ih =>
    simp only [underlyingUpTo, h.resolve_eq scope type, h.target?_eq]
    cases other.target? (other.resolve scope type) with
    | none => rfl
    | some found =>
      simp only [ih]

theorem Agrees.underlying_eq (h : load.Agrees other) (d : Declared) :
    load.underlying d = other.underlying d := by
  rw [underlying, underlying, h.size, h.underlyingUpTo_eq]

theorem Agrees.resolveMethodSpec_eq (h : load.Agrees other) (p : SourcePackage)
    (file : SourceFile) (spec : MethodSpec) :
    load.resolveMethodSpec p file spec = other.resolveMethodSpec p file spec := by
  rw [resolveMethodSpec, resolveMethodSpec, h.resolveSignature_eq]

theorem Agrees.resolvePackage_eq (h : load.Agrees other) (p : SourcePackage) :
    load.resolvePackage p = other.resolvePackage p := by
  simp only [resolvePackage, resolveImports, h.packageName, h.underlying_eq,
    h.resolveMethodSpec_eq]

/-! ### Packages in another order -/

/-- The search for a declaration, package by package: the packages behind come first. -/
theorem find?_cons (p : SourcePackage) (rest : Load) (path name : String) :
    find? (p :: rest) path name = (find? rest path name).or (find? [p] path name) := by
  simp only [find?, declarations, List.flatMap_cons, List.flatMap_nil, List.append_nil,
    List.reverse_append, List.find?_append]

theorem find?_singleton (p : SourcePackage) (path name : String) :
    find? [p] path name =
      if p.path = path then (declaredIn p).reverse.find? (fun d => d.spec.name = name)
      else none := by
  have hpath : ∀ d ∈ (declaredIn p).reverse, d.scope.package.path = p.path := by
    intro d hd
    obtain ⟨_, -, rfl⟩ := List.mem_map.1 (List.mem_reverse.1 hd)
    rfl
  have hdeclarations : declarations [p] = declaredIn p := by
    rw [declarations, List.flatMap_cons, List.flatMap_nil, List.append_nil]
  rw [find?, hdeclarations]
  split
  · next heq =>
    apply List.find?_congr
    intro d hd
    simp [hpath d hd, heq, beq_eq_decide]
  · next hne =>
    rw [List.find?_eq_none]
    intro d hd
    simp [hpath d hd, hne]

/-- With different paths, a declaration is looked up in the package of its path. -/
theorem find?_eq_bind (hpaths : (load.map SourcePackage.path).Nodup) (path name : String) :
    load.find? path name =
      (List.find? (fun p : SourcePackage => p.path = path) load).bind fun p =>
        find? [p] path name := by
  induction load with
  | nil => rfl
  | cons p rest ih =>
    obtain ⟨hp, hrest⟩ := List.nodup_cons.1 hpaths
    rw [find?_cons, ih hrest, List.find?_cons]
    by_cases hpath : p.path = path
    · have hnone : List.find? (fun q : SourcePackage => q.path = path) rest = none := by
        rw [List.find?_eq_none]
        intro q hq hqpath
        apply hp
        rw [hpath, ← of_decide_eq_true hqpath]
        exact List.mem_map_of_mem hq
      simp [hpath, hnone]
    · simp [hpath, find?_singleton p path]

theorem agrees_of_perm (hpaths : (load.map SourcePackage.path).Nodup) (h : load.Perm other) :
    load.Agrees other where
  find? path name := by
    have hpaths' : (other.map SourcePackage.path).Nodup := (h.map _).nodup_iff.1 hpaths
    rw [find?_eq_bind hpaths, find?_eq_bind hpaths', find?_eq_of_perm h hpaths]
  packageName path := by
    have hfind := find?_eq_of_perm h hpaths path
    simp only [packageName, beq_eq_decide, hfind]
  size := (h.flatMap_right declaredIn).length_eq

theorem packageName_cons (p : SourcePackage) (rest : Load) (path : String) :
    packageName (p :: rest) path = if p.path = path then p.name else rest.packageName path := by
  rw [packageName, List.find?_cons]
  by_cases hpath : p.path = path
  · simp [hpath]
  · have hbeq : (p.path == path) = false := beq_eq_false_iff_ne.2 hpath
    rw [hbeq, if_neg hpath]
    rfl

section Files

variable {p : SourcePackage} {files : List SourceFile}

theorem declaredIn_perm (h : p.files.Perm files) :
    (declaredIn p).Perm (declaredIn { p with files := files }) := by
  rw [declaredIn, declaredIn]
  exact (h.flatMap_right _).map _

/-- In a package that declares no type name twice, the files can be searched in any order. -/
theorem find?_singleton_of_perm (h : p.files.Perm files)
    (hnames : (p.types.map fun t => t.2.name).Nodup) (path name : String) :
    find? [p] path name = find? [{ p with files := files }] path name := by
  have hkeys : ((declaredIn p).reverse.map fun d => d.spec.name).Nodup := by
    rw [List.map_reverse, List.nodup_reverse, declaredIn, List.map_map]
    exact hnames
  have hperm : (declaredIn p).reverse.Perm (declaredIn { p with files := files }).reverse :=
    (List.reverse_perm _).trans ((declaredIn_perm h).trans (List.reverse_perm _).symm)
  rw [find?_singleton, find?_singleton, find?_eq_of_perm hperm hkeys]

theorem agrees_of_files (h : p.files.Perm files)
    (hnames : (p.types.map fun t => t.2.name).Nodup) (before after : Load) :
    Agrees (before ++ p :: after) (before ++ { p with files := files } :: after) where
  find? path name := by
    induction before with
    | nil =>
      rw [List.nil_append, List.nil_append, find?_cons, find?_cons { p with files := files },
        find?_singleton_of_perm h hnames]
    | cons q rest ih => rw [List.cons_append, List.cons_append, find?_cons, ih, ← find?_cons]
  packageName path := by
    induction before with
    | nil => rw [List.nil_append, List.nil_append, packageName_cons, packageName_cons _ after]
    | cons q rest ih =>
      rw [List.cons_append, List.cons_append, packageName_cons, ih, ← packageName_cons]
  size := by
    have hlength := (declaredIn_perm h).length_eq
    simp only [declarations, List.flatMap_append, List.flatMap_cons, List.length_append, hlength]

theorem importRow_injective :
    Function.Injective fun i : Import => [i.path, i.name] ++ i.localName.toList := by
  intro a b h
  obtain ⟨path, name, localName⟩ := a
  obtain ⟨path', name', localName'⟩ := b
  simp only [List.cons_append, List.nil_append, List.cons.injEq] at h
  obtain ⟨rfl, rfl, hlocal⟩ := h
  cases localName <;> cases localName' <;> simp_all

theorem resolveImports_of_perm (load : Load) (h : p.files.Perm files) :
    load.resolveImports { p with files := files } = load.resolveImports p := by
  have himports : p.imports.Perm (SourcePackage.imports { p with files := files }) :=
    h.flatMap_right _
  rw [resolveImports, resolveImports]
  exact (Text.sortOnRow_eq_of_perm importRow_injective (eraseDups_perm (himports.map _))).symm

def fileDeclarations (load : Load) (p : SourcePackage) (file : SourceFile) : List Declaration :=
  file.types.map fun spec =>
    let scope : Scope := ⟨⟨p.name, p.path⟩, file.imports, spec.typeParams⟩
    ⟨spec.name, spec.isAlias, load.underlying ⟨scope, spec⟩⟩

def fileMethods (load : Load) (p : SourcePackage) (file : SourceFile) : List MethodDecl :=
  file.methods.map (load.resolveMethodSpec p file)

def fileByFile (load : Load) (p : SourcePackage) (files : List SourceFile) : Package where
  name := p.name
  path := p.path
  imports := load.resolveImports p
  declarations := files.flatMap (load.fileDeclarations p)
  methods := files.flatMap (load.fileMethods p)

theorem resolvePackage_eq_fileByFile (load : Load) (p : SourcePackage) :
    load.resolvePackage p = load.fileByFile p p.files := by
  simp only [resolvePackage, fileByFile, declaredIn, SourcePackage.types, SourcePackage.methods,
    List.map_flatMap, List.map_map]
  rfl

theorem resolvePackage_of_perm (load : Load) (h : p.files.Perm files) :
    load.resolvePackage { p with files := files } = load.fileByFile p files := by
  rw [resolvePackage_eq_fileByFile, fileByFile, resolveImports_of_perm load h]
  rfl

end Files

/-! ### Loading in another order -/

/-- Packages with different paths resolve to the same packages in any order, each in the place of
its source. Putting the files of a package in another order, when no type name is declared twice in
it, changes nothing but the order in which the files bring in their declarations and methods. -/
theorem packages_independent_of_order :
    (∀ (n : Nat) (load : Fin n → SourcePackage), (Function.Injective fun i => (load i).path) →
      ∃ resolved : Fin n → Package, packages (List.ofFn load) = List.ofFn resolved ∧
        ∀ σ : Equiv.Perm (Fin n), packages (List.ofFn (load ∘ σ)) = List.ofFn (resolved ∘ σ)) ∧
    ∀ (before after : Load) (p : SourcePackage) (files : List SourceFile),
      (p.types.map fun t => t.2.name).Nodup → p.files.Perm files →
      ∀ load : Load, load = before ++ p :: after →
        packages load =
          before.map load.resolvePackage ++
            load.fileByFile p p.files :: after.map load.resolvePackage ∧
        packages (before ++ { p with files := files } :: after) =
          before.map load.resolvePackage ++
            load.fileByFile p files :: after.map load.resolvePackage := by
  constructor
  · intro n load hpaths
    refine ⟨fun i => resolvePackage (List.ofFn load) (load i), ?_, ?_⟩
    · rw [packages, List.map_ofFn]
      rfl
    · intro σ
      have hnodup : ((List.ofFn load).map SourcePackage.path).Nodup := by
        rw [List.map_ofFn, List.nodup_ofFn]
        exact hpaths
      have hagrees := agrees_of_perm hnodup (σ.ofFn_comp_perm load).symm
      rw [packages, List.map_ofFn]
      congr 1
      funext i
      exact (hagrees.resolvePackage_eq _).symm
  · intro before after p files hnames hperm load hload
    have hagrees := agrees_of_files hperm hnames before after
    rw [← hload] at hagrees
    have hresolve : resolvePackage (before ++ { p with files := files } :: after) =
        load.resolvePackage := by
      funext q
      exact (hagrees.resolvePackage_eq q).symm
    constructor
    · rw [packages, ← resolvePackage_eq_fileByFile, ← List.map_cons, ← List.map_append, ← hload]
    · rw [packages, hresolve, List.map_append, List.map_cons, resolvePackage_of_perm load hperm]

/-- A package that another one imports. -/
def itemSource : SourcePackage where
  name := "item"
  path := "example.com/shop/item"
  files := [⟨"item", [], [⟨"Item", [], false, .struct [⟨"Name", .name "string", false⟩]⟩], []⟩]

/-- A package with two files, one of which looks through an import and the other through its own
declarations. -/
def shopSource : SourcePackage where
  name := "shop"
  path := "example.com/shop"
  files :=
    [⟨"shop", [⟨"example.com/shop/item", some "it"⟩],
      [⟨"Goods", [], true, .qualified "it" "Item"⟩], []⟩,
     ⟨"shop", [⟨"fmt", none⟩],
      [⟨"Label", [], false, .name "Code"⟩, ⟨"Code", [], false, .name "string"⟩],
      [⟨"Label", false, [], "String", ⟨[], [⟨"", .name "string"⟩]⟩⟩]⟩]

theorem packages_independent_of_order_shop :
    (∃ item shop, packages [itemSource, shopSource] = [item, shop] ∧
      packages [shopSource, itemSource] = [shop, item]) ∧
    (packages [itemSource, { shopSource with files := shopSource.files.reverse }] =
      [resolvePackage [itemSource, shopSource] itemSource,
       fileByFile [itemSource, shopSource] shopSource shopSource.files.reverse]) ∧
    (fileByFile [itemSource, shopSource] shopSource shopSource.files.reverse).declarations =
      [⟨"Label", false, .basic "string"⟩, ⟨"Code", false, .basic "string"⟩,
       ⟨"Goods", true, .struct [⟨"Name", .basic "string", false⟩]⟩] := by
  have hpaths : Function.Injective fun i => ([itemSource, shopSource].get i).path := by
    decide
  have hnames : (shopSource.types.map fun t => t.2.name).Nodup := by
    decide
  refine ⟨?_, ?_, by decide +kernel⟩
  · obtain ⟨resolved, hload, hpermuted⟩ := packages_independent_of_order.1 _ _ hpaths
    have hswapped := hpermuted (Equiv.swap 0 1)
    refine ⟨resolved 0, resolved 1, ?_, ?_⟩
    · simpa [List.ofFn_succ] using hload
    · simpa [List.ofFn_succ] using hswapped
  · exact (packages_independent_of_order.2 [itemSource] [] shopSource _ hnames
      (List.reverse_perm _).symm _ rfl).2

end Load

end GoUml.Go
