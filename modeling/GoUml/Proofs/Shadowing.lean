import GoUml.Edge
import GoUml.Go.Resolution

/-!
# Packages that declare a predeclared name

A package may declare a type called `string` or `error`, and resolution then binds the name to the
package. Naming decides by the text of the name alone whether a type is predeclared, so the two
stages disagree on such a type, and on no other: every type that is bound to a package and has a
name of its own goes through all stages as a type of that package. The disputed types keep the key
of their package and lose everything else. They are written without a namespace, nothing
aggregates them, and embedding them brings in nothing that the package declares.
-/

namespace GoUml

namespace TypeName

/-- The type is treated as the type called `name` in the package `p`, wherever it is mentioned. -/
structure BelongsTo (t : TypeName) (p : PackageId) (name : String) : Prop where
  package : t.package = some p
  builtin : t.builtin = false
  edgeEnd : EdgeEnd.ofType t = ⟨some p.name, name⟩
  used : ∀ (s : Struct) (f : Field), f ∈ s.fields → f.embedded = false → t ∈ f.type.terminals →
    t ∈ s.usedTypes f.isPrivate
  promoted : ∀ (c : Catalog) q (f : Field), f.composed = t →
    c.promoteField q f = { q with deeper := q.deeper ++ (c.promoted? p.path name).toList }
  required : ∀ (c : Catalog) visit (e : TypeView) found, e.toTypeName = t →
    c.requireEmbeds visit [e] found =
      ((c.findInterface? p.path name).map fun i => visit i found).getD (false, found)

structure IsUniverse (t : TypeName) (name : String) : Prop where
  package : t.package = none
  builtin : t.builtin = true
  edgeEnd : EdgeEnd.ofType t = ⟨none, name⟩
  unused : ∀ (s : Struct) hidden, t ∉ s.usedTypes hidden
  unpromoted : ∀ (c : Catalog) q (f : Field), f.composed = t →
    (c.promoteField q f).deeper = q.deeper
  unrequired : ∀ (c : Catalog) visit (e : TypeView) found, e.toTypeName = t →
    (c.requireEmbeds visit [e] found).2.visited = found.visited

variable {t : TypeName}

theorem mem_usedTypes {s : Struct} {f : Field} (hf : f ∈ s.fields) (hembedded : f.embedded = false)
    (ht : t ∈ f.type.terminals) (hbuiltin : t.builtin = false) : t ∈ s.usedTypes f.isPrivate := by
  rw [Struct.usedTypes, List.mem_flatMap]
  refine ⟨f, List.mem_filter.2 ⟨hf, ?_⟩, List.mem_filter.2 ⟨ht, ?_⟩⟩
  · simp [hembedded]
  · simp [hbuiltin]

theorem not_mem_usedTypes (hbuiltin : t.builtin = true) (s : Struct) (hidden : Bool) :
    t ∉ s.usedTypes hidden := by
  intro ht
  obtain ⟨f, -, ht⟩ := List.mem_flatMap.1 ht
  have hnot := (List.mem_filter.1 ht).2
  simp [hbuiltin] at hnot

/-- All stages read a type by its name, its package and whether it is predeclared. -/
theorem belongsTo_of_package {p : PackageId} (hpackage : t.package = some p)
    (hbuiltin : t.builtin = false) : t.BelongsTo p t.goName where
  package := hpackage
  builtin := hbuiltin
  edgeEnd := by simp [EdgeEnd.ofType, hbuiltin, packageName, hpackage]
  used _ _ hf hembedded ht := mem_usedTypes hf hembedded ht hbuiltin
  promoted c q f hf := by
    subst hf
    rw [Catalog.promoteField, hpackage]
  required c visit e found he := by
    subst he
    cases hinner : c.findInterface? p.path e.goName with
    | none => simp [Catalog.requireEmbeds, hpackage, hinner]
    | some i =>
      rcases hvisit : visit i found with ⟨_ | _, after⟩ <;>
        simp [Catalog.requireEmbeds, hpackage, hinner, hvisit]

theorem isUniverse_of_builtin (hpackage : t.package = none) (hbuiltin : t.builtin = true) :
    t.IsUniverse t.goName where
  package := hpackage
  builtin := hbuiltin
  edgeEnd := by simp [EdgeEnd.ofType, hbuiltin]
  unused := not_mem_usedTypes hbuiltin
  unpromoted c q f hf := by
    subst hf
    rw [Catalog.promoteField, hpackage]
    dsimp only
    split <;> rfl
  unrequired c visit e found he := by
    subst he
    simp only [Catalog.requireEmbeds, hpackage]
    split <;> rfl

end TypeName

/-! ### Types that are bound to a package -/

section Named

variable (viewer p : PackageId) {name : String}

theorem isBuiltin_named (name : String) :
    (GoType.named name (some p)).isBuiltin viewer = isPredeclared name := by
  simp [GoType.isBuiltin, GoType.display, namedDisplay]

theorem goName_named (name : String) : (viewer.typeName (.named name (some p))).goName = name := by
  simp [PackageId.typeName, GoType.display, namedDisplay]

theorem belongsTo_named (h : isPredeclared name = false) :
    (viewer.typeName (.named name (some p))).BelongsTo p name := by
  have hbuiltin := isBuiltin_named viewer p name
  rw [h] at hbuiltin
  have hpackage : (GoType.named name (some p)).owner viewer = some p := by
    simp [GoType.owner, hbuiltin]
  have hbelongs := TypeName.belongsTo_of_package (t := viewer.typeName (.named name (some p)))
    hpackage hbuiltin
  rwa [goName_named] at hbelongs

theorem isUniverse_named (h : isPredeclared name = true) :
    (viewer.typeName (.named name (some p))).IsUniverse name := by
  have hbuiltin := isBuiltin_named viewer p name
  rw [h] at hbuiltin
  have hpackage : (GoType.named name (some p)).owner viewer = none := by
    simp [GoType.owner, hbuiltin]
  have huniverse := TypeName.isUniverse_of_builtin (t := viewer.typeName (.named name (some p)))
    hpackage hbuiltin
  rwa [goName_named] at huniverse

end Named

namespace Go.Load

/-- A predeclared name is bound to a package only where the package declares it. -/
theorem exists_find?_of_shadowed {load : Load} {scope : Scope} {name : String} {p : PackageId}
    (hname : isPredeclared name = true)
    (h : .named name (some p) ∈ (load.resolveName scope name).terminals) :
    p = scope.package ∧ ∃ d, load.find? p.path name = some d := by
  rw [resolveName, hname, Bool.and_true] at h
  split at h
  · simp [GoType.terminals] at h
  · split at h
    · simp [GoType.terminals] at h
    · next hfound =>
      obtain rfl : p = scope.package := by simpa [GoType.terminals] using h
      refine ⟨rfl, Option.ne_none_iff_exists'.1 ?_⟩
      simpa using hfound

/-- A type that resolution binds to a package is treated as a type of the package by all later
stages unless it has a predeclared name. In that case all of them treat it as predeclared, although
the package declares the name. -/
theorem bound_type_belongs_iff {load : Load} {scope : Scope} {expr : TypeExpr} {name : String}
    {p : PackageId} (h : .named name (some p) ∈ (load.resolve scope expr).terminals)
    (viewer : PackageId) :
    viewer.typeName (.named name (some p)) ∈ (viewer.view (load.resolve scope expr)).terminals ∧
    ((viewer.typeName (.named name (some p))).BelongsTo p name ↔ isPredeclared name = false) ∧
    (isPredeclared name = true →
      (viewer.typeName (.named name (some p))).IsUniverse name ∧
      (expr = .name name → p = scope.package ∧ ∃ d, load.find? p.path name = some d)) := by
  refine ⟨List.mem_map_of_mem h, ⟨?_, belongsTo_named viewer p⟩, ?_⟩
  · intro hbelongs
    rw [← isBuiltin_named viewer p name]
    exact hbelongs.builtin
  · intro hname
    refine ⟨isUniverse_named viewer p hname, ?_⟩
    intro hexpr
    subst hexpr
    rw [resolve] at h
    exact exists_find?_of_shadowed hname h

/-- A package that declares `string` and mentions it. -/
def labelSource : SourcePackage where
  name := "label"
  path := "example.com/label"
  files :=
    [⟨"label", [],
      [⟨"string", [], false, .struct []⟩,
       ⟨"Label", [], false, .struct [⟨"Text", .name "string", false⟩]⟩], []⟩]

def labelScope : Scope := ⟨⟨"label", "example.com/label"⟩, [], []⟩

theorem bound_type_belongs_iff_label :
    labelScope.package.typeName (.named "Label" (some labelScope.package)) ∈
        (labelScope.package.view (resolve [labelSource] labelScope
          (.map (.name "string") (.pointer (.name "Label"))))).terminals ∧
      (labelScope.package.typeName (.named "Label" (some labelScope.package))).BelongsTo
        labelScope.package "Label" ∧
      (labelScope.package.typeName (.named "string" (some labelScope.package))).IsUniverse
        "string" := by
  have hlabel : GoType.named "Label" (some labelScope.package) ∈ (resolve [labelSource] labelScope
      (.map (.name "string") (.pointer (.name "Label")))).terminals := by
    decide +kernel
  have hstring : GoType.named "string" (some labelScope.package) ∈
      (resolve [labelSource] labelScope
        (.map (.name "string") (.pointer (.name "Label")))).terminals := by
    decide +kernel
  obtain ⟨hmem, hbelongs, -⟩ := bound_type_belongs_iff hlabel labelScope.package
  obtain ⟨-, -, huniverse⟩ := bound_type_belongs_iff hstring labelScope.package
  exact ⟨hmem, hbelongs.2 (by decide), (huniverse (by decide)).1⟩

/-- The type `string` of the package is said to be predeclared and to belong to no package. -/
theorem shadowed_string_loses_package :
    ¬ ∀ (load : Load) (scope : Scope) (expr : TypeExpr) (name : String) (p viewer : PackageId),
      load.resolve scope expr = .named name (some p) →
        (viewer.view (load.resolve scope expr)).package = some p ∧
        (viewer.view (load.resolve scope expr)).builtin = false := by
  intro h
  have hbound : resolve [labelSource] labelScope (.name "string") =
      .named "string" (some labelScope.package) := by
    decide +kernel
  obtain ⟨-, hbuiltin⟩ := h _ _ _ _ _ labelScope.package hbound
  rw [hbound] at hbuiltin
  exact absurd hbuiltin (by decide)

end Go.Load

end GoUml
