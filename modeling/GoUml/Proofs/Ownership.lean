import GoUml.Proofs.Contents
import GoUml.Proofs.Implementation
import GoUml.Proofs.Sorting
import Mathlib.Data.List.Flatten

/-!
# Where the entities of a catalog belong

A catalog keeps packages and four kinds of entities in five tables, and nothing in its type ties
them together. In the catalog of a list of packages each table of entities holds exactly what is
found of its kind, and whatever is found belongs to the package of its path. So the packages,
taken one after the other, lead to every entity once. Classifying changes none of this.
-/

namespace GoUml

/-- Packages are listed by name, and those of one name by path. -/
def PackageId.Before (p q : PackageId) : Prop :=
  p.name < q.name ∨ p.name = q.name ∧ p.path < q.path

namespace Entity

@[simp] theorem name_listing (g : Struct → List InterfaceRef) (e : Entity) :
    (e.listing g).name = e.name := by
  cases e <;> rfl

@[simp] theorem package_listing (g : Struct → List InterfaceRef) (e : Entity) :
    (e.listing g).package = e.package := by
  cases e <;> rfl

end Entity

namespace Catalog

variable {α : Type} {c : Catalog}

/-- The catalog of a list of packages, before or after it is classified. -/
inductive BuiltFrom (packages : List Package) : Catalog → Prop
  | plain : BuiltFrom packages (ofPackages packages)
  | classified : BuiltFrom packages (ofPackages packages).classify

/-- An entity has the name and path at which it is found, and belongs to the package there. -/
theorem owner_of_find? {packages : List Package} {path name : String} {e : Entity}
    (h : (ofPackages packages).find? path name = some e) :
    e.name = name ∧ e.package.path = path ∧
      (ofPackages packages).package? path = some e.package := by
  rw [find?_ofPackages, Option.bind_eq_some_iff] at h
  obtain ⟨p, hfirst, hfound⟩ := h
  obtain ⟨hname, hpackage⟩ := p.ownedBy_entities name e hfound
  refine ⟨hname, ?_, ?_⟩
  · rw [hpackage]
    exact path_of_first? hfirst
  · rw [package?, find?_packages_ofPackages, hfirst, hpackage, Option.map_some]

/-- The table holds exactly the entities of one kind. -/
def Keeps (c : Catalog) (t : PackageTable α) (kind : α → Entity) : Prop :=
  ∀ path name a, t.get? path name = some a ↔ c.find? path name = some (kind a)

/-- No entity is in two tables, and every entity is found under its own name in a package that is
there. -/
structure Orderly (c : Catalog) : Prop where
  structs : c.Keeps c.structs .struct
  interfaces : c.Keeps c.interfaces .interface
  definedTypes : c.Keeps c.definedTypes .defined
  typeAliases : c.Keeps c.typeAliases .typeAlias
  owner : ∀ {path name e}, c.find? path name = some e →
    e.name = name ∧ e.package.path = path ∧ c.package? path = some e.package
  path_eq : ∀ {path p}, c.package? path = some p → p.path = path

theorem orderly_ofPackages (packages : List Package) : (ofPackages packages).Orderly where
  structs _ _ _ := Shelf.structs.get?_eq_some_iff
  interfaces _ _ _ := Shelf.interfaces.get?_eq_some_iff
  definedTypes _ _ _ := Shelf.definedTypes.get?_eq_some_iff
  typeAliases _ _ _ := Shelf.typeAliases.get?_eq_some_iff
  owner := owner_of_find?
  path_eq {path p} hp := by
    rw [package?, find?_packages_ofPackages, Option.map_eq_some_iff] at hp
    obtain ⟨q, hq, rfl⟩ := hp
    exact path_of_first? hq

theorem find?_listing_eq_some_iff {g : Struct → List InterfaceRef} {path name : String} {e : Entity}
    (he : ∀ s, .struct s ≠ e) :
    (c.listing g).find? path name = some e ↔ c.find? path name = some e := by
  rw [find?_listing]
  cases c.find? path name with
  | none => simp
  | some found =>
    cases found with
    | struct s => simp [Entity.listing, he]
    | _ => simp [Entity.listing]

theorem Orderly.listing (h : c.Orderly) (g : Struct → List InterfaceRef) :
    (c.listing g).Orderly where
  structs path name a := by
    rw [Catalog.listing, PackageTable.get?_mapValues, ← Catalog.listing, find?_listing,
      Option.map_eq_some_iff, Option.map_eq_some_iff]
    constructor
    · intro hs
      obtain ⟨s, hs, rfl⟩ := hs
      exact ⟨.struct s, (h.structs path name s).1 hs, rfl⟩
    · intro he
      obtain ⟨e, he, heq⟩ := he
      cases e with
      | struct s => exact ⟨s, (h.structs path name s).2 he, Entity.struct.inj heq⟩
      | _ => cases heq
  interfaces path name i :=
    (h.interfaces path name i).trans
      (find?_listing_eq_some_iff (e := .interface i) fun _ => nofun).symm
  definedTypes path name d :=
    (h.definedTypes path name d).trans
      (find?_listing_eq_some_iff (e := .defined d) fun _ => nofun).symm
  typeAliases path name a :=
    (h.typeAliases path name a).trans
      (find?_listing_eq_some_iff (e := .typeAlias a) fun _ => nofun).symm
  owner {path name e} he := by
    rw [find?_listing, Option.map_eq_some_iff] at he
    obtain ⟨found, hfound, rfl⟩ := he
    rw [Entity.name_listing, Entity.package_listing]
    exact h.owner hfound
  path_eq := h.path_eq

theorem BuiltFrom.orderly {packages : List Package} (hc : c.BuiltFrom packages) : c.Orderly := by
  cases hc with
  | plain => exact orderly_ofPackages packages
  | classified =>
    rw [classify_eq_listing (reachable_ofPackages packages).filed]
    exact (orderly_ofPackages packages).listing _

/-! ### What is listed -/

theorem Orderly.find?_own (h : c.Orderly) {path name : String} {e : Entity}
    (he : c.find? path name = some e) : c.find? e.package.path e.name = some e := by
  obtain ⟨hname, hpath, -⟩ := h.owner he
  rwa [hname, hpath]

theorem Orderly.mem_inPackage_iff (h : c.Orderly) {t : PackageTable α} {kind : α → Entity}
    (ht : c.Keeps t kind) {path : String} {a : α} :
    a ∈ t.inPackage path ↔ c.find? path (kind a).name = some (kind a) := by
  rw [PackageTable.mem_inPackage_iff]
  constructor
  · intro ha
    obtain ⟨name, hname⟩ := ha
    have hfound := (ht path name a).1 hname
    rwa [(h.owner hfound).1]
  · intro hfound
    exact ⟨_, (ht path _ a).2 hfound⟩

theorem Orderly.mem_all_iff (h : c.Orderly) {t : PackageTable α} {kind : α → Entity}
    (ht : c.Keeps t kind) {a : α} :
    a ∈ t.all ↔ c.find? (kind a).package.path (kind a).name = some (kind a) := by
  rw [PackageTable.mem_all_iff]
  constructor
  · intro ha
    obtain ⟨path, name, hname⟩ := ha
    exact h.find?_own ((ht path name a).1 hname)
  · intro hfound
    exact ⟨_, _, (ht _ _ a).2 hfound⟩

theorem Orderly.nodup_places (h : c.Orderly) {t : PackageTable α} {kind : α → Entity}
    (ht : c.Keeps t kind) :
    (t.all.map fun a => ((kind a).package.path, (kind a).name)).Nodup := by
  apply PackageTable.nodup_all_map
  intro path name a ha
  obtain ⟨hname, hpath, -⟩ := h.owner ((ht path name a).1 ha)
  rw [hname, hpath]

theorem Orderly.nodup_all (h : c.Orderly) {t : PackageTable α} {kind : α → Entity}
    (ht : c.Keeps t kind) : t.all.Nodup :=
  (h.nodup_places ht).of_map

theorem Orderly.mem_sortedPackages_iff (h : c.Orderly) {p : PackageId} :
    p ∈ c.sortedPackages ↔ c.package? p.path = some p := by
  rw [sortedPackages, (Text.sortOnRow_perm _ _).mem_iff, Table.mem_values_iff]
  constructor
  · intro hp
    obtain ⟨path, hp⟩ := hp
    rwa [h.path_eq hp]
  · intro hp
    exact ⟨_, hp⟩

theorem Orderly.nodup_sortedPackages (h : c.Orderly) :
    (c.sortedPackages.map PackageId.path).Nodup := by
  have hperm : c.sortedPackages.Perm c.packages.values := Text.sortOnRow_perm _ _
  have hpath : ∀ e ∈ c.packages.entries, e.2.path = e.1 := fun e he =>
    h.path_eq (Table.mem_entries_iff.1 he)
  rw [(hperm.map PackageId.path).nodup_iff, Table.values, List.map_map, List.Nodup,
    List.pairwise_map]
  apply c.packages.ascending.imp_of_mem
  intro a b ha hb hlt heq
  rw [Function.comp_apply, Function.comp_apply, hpath a ha, hpath b hb] at heq
  exact String.lt_irrefl _ (heq ▸ hlt)

theorem Orderly.pairwise_sortedPackages (h : c.Orderly) :
    c.sortedPackages.Pairwise PackageId.Before := by
  have hsorted : c.sortedPackages.Pairwise fun p q =>
      Text.rowNotAfter [p.name, p.path] [q.name, q.path] = true := Text.pairwise_sortOnRow _ _
  apply (hsorted.and (List.pairwise_map.1 h.nodup_sortedPackages)).imp
  intro p q hpq
  obtain ⟨hrow, hpath⟩ := hpq
  simp only [Text.rowNotAfter, if_neg hpath] at hrow
  by_cases hname : p.name = q.name
  · rw [if_pos hname, decide_eq_true_eq] at hrow
    exact .inr ⟨hname, hrow⟩
  · rw [if_neg hname, decide_eq_true_eq] at hrow
    exact .inl hrow

theorem Orderly.pairwise_inPackage (h : c.Orderly) {t : PackageTable α} {kind : α → Entity}
    (ht : c.Keeps t kind) (path : String) :
    (t.inPackage path).Pairwise fun a b => (kind a).name < (kind b).name := by
  apply PackageTable.pairwise_inPackage
  intro name a ha
  exact (h.owner ((ht path name a).1 ha)).1

theorem Orderly.find?_of_mem_inPackage (h : c.Orderly) {t : PackageTable α} {kind : α → Entity}
    (ht : c.Keeps t kind) {p : PackageId} (hp : p ∈ c.sortedPackages) {a : α}
    (ha : a ∈ t.inPackage p.path) :
    c.find? p.path (kind a).name = some (kind a) ∧ (kind a).package = p := by
  have hfound := (h.mem_inPackage_iff ht).1 ha
  obtain ⟨-, -, howner⟩ := h.owner hfound
  rw [h.mem_sortedPackages_iff.1 hp, Option.some.injEq] at howner
  exact ⟨hfound, howner.symm⟩

/-- Going through the packages finds everything that a table holds. -/
theorem Orderly.flatMap_inPackage_perm (h : c.Orderly) {t : PackageTable α} {kind : α → Entity}
    (ht : c.Keeps t kind) :
    (c.sortedPackages.flatMap fun p => t.inPackage p.path).Perm t.all := by
  have hnodup : (c.sortedPackages.flatMap fun p => t.inPackage p.path).Nodup := by
    rw [List.nodup_flatMap]
    constructor
    · intro p _
      apply (h.pairwise_inPackage ht p.path).imp
      intro a b hlt heq
      exact String.lt_irrefl _ (heq ▸ hlt)
    · apply (List.pairwise_map.1 h.nodup_sortedPackages).imp
      intro p q hne a hp hq
      obtain ⟨-, hpath, -⟩ := h.owner ((h.mem_inPackage_iff ht).1 hp)
      obtain ⟨-, hpath', -⟩ := h.owner ((h.mem_inPackage_iff ht).1 hq)
      exact hne (hpath.symm.trans hpath')
  rw [List.perm_ext_iff_of_nodup hnodup (h.nodup_all ht)]
  intro a
  rw [List.mem_flatMap, h.mem_all_iff ht]
  constructor
  · intro ha
    obtain ⟨p, -, ha⟩ := ha
    exact h.find?_own ((h.mem_inPackage_iff ht).1 ha)
  · intro ha
    obtain ⟨-, -, howner⟩ := h.owner ha
    exact ⟨_, h.mem_sortedPackages_iff.2 howner, (h.mem_inPackage_iff ht).2 ha⟩

end Catalog

end GoUml
