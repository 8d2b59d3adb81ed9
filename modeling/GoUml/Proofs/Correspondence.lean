import GoUml.Proofs.Contents
import GoUml.Proofs.Pointwise
import Mathlib.Data.List.Sort

/-!
# Catalogs that correspond entity by entity

Statements about two runs compare two catalogs that have entities of the same kind at the same paths
and names, and differ inside them. Such catalogs list their entities in the same order, so whatever
reads a catalog only through its listings can be compared entity by entity. The correspondence of
two lists of packages is reduced to what each pair of packages declares.
-/

namespace GoUml

namespace Table

variable {α β : Type}

/-- The tables have values at the same keys, and the values at each key are related. -/
def Related (R : α → β → Prop) (s : Table α) (t : Table β) : Prop :=
  ∀ key, Option.Rel R (s.find? key) (t.find? key)

variable {R : α → β → Prop} {s : Table α} {t : Table β}

theorem Related.keys_eq (h : Related R s t) : s.keys = t.keys := by
  have hirrefl : Std.Irrefl fun a b : String => a < b := ⟨String.lt_irrefl⟩
  have hantisymm : Std.Antisymm fun a b : String => a < b :=
    ⟨fun a b hab hba => absurd hab (String.lt_asymm hba)⟩
  refine List.Pairwise.eq_of_mem_iff s.pairwise_keys t.pairwise_keys fun key => ?_
  rw [mem_keys_iff, mem_keys_iff]
  obtain ⟨hs, ht⟩ | ⟨a, b, hs, ht, -⟩ := rel_cases (h key)
  · rw [hs, ht, Option.isSome_none, Option.isSome_none]
  · rw [hs, ht, Option.isSome_some, Option.isSome_some]

theorem Related.forall₂_entries (h : Related R s t) :
    List.Forall₂ (fun a b => a.1 = b.1 ∧ R a.2 b.2) s.entries t.entries := by
  have hkeys : List.Forall₂ (· = ·) s.keys t.keys := by
    rw [List.forall₂_eq_eq_eq, h.keys_eq]
  rw [keys, keys, List.forall₂_map_left_iff, List.forall₂_map_right_iff,
    List.forall₂_iff_zip] at hkeys
  rw [List.forall₂_iff_zip]
  refine ⟨hkeys.1, fun {a b} hab => ?_⟩
  have hkey : a.1 = b.1 := hkeys.2 hab
  obtain ⟨ha, hb⟩ := List.of_mem_zip hab
  have hrelated := h a.1
  rw [mem_entries_iff.1 ha, hkey, mem_entries_iff.1 hb] at hrelated
  exact ⟨hkey, Option.rel_some_some.1 hrelated⟩

theorem Related.imp {S : α → β → Prop} (h : Related R s t) (himp : ∀ a b, R a b → S a b) :
    Related S s t := by
  intro key
  simpa using rel_map (h key) (f := id) (g := id) himp

theorem Related.forall₂_values (h : Related R s t) : List.Forall₂ R s.values t.values := by
  rw [values, values, List.forall₂_map_left_iff, List.forall₂_map_right_iff]
  exact h.forall₂_entries.imp fun _ _ hab => hab.2

theorem Related.eq {s t : Table α} (h : Related (· = ·) s t) : s = t := by
  refine ext_find? fun key => ?_
  simpa using map_eq_of_rel (h key) (f := id) (g := id) fun _ _ heq => heq

end Table

namespace PackageTable

variable {α β : Type}

def Related (R : α → β → Prop) (s : PackageTable α) (t : PackageTable β) : Prop :=
  Table.Related (Table.Related R) s t

variable {R : α → β → Prop} {s : PackageTable α} {t : PackageTable β}

theorem related_of_get? (hs : s.Peopled) (ht : t.Peopled)
    (h : ∀ path name, Option.Rel R (s.get? path name) (t.get? path name)) : s.Related R t := by
  intro path
  cases hfs : s.find? path with
  | none =>
    cases hft : t.find? path with
    | none => exact .none
    | some names =>
      -- The second table would have a value at this path, and the first one has none.
      obtain ⟨name, hname⟩ := ht path (by rw [hft]; rfl)
      have hget := h path name
      rw [get?, hfs, Option.bind_none] at hget
      cases hvalue : t.get? path name with
      | none => rw [hvalue] at hname; cases hname
      | some value => rw [hvalue] at hget; cases hget
  | some names =>
    cases hft : t.find? path with
    | none =>
      obtain ⟨name, hname⟩ := hs path (by rw [hfs]; rfl)
      have hget := h path name
      rw [get?, get?, hft, Option.bind_none] at hget
      rw [get?] at hname
      cases hvalue : (s.find? path).bind (·.find? name) with
      | none => rw [hvalue] at hname; cases hname
      | some value => rw [hvalue] at hget; cases hget
    | some names' =>
      refine .some fun name => ?_
      have hget := h path name
      rwa [get?, get?, hfs, hft, Option.bind_some, Option.bind_some] at hget

theorem Related.imp {S : α → β → Prop} (h : s.Related R t) (himp : ∀ a b, R a b → S a b) :
    s.Related S t :=
  Table.Related.imp h fun _ _ hnames => hnames.imp himp

theorem Related.rel_get? (h : s.Related R t) (path name : String) :
    Option.Rel R (s.get? path name) (t.get? path name) :=
  rel_bind (h path) fun _ _ hnames => hnames name

theorem Related.mapValues {S : α → β → Prop} (h : s.Related R t) {f : α → α} {g : β → β}
    (hfg : ∀ a b, R a b → S (f a) (g b)) : (s.mapValues f).Related S (t.mapValues g) := by
  intro path
  rw [PackageTable.mapValues, PackageTable.mapValues, Table.find?_map, Table.find?_map]
  refine rel_map (h path) fun names names' hnames name => ?_
  rw [Table.find?_map, Table.find?_map]
  exact rel_map (hnames name) hfg

theorem Related.forall₂_inPackage (h : s.Related R t) (path : String) :
    List.Forall₂ R (s.inPackage path) (t.inPackage path) := by
  rw [inPackage, inPackage]
  obtain ⟨hs, ht⟩ | ⟨names, names', hs, ht, hnames⟩ := rel_cases (h path)
  · rw [hs, ht]
    exact .nil
  · rw [hs, ht]
    exact hnames.forall₂_values

theorem Related.forall₂_all (h : s.Related R t) : List.Forall₂ R s.all t.all := by
  have hvalues : List.Forall₂ (Table.Related R) s.values t.values := h.forall₂_values
  rw [all, all, List.flatMap_def, List.flatMap_def]
  apply List.rel_flatten
  rw [List.forall₂_map_left_iff, List.forall₂_map_right_iff]
  exact hvalues.imp fun _ _ hnames => hnames.forall₂_values

theorem Related.eq {s t : PackageTable α} (h : s.Related (· = ·) t) : s = t := by
  apply Table.Related.eq
  exact Table.Related.imp h fun _ _ hnames => hnames.eq

end PackageTable

/-! ### Catalogs of packages -/

/-- What two packages have under a name corresponds when each entity of the first has a counterpart
in the second and both mention the same names. -/
theorem Package.rel_find?_entities {E : Entity → Entity → Prop} {p q : Package} {name : String}
    (hdeclares : ∀ e, p.Declares name e → ∃ e', q.Declares name e' ∧ E e e')
    (hmentions : q.Mentions name → p.Mentions name) :
    Option.Rel E (p.entities.find? name) (q.entities.find? name) := by
  cases hp : p.entities.find? name with
  | some e =>
    obtain ⟨e', he', hrel⟩ := hdeclares e (find?_entities_eq_some_iff.1 hp)
    rw [find?_entities_eq_some_iff.2 he']
    exact .some hrel
  | none =>
    cases hq : q.entities.find? name with
    | none => exact .none
    | some e' =>
      have hmention : p.Mentions name :=
        hmentions (exists_declares_iff.1 ⟨e', find?_entities_eq_some_iff.1 hq⟩)
      obtain ⟨e, he⟩ := exists_declares_iff.2 hmention
      rw [find?_entities_eq_some_iff.2 he] at hp
      cases hp

namespace Catalog

variable {E : Entity → Entity → Prop} {packages others : List Package}

/-- The first packages of each path correspond. -/
def Matched (E : Entity → Entity → Prop) (packages others : List Package) : Prop :=
  ∀ path, Option.Rel
    (fun p q : Package => p.id = q.id ∧ p.importIds.Perm q.importIds ∧
      ∀ name, Option.Rel E (p.entities.find? name) (q.entities.find? name))
    (Package.first? packages path) (Package.first? others path)

theorem Matched.packages_eq (h : Matched E packages others) :
    (ofPackages packages).packages = (ofPackages others).packages := by
  refine Table.ext_find? fun path => ?_
  rw [find?_packages_ofPackages, find?_packages_ofPackages]
  exact map_eq_of_rel (h path) fun _ _ hpq => hpq.1

theorem Matched.importsOf_perm (h : Matched E packages others) (path : String) :
    ((ofPackages packages).importsOf path).Perm ((ofPackages others).importsOf path) := by
  rw [importsOf, importsOf, find?_imports_ofPackages, find?_imports_ofPackages]
  obtain ⟨hp, hq⟩ | ⟨p, q, hp, hq, hpq⟩ := rel_cases (h path)
  · rw [hp, hq]
  · rw [hp, hq]
    exact hpq.2.1

theorem Matched.rel_find? (h : Matched E packages others) (path name : String) :
    Option.Rel E ((ofPackages packages).find? path name) ((ofPackages others).find? path name) := by
  rw [find?_ofPackages, find?_ofPackages]
  exact rel_bind (h path) fun _ _ hpq => hpq.2.2 name

theorem Shelf.rel_pick {α : Type} (shelf : Shelf α) {e e' : Entity} (hrel : E e e')
    (hkind : (shelf.pick e).isSome = (shelf.pick e').isSome) :
    Option.Rel (fun a b => E (shelf.wrap a) (shelf.wrap b)) (shelf.pick e) (shelf.pick e') := by
  cases hpick : shelf.pick e with
  | none =>
    have hpick' : shelf.pick e' = none := by simpa [hpick] using hkind.symm
    rw [hpick']
    exact .none
  | some a =>
    rw [hpick, Option.isSome_some] at hkind
    obtain ⟨b, hpick'⟩ := Option.isSome_iff_exists.1 hkind.symm
    rw [(shelf.pick_eq_some_iff e a).1 hpick, (shelf.pick_eq_some_iff e' b).1 hpick'] at hrel
    rw [hpick']
    exact .some hrel

/-- Corresponding entities of one kind stand on the same shelf. -/
theorem Matched.related {α : Type} (shelf : Shelf α)
    (hkind : ∀ e e', E e e' → (shelf.pick e).isSome = (shelf.pick e').isSome)
    (h : Matched E packages others) :
    (shelf.table (ofPackages packages)).Related (fun a b => E (shelf.wrap a) (shelf.wrap b))
      (shelf.table (ofPackages others)) := by
  refine PackageTable.related_of_get? (shelf.peopled_ofPackages _) (shelf.peopled_ofPackages _) ?_
  intro path name
  rw [shelf.get?_ofPackages, shelf.get?_ofPackages, ← find?_ofPackages, ← find?_ofPackages]
  exact rel_bind (h.rel_find? path name) fun e e' hrel => shelf.rel_pick hrel (hkind e e' hrel)

end Catalog

end GoUml
