import GoUml.ImportGraph
import GoUml.Proofs.Table

/-!
# The import graph is the import relation

The graph of a catalog keeps a set of imports for each package and is read in five ways. All of them
give the same relation: one package imports another when both are loaded and have real paths, they
differ, and the path of the second is among the recorded imports of the first. An import that is
recorded twice counts once, since imports are kept in a set.
-/

namespace GoUml

namespace Catalog

/-- A package with this path is loaded, and the path is not one of those that stand for none. -/
structure Holds (c : Catalog) (path : String) : Prop where
  loaded : (c.package? path).isSome = true
  nonempty : path ≠ ""
  ne_dot : path ≠ "."

/-- The package at `importer` imports the one at `imported`, and both can be shown. -/
structure Imports (c : Catalog) (importer imported : String) : Prop where
  source : c.Holds importer
  target : c.Holds imported
  distinct : importer ≠ imported
  recorded : ∃ i ∈ c.importsOf importer, i.path = imported

end Catalog

namespace ImportGraph

variable {c : Catalog} {g : ImportGraph} {path importer imported : String}

theorem containsEdge_iff :
    g.containsEdge importer imported = true ↔
      ∃ set, g.adjacency.find? importer = some set ∧ set.contains imported = true := by
  rw [containsEdge, Option.any_eq_true]

theorem importsOf_eq {set : TextSet} (h : g.adjacency.find? importer = some set) :
    g.importsOf importer = set.keys := by
  rw [importsOf, h]
  rfl

theorem pairwise_importsOf (g : ImportGraph) (importer : String) :
    (g.importsOf importer).Pairwise (· < ·) := by
  cases hfound : g.adjacency.find? importer with
  | none =>
    rw [importsOf, hfound]
    exact .nil
  | some set =>
    rw [importsOf_eq hfound]
    exact set.pairwise_keys

theorem mem_importsOf_iff :
    imported ∈ g.importsOf importer ↔ g.containsEdge importer imported = true := by
  rw [containsEdge_iff]
  cases hfound : g.adjacency.find? importer with
  | none => simp [importsOf, hfound]
  | some set =>
    rw [importsOf_eq hfound, Table.mem_keys_iff]
    simp [Table.contains]

theorem mem_edges_iff :
    (importer, imported) ∈ g.edges ↔ g.containsEdge importer imported = true := by
  rw [containsEdge_iff, edges, List.mem_flatMap]
  constructor
  · rintro ⟨⟨from', set⟩, hentry, hedge⟩
    obtain ⟨to', hto, heq⟩ := List.mem_map.1 hedge
    cases heq
    exact ⟨set, Table.mem_entries_iff.1 hentry, Table.mem_keys_iff.1 hto⟩
  · rintro ⟨set, hfound, hcontains⟩
    exact ⟨(importer, set), Table.mem_entries_iff.2 hfound,
      List.mem_map.2 ⟨imported, Table.mem_keys_iff.2 hcontains, rfl⟩⟩

/-- Edges are listed by importer, and those of one importer by what it imports. -/
theorem pairwise_edges (g : ImportGraph) : g.edges.Pairwise (Prod.Lex (· < ·) (· < ·)) := by
  rw [edges, List.pairwise_flatMap]
  constructor
  · intro entry _
    rw [List.pairwise_map]
    exact entry.2.pairwise_keys.imp (Prod.Lex.right entry.1)
  · apply g.adjacency.ascending.imp
    intro a b hlt x hx y hy
    obtain ⟨_, -, rfl⟩ := List.mem_map.1 hx
    obtain ⟨_, -, rfl⟩ := List.mem_map.1 hy
    exact .left _ _ hlt

theorem edgeCount_eq (g : ImportGraph) : g.edgeCount = g.edges.length := by
  have hcount (entries : List (String × TextSet)) (count : Nat) :
      (entries.map (·.2)).foldl (fun count imports => count + imports.size) count =
        count + (entries.flatMap fun entry =>
          entry.2.keys.map fun imported => (entry.1, imported)).length := by
    induction entries generalizing count with
    | nil => rfl
    | cons entry rest ih =>
      rw [List.map_cons, List.foldl_cons, ih, List.flatMap_cons, List.length_append,
        List.length_map, Table.keys, List.length_map, Nat.add_assoc]
      rfl
  exact (hcount g.adjacency.entries 0).trans (Nat.zero_add _)

/-! ### The graph of a catalog -/

theorem isPseudoPath_eq_false_iff : isPseudoPath path = false ↔ path ≠ "" ∧ path ≠ "." := by
  simp [isPseudoPath]

theorem find?_adjacency (c : Catalog) (path : String) [Decidable (c.Holds path)] :
    (ofCatalog c).adjacency.find? path = if c.Holds path then some (importedBy c path) else none := by
  have hkeys : path ∈ c.packages.keys.filter (fun path => !isPseudoPath path) ↔ c.Holds path := by
    rw [List.mem_filter, Table.mem_keys_iff, Bool.not_eq_true', isPseudoPath_eq_false_iff]
    exact ⟨fun ⟨hloaded, hempty, hdot⟩ => ⟨hloaded, hempty, hdot⟩,
      fun h => ⟨h.loaded, h.nonempty, h.ne_dot⟩⟩
  rw [ofCatalog, Table.find?_ofList_map]
  simp only [hkeys]

theorem contains_importedBy_iff :
    (importedBy c importer).contains imported = true ↔
      c.Holds imported ∧ importer ≠ imported ∧ ∃ i ∈ c.importsOf importer, i.path = imported := by
  rw [importedBy, TextSet.contains_ofList_iff, List.mem_filter, List.mem_map]
  simp only [Bool.and_eq_true, bne_iff_ne, Bool.not_eq_true', isPseudoPath_eq_false_iff]
  constructor
  · rintro ⟨hrecorded, ⟨hne, hempty, hdot⟩, hloaded⟩
    exact ⟨⟨hloaded, hempty, hdot⟩, Ne.symm hne, hrecorded⟩
  · rintro ⟨himported, hne, hrecorded⟩
    exact ⟨hrecorded, ⟨Ne.symm hne, himported.nonempty, himported.ne_dot⟩, himported.loaded⟩

theorem mem_packages_iff : path ∈ (ofCatalog c).packages ↔ c.Holds path := by
  classical
  rw [packages, Table.mem_keys_iff, find?_adjacency]
  split <;> simp [*]

theorem containsEdge_ofCatalog_iff :
    (ofCatalog c).containsEdge importer imported = true ↔ c.Imports importer imported := by
  classical
  rw [containsEdge_iff, find?_adjacency]
  constructor
  · rintro ⟨set, hfound, hcontains⟩
    obtain ⟨himporter, hset⟩ := Option.ite_none_right_eq_some.1 hfound
    cases hset
    obtain ⟨himported, hne, hrecorded⟩ := contains_importedBy_iff.1 hcontains
    exact ⟨himporter, himported, hne, hrecorded⟩
  · intro h
    exact ⟨_, if_pos h.source, contains_importedBy_iff.2 ⟨h.target, h.distinct, h.recorded⟩⟩

theorem mem_packages_of_mem_edges (h : (importer, imported) ∈ (ofCatalog c).edges) :
    importer ∈ (ofCatalog c).packages ∧ imported ∈ (ofCatalog c).packages := by
  have himports : c.Imports importer imported := containsEdge_ofCatalog_iff.1 (mem_edges_iff.1 h)
  exact ⟨mem_packages_iff.2 himports.source, mem_packages_iff.2 himports.target⟩

/-- However the graph is read, it is the import relation of the catalog. -/
structure Shows (g : ImportGraph) (c : Catalog) : Prop where
  containsEdge_iff : ∀ a b, g.containsEdge a b = true ↔ c.Imports a b
  ascending_packages : g.packages.Pairwise (· < ·)
  mem_packages_iff : ∀ a, a ∈ g.packages ↔ c.Holds a
  ascending_edges : g.edges.Pairwise (Prod.Lex (· < ·) (· < ·))
  mem_edges_iff : ∀ a b, (a, b) ∈ g.edges ↔ g.containsEdge a b = true
  ascending_importsOf : ∀ a, (g.importsOf a).Pairwise (· < ·)
  mem_importsOf_iff : ∀ a b, b ∈ g.importsOf a ↔ g.containsEdge a b = true
  packageCount_eq : g.packageCount = g.packages.length
  edgeCount_eq : g.edgeCount = g.edges.length
  ends_mem_packages : ∀ a b, (a, b) ∈ g.edges → a ∈ g.packages ∧ b ∈ g.packages

theorem ofCatalog_shows_imports (c : Catalog) : (ofCatalog c).Shows c where
  containsEdge_iff _ _ := containsEdge_ofCatalog_iff
  ascending_packages := (ofCatalog c).adjacency.pairwise_keys
  mem_packages_iff _ := mem_packages_iff
  ascending_edges := pairwise_edges _
  mem_edges_iff _ _ := mem_edges_iff
  ascending_importsOf := pairwise_importsOf _
  mem_importsOf_iff _ _ := mem_importsOf_iff
  packageCount_eq := (List.length_map _).symm
  edgeCount_eq := edgeCount_eq _
  ends_mem_packages a b hedge := by
    have himports : c.Imports a b := containsEdge_ofCatalog_iff.1 (mem_edges_iff.1 hedge)
    exact ⟨mem_packages_iff.2 himports.source, mem_packages_iff.2 himports.target⟩

end ImportGraph

end GoUml
