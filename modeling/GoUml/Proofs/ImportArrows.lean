import GoUml.Diagram.Package
import GoUml.Proofs.Anchoring
import GoUml.Proofs.ImportGraph
import GoUml.Proofs.Splitting

/-!
# Import arrows and the namespaces they name

The namespaces of a package diagram and the ends of its arrows are both made from the segments of a
path: the namespaces by nesting them, the ends by joining them with dots. Dots inside a segment are
dropped on both sides, and with them the segments that have nothing else. So the two agree for every
path that keeps a name. A path of slashes and dots alone keeps none, yet most such paths are loaded
and imported like others: no namespace stands for them, and their arrows end at the empty name.
-/

namespace GoUml

namespace Diagram

open Text

/-- Something is left of the path when slashes and dots are taken away. -/
def IsNameable (path : String) : Prop := ∃ c ∈ path.toList, c ≠ '/' ∧ c ≠ '.'

-- Named, so that the characters of the path are tried and not all there are.
instance : DecidablePred IsNameable := fun path =>
  List.decidableBEx (fun c => c ≠ '/' ∧ c ≠ '.') path.toList

/-- The element is a chain of namespaces, each the only one inside the one before. -/
inductive Chain : Element → List String → Prop
  | innermost (name : String) : Chain (.namespaceBlock name []) [name]
  | outer (name : String) {inner : Element} {names : List String} (h : Chain inner names) :
      Chain (.namespaceBlock name [inner]) (name :: names)

/-- The names along a chain of namespaces among the elements, joined with dots, are `name`. -/
def Attaches (elements : List Element) (name : String) : Prop :=
  ∃ e ∈ elements, ∃ names, Chain e names ∧ joinWith "." names = name

variable {path : String}

theorem segments_eq_nil_iff : segments path = [] ↔ ¬IsNameable path := by
  have hpiece (piece : List Char) :
      String.ofList ((String.ofList piece).toList.filter (· != '.')) = "" ↔
        ∀ c ∈ piece, c = '.' := by
    rw [String.toList_ofList, ← String.toList_inj, String.toList_ofList]
    simp
  have hkept : (∀ c ∈ path.toList.filter (· ≠ '/'), c = '.') ↔ ¬IsNameable path := by
    simp [IsNameable]
  rw [← hkept, ← flatten_splitList, segments, split]
  simp only [List.filter_eq_nil_iff, List.mem_map, List.mem_flatten, bne_iff_ne, ne_eq,
    Decidable.not_not]
  constructor
  · rintro h c ⟨piece, hmem, hc⟩
    exact (hpiece piece).1 (h _ ⟨_, ⟨piece, hmem, rfl⟩, rfl⟩) c hc
  · rintro h _ ⟨_, ⟨piece, hmem, rfl⟩, rfl⟩
    exact (hpiece piece).2 fun c hc => h c ⟨piece, hmem, hc⟩

theorem ne_empty_of_mem_segments {segment : String} (h : segment ∈ segments path) :
    segment ≠ "" := by
  simpa using (List.mem_filter.1 h).2

theorem dotted_eq_empty_iff : dotted path = "" ↔ ¬IsNameable path := by
  rw [← segments_eq_nil_iff]
  constructor
  · intro h
    by_contra hne
    exact joinWith_ne_empty hne (fun _ => ne_empty_of_mem_segments) h
  · intro h
    rw [dotted, h]
    rfl

theorem chain?_eq_some_iff {names : List String} {e : Element} :
    chain? names = some e ↔ Chain e names := by
  induction names generalizing e with
  | nil => exact ⟨nofun, nofun⟩
  | cons name rest ih =>
    rw [chain?, Option.some.injEq]
    constructor
    · rintro rfl
      cases rest with
      | nil => exact .innermost name
      | cons next rest => exact .outer name (ih.1 rfl)
    · intro h
      cases h with
      | innermost => rfl
      | outer _ hinner => rw [ih.2 hinner]; rfl

theorem attaches_namespaceChain?_iff :
    Attaches (namespaceChain? path).toList (dotted path) ↔ IsNameable path := by
  constructor
  · rintro ⟨e, he, -⟩
    by_contra hpath
    rw [namespaceChain?, segments_eq_nil_iff.2 hpath] at he
    cases he
  · intro hpath
    cases hsegments : segments path with
    | nil => exact absurd hpath (segments_eq_nil_iff.1 hsegments)
    | cons name rest =>
      have hchain : namespaceChain? path = some (.namespaceBlock name (chain? rest).toList) := by
        rw [namespaceChain?, hsegments, chain?]
      exact ⟨_, Option.mem_toList.2 hchain, _, chain?_eq_some_iff.1 hchain, rfl⟩

theorem Chain.ne_nil {e : Element} {names : List String} (h : Chain e names) : names ≠ [] := by
  cases h <;> exact List.cons_ne_nil _ _

theorem Chain.unique {e : Element} {names others : List String} (h : Chain e names)
    (h' : Chain e others) : names = others := by
  induction h generalizing others with
  | innermost => cases h'; rfl
  | outer name _ ih =>
    cases h' with
    | outer _ hinner => rw [ih hinner]

theorem Chain.isBlock {e : Element} {names : List String} (h : Chain e names) :
    e.isBlock = true := by
  cases h <;> rfl

theorem Chain.relations_eq_nil {e : Element} {names : List String} (h : Chain e names) :
    e.relations = [] := by
  induction h with
  | innermost => simp [Element.relations, relationsIn]
  | outer name _ ih => simp [Element.relations, relationsIn, ih]

theorem attaches_blocks_iff {elements : List Element} {name : String} :
    Attaches (blocks elements) name ↔ Attaches elements name := by
  constructor
  · rintro ⟨e, he, hattached⟩
    exact ⟨e, List.mem_of_mem_filter he, hattached⟩
  · rintro ⟨e, he, names, hchain, hnames⟩
    exact ⟨e, List.mem_filter.2 ⟨he, hchain.isBlock⟩, names, hchain, hnames⟩

/-! ### What stands in front of an arrow -/

variable {o : RenderingOptions} {g : ImportGraph}

def namespaceElements (g : ImportGraph) : List Element :=
  g.packages.flatMap fun path => (path :: g.importsOf path).filterMap namespaceChain?

theorem exists_chain_of_mem_namespaceElements {e : Element} (h : e ∈ namespaceElements g) :
    ∃ path, Chain e (segments path) := by
  obtain ⟨path, -, he⟩ := List.mem_flatMap.1 h
  obtain ⟨path, -, hchain⟩ := List.mem_filterMap.1 he
  exact ⟨path, chain?_eq_some_iff.1 hchain⟩

theorem blocks_namespaceElements (g : ImportGraph) :
    blocks (namespaceElements g) = namespaceElements g := by
  rw [blocks, List.filter_eq_self]
  intro e he
  obtain ⟨path, hchain⟩ := exists_chain_of_mem_namespaceElements he
  exact hchain.isBlock

theorem relationsIn_namespaceElements (g : ImportGraph) :
    relationsIn (namespaceElements g) = [] := by
  rw [relationsIn_eq_flatMap, List.flatMap_eq_nil_iff]
  intro e he
  obtain ⟨path, hchain⟩ := exists_chain_of_mem_namespaceElements he
  exact hchain.relations_eq_nil

theorem packageElements_eq (o : RenderingOptions) (g : ImportGraph) :
    packageElements o g = (header o ++ namespaceElements g) ++
      (g.edges.map fun edge => importRelation edge.1 edge.2).map .relation := by
  rw [packageElements, List.map_map]
  rfl

/-- All namespaces of the diagram stand in front of any of its arrows. -/
theorem blocks_of_split {earlier later : List Element} {r : Relation}
    (h : packageElements o g = earlier ++ .relation r :: later) :
    blocks earlier = namespaceElements g := by
  have hfront : blocks (header o ++ namespaceElements g) = namespaceElements g := by
    rw [blocks_append, blocks_header, blocks_namespaceElements, List.nil_append]
  have hnone : relationsIn (header o ++ namespaceElements g) = [] := by
    rw [relationsIn_append, relationsIn_header, relationsIn_namespaceElements, List.nil_append]
  rw [packageElements_eq, List.append_eq_append_iff] at h
  rcases h with ⟨arrows, rfl, harrows⟩ | ⟨rest, hsplit, hrest⟩
  · have hblocks : blocks (arrows ++ .relation r :: later) = [] := by
      rw [← harrows, blocks_relations]
    rw [blocks_append, List.append_eq_nil_iff] at hblocks
    rw [blocks_append, hfront, hblocks.1, List.append_nil]
  · cases rest with
    | nil => rw [← hfront, hsplit, List.append_nil]
    | cons e rest =>
      -- The arrow itself would have to stand among the namespaces.
      obtain ⟨rfl, -⟩ := List.cons.inj hrest
      rw [hsplit, relationsIn_append, relationsIn, Element.relations] at hnone
      simp at hnone

theorem attaches_namespaceElements_iff (hpath : path ∈ g.packages) :
    Attaches (namespaceElements g) (dotted path) ↔ IsNameable path := by
  constructor
  · rintro ⟨e, he, names, hchain, hnames⟩
    obtain ⟨other, hother⟩ := exists_chain_of_mem_namespaceElements he
    obtain rfl := hchain.unique hother
    have hdotted : dotted other = dotted path := hnames
    by_contra hpath
    rw [dotted_eq_empty_iff.2 hpath, dotted_eq_empty_iff, ← segments_eq_nil_iff] at hdotted
    exact hchain.ne_nil hdotted
  · intro h
    obtain ⟨e, he, hattached⟩ := attaches_namespaceChain?_iff.2 h
    refine ⟨e, List.mem_flatMap.2 ⟨path, hpath, ?_⟩, hattached⟩
    exact List.mem_filterMap.2 ⟨path, List.mem_cons_self, Option.mem_toList.1 he⟩

theorem attaches_of_split {earlier later : List Element} {r : Relation}
    (h : packageElements o g = earlier ++ .relation r :: later) (hpath : path ∈ g.packages) :
    Attaches earlier (dotted path) ↔ IsNameable path := by
  rw [← attaches_blocks_iff, blocks_of_split h, attaches_namespaceElements_iff hpath]

theorem relation_mem_packageElements (o : RenderingOptions) {importer imported : String}
    (h : (importer, imported) ∈ g.edges) :
    .relation (importRelation importer imported) ∈ packageElements o g := by
  rw [packageElements_eq, List.map_map]
  exact List.mem_append_right _ (List.mem_map.2 ⟨_, h, rfl⟩)

/-- Every edge of the import graph has its arrow in the package diagram, behind all namespaces. An
end of the arrow is the name of a chain of them exactly when the path at this end can be named, and
then it is the name of the chain of this path. -/
theorem importArrow_attaches_iff (o : RenderingOptions) {c : Catalog} {importer imported : String}
    (h : (importer, imported) ∈ (ImportGraph.ofCatalog c).edges) :
    .relation (importRelation importer imported) ∈ packageElements o (.ofCatalog c) ∧
      (∀ earlier later, packageElements o (.ofCatalog c) =
          earlier ++ .relation (importRelation importer imported) :: later →
        (Attaches earlier (importRelation importer imported).source ↔ IsNameable imported) ∧
        (Attaches earlier (importRelation importer imported).target ↔ IsNameable importer)) ∧
      ∀ path, Attaches (namespaceChain? path).toList (dotted path) ↔ IsNameable path := by
  obtain ⟨himporter, himported⟩ := ImportGraph.mem_packages_of_mem_edges h
  refine ⟨relation_mem_packageElements o h, fun earlier later hsplit => ?_,
    fun path => attaches_namespaceChain?_iff⟩
  exact ⟨attaches_of_split hsplit himported, attaches_of_split hsplit himporter⟩

/-- A package that imports two others, one of them loaded from the path of two dots. -/
def crossroads : List Package :=
  [{ name := "app", path := "example.com/app",
     imports := [⟨"..", "shared", none⟩, ⟨"example.com/app/store", "store", none⟩],
     declarations := [], methods := [] },
   { name := "shared", path := "..", imports := [], declarations := [], methods := [] },
   { name := "store", path := "example.com/app/store", imports := [], declarations := [],
     methods := [] }]

theorem importArrow_attaches_iff_crossroads :
    ("example.com/app", "example.com/app/store") ∈
        (ImportGraph.ofCatalog (Catalog.ofPackages crossroads)).edges ∧
      IsNameable "example.com/app/store" ∧
      ∃ earlier later,
        packageElements {} (ImportGraph.ofCatalog (Catalog.ofPackages crossroads)) =
          earlier ++ .relation (importRelation "example.com/app" "example.com/app/store") :: later ∧
        Attaches earlier "examplecom.app.store" := by
  have hedge : ("example.com/app", "example.com/app/store") ∈
      (ImportGraph.ofCatalog (Catalog.ofPackages crossroads)).edges := by
    decide +kernel
  have hnameable : IsNameable "example.com/app/store" := by decide
  have hsource : (importRelation "example.com/app" "example.com/app/store").source =
      "examplecom.app.store" := by
    decide
  obtain ⟨harrow, hends, -⟩ := importArrow_attaches_iff {} hedge
  obtain ⟨earlier, later, hsplit⟩ := List.append_of_mem harrow
  refine ⟨hedge, hnameable, earlier, later, hsplit, ?_⟩
  rw [← hsource]
  exact (hends earlier later hsplit).1.2 hnameable

/-- The path of two dots is loaded and imported, but its arrow starts at no namespace. -/
theorem arrow_of_dots_attaches_nowhere :
    ("example.com/app", "..") ∈ (ImportGraph.ofCatalog (Catalog.ofPackages crossroads)).edges ∧
      ∃ earlier later,
        packageElements {} (ImportGraph.ofCatalog (Catalog.ofPackages crossroads)) =
          earlier ++ .relation (importRelation "example.com/app" "..") :: later ∧
        (importRelation "example.com/app" "..").text = "\"\" <-- \"examplecom.app\"" ∧
        ¬Attaches earlier (importRelation "example.com/app" "..").source := by
  have hedge : ("example.com/app", "..") ∈
      (ImportGraph.ofCatalog (Catalog.ofPackages crossroads)).edges := by
    decide +kernel
  have himported := (ImportGraph.mem_packages_of_mem_edges hedge).2
  obtain ⟨earlier, later, hsplit⟩ := List.append_of_mem (relation_mem_packageElements {} hedge)
  refine ⟨hedge, earlier, later, hsplit, by decide, ?_⟩
  exact fun h => absurd ((attaches_of_split hsplit himported).1 h) (by decide)

end Diagram

end GoUml
