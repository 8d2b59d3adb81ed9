import GoUml.Proofs.Contents
import GoUml.Proofs.Promotion

/-!
# The names a struct answers to

A struct answers to the methods of all structs it reaches through embedded fields, and to what their
embedded fields bring in besides structs. The search works through a queue, into which a struct is
taken as often as it is embedded but looked into only once. So the queue runs empty even where
structs embed each other, and since the levels of `Proofs.Promotion` miss nothing that is embedded
at some depth, no name is missed and none is made up.
-/

namespace GoUml

def Entity.promoted? : Entity → Option Catalog.Promoted
  | .struct s => some (.struct s)
  | .interface i => some (.interface i)
  | .defined d => some (.methods d.methods)
  | .typeAlias _ => none

namespace Catalog

def fieldEntity? (c : Catalog) (f : Field) : Option Entity :=
  f.composed.package.bind fun package => c.find? package.path f.composed.goName

def EmbedsStruct (c : Catalog) (s t : Struct) : Prop :=
  ∃ f ∈ s.embeddedFields, c.fieldEntity? f = some (.struct t)

/-- The struct itself and, from any struct that is reached, the structs it embeds. -/
def ReachesStruct (c : Catalog) : Struct → Struct → Prop := Relation.ReflTransGen c.EmbedsStruct

/-- The struct declares a method of this name, or an embedded field of it brings one in that is not
the method of an embedded struct. -/
inductive AnswersTo (c : Catalog) (t : Struct) (name : String) : Prop
  | own {m : Function} (hm : m ∈ t.methods) (hname : m.name = name) : AnswersTo c t name
  | error {f : Field} (hf : f ∈ t.embeddedFields) (herror : f.isError = true)
      (hname : name = "Error") : AnswersTo c t name
  | defined {f : Field} {d : DefinedType} {m : Function} (hf : f ∈ t.embeddedFields)
      (hd : c.fieldEntity? f = some (.defined d)) (hm : m ∈ d.methods) (hname : m.name = name) :
      AnswersTo c t name
  | interface {f : Field} {i : Interface} {required : MethodSet} (hf : f ∈ t.embeddedFields)
      (hi : c.fieldEntity? f = some (.interface i)) (hrequired : c.requiredMethods? i = some required)
      (hname : (required.find? name).isSome = true) : AnswersTo c t name

/-- Every interface that is embedded in a struct reached from this one can be collected. -/
def Collectible (c : Catalog) (s : Struct) : Prop :=
  ∀ t, c.ReachesStruct s t → ∀ f ∈ t.embeddedFields, ∀ i,
    c.fieldEntity? f = some (.interface i) → (c.requiredMethods? i).isSome = true

/-- Working through the queue of a state, from its front on and with no bound on the number of
steps, ends with the given methods. -/
inductive WorksThrough (c : Catalog) : Promotion → MethodSet → Prop
  | done {p : Promotion} (hqueue : p.deeper = []) : WorksThrough c p p.methods
  | take {p : Promotion} {item : Promoted} {rest : List Promoted} {found : MethodSet}
      (hqueue : p.deeper = item :: rest)
      (more : WorksThrough c (c.promoteOne { p with deeper := rest } item) found) :
      WorksThrough c p found

variable {c : Catalog}

theorem promoteField_behind (c : Catalog) (waiting : List Promoted) (p : Promotion) (f : Field) :
    c.promoteField { p with deeper := waiting ++ p.deeper } f =
      { c.promoteField p f with deeper := waiting ++ (c.promoteField p f).deeper } := by
  rw [promoteField, promoteField]
  cases f.composed.package with
  | none => dsimp only; split <;> rfl
  | some package => simp

theorem foldl_promoteField_behind (c : Catalog) (waiting : List Promoted) (fields : List Field)
    (p : Promotion) :
    fields.foldl c.promoteField { p with deeper := waiting ++ p.deeper } =
      { fields.foldl c.promoteField p with
        deeper := waiting ++ (fields.foldl c.promoteField p).deeper } := by
  induction fields generalizing p with
  | nil => rfl
  | cons f rest ih => rw [List.foldl_cons, List.foldl_cons, promoteField_behind, ih]

/-- What an item brings is put behind what waits already. -/
theorem promoteOne_behind (c : Catalog) (waiting : List Promoted) (p : Promotion)
    (item : Promoted) :
    c.promoteOne { p with deeper := waiting ++ p.deeper } item =
      { c.promoteOne p item with deeper := waiting ++ (c.promoteOne p item).deeper } := by
  cases item with
  | methods fs => rfl
  | interface i => rfl
  | struct s =>
    rw [promoteOne, promoteOne]
    dsimp only
    split
    · rfl
    · exact foldl_promoteField_behind c waiting s.embeddedFields
        { p with methods := p.methods.addAll s.methods, visited := s.entityKey :: p.visited }

/-- A level is worked through item by item while what it brings waits behind it. -/
theorem worksThrough_level {items : List Promoted} {p : Promotion} {found : MethodSet}
    (h : c.WorksThrough (items.foldl c.promoteOne p) found) :
    c.WorksThrough { p with deeper := items ++ p.deeper } found := by
  induction items generalizing p with
  | nil => exact h
  | cons item rest ih =>
    have hbehind := ih h
    rw [← promoteOne_behind c rest p item] at hbehind
    exact .take (List.cons_append ..) hbehind

theorem worksThrough_of_level {s : Struct} {depth : Nat} {found : MethodSet}
    (h : c.WorksThrough (c.level s depth) found) : c.WorksThrough (c.level s 0) found := by
  induction depth with
  | zero => exact h
  | succ depth ih =>
    have hlevel := worksThrough_level h
    rw [List.append_nil] at hlevel
    exact ih hlevel

/-- The queue that the struct alone stands in runs empty, and what was found then are the methods of
the struct. -/
theorem worksThrough_methodSet (hfiled : c.Filed) {s : Struct} (hs : c.Loaded s) :
    c.WorksThrough ⟨Table.empty, [], [.struct s]⟩ (c.methodSet s) := by
  obtain ⟨depth, hmethods, hnil⟩ := exists_methodSet_eq_level hfiled hs
  rw [hmethods]
  exact worksThrough_of_level (.done hnil)

/-! ### Levels and reachable structs -/

section Reached

variable {s t : Struct} {f : Field} {name : String}

theorem fieldItem?_eq (c : Catalog) (f : Field) :
    c.fieldItem? f = (c.fieldEntity? f).bind Entity.promoted? := by
  rw [fieldItem?, fieldEntity?]
  cases f.composed.package with
  | none => rfl
  | some package =>
    dsimp only [Option.bind_some]
    rw [promoted?]
    cases c.find? package.path f.composed.goName with
    | none => rfl
    | some e => cases e <;> rfl

theorem mem_brings_iff {item : Promoted} :
    item ∈ c.brings (.struct t) ↔
      ∃ f ∈ t.embeddedFields, ∃ e, c.fieldEntity? f = some e ∧ e.promoted? = some item := by
  simp only [brings, List.mem_filterMap, fieldItem?_eq, Option.bind_eq_some_iff]

theorem struct_mem_brings_iff {u : Struct} :
    .struct u ∈ c.brings (.struct t) ↔ c.EmbedsStruct t u := by
  rw [mem_brings_iff, EmbedsStruct]
  constructor
  · rintro ⟨f, hf, e, he, hitem⟩
    cases e with
    | struct v => cases hitem; exact ⟨f, hf, he⟩
    | interface i => cases hitem
    | defined d => cases hitem
    | typeAlias a => cases hitem
  · rintro ⟨f, hf, he⟩
    exact ⟨f, hf, .struct u, he, rfl⟩

/-- Every item of a level is the struct itself or is brought in by a struct it reaches. -/
theorem brought_of_mem_layer {item : Promoted} {depth : Nat} (h : item ∈ c.layer s depth) :
    item = .struct s ∨ ∃ t, c.ReachesStruct s t ∧ item ∈ c.brings (.struct t) := by
  induction depth generalizing item with
  | zero => exact .inl (List.mem_singleton.1 h)
  | succ depth ih =>
    rw [layer, List.mem_flatMap] at h
    obtain ⟨above, habove, hitem⟩ := h
    cases above with
    | interface i => cases hitem
    | methods fs => cases hitem
    | struct t =>
      refine .inr ⟨t, ?_, hitem⟩
      rcases ih habove with hself | ⟨u, hreaches, hbrings⟩
      · cases hself
        exact .refl
      · exact hreaches.tail (struct_mem_brings_iff.1 hbrings)

theorem exists_mem_layer_of_reaches (h : c.ReachesStruct s t) :
    ∃ depth, .struct t ∈ c.layer s depth := by
  induction h with
  | refl => exact ⟨0, List.mem_singleton.2 rfl⟩
  | tail _ hembeds ih =>
    obtain ⟨depth, hmem⟩ := ih
    exact ⟨depth + 1, List.mem_flatMap.2 ⟨_, hmem, struct_mem_brings_iff.2 hembeds⟩⟩

theorem isSome_find?_ofFunctions_iff {fs : List Function} :
    ((MethodSet.ofFunctions fs).find? name).isSome = true ↔ ∃ m ∈ fs, m.name = name := by
  rw [MethodSet.find?_ofFunctions, Option.isSome_map, List.find?_isSome]
  simp only [decide_eq_true_eq]

theorem isSome_find?_struct_ownMethods_iff :
    (t.ownMethods.find? name).isSome = true ↔
      (∃ m ∈ t.methods, m.name = name) ∨
        (∃ f ∈ t.embeddedFields, f.isError = true) ∧ name = "Error" := by
  rw [find?_struct_ownMethods, Option.isSome_or, Bool.or_eq_true, isSome_find?_ofFunctions_iff,
    ← List.any_eq_true]
  rw [Option.isSome_ite, eq_comm (a := name)]

/-- An interface that can be collected has the methods that it requires. -/
theorem find?_ownMethods_interface {i : Interface} {required : MethodSet}
    (h : c.requiredMethods? i = some required) :
    (c.ownMethods (.interface i)).find? name = required.find? name := by
  rw [requiredMethods?_eq] at h
  split at h
  · cases h
    rfl
  · cases h

/-- A name of an item that a struct brings in, other than a struct, is one the struct answers to. -/
theorem answersTo_of_brings {item : Promoted} (hcollectible : c.Collectible s)
    (hreaches : c.ReachesStruct s t) (hitem : item ∈ c.brings (.struct t))
    (hname : ((c.ownMethods item).find? name).isSome = true) :
    ∃ u, c.ReachesStruct s u ∧ c.AnswersTo u name := by
  obtain ⟨f, hf, e, he, hpromoted⟩ := mem_brings_iff.1 hitem
  cases e with
  | struct u =>
    cases hpromoted
    have hembedded : c.ReachesStruct s u := hreaches.tail ⟨f, hf, he⟩
    rcases isSome_find?_struct_ownMethods_iff.1 hname with ⟨m, hm, hm'⟩ | ⟨⟨g, hg, herror⟩, hname⟩
    · exact ⟨u, hembedded, .own hm hm'⟩
    · exact ⟨u, hembedded, .error hg herror hname⟩
  | interface i =>
    cases hpromoted
    obtain ⟨required, hrequired⟩ :=
      Option.isSome_iff_exists.1 (hcollectible t hreaches f hf i he)
    rw [find?_ownMethods_interface hrequired] at hname
    exact ⟨t, hreaches, .interface hf he hrequired hname⟩
  | defined d =>
    cases hpromoted
    obtain ⟨m, hm, hm'⟩ := isSome_find?_ofFunctions_iff.1 hname
    exact ⟨t, hreaches, .defined hf he hm hm'⟩
  | typeAlias a => cases hpromoted

/-- A struct that is reached gives each of its names to some item of a level. -/
theorem exists_item_of_answersTo (hreaches : c.ReachesStruct s t) (h : c.AnswersTo t name) :
    ∃ depth, ∃ item ∈ c.layer s depth, ((c.ownMethods item).find? name).isSome = true := by
  obtain ⟨depth, hmem⟩ := exists_mem_layer_of_reaches hreaches
  have hbrought : ∀ item ∈ c.brings (.struct t), item ∈ c.layer s (depth + 1) :=
    fun item hitem => List.mem_flatMap.2 ⟨_, hmem, hitem⟩
  cases h with
  | own hm hname =>
    exact ⟨depth, _, hmem, isSome_find?_struct_ownMethods_iff.2 (.inl ⟨_, hm, hname⟩)⟩
  | error hf herror hname =>
    exact ⟨depth, _, hmem, isSome_find?_struct_ownMethods_iff.2 (.inr ⟨⟨_, hf, herror⟩, hname⟩)⟩
  | @defined f d m hf hd hm hname =>
    refine ⟨depth + 1, .methods d.methods, hbrought _ ?_, ?_⟩
    · exact mem_brings_iff.2 ⟨f, hf, .defined d, hd, rfl⟩
    · exact isSome_find?_ofFunctions_iff.2 ⟨m, hm, hname⟩
  | @interface f i required hf hi hrequired hname =>
    refine ⟨depth + 1, .interface i, hbrought _ ?_, ?_⟩
    · exact mem_brings_iff.2 ⟨f, hf, .interface i, hi, rfl⟩
    · rw [find?_ownMethods_interface hrequired]
      exact hname

theorem isSome_find?_methodSet_iff (hfiled : c.Filed) (hs : c.Loaded s)
    (hcollectible : c.Collectible s) :
    ((c.methodSet s).find? name).isSome = true ↔ ∃ t, c.ReachesStruct s t ∧ c.AnswersTo t name := by
  constructor
  · intro hname
    obtain ⟨key, hkey⟩ := Option.isSome_iff_exists.1 hname
    obtain ⟨depth, ⟨item, hitem, hown⟩, -⟩ := exists_of_find?_methodSet hfiled hs hkey
    have hsome : ((c.ownMethods item).find? name).isSome = true := by rw [hown]; rfl
    rcases brought_of_mem_layer hitem with rfl | ⟨t, hreaches, hbrings⟩
    · rcases isSome_find?_struct_ownMethods_iff.1 hsome with ⟨m, hm, hm'⟩ | ⟨⟨f, hf, herror⟩, hname⟩
      · exact ⟨s, .refl, .own hm hm'⟩
      · exact ⟨s, .refl, .error hf herror hname⟩
    · exact answersTo_of_brings hcollectible hreaches hbrings hsome
  · rintro ⟨t, hreaches, hanswers⟩
    obtain ⟨depth, item, hitem, hname⟩ := exists_item_of_answersTo hreaches hanswers
    exact isSome_find?_methodSet hfiled hs hitem hname

end Reached

/-- The names in the method set of a struct of a catalog are those that the structs it reaches
through embedding answer to, provided that the interfaces embedded on the way can be collected. The
search for them comes to an end, also where structs embed each other. -/
theorem methodSet_names (packages : List Package) {s : Struct}
    (hs : s ∈ (ofPackages packages).structs.all) :
    ((ofPackages packages).Collectible s → ∀ name,
      (((ofPackages packages).methodSet s).find? name).isSome = true ↔
        ∃ t, (ofPackages packages).ReachesStruct s t ∧ (ofPackages packages).AnswersTo t name) ∧
      (ofPackages packages).WorksThrough ⟨Table.empty, [], [.struct s]⟩
        ((ofPackages packages).methodSet s) := by
  have hfiled := (reachable_ofPackages packages).filed
  obtain ⟨path, name, hfound⟩ := PackageTable.mem_all_iff.1 hs
  have hloaded := loaded_of_findStruct? hfiled hfound
  exact ⟨fun hcollectible name => isSome_find?_methodSet_iff hfiled hloaded hcollectible,
    worksThrough_methodSet hfiled hloaded⟩

/-- Two structs that embed each other, and through them a defined type, an interface and the
predeclared `error`. -/
def twins : Package where
  name := "twins"
  path := "example.com/twins"
  imports := []
  declarations :=
    [⟨"Left", false, .struct [field (named "Right"), field (named "Count")]⟩,
     ⟨"Right", false, .struct [field (.pointer (named "Left")), field (named "Closer"),
       field (.basic "error")]⟩,
     ⟨"Count", false, .basic "int"⟩,
     ⟨"Closer", false, .interface [⟨"Close", ⟨[], []⟩⟩] []⟩]
  methods := [⟨"Left", true, "Turn", ⟨[], []⟩⟩, ⟨"Count", false, "Add", ⟨[], []⟩⟩]
where
  named (name : String) : GoType := .named name (some ⟨"twins", "example.com/twins"⟩)
  field (type : GoType) : StructField := ⟨"", type, true⟩

theorem methodSet_names_twins :
    ∃ s ∈ (ofPackages [twins]).structs.all, s.name = "Right" ∧
      (ofPackages [twins]).Collectible s ∧
      (∀ name ∈ ["Add", "Close", "Error", "Turn"],
        ∃ t, (ofPackages [twins]).ReachesStruct s t ∧ (ofPackages [twins]).AnswersTo t name) ∧
      (ofPackages [twins]).WorksThrough ⟨Table.empty, [], [.struct s]⟩
        ((ofPackages [twins]).methodSet s) := by
  have hright : ((ofPackages [twins]).structs.all.any fun s => s.name == "Right" &&
      ["Add", "Close", "Error", "Turn"].all fun name =>
        (((ofPackages [twins]).methodSet s).find? name).isSome) = true := by
    decide +kernel
  have hinterfaces : ((ofPackages [twins]).interfaces.all.all fun i =>
      ((ofPackages [twins]).requiredMethods? i).isSome) = true := by
    decide +kernel
  obtain ⟨s, hs, hright⟩ := List.any_eq_true.1 hright
  obtain ⟨hname, hnames⟩ := Bool.and_eq_true_iff.1 hright
  have hcollectible : (ofPackages [twins]).Collectible s := by
    intro t _ f _ i hi
    obtain ⟨package, -, hfind⟩ := Option.bind_eq_some_iff.1 hi
    have hpromoted :
        (ofPackages [twins]).promoted? package.path f.composed.goName = some (.interface i) := by
      rw [promoted?, hfind]
    exact List.all_eq_true.1 hinterfaces i
      (PackageTable.mem_all_iff.2 ⟨_, _, findInterface?_of_promoted? hpromoted⟩)
  obtain ⟨hiff, hworks⟩ := methodSet_names [twins] hs
  exact ⟨s, hs, beq_iff_eq.1 hname, hcollectible,
    fun name hmem => (hiff hcollectible name).1 (List.all_eq_true.1 hnames name hmem), hworks⟩

end Catalog

end GoUml
