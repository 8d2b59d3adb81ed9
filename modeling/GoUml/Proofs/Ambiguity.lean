import GoUml.Proofs.Promotion

/-!
# Implementation without ambiguity

Where several declarations compete for a name, the searches keep the first one they meet. Here it is
said when the first one does not matter: all declarations of a name that an interface requires have
one key, and where a declaration with that key is among those of the name at the smallest depth at
which the struct has it, it has no rival there with another key. Then whether the struct implements
the interface can be said without any search.
-/

namespace GoUml

/-- The key of the first method of this name that the interface declares itself. -/
def Interface.declared? (i : Interface) (name : String) : Option String :=
  (MethodSet.ofFunctions i.methods).find? name

theorem Interface.asks_of_declared? {i : Interface} {name key : String}
    (h : i.declared? name = some key) : i.Asks name key := by
  rw [declared?] at h
  obtain ⟨m, hm, hname, hkey⟩ := MethodSet.exists_of_find?_ofFunctions h
  exact .inl ⟨m, hm, hname, hkey⟩

namespace Catalog

/-- The interface requires the method. What it declares itself comes before what the interfaces it
embeds ask for. -/
def Requires (c : Catalog) (i : Interface) (name key : String) : Prop :=
  i.declared? name = some key ∨
    i.declared? name = none ∧ ∃ j, c.Reaches i j ∧ j.Asks name key

/-- The interface reaches no type set and nothing that is not loaded. -/
def Whole (c : Catalog) (i : Interface) : Prop := ∀ j, c.Reaches i j → ¬ c.Blocked j

/-- The item has the method without those of the structs it embeds. A type set gives nothing. -/
def Gives (c : Catalog) : Promoted → String → String → Prop
  | .struct s, name, key => s.ownMethods.find? name = some key
  | .interface i, name, key => i.typeSet = false ∧ c.Requires i name key
  | .methods fs, name, key => (MethodSet.ofFunctions fs).find? name = some key

/-- No item at a smaller depth has a method of this name. -/
def Unshadowed (c : Catalog) (s : Struct) (depth : Nat) (name : String) : Prop :=
  ∀ e < depth, ∀ item ∈ c.layer s e, ∀ key, ¬ c.Gives item name key

/-- The method is promoted to the struct from the smallest depth that has its name. -/
def Promotes (c : Catalog) (s : Struct) (name key : String) : Prop :=
  ∃ depth, c.Unshadowed s depth name ∧ ∃ item ∈ c.layer s depth, c.Gives item name key

/-- At the smallest depth that has the name, nothing competes with this key, and the interfaces that
do not declare the name themselves can be collected to the end. -/
structure Uncontested (c : Catalog) (s : Struct) (name key : String) : Prop where
  key_eq : ∀ key', c.Promotes s name key → c.Promotes s name key' → key' = key
  whole : ∀ depth j key', c.Unshadowed s depth name → .interface j ∈ c.layer s depth →
    c.Gives (.interface j) name key' → j.declared? name = none → c.Whole j

/-- No choice between declarations decides whether the struct implements the interface. -/
structure Unambiguous (c : Catalog) (s : Struct) (i : Interface) : Prop where
  required : ∀ name key key', c.Requires i name key → c.Requires i name key' → key = key'
  promoted : ∀ name key, c.Requires i name key → c.Uncontested s name key

variable {c : Catalog} {s : Struct} {i : Interface} {name key : String}

theorem mem_all_of_reaches {j : Interface} (hi : i ∈ c.interfaces.all) (h : c.Reaches i j) :
    j ∈ c.interfaces.all := by
  cases h with
  | refl => exact hi
  | tail _ hembeds =>
    obtain ⟨e, -, hresolves⟩ := hembeds
    exact hresolves.mem_all

theorem asks_of_requires (h : c.Requires i name key) : ∃ j, c.Reaches i j ∧ j.Asks name key := by
  rcases h with hdeclared | ⟨-, hasks⟩
  · exact ⟨i, .refl, Interface.asks_of_declared? hdeclared⟩
  · exact hasks

theorem find?_of_declared? (htypeSet : i.typeSet = false) (h : i.declared? name = some key) :
    (c.require c.requireFuel i noRequirements).2.methods.find? name = some key := by
  have hsearch := c.collectsFrom_require i noRequirements
  generalize c.require c.requireFuel i noRequirements = out at hsearch
  cases hsearch with
  | typeSet hset =>
    rw [htypeSet] at hset
    cases hset
  | visited _ hvisited => cases hvisited
  | entered _ _ below => exact below.extends.methods name key h

theorem typeSet_of_find?
    (h : (c.require c.requireFuel i noRequirements).2.methods.find? name = some key) :
    i.typeSet = false := by
  have hsearch := c.collectsFrom_require i noRequirements
  generalize c.require c.requireFuel i noRequirements = out at hsearch h
  cases hsearch with
  | typeSet _ => cases h
  | visited htypeSet _ => exact htypeSet
  | entered htypeSet _ _ => exact htypeSet

theorem requires_of_find?
    (h : (c.require c.requireFuel i noRequirements).2.methods.find? name = some key) :
    c.Requires i name key := by
  cases hdeclared : i.declared? name with
  | none => exact .inr ⟨hdeclared, asks_of_collectsFrom (c.collectsFrom_require i noRequirements) h⟩
  | some own =>
    have hown := find?_of_declared? (c := c) (typeSet_of_find? h) hdeclared
    rw [h] at hown
    exact .inl (hdeclared.trans hown.symm)

theorem require_of_whole (h : c.Whole i) :
    (c.require c.requireFuel i noRequirements).1 = true := by
  rw [← Bool.not_eq_false]
  intro hfailed
  obtain ⟨j, hreaches, hblocked⟩ :=
    blocked_of_collectsFrom (c.collectsFrom_require i noRequirements) hfailed
  exact h j hreaches hblocked

theorem isSome_find?_require (hfiled : c.Filed) (hi : i ∈ c.interfaces.all) (h : c.Requires i name key)
    (hok : (c.require c.requireFuel i noRequirements).1 = true) :
    ((c.require c.requireFuel i noRequirements).2.methods.find? name).isSome = true := by
  obtain ⟨j, hreaches, hasks⟩ := asks_of_requires h
  have hcovered := covered_of_collectsFrom hfiled hi (c.collectsFrom_require i noRequirements) hok
    hreaches
  exact hcovered.2.isSome_of_asks hasks

theorem whole_of_require (hfiled : c.Filed) (hi : i ∈ c.interfaces.all)
    (hok : (c.require c.requireFuel i noRequirements).1 = true) : c.Whole i := by
  intro j hreaches
  obtain ⟨htypeSet, hcovered⟩ :=
    covered_of_collectsFrom hfiled hi (c.collectsFrom_require i noRequirements) hok hreaches
  exact hcovered.not_blocked htypeSet

/-! ### What structs promote -/

theorem gives_of_find?_ownMethods {item : Promoted}
    (h : (c.ownMethods item).find? name = some key) : c.Gives item name key := by
  cases item with
  | struct t => exact h
  | interface j => exact ⟨typeSet_of_find? h, requires_of_find? h⟩
  | methods fs => exact h

theorem isSome_find?_ownMethods (hfiled : c.Filed) (h : c.Uncontested s name key) {depth : Nat}
    (hdepth : c.Unshadowed s depth name) {item : Promoted} (hitem : item ∈ c.layer s depth)
    {key' : String} (hgives : c.Gives item name key') :
    ((c.ownMethods item).find? name).isSome = true := by
  cases item with
  | struct t => exact Option.isSome_of_mem hgives
  | methods fs => exact Option.isSome_of_mem hgives
  | interface j =>
    cases hdeclared : j.declared? name with
    | some own => exact Option.isSome_of_mem (find?_of_declared? hgives.1 hdeclared)
    | none =>
      have hwhole := h.whole depth j key' hdepth hitem hgives hdeclared
      exact isSome_find?_require hfiled (mem_interfaces_of_mem_layer hitem) hgives.2
        (require_of_whole hwhole)

/-- The shallowest item that gives the name has it in its own methods, so nothing shallower than the
first own method gives the name. -/
theorem unshadowed_of_find?_none (hfiled : c.Filed) (h : c.Uncontested s name key) {depth : Nat}
    (hnone : ∀ e < depth, ∀ item ∈ c.layer s e, (c.ownMethods item).find? name = none) :
    c.Unshadowed s depth name := by
  intro e
  induction e using Nat.strong_induction_on with
  | _ e ih =>
    intro he item hitem key' hgives
    have hshallowest : c.Unshadowed s e name := fun e' he' => ih e' he' (by omega)
    have hsome := isSome_find?_ownMethods hfiled h hshallowest hitem hgives
    rw [hnone e he item hitem] at hsome
    cases hsome

theorem find?_methodSet_eq_some_iff (hfiled : c.Filed) (hs : c.Loaded s)
    (h : c.Uncontested s name key) :
    (c.methodSet s).find? name = some key ↔ c.Promotes s name key := by
  have hpromotes : ∀ key', (c.methodSet s).find? name = some key' → c.Promotes s name key' := by
    intro key' hfound
    obtain ⟨depth, ⟨item, hitem, hkey⟩, hnone⟩ := exists_of_find?_methodSet hfiled hs hfound
    exact ⟨depth, unshadowed_of_find?_none hfiled h hnone, item, hitem,
      gives_of_find?_ownMethods hkey⟩
  constructor
  · exact hpromotes key
  · intro hkey
    have hsome : ((c.methodSet s).find? name).isSome = true := by
      obtain ⟨depth, hdepth, item, hitem, hgives⟩ := hkey
      exact isSome_find?_methodSet hfiled hs hitem
        (isSome_find?_ownMethods hfiled h hdepth hitem hgives)
    obtain ⟨found, hfound⟩ := Option.isSome_iff_exists.1 hsome
    rw [hfound, h.key_eq found hkey (hpromotes found hfound)]

/-- Without ambiguity, a struct implements an interface that can be collected to the end when the
interface requires some method and the struct promotes every method that it requires. -/
theorem implements_iff_promotes (hfiled : c.Filed) (hs : c.Loaded s) (hi : i ∈ c.interfaces.all)
    (h : c.Whole i → c.Unambiguous s i) :
    c.implements s i = true ↔ c.Whole i ∧ (∃ name key, c.Requires i name key) ∧
      ∀ name key, c.Requires i name key → c.Promotes s name key := by
  rw [implements_iff, requiredMethods?_eq]
  constructor
  · rintro ⟨required, hrequired, hnonempty, hsatisfied⟩
    split at hrequired
    · next hok =>
      cases hrequired
      have hwhole := whole_of_require hfiled hi hok
      refine ⟨hwhole, ?_, fun name key hkey => ?_⟩
      · obtain ⟨name, key, hfound⟩ := Table.isEmpty_eq_false_iff.1 hnonempty
        exact ⟨name, key, requires_of_find? hfound⟩
      · obtain ⟨found, hfound⟩ :=
          Option.isSome_iff_exists.1 (isSome_find?_require hfiled hi hkey hok)
        have heq : found = key := (h hwhole).required name found key (requires_of_find? hfound) hkey
        rw [← find?_methodSet_eq_some_iff hfiled hs ((h hwhole).promoted name key hkey), ← heq]
        exact hsatisfied name found hfound
    · cases hrequired
  · rintro ⟨hwhole, ⟨name, key, hkey⟩, hpromotes⟩
    have hok := require_of_whole hwhole
    refine ⟨_, if_pos hok, ?_, fun name key hfound => ?_⟩
    · obtain ⟨found, hfound⟩ :=
        Option.isSome_iff_exists.1 (isSome_find?_require hfiled hi hkey hok)
      exact Table.isEmpty_eq_false_iff.2 ⟨name, found, hfound⟩
    · have hkey := requires_of_find? hfound
      rw [find?_methodSet_eq_some_iff hfiled hs ((h hwhole).promoted name key hkey)]
      exact hpromotes name key hkey

end Catalog

end GoUml
