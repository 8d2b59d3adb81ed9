import GoUml.Proofs.Requirements
import Mathlib.Data.List.Perm.Subperm

/-!
# Which promoted methods a struct has

The search for promoted methods takes one level of embedding after another and looks into each
struct once, however often it is embedded. Below, the items at a depth are said without a list of
visited structs, repetitions and cycles included. What the search passes over was taken at a smaller
depth, or before at the same one, so nothing is lost: a struct has a method of every name that
occurs at some depth, and it is one of those at the smallest depth where the name occurs.
-/

namespace GoUml

def Field.isError (f : Field) : Bool := f.composed.package.isNone && f.composed.goName == "error"

/-- The methods of the struct alone, and after them that of a predeclared `error` it embeds. -/
def Struct.ownMethods (s : Struct) : MethodSet :=
  if s.embeddedFields.any Field.isError then (MethodSet.ofFunctions s.methods).addError
  else MethodSet.ofFunctions s.methods

namespace Catalog

/-- What an embedded field stands for. -/
def fieldItem? (c : Catalog) (f : Field) : Option Promoted :=
  f.composed.package.bind fun package => c.promoted? package.path f.composed.goName

def brings (c : Catalog) : Promoted → List Promoted
  | .struct s => s.embeddedFields.filterMap c.fieldItem?
  | .interface _ => []
  | .methods _ => []

/-- The struct is at depth zero, and what the items at a depth bring is one deeper. -/
def layer (c : Catalog) (s : Struct) : Nat → List Promoted
  | 0 => [.struct s]
  | depth + 1 => (c.layer s depth).flatMap c.brings

/-- The methods that an item has without those of the structs it embeds. -/
def ownMethods (c : Catalog) : Promoted → MethodSet
  | .struct s => s.ownMethods
  | .interface i => (c.require c.requireFuel i noRequirements).2.methods
  | .methods fs => .ofFunctions fs

def Loaded (c : Catalog) (s : Struct) : Prop := c.findStruct? s.package.path s.name = some s

/-- The second state has found the same, after the methods of `under`. -/
structure Over (under : MethodSet) (found found' : Requirements) : Prop where
  visited : found'.visited = found.visited
  methods : ∀ name, found'.methods.find? name = (under.find? name).or (found.methods.find? name)

section Collecting

variable {under : MethodSet} {found found' : Requirements}

theorem Over.enter (h : Over under found found') (i : Interface) :
    Over under (found.enter i) (found'.enter i) := by
  refine ⟨?_, fun name => ?_⟩
  · simp only [Requirements.enter, h.visited]
  · simp only [Requirements.enter, MethodSet.find?_addAll, h.methods, Option.or_assoc]

theorem Over.pass (h : Over under found found') (e : TypeView) :
    Over under (found.pass e) (found'.pass e) := by
  rw [Requirements.pass, Requirements.pass]
  split
  · refine ⟨h.visited, fun name => ?_⟩
    simp only [MethodSet.find?_addError, h.methods, Option.or_assoc]
  · exact h

/-- Two outcomes agree when both searches end alike and one state is over the other. -/
def OverOutcome (under : MethodSet) (out out' : Bool × Requirements) : Prop :=
  out'.1 = out.1 ∧ Over under out.2 out'.2

theorem requireEmbeds_over (c : Catalog) {visit : Interface → Requirements → Bool × Requirements}
    (hvisit : ∀ i found found', Over under found found' →
      OverOutcome under (visit i found) (visit i found'))
    (embeds : List TypeView) (h : Over under found found') :
    OverOutcome under (c.requireEmbeds visit embeds found) (c.requireEmbeds visit embeds found') := by
  induction embeds generalizing found found' with
  | nil => exact ⟨rfl, h⟩
  | cons e rest ih =>
    rw [requireEmbeds, requireEmbeds]
    cases e.package with
    | none => exact ih (h.pass e)
    | some package =>
      dsimp only
      cases c.findInterface? package.path e.goName with
      | none => exact ⟨rfl, h⟩
      | some inner =>
        obtain ⟨hok, hover⟩ := hvisit inner found found' h
        dsimp only
        cases hout : visit inner found with
        | mk ok out =>
          cases hout' : visit inner found' with
          | mk ok' out' =>
            rw [hout, hout'] at hok hover
            dsimp only at hok hover
            subst hok
            cases ok' with
            | true => exact ih hover
            | false => exact ⟨rfl, hover⟩

theorem require_over (c : Catalog) (fuel : Nat) (i : Interface) (h : Over under found found') :
    OverOutcome under (c.require fuel i found) (c.require fuel i found') := by
  induction fuel generalizing i found found' with
  | zero => exact ⟨rfl, h⟩
  | succ fuel ih =>
    rw [require_succ, require_succ, h.visited]
    split
    · exact ⟨rfl, h⟩
    · split
      · exact ⟨rfl, h⟩
      · exact requireEmbeds_over c (fun i _ _ hover => ih i hover) i.embedded (h.enter i)

end Collecting

/-- An interface adds to the methods that are there the ones it would find alone. -/
theorem find?_require (c : Catalog) (i : Interface) (set : MethodSet) (name : String) :
    (c.require c.requireFuel i ⟨set, []⟩).2.methods.find? name =
      (set.find? name).or ((c.require c.requireFuel i noRequirements).2.methods.find? name) := by
  have hstart : Over set noRequirements ⟨set, []⟩ := by
    refine ⟨rfl, fun name => ?_⟩
    rw [noRequirements, Table.find?_empty, Option.or_none]
  exact (c.require_over c.requireFuel i hstart).2.methods name

/-! ### One item -/

section Fields

variable (c : Catalog) (fields : List Field) (p : Promotion)

theorem visited_foldl_promoteField :
    (fields.foldl c.promoteField p).visited = p.visited := by
  induction fields generalizing p with
  | nil => rfl
  | cons f rest ih =>
    rw [List.foldl_cons, ih, promoteField]
    split
    · split <;> rfl
    · rfl

theorem deeper_foldl_promoteField :
    (fields.foldl c.promoteField p).deeper = p.deeper ++ fields.filterMap c.fieldItem? := by
  induction fields generalizing p with
  | nil => simp
  | cons f rest ih =>
    rw [List.foldl_cons, ih, List.filterMap_cons, promoteField, fieldItem?]
    cases f.composed.package with
    | none =>
      dsimp only
      split <;> rfl
    | some package =>
      dsimp only [Option.bind_some]
      cases c.promoted? package.path f.composed.goName with
      | none => simp
      | some item => simp

theorem find?_promoteField (f : Field) (name : String) :
    (c.promoteField p f).methods.find? name =
      (p.methods.find? name).or (if f.isError ∧ "Error" = name then some "()(string)" else none) := by
  rw [promoteField, Field.isError]
  cases f.composed.package with
  | none =>
    by_cases herror : f.composed.goName = "error"
    · simp [herror, MethodSet.find?_addError]
    · simp [herror]
  | some package => simp

theorem find?_foldl_promoteField (name : String) :
    (fields.foldl c.promoteField p).methods.find? name = (p.methods.find? name).or
      (if fields.any Field.isError ∧ "Error" = name then some "()(string)" else none) := by
  induction fields generalizing p with
  | nil => simp
  | cons f rest ih =>
    rw [List.foldl_cons, ih, find?_promoteField, Option.or_assoc]
    congr 1
    by_cases hf : f.isError = true
    · by_cases hname : "Error" = name
      · simp [hf, hname]
      · simp [hname]
    · simp [hf]

end Fields

theorem find?_struct_ownMethods (s : Struct) (name : String) :
    s.ownMethods.find? name = ((MethodSet.ofFunctions s.methods).find? name).or
      (if s.embeddedFields.any Field.isError ∧ "Error" = name then some "()(string)" else none) := by
  rw [Struct.ownMethods]
  split
  · next herror => simp [herror, MethodSet.find?_addError]
  · next herror => simp [herror]

def Promoted.keys : Promoted → List EntityKey
  | .struct s => [s.entityKey]
  | .interface _ => []
  | .methods _ => []

/-- The state after an item that is not passed over. -/
structure Takes (c : Catalog) (p : Promotion) (item : Promoted) (q : Promotion) : Prop where
  fresh : ∀ key ∈ item.keys, key ∉ p.visited
  methods : ∀ name, q.methods.find? name = (p.methods.find? name).or ((c.ownMethods item).find? name)
  visited : q.visited = item.keys ++ p.visited
  deeper : q.deeper = p.deeper ++ c.brings item

theorem promoteOne_cases (c : Catalog) (p : Promotion) (item : Promoted) :
    (∃ s, item = .struct s ∧ s.entityKey ∈ p.visited ∧ c.promoteOne p item = p) ∨
      c.Takes p item (c.promoteOne p item) := by
  cases item with
  | methods fs =>
    refine .inr ⟨by simp [Promoted.keys], fun name => ?_, rfl, (List.append_nil _).symm⟩
    rw [promoteOne, ownMethods, MethodSet.find?_addAll, MethodSet.find?_ofFunctions]
  | interface i =>
    refine .inr ⟨by simp [Promoted.keys], fun name => ?_, rfl, (List.append_nil _).symm⟩
    exact c.find?_require i p.methods name
  | struct s =>
    by_cases hvisited : s.entityKey ∈ p.visited
    · refine .inl ⟨s, rfl, hvisited, ?_⟩
      rw [promoteOne, if_pos (List.contains_iff_mem.2 hvisited)]
    · refine .inr ⟨by simpa [Promoted.keys] using hvisited, fun name => ?_, ?_, ?_⟩
      all_goals rw [promoteOne, if_neg (mt List.contains_iff_mem.1 hvisited)]
      · rw [find?_foldl_promoteField, MethodSet.find?_addAll, ownMethods, find?_struct_ownMethods,
          MethodSet.find?_ofFunctions, Option.or_assoc]
      · rw [visited_foldl_promoteField]
        rfl
      · rw [deeper_foldl_promoteField]
        rfl

/-- Nothing that the search found is lost. -/
structure Promotion.Extends (p q : Promotion) : Prop where
  methods : ∀ name, (p.methods.find? name).isSome = true → (q.methods.find? name).isSome = true
  deeper : p.deeper ⊆ q.deeper

structure Explored (c : Catalog) (Known : Promoted → Prop) (p : Promotion) (s : Struct) : Prop where
  methods : ∀ name, (s.ownMethods.find? name).isSome = true → (p.methods.find? name).isSome = true
  deeper : ∀ item ∈ c.brings (.struct s), Known item ∨ item ∈ p.deeper

def Trailed (c : Catalog) (Known : Promoted → Prop) (p : Promotion) : Prop :=
  ∀ key ∈ p.visited, ∃ s, c.findStruct? key.1 key.2 = some s ∧ c.Explored Known p s

variable {c : Catalog} {Known : Promoted → Prop} {p q : Promotion}

theorem Explored.mono {s : Struct} (h : c.Explored Known p s) (hextends : p.Extends q) :
    c.Explored Known q s := by
  refine ⟨fun name hname => hextends.methods name (h.methods name hname), fun item hitem => ?_⟩
  exact (h.deeper item hitem).imp_right fun hmem => hextends.deeper hmem

theorem Promotion.Extends.trans {r : Promotion} (first : p.Extends q) (second : q.Extends r) :
    p.Extends r :=
  ⟨fun name h => second.methods name (first.methods name h),
    List.Subset.trans first.deeper second.deeper⟩

theorem extends_promoteOne (c : Catalog) (p : Promotion) (item : Promoted) :
    p.Extends (c.promoteOne p item) := by
  rcases c.promoteOne_cases p item with ⟨s, -, -, heq⟩ | htakes
  · rw [heq]
    exact ⟨fun _ h => h, List.Subset.refl _⟩
  · refine ⟨fun name hname => ?_, ?_⟩
    · rw [htakes.methods, Option.isSome_or, hname, Bool.true_or]
    · rw [htakes.deeper]
      exact List.subset_append_left _ _

/-- After the struct was taken, or passed over because it was visited, it is explored. -/
theorem Trailed.explored (h : c.Trailed Known p) {s : Struct} (hs : c.Loaded s) :
    c.Explored Known (c.promoteOne p (.struct s)) s := by
  rcases c.promoteOne_cases p (.struct s) with ⟨t, heq, hvisited, hsame⟩ | htakes
  · cases heq
    obtain ⟨t, hfound, hexplored⟩ := h s.entityKey hvisited
    have hts : t = s := Option.some.inj (hfound.symm.trans hs)
    rw [hsame]
    exact hts ▸ hexplored
  · refine ⟨fun name hname => ?_, fun item hitem => .inr ?_⟩
    · have hown : ((c.ownMethods (.struct s)).find? name).isSome = true := hname
      rw [htakes.methods, Option.isSome_or, hown, Bool.or_true]
    · rw [htakes.deeper]
      exact List.mem_append_right _ hitem

theorem Trailed.promoteOne (h : c.Trailed Known p) {item : Promoted}
    (hitem : ∀ s, item = .struct s → c.Loaded s) : c.Trailed Known (c.promoteOne p item) := by
  have hextends := c.extends_promoteOne p item
  intro key hkey
  rcases c.promoteOne_cases p item with ⟨s, -, -, hsame⟩ | htakes
  · rw [hsame] at hkey ⊢
    exact h key hkey
  · rw [htakes.visited] at hkey
    rcases List.mem_append.1 hkey with hnew | hold
    · cases item with
      | struct s =>
        have hkey : key = s.entityKey := List.mem_singleton.1 hnew
        subst hkey
        exact ⟨s, hitem s rfl, h.explored (hitem s rfl)⟩
      | interface i => cases hnew
      | methods fs => cases hnew
    · obtain ⟨s, hfound, hexplored⟩ := h key hold
      exact ⟨s, hfound, hexplored.mono hextends⟩

theorem Trailed.find?_promoteOne (h : c.Trailed Known p) {item : Promoted}
    (hitem : ∀ s, item = .struct s → c.Loaded s) (name : String) :
    (c.promoteOne p item).methods.find? name =
      (p.methods.find? name).or ((c.ownMethods item).find? name) := by
  rcases c.promoteOne_cases p item with ⟨s, rfl, -, hsame⟩ | htakes
  · -- The struct was explored when it was visited: every name it has is there already.
    have hexplored := h.explored (hitem s rfl)
    rw [hsame] at hexplored ⊢
    cases hown : s.ownMethods.find? name with
    | none => rw [ownMethods, hown, Option.or_none]
    | some key =>
      obtain ⟨found, hfound⟩ :=
        Option.isSome_iff_exists.1 (hexplored.methods name (by rw [hown]; rfl))
      rw [hfound, Option.some_or]
  · exact htakes.methods name

/-! ### One level -/

section Level

variable {items : List Promoted}

theorem extends_foldl_promoteOne (c : Catalog) (items : List Promoted) (p : Promotion) :
    p.Extends (items.foldl c.promoteOne p) := by
  induction items generalizing p with
  | nil => exact ⟨fun _ h => h, List.Subset.refl _⟩
  | cons item rest ih => exact (c.extends_promoteOne p item).trans (ih _)

theorem Trailed.foldl_promoteOne (h : c.Trailed Known p)
    (hitems : ∀ s, .struct s ∈ items → c.Loaded s) :
    c.Trailed Known (items.foldl c.promoteOne p) := by
  induction items generalizing p with
  | nil => exact h
  | cons item rest ih =>
    apply ih
    · exact h.promoteOne fun s hs => hitems s (hs ▸ List.mem_cons_self)
    · exact fun s hs => hitems s (List.mem_cons_of_mem _ hs)

theorem Trailed.explored_foldl (h : c.Trailed Known p)
    (hitems : ∀ s, .struct s ∈ items → c.Loaded s) {s : Struct} (hs : .struct s ∈ items) :
    c.Explored Known (items.foldl c.promoteOne p) s := by
  induction items generalizing p with
  | nil => cases hs
  | cons item rest ih =>
    have hrest : ∀ s, .struct s ∈ rest → c.Loaded s :=
      fun s hs => hitems s (List.mem_cons_of_mem _ hs)
    rcases List.mem_cons.1 hs with rfl | hs
    · exact (h.explored (hitems s List.mem_cons_self)).mono (c.extends_foldl_promoteOne rest _)
    · exact ih (h.promoteOne fun s hs => hitems s (hs ▸ List.mem_cons_self)) hrest hs

theorem Trailed.find?_foldl_promoteOne (h : c.Trailed Known p)
    (hitems : ∀ s, .struct s ∈ items → c.Loaded s) (name : String) :
    (items.foldl c.promoteOne p).methods.find? name = (p.methods.find? name).or
      (items.findSome? fun item => (c.ownMethods item).find? name) := by
  induction items generalizing p with
  | nil => simp
  | cons item rest ih =>
    have hitem : ∀ s, item = .struct s → c.Loaded s :=
      fun s hs => hitems s (hs ▸ List.mem_cons_self)
    rw [List.foldl_cons, ih (h.promoteOne hitem) fun s hs => hitems s (List.mem_cons_of_mem _ hs),
      h.find?_promoteOne hitem, Option.or_assoc, List.findSome?_cons]
    congr 1
    cases (c.ownMethods item).find? name <;> rfl

theorem mem_deeper_foldl_promoteOne {item : Promoted}
    (h : item ∈ (items.foldl c.promoteOne p).deeper) :
    item ∈ p.deeper ∨ item ∈ items.flatMap c.brings := by
  induction items generalizing p with
  | nil => exact .inl h
  | cons first rest ih =>
    rw [List.flatMap_cons, List.mem_append]
    rcases ih h with hdeeper | hrest
    · rcases c.promoteOne_cases p first with ⟨s, -, -, hsame⟩ | htakes
      · rw [hsame] at hdeeper
        exact .inl hdeeper
      · rw [htakes.deeper, List.mem_append] at hdeeper
        exact hdeeper.imp_right .inl
    · exact .inr (.inr hrest)

/-- A level that brings something in visits a struct that was not visited before. -/
theorem deeper_or_visited_foldl (c : Catalog) (items : List Promoted) (p : Promotion) :
    p.visited.length ≤ (items.foldl c.promoteOne p).visited.length ∧
      ((items.foldl c.promoteOne p).deeper = p.deeper ∨
        p.visited.length < (items.foldl c.promoteOne p).visited.length) := by
  induction items generalizing p with
  | nil => exact ⟨le_refl _, .inl rfl⟩
  | cons item rest ih =>
    rw [List.foldl_cons]
    obtain ⟨hle, hrest⟩ := ih (c.promoteOne p item)
    rcases c.promoteOne_cases p item with ⟨s, -, -, hsame⟩ | htakes
    · rw [hsame] at hle hrest ⊢
      exact ⟨hle, hrest⟩
    · rw [htakes.visited, List.length_append] at hle hrest
      rw [htakes.deeper] at hrest
      cases item with
      | struct s =>
        have hone : (Promoted.keys (.struct s)).length = 1 := rfl
        exact ⟨by omega, .inr (by omega)⟩
      | interface i =>
        rw [brings, List.append_nil] at hrest
        have hnone : (Promoted.keys (.interface i)).length = 0 := rfl
        exact ⟨by omega, hrest.imp_right fun hlt => by omega⟩
      | methods fs =>
        rw [brings, List.append_nil] at hrest
        have hnone : (Promoted.keys (.methods fs)).length = 0 := rfl
        exact ⟨by omega, hrest.imp_right fun hlt => by omega⟩

theorem nodup_visited_foldl (h : p.visited.Nodup) :
    (items.foldl c.promoteOne p).visited.Nodup := by
  induction items generalizing p with
  | nil => exact h
  | cons item rest ih =>
    apply ih
    rcases c.promoteOne_cases p item with ⟨s, -, -, hsame⟩ | htakes
    · rw [hsame]
      exact h
    · rw [htakes.visited]
      cases item with
      | struct s => exact List.nodup_cons.2 ⟨htakes.fresh _ List.mem_cons_self, h⟩
      | interface i => exact h
      | methods fs => exact h

end Level

/-- The state of the search before it takes the items at a depth. -/
def level (c : Catalog) (s : Struct) : Nat → Promotion
  | 0 => ⟨Table.empty, [], [.struct s]⟩
  | depth + 1 =>
    (c.level s depth).deeper.foldl c.promoteOne { c.level s depth with deeper := [] }

variable {s : Struct} {depth : Nat} {name : String}

theorem loaded_of_findStruct? (hfiled : c.Filed) {path name : String} {s : Struct}
    (hs : c.findStruct? path name = some s) : c.Loaded s := by
  obtain ⟨hpath, hname⟩ := Prod.mk.inj (hfiled.structs path name s hs)
  rw [Loaded, hpath, hname]
  exact hs

theorem findStruct?_of_promoted? {path name : String} {t : Struct}
    (h : c.promoted? path name = some (.struct t)) : c.findStruct? path name = some t := by
  rw [promoted?] at h
  split at h
  all_goals cases h
  next hfind => simpa [find?] using hfind

theorem findInterface?_of_promoted? {path name : String} {i : Interface}
    (h : c.promoted? path name = some (.interface i)) : c.findInterface? path name = some i := by
  rw [promoted?] at h
  split at h
  all_goals cases h
  next hfind =>
    have hcases : c.findStruct? path name = none ∧ c.findInterface? path name = some i := by
      simpa [find?] using hfind
    exact hcases.2

theorem exists_promoted?_of_mem_layer {item : Promoted} (h : item ∈ c.layer s (depth + 1)) :
    ∃ path name, c.promoted? path name = some item := by
  rw [layer, List.mem_flatMap] at h
  obtain ⟨above, -, hbrings⟩ := h
  cases above with
  | struct u =>
    rw [brings, List.mem_filterMap] at hbrings
    obtain ⟨f, -, hf⟩ := hbrings
    obtain ⟨package, -, hpromoted⟩ := Option.bind_eq_some_iff.1 hf
    exact ⟨package.path, f.composed.goName, hpromoted⟩
  | interface i => cases hbrings
  | methods fs => cases hbrings

theorem loaded_of_mem_layer (hfiled : c.Filed) (hs : c.Loaded s) {t : Struct}
    (h : .struct t ∈ c.layer s depth) : c.Loaded t := by
  cases depth with
  | zero =>
    cases List.mem_singleton.1 h
    exact hs
  | succ depth =>
    obtain ⟨path, name, hpromoted⟩ := exists_promoted?_of_mem_layer h
    exact loaded_of_findStruct? hfiled (findStruct?_of_promoted? hpromoted)

theorem mem_interfaces_of_mem_layer {i : Interface} (h : .interface i ∈ c.layer s depth) :
    i ∈ c.interfaces.all := by
  cases depth with
  | zero => cases List.mem_singleton.1 h
  | succ depth =>
    obtain ⟨path, name, hpromoted⟩ := exists_promoted?_of_mem_layer h
    exact PackageTable.mem_all_iff.2 ⟨path, name, findInterface?_of_promoted? hpromoted⟩

theorem mem_layer_of_mem_level {item : Promoted} (h : item ∈ (c.level s depth).deeper) :
    item ∈ c.layer s depth := by
  induction depth generalizing item with
  | zero => exact h
  | succ depth ih =>
    rcases mem_deeper_foldl_promoteOne h with hnone | hbrings
    · cases hnone
    · rw [List.mem_flatMap] at hbrings
      obtain ⟨above, habove, hitem⟩ := hbrings
      exact List.mem_flatMap.2 ⟨above, ih habove, hitem⟩

theorem loaded_of_mem_level (hfiled : c.Filed) (hs : c.Loaded s) (depth : Nat) (t : Struct)
    (h : .struct t ∈ (c.level s depth).deeper) : c.Loaded t :=
  loaded_of_mem_layer hfiled hs (mem_layer_of_mem_level h)

/-- What stood on the levels before a depth. -/
def Before (c : Catalog) (s : Struct) (depth : Nat) (item : Promoted) : Prop :=
  ∃ e < depth, item ∈ (c.level s e).deeper

/-- When a level begins, what was one deeper is known from its own level. -/
theorem Trailed.next (h : c.Trailed (c.Before s depth) (c.level s depth)) :
    c.Trailed (c.Before s (depth + 1)) { c.level s depth with deeper := [] } := by
  intro key hkey
  obtain ⟨t, hfound, hexplored⟩ := h key hkey
  refine ⟨t, hfound, hexplored.methods, fun item hitem => .inl ?_⟩
  rcases hexplored.deeper item hitem with ⟨e, he, hmem⟩ | hmem
  · exact ⟨e, by omega, hmem⟩
  · exact ⟨depth, by omega, hmem⟩

theorem trailed_level (hfiled : c.Filed) (hs : c.Loaded s) (depth : Nat) :
    c.Trailed (c.Before s depth) (c.level s depth) := by
  induction depth with
  | zero =>
    intro key hkey
    cases hkey
  | succ depth ih => exact ih.next.foldl_promoteOne (loaded_of_mem_level hfiled hs depth)

/-- The search comes across every item, at its depth or at a smaller one. -/
theorem exists_mem_level (hfiled : c.Filed) (hs : c.Loaded s) {item : Promoted}
    (h : item ∈ c.layer s depth) : ∃ e ≤ depth, item ∈ (c.level s e).deeper := by
  induction depth generalizing item with
  | zero => exact ⟨0, le_refl 0, h⟩
  | succ depth ih =>
    rw [layer, List.mem_flatMap] at h
    obtain ⟨above, habove, hitem⟩ := h
    obtain ⟨e, he, hmem⟩ := ih habove
    cases above with
    | struct t =>
      have hexplored : c.Explored (c.Before s (e + 1)) (c.level s (e + 1)) t :=
        (trailed_level hfiled hs e).next.explored_foldl (loaded_of_mem_level hfiled hs e) hmem
      rcases hexplored.deeper item hitem with ⟨e', he', hbefore⟩ | hdeeper
      · exact ⟨e', by omega, hbefore⟩
      · exact ⟨e + 1, by omega, hdeeper⟩
    | interface i => cases hitem
    | methods fs => cases hitem

theorem find?_level_succ (hfiled : c.Filed) (hs : c.Loaded s) (depth : Nat) (name : String) :
    (c.level s (depth + 1)).methods.find? name = ((c.level s depth).methods.find? name).or
      ((c.level s depth).deeper.findSome? fun item => (c.ownMethods item).find? name) :=
  (trailed_level hfiled hs depth).next.find?_foldl_promoteOne
    (loaded_of_mem_level hfiled hs depth) name

theorem isSome_find?_level_mono {later : Nat} (h : depth ≤ later)
    (hname : ((c.level s depth).methods.find? name).isSome = true) :
    ((c.level s later).methods.find? name).isSome = true := by
  induction h with
  | refl => exact hname
  | step _ ih => exact (extends_foldl_promoteOne c _ { c.level s _ with deeper := [] }).methods name ih

/-- A method that is found before a depth is the first of its name on some level, and no level
before that one has the name. -/
theorem exists_of_find?_level (hfiled : c.Filed) (hs : c.Loaded s) {key : String}
    (h : (c.level s depth).methods.find? name = some key) :
    ∃ e < depth, (∃ item ∈ (c.level s e).deeper, (c.ownMethods item).find? name = some key) ∧
      ∀ e' < e, ∀ item ∈ (c.level s e').deeper, (c.ownMethods item).find? name = none := by
  induction depth with
  | zero => cases h
  | succ depth ih =>
    rw [find?_level_succ hfiled hs, Option.or_eq_some_iff] at h
    rcases h with hbefore | ⟨hnone, hfirst⟩
    · obtain ⟨e, he, hrest⟩ := ih hbefore
      exact ⟨e, by omega, hrest⟩
    · refine ⟨depth, by omega, List.exists_of_findSome?_eq_some hfirst, ?_⟩
      intro e he item hitem
      -- A name on an earlier level would have been found by now.
      by_contra hsome
      have hfound : ((c.level s (e + 1)).methods.find? name).isSome = true := by
        rw [find?_level_succ hfiled hs, Option.isSome_or, Bool.or_eq_true]
        exact .inr (List.findSome?_isSome_iff.2 ⟨item, hitem, Option.isSome_iff_ne_none.2 hsome⟩)
      have hlater := isSome_find?_level_mono he hfound
      rw [hnone] at hlater
      cases hlater

/-! ### The bound on levels is never reached -/

theorem level_eq_of_deeper_nil {later : Nat} (h : depth ≤ later)
    (hnil : (c.level s depth).deeper = []) : c.level s later = c.level s depth := by
  induction h with
  | refl => rfl
  | @step later _ ih =>
    rw [level, ih, hnil, List.foldl_nil, ← hnil]

theorem le_length_visited (h : (c.level s depth).deeper ≠ []) :
    depth ≤ (c.level s depth).visited.length := by
  induction depth with
  | zero => exact Nat.zero_le _
  | succ depth ih =>
    have hbefore : (c.level s depth).deeper ≠ [] := by
      intro hnil
      rw [level_eq_of_deeper_nil (Nat.le_succ depth) hnil] at h
      exact h hnil
    have hdepth := ih hbefore
    rcases (c.deeper_or_visited_foldl (c.level s depth).deeper
      { c.level s depth with deeper := [] }).2 with hsame | hlt
    · exact absurd hsame h
    · exact Nat.lt_of_le_of_lt hdepth hlt

theorem nodup_visited_level (c : Catalog) (s : Struct) (depth : Nat) :
    (c.level s depth).visited.Nodup := by
  induction depth with
  | zero => exact List.nodup_nil
  | succ depth ih => exact nodup_visited_foldl ih

theorem length_visited_le (hfiled : c.Filed) (hs : c.Loaded s) (depth : Nat) :
    (c.level s depth).visited.length ≤ c.structs.all.length := by
  have hsubset : (c.level s depth).visited ⊆ c.structs.all.map Struct.entityKey := by
    intro key hkey
    obtain ⟨t, hfound, -⟩ := trailed_level hfiled hs depth key hkey
    have hall : t ∈ c.structs.all := PackageTable.mem_all_iff.2 ⟨key.1, key.2, hfound⟩
    exact List.mem_map.2 ⟨t, hall, hfiled.structs key.1 key.2 t hfound⟩
  have hsubperm := List.subperm_of_subset (nodup_visited_level c s depth) hsubset
  calc
    (c.level s depth).visited.length ≤ (c.structs.all.map Struct.entityKey).length :=
      hsubperm.length_le
    _ = c.structs.all.length := List.length_map _

theorem promoteLevels_level (c : Catalog) (s : Struct) (fuel depth : Nat) :
    ∃ later, c.promoteLevels fuel (c.level s depth) = (c.level s later).methods ∧
      ((c.level s later).deeper = [] ∨ later = depth + fuel) := by
  induction fuel generalizing depth with
  | zero => exact ⟨depth, rfl, .inr rfl⟩
  | succ fuel ih =>
    rw [promoteLevels]
    split
    · next hempty => exact ⟨depth, rfl, .inl (List.isEmpty_iff.1 hempty)⟩
    · obtain ⟨later, hmethods, hend⟩ := ih (depth + 1)
      exact ⟨later, hmethods, hend.imp_right fun heq => by omega⟩

/-- The search ends because there is nothing more to take. -/
theorem exists_methodSet_eq_level (hfiled : c.Filed) (hs : c.Loaded s) :
    ∃ depth, c.methodSet s = (c.level s depth).methods ∧ (c.level s depth).deeper = [] := by
  obtain ⟨depth, hmethods, hend⟩ := c.promoteLevels_level s (c.structs.all.length + 3) 0
  refine ⟨depth, hmethods, hend.elim id fun heq => ?_⟩
  by_contra hne
  have hlower := le_length_visited hne
  have hupper := length_visited_le hfiled hs depth
  omega

/-- A method of a struct belongs to an item at some depth, and no item at a smaller depth has a
method of its name. -/
theorem exists_of_find?_methodSet (hfiled : c.Filed) (hs : c.Loaded s) {key : String}
    (h : (c.methodSet s).find? name = some key) :
    ∃ depth, (∃ item ∈ c.layer s depth, (c.ownMethods item).find? name = some key) ∧
      ∀ e < depth, ∀ item ∈ c.layer s e, (c.ownMethods item).find? name = none := by
  obtain ⟨last, hmethods, -⟩ := exists_methodSet_eq_level hfiled hs
  rw [hmethods] at h
  obtain ⟨depth, -, ⟨item, hitem, hkey⟩, hnone⟩ := exists_of_find?_level hfiled hs h
  refine ⟨depth, ⟨item, mem_layer_of_mem_level hitem, hkey⟩, fun e he item' hitem' => ?_⟩
  obtain ⟨e', he', hmem⟩ := exists_mem_level hfiled hs hitem'
  exact hnone e' (by omega) item' hmem

/-- A struct has a method of every name that an item at some depth has. -/
theorem isSome_find?_methodSet (hfiled : c.Filed) (hs : c.Loaded s) {item : Promoted}
    (hitem : item ∈ c.layer s depth) (hname : ((c.ownMethods item).find? name).isSome = true) :
    ((c.methodSet s).find? name).isSome = true := by
  obtain ⟨last, hmethods, hnil⟩ := exists_methodSet_eq_level hfiled hs
  obtain ⟨e, -, hmem⟩ := exists_mem_level hfiled hs hitem
  have hlast : e + 1 ≤ last := by
    by_contra hlt
    rw [level_eq_of_deeper_nil (show last ≤ e by omega) hnil, hnil] at hmem
    cases hmem
  rw [hmethods]
  apply isSome_find?_level_mono hlast
  rw [find?_level_succ hfiled hs, Option.isSome_or, Bool.or_eq_true]
  exact .inr (List.findSome?_isSome_iff.2 ⟨item, hmem, hname⟩)

end Catalog

end GoUml
