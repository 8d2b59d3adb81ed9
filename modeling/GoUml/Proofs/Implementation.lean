import GoUml.Proofs.Filing

/-!
# Classifying agrees with testing one pair at a time

Classifying works out the demands of all interfaces once, matches every struct against them, and
writes each result back through the struct's path and name. The test of a single struct and a single
interface starts from nothing. They agree on every reachable catalog: the look-up of the write-back
finds the struct that was matched, and neither side reads the lists of implemented interfaces that
are there already, so classifying again changes nothing.
-/

namespace GoUml

/-- The struct with `g s` as its list of implemented interfaces. -/
def Struct.listing (g : Struct → List InterfaceRef) (s : Struct) : Struct :=
  { s with implemented := g s }

def Struct.bare (s : Struct) : Struct := s.listing fun _ => []

def Entity.listing (g : Struct → List InterfaceRef) : Entity → Entity
  | .struct s => .struct (s.listing g)
  | e => e

namespace Catalog

def listing (g : Struct → List InterfaceRef) (c : Catalog) : Catalog :=
  { c with structs := c.structs.mapValues (Struct.listing g) }

variable (g : Struct → List InterfaceRef) (c : Catalog)

theorem find?_listing (path name : String) :
    (c.listing g).find? path name = (c.find? path name).map (Entity.listing g) := by
  have hstruct : (c.listing g).findStruct? path name =
      (c.findStruct? path name).map (Struct.listing g) :=
    PackageTable.get?_mapValues _ c.structs path name
  have hfind : (c.listing g).find? path name =
      (((c.findStruct? path name).map (Struct.listing g)).map .struct
        <|> (c.findInterface? path name).map .interface
        <|> (c.definedTypes.get? path name).map .defined
        <|> (c.typeAliases.get? path name).map .typeAlias) := by
    rw [← hstruct]
    rfl
  rw [hfind, find?]
  cases c.findStruct? path name with
  | some s => rfl
  | none =>
    cases c.findInterface? path name with
    | some i => rfl
    | none =>
      cases c.definedTypes.get? path name with
      | some d => rfl
      | none => cases c.typeAliases.get? path name <;> rfl

theorem requireEmbeds_listing (visit : Interface → Requirements → Bool × Requirements)
    (embeds : List TypeView) (found : Requirements) :
    (c.listing g).requireEmbeds visit embeds found = c.requireEmbeds visit embeds found := by
  induction embeds generalizing found with
  | nil => rfl
  | cons e rest ih =>
    have hfind : ∀ path name, (c.listing g).findInterface? path name = c.findInterface? path name :=
      fun _ _ => rfl
    simp only [requireEmbeds, ih, hfind]

theorem require_listing (fuel : Nat) (i : Interface) (found : Requirements) :
    (c.listing g).require fuel i found = c.require fuel i found := by
  induction fuel generalizing i found with
  | zero => rfl
  | succ fuel ih =>
    have hvisit : (c.listing g).require fuel = c.require fuel := by
      funext inner state
      exact ih inner state
    rw [require, require, hvisit, requireEmbeds_listing]

theorem demanded?_listing (i : Interface) : (c.listing g).demanded? i = c.demanded? i := by
  have hfuel : (c.listing g).requireFuel = c.requireFuel := rfl
  simp only [demanded?, requiredMethods?, hfuel, require_listing]

theorem demands_listing : (c.listing g).demands = c.demands := by
  have hall : (c.listing g).interfaces = c.interfaces := rfl
  simp only [demands, hall, demanded?_listing]

/-! ### Method sets do not read the listed interfaces

The search for promoted methods in the changed catalog goes through the same states as the search in
the given one, with the listed interfaces changed in the structs that are still to be looked into. -/

def Promoted.listing : Promoted → Promoted
  | .struct s => .struct (s.listing g)
  | .interface i => .interface i
  | .methods fs => .methods fs

def Promotion.listing (p : Promotion) : Promotion :=
  { p with deeper := p.deeper.map (Promoted.listing g) }

theorem promoted?_listing (path name : String) :
    (c.listing g).promoted? path name = (c.promoted? path name).map (Promoted.listing g) := by
  rw [promoted?, promoted?, find?_listing]
  cases c.find? path name with
  | none => rfl
  | some e => cases e <;> rfl

theorem promoteField_listing (p : Promotion) (f : Field) :
    (c.listing g).promoteField (p.listing g) f = (c.promoteField p f).listing g := by
  rw [promoteField, promoteField]
  cases f.composed.package with
  | none =>
    dsimp only
    split <;> rfl
  | some package =>
    dsimp only
    rw [promoted?_listing]
    cases c.promoted? package.path f.composed.goName with
    | none => simp [Promotion.listing]
    | some item => simp [Promotion.listing]

theorem foldl_promoteField_listing (fields : List Field) (p : Promotion) :
    fields.foldl (c.listing g).promoteField (p.listing g) =
      (fields.foldl c.promoteField p).listing g := by
  induction fields generalizing p with
  | nil => rfl
  | cons f rest ih => rw [List.foldl_cons, List.foldl_cons, promoteField_listing, ih]

theorem promoteOne_listing (p : Promotion) (item : Promoted) :
    (c.listing g).promoteOne (p.listing g) (item.listing g) = (c.promoteOne p item).listing g := by
  have hfuel : (c.listing g).requireFuel = c.requireFuel := rfl
  cases item with
  | methods fs => rfl
  | interface i =>
    simp only [promoteOne, Promoted.listing, hfuel, require_listing]
    rfl
  | struct s =>
    have hvisited : (p.listing g).visited = p.visited := rfl
    have hkey : (s.listing g).entityKey = s.entityKey := rfl
    simp only [promoteOne, Promoted.listing, hvisited, hkey]
    split
    · rfl
    · exact foldl_promoteField_listing g c s.embeddedFields
        { p with methods := p.methods.addAll s.methods, visited := s.entityKey :: p.visited }

theorem foldl_promoteOne_listing (items : List Promoted) (p : Promotion) :
    (items.map (Promoted.listing g)).foldl (c.listing g).promoteOne (p.listing g) =
      (items.foldl c.promoteOne p).listing g := by
  induction items generalizing p with
  | nil => rfl
  | cons item rest ih =>
    rw [List.map_cons, List.foldl_cons, List.foldl_cons, promoteOne_listing, ih]

theorem promoteLevels_listing (fuel : Nat) (p : Promotion) :
    (c.listing g).promoteLevels fuel (p.listing g) = c.promoteLevels fuel p := by
  induction fuel generalizing p with
  | zero => rfl
  | succ fuel ih =>
    have hempty : (p.listing g).deeper.isEmpty = p.deeper.isEmpty := by
      rw [Promotion.listing, List.isEmpty_map]
    rw [promoteLevels, promoteLevels, hempty]
    split
    · rfl
    · exact (congrArg ((c.listing g).promoteLevels fuel)
        (foldl_promoteOne_listing g c p.deeper { p with deeper := [] })).trans (ih _)

theorem methodSet_listing (s : Struct) :
    (c.listing g).methodSet (s.listing g) = c.methodSet s := by
  have hlength : (c.listing g).structs.all.length = c.structs.all.length := by
    rw [listing, PackageTable.all_mapValues, List.length_map]
  rw [methodSet, methodSet, hlength]
  exact promoteLevels_listing g c _ ⟨Table.empty, [], [.struct s]⟩

theorem matching_listing (demands : List (InterfaceRef × MethodSet)) (s : Struct) :
    (c.listing g).matching demands (s.listing g) = c.matching demands s := by
  rw [matching, matching, methodSet_listing]

theorem isSome_find?_foldl_record (found : List (Struct × List InterfaceRef))
    (structs : PackageTable Struct) (path : String) :
    ((found.foldl record structs).find? path).isSome = (structs.find? path).isSome := by
  induction found generalizing structs with
  | nil => rfl
  | cons head rest ih =>
    rw [List.foldl_cons, ih, record, PackageTable.isSome_find?_modifyAt]

theorem get?_foldl_record_none (found : List (Struct × List InterfaceRef))
    {structs : PackageTable Struct} {path name : String} (h : structs.get? path name = none) :
    (found.foldl record structs).get? path name = none := by
  induction found generalizing structs with
  | nil => exact h
  | cons head rest ih =>
    apply ih
    rw [record, PackageTable.get?_modifyAt, h]
    split <;> rfl

/-- Writing back the results of `l` changes what is found at a path and name exactly when the struct
that belongs there is in `l`. -/
theorem get?_foldl_record {path name : String} {s : Struct} (l : List Struct)
    (hl : ∀ x ∈ l, x.entityKey = (path, name) ↔ x = s) (structs : PackageTable Struct) :
    ((l.zip (l.map g)).foldl record structs).get? path name =
      (structs.get? path name).map fun x => if s ∈ l then { x with implemented := g s } else x := by
  induction l generalizing structs with
  | nil => simp
  | cons y rest ih =>
    have hrest : ∀ x ∈ rest, x.entityKey = (path, name) ↔ x = s :=
      fun x hx => hl x (List.mem_cons_of_mem _ hx)
    rw [List.map_cons, List.zip_cons_cons, List.foldl_cons, ih hrest, record,
      PackageTable.get?_modifyAt]
    by_cases hy : y = s
    · subst hy
      have hkey : y.entityKey = (path, name) := (hl y List.mem_cons_self).2 rfl
      obtain ⟨hpath, hname⟩ := Prod.mk.inj hkey
      rw [if_pos ⟨hpath.symm, hname.symm⟩, Option.map_map]
      congr 1
      funext x
      simp
    · have hkey : ¬ (path = y.package.path ∧ name = y.name) := by
        rintro ⟨hpath, hname⟩
        exact hy ((hl y List.mem_cons_self).1 (Prod.ext hpath.symm hname.symm))
      have hmem : s ∈ y :: rest ↔ s ∈ rest := by
        rw [List.mem_cons, or_iff_right (Ne.symm hy)]
      rw [if_neg hkey]
      simp only [hmem]

variable {c}

theorem classify_eq_listing (h : c.Filed) : c.classify = c.listing (c.matching c.demands) := by
  have hstructs : c.classify.structs = (c.listing (c.matching c.demands)).structs := by
    apply PackageTable.ext_get?
    · intro path
      rw [listing, PackageTable.isSome_find?_mapValues]
      exact isSome_find?_foldl_record _ c.structs path
    · intro path name
      rw [listing, PackageTable.get?_mapValues, classify]
      cases hfound : c.structs.get? path name with
      | none => exact get?_foldl_record_none _ hfound
      | some s =>
        have hs : s ∈ c.structs.all := PackageTable.mem_all_iff.2 ⟨path, name, hfound⟩
        have hkey : ∀ x ∈ c.structs.all, x.entityKey = (path, name) ↔ x = s := by
          intro x hx
          obtain ⟨p, n, hx⟩ := PackageTable.mem_all_iff.1 hx
          rw [h.structs p n x hx]
          constructor
          · rintro ⟨⟩
            exact Option.some.inj (hx.symm.trans hfound)
          · rintro rfl
            rw [← h.structs p n x hx, h.structs path name x hfound]
        rw [get?_foldl_record _ _ hkey, hfound, Option.map_some, Option.map_some, if_pos hs]
        rfl
  exact congrArg (fun structs => { c with structs := structs }) hstructs

theorem classify_classify (h : c.Filed) : c.classify.classify = c.classify := by
  have hsame : ∀ s : Struct, (s.listing (c.matching c.demands)).listing
      (c.classify.matching c.classify.demands) = s.listing (c.matching c.demands) := by
    intro s
    have hmatching : c.classify.matching c.classify.demands (s.listing (c.matching c.demands)) =
        c.matching c.demands s := by
      rw [classify_eq_listing h, demands_listing, matching_listing]
    exact congrArg (fun found => { s with implemented := found }) hmatching
  have hstructs : c.classify.structs = c.structs.mapValues (Struct.listing (c.matching c.demands)) :=
    congrArg Catalog.structs (classify_eq_listing h)
  have hagain : c.classify.classify.structs = c.classify.structs := by
    rw [classify_eq_listing h.classify, listing]
    apply PackageTable.ext_get?
    · intro path
      exact PackageTable.isSome_find?_mapValues _ _ path
    · intro path name
      rw [PackageTable.get?_mapValues, hstructs, PackageTable.get?_mapValues, Option.map_map]
      congr 1
      funext s
      exact hsame s
  exact congrArg (fun structs => { c with structs := structs }) hagain

/-! ### What a struct lists -/

theorem mem_demands_iff {r : InterfaceRef} {required : MethodSet} :
    (r, required) ∈ c.demands ↔
      ∃ i ∈ c.interfaces.all, c.demanded? i = some required ∧ i.reference = r := by
  simp only [demands, List.mem_filterMap, Option.map_eq_some_iff, Prod.mk.injEq]
  constructor
  · rintro ⟨i, hi, _, hrequired, rfl, rfl⟩
    exact ⟨i, hi, hrequired, rfl⟩
  · rintro ⟨i, hi, hrequired, rfl⟩
    exact ⟨i, hi, required, hrequired, rfl, rfl⟩

theorem mem_matching_iff {s : Struct} {r : InterfaceRef} :
    r ∈ c.matching c.demands s ↔
      ∃ i ∈ c.interfaces.all, c.implements s i = true ∧ i.reference = r := by
  rw [matching, Text.sortOnRow, List.mem_mergeSort, List.mem_map]
  constructor
  · rintro ⟨⟨_, required⟩, hd, rfl⟩
    obtain ⟨hd, hsatisfies⟩ := List.mem_filter.1 hd
    obtain ⟨i, hi, hrequired, rfl⟩ := mem_demands_iff.1 hd
    exact ⟨i, hi, by rw [implements, hrequired]; exact hsatisfies, rfl⟩
  · rintro ⟨i, hi, himplements, rfl⟩
    rw [implements] at himplements
    split at himplements
    · next required hrequired =>
      exact ⟨(i.reference, required), List.mem_filter.2
        ⟨mem_demands_iff.2 ⟨i, hi, hrequired, rfl⟩, himplements⟩, rfl⟩
    · cases himplements

theorem nodup_references (h : c.Filed) : (c.interfaces.all.map Interface.reference).Nodup := by
  have hkeys : (c.interfaces.all.map Interface.entityKey).Nodup :=
    PackageTable.nodup_all_map h.interfaces
  have hfactor : Interface.entityKey =
      (fun r : InterfaceRef => (r.package.path, r.name)) ∘ Interface.reference := rfl
  rw [hfactor, ← List.map_map] at hkeys
  exact hkeys.of_map

theorem nodup_matching (h : c.Filed) (s : Struct) : (c.matching c.demands s).Nodup := by
  have hsub : (c.demands.map (·.1)).Sublist (c.interfaces.all.map Interface.reference) := by
    rw [demands, List.map_filterMap]
    have hstep : (fun i => ((c.demanded? i).map fun required => (i.reference, required)).map (·.1)) =
        fun i => (c.demanded? i).map fun _ => i.reference := by
      funext i
      rw [Option.map_map]
      rfl
    rw [hstep]
    induction c.interfaces.all with
    | nil => exact .slnil
    | cons i rest ih =>
      cases hd : c.demanded? i with
      | none => simpa [List.filterMap_cons, hd] using ih.cons i.reference
      | some required => simpa [List.filterMap_cons, hd] using ih
  rw [matching, Text.sortOnRow, (List.mergeSort_perm _ _).nodup_iff]
  exact ((List.filter_sublist.map _).trans hsub).nodup (nodup_references h)

/-- Classifying a reachable catalog changes nothing but the lists of implemented interfaces. Each
struct then lists, once each, the interfaces that it implements by the test of a single pair, and
classifying again changes nothing. -/
theorem classify_lists_implemented (h : c.Reachable) :
    c.classify.packages = c.packages ∧ c.classify.imports = c.imports ∧
      c.classify.interfaces = c.interfaces ∧ c.classify.definedTypes = c.definedTypes ∧
      c.classify.typeAliases = c.typeAliases ∧
      c.classify.structs.mapValues Struct.bare = c.structs.mapValues Struct.bare ∧
      (∀ path name s, c.findStruct? path name = some s →
        ∃ listed, c.classify.findStruct? path name = some { s with implemented := listed } ∧
          listed.Nodup ∧
          ∀ r, r ∈ listed ↔ ∃ i ∈ c.interfaces.all, c.implements s i = true ∧ i.reference = r) ∧
      c.classify.classify = c.classify := by
  have hfiled : c.Filed := h.filed
  have hstructs : c.classify.structs = c.structs.mapValues (Struct.listing (c.matching c.demands)) :=
    congrArg Catalog.structs (classify_eq_listing hfiled)
  refine ⟨rfl, rfl, rfl, rfl, rfl, ?_, ?_, classify_classify hfiled⟩
  · rw [hstructs]
    apply PackageTable.ext_get?
    · intro path
      simp only [PackageTable.isSome_find?_mapValues]
    · intro path name
      simp only [PackageTable.get?_mapValues, Option.map_map]
      rfl
  · intro path name s hs
    refine ⟨c.matching c.demands s, ?_, nodup_matching hfiled s, fun r => mem_matching_iff⟩
    rw [findStruct?, hstructs, PackageTable.get?_mapValues]
    exact congrArg (Option.map _) hs

def closing : Package where
  name := "shop"
  path := "example.com/shop"
  imports := []
  declarations := [⟨"File", false, .struct []⟩, ⟨"Closer", false, .interface [⟨"Close", ⟨[], []⟩⟩] []⟩]
  methods := [⟨"File", true, "Close", ⟨[], []⟩⟩]

/-- The package inserted, classified and inserted again, so that the struct lists nothing. -/
def closingAgain : Catalog := (Catalog.empty.insert closing).classify.insert closing

theorem classify_lists_closer :
    closingAgain.Reachable ∧
      ∃ s listed, closingAgain.findStruct? "example.com/shop" "File" = some s ∧
        closingAgain.classify.findStruct? "example.com/shop" "File" =
          some { s with implemented := listed } ∧
        ⟨⟨"shop", "example.com/shop"⟩, "Closer"⟩ ∈ listed := by
  have hreachable : closingAgain.Reachable := .insert _ (.classify (.insert _ .empty))
  have hsome : (closingAgain.findStruct? "example.com/shop" "File").isSome = true := by
    decide +kernel
  obtain ⟨s, hs⟩ := Option.isSome_iff_exists.1 hsome
  obtain ⟨-, -, -, -, -, -, hlisted, -⟩ := classify_lists_implemented hreachable
  obtain ⟨listed, hfound, -, hmem⟩ := hlisted _ _ s hs
  have himplements : ((closingAgain.findStruct? "example.com/shop" "File").any fun s =>
      closingAgain.interfaces.all.any fun i => closingAgain.implements s i &&
        decide (i.reference = ⟨⟨"shop", "example.com/shop"⟩, "Closer"⟩)) = true := by
    decide +kernel
  rw [hs, Option.any_some, List.any_eq_true] at himplements
  obtain ⟨i, hi, himplements⟩ := himplements
  rw [Bool.and_eq_true, decide_eq_true_eq] at himplements
  exact ⟨hreachable, s, listed, hs, hfound, (hmem _).2 ⟨i, hi, himplements⟩⟩

end Catalog

end GoUml
