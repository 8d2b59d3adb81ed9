import GoUml.Edge
import GoUml.Proofs.Table
import Mathlib.Data.List.Forall2
import Mathlib.Data.List.Nodup
import Mathlib.Tactic.ByContra

/-!
# Composition and aggregation by fields

An embedded field composes and a named field aggregates, and no field does both. A type can be
mentioned by many fields and several times in one of them, inside maps, channels and function types,
but it is aggregated once, and an exported field takes precedence over a private one wherever it
stands. This holds because the types of private fields are only taken when no exported field has a
type with their key. The order of the fields is left with deciding which of the types with one key
is drawn, and where among the others; in which list the key falls it does not decide.
-/

namespace GoUml

namespace Struct

/-- A type that is not predeclared is among those that a named field of the struct is made of. -/
structure Mentions (s : Struct) (f : Field) (t : TypeName) : Prop where
  field : f ∈ s.fields
  named : f.embedded = false
  terminal : t ∈ f.type.terminals
  declared : t.builtin = false

/-- A named field mentions a type with this key. -/
def Uses (s : Struct) (key : String) : Prop := ∃ f t, s.Mentions f t ∧ t.key = key

/-- An exported named field mentions a type with this key. -/
def Exposes (s : Struct) (key : String) : Prop :=
  ∃ f t, s.Mentions f t ∧ f.isPrivate = false ∧ t.key = key

/-- The edge says that the struct embeds the type of the field. -/
def Composes (s : Struct) (f : Field) (e : Edge) : Prop :=
  e = ⟨.composition, .declared s.package s.name, .ofType f.composed⟩

/-- The edge says that the struct uses a type with this key which one of its named fields
mentions. -/
def Aggregates (s : Struct) (key : String) (e : Edge) : Prop :=
  ∃ f t, s.Mentions f t ∧ t.key = key ∧ e = ⟨.aggregation, .ofType t, .declared s.package s.name⟩

def exposedKeys (s : Struct) : List String :=
  (firstOfKeys Table.empty (s.usedTypes false)).map (·.key)

def hiddenKeys (s : Struct) : List String :=
  (firstOfKeys (TextSet.ofList ((s.usedTypes false).map (·.key))) (s.usedTypes true)).map (·.key)

def namedOnly (s : Struct) : Struct := { s with fields := s.fields.filter (!·.embedded) }

def embeddedOnly (s : Struct) : Struct := { s with fields := s.fields.filter (·.embedded) }

section Firsts

variable {seen : TextSet} {types : List TypeName}

theorem mem_of_mem_firstOfKeys {t : TypeName} (h : t ∈ firstOfKeys seen types) : t ∈ types := by
  induction types generalizing seen with
  | nil => exact h
  | cons first rest ih =>
    rw [firstOfKeys] at h
    split at h
    · exact List.mem_cons_of_mem _ (ih h)
    · rcases List.mem_cons.1 h with rfl | h
      · exact List.mem_cons_self
      · exact List.mem_cons_of_mem _ (ih h)

theorem key_mem_firstOfKeys_iff {key : String} :
    key ∈ (firstOfKeys seen types).map (·.key) ↔
      key ∈ types.map (·.key) ∧ ¬ seen.contains key = true := by
  induction types generalizing seen with
  | nil => simp [firstOfKeys]
  | cons first rest ih =>
    rw [firstOfKeys, List.map_cons, List.mem_cons]
    split
    · next hseen =>
      rw [ih]
      constructor
      · exact fun ⟨hrest, hnew⟩ => ⟨.inr hrest, hnew⟩
      · rintro ⟨rfl | hrest, hnew⟩
        · exact absurd hseen hnew
        · exact ⟨hrest, hnew⟩
    · next hnew =>
      rw [List.map_cons, List.mem_cons, ih, TextSet.contains_insert_iff]
      constructor
      · rintro (rfl | ⟨hrest, hother⟩)
        · exact ⟨.inl rfl, hnew⟩
        · exact ⟨.inr hrest, fun hseen => hother (.inr hseen)⟩
      · rintro ⟨rfl | hrest, hother⟩
        · exact .inl rfl
        · by_cases hkey : key = first.key
          · exact .inl hkey
          · exact .inr ⟨hrest, fun h => h.elim hkey hother⟩

theorem nodup_keys_firstOfKeys (seen : TextSet) (types : List TypeName) :
    ((firstOfKeys seen types).map (·.key)).Nodup := by
  induction types generalizing seen with
  | nil => exact List.nodup_nil
  | cons first rest ih =>
    rw [firstOfKeys]
    split
    · exact ih seen
    · rw [List.map_cons, List.nodup_cons]
      refine ⟨fun hmem => ?_, ih _⟩
      exact (key_mem_firstOfKeys_iff.1 hmem).2 (TextSet.contains_insert_iff.2 (.inl rfl))

end Firsts

/-! ### Keys and edges -/

variable {s : Struct}

theorem mem_usedTypes_iff {hidden : Bool} {t : TypeName} :
    t ∈ s.usedTypes hidden ↔ ∃ f, s.Mentions f t ∧ f.isPrivate = hidden := by
  simp only [usedTypes, List.mem_flatMap, List.mem_filter, Bool.and_eq_true, Bool.not_eq_true',
    beq_iff_eq]
  constructor
  · rintro ⟨f, ⟨hf, hembedded, hprivate⟩, ht, hbuiltin⟩
    exact ⟨f, ⟨hf, hembedded, ht, hbuiltin⟩, hprivate⟩
  · rintro ⟨f, hmentions, hprivate⟩
    exact ⟨f, ⟨hmentions.field, hmentions.named, hprivate⟩, hmentions.terminal,
      hmentions.declared⟩

theorem key_mem_usedTypes_iff {hidden : Bool} {key : String} :
    key ∈ (s.usedTypes hidden).map (·.key) ↔
      ∃ f t, s.Mentions f t ∧ f.isPrivate = hidden ∧ t.key = key := by
  simp only [List.mem_map, mem_usedTypes_iff]
  constructor
  · rintro ⟨t, ⟨f, hmentions, hprivate⟩, hkey⟩
    exact ⟨f, t, hmentions, hprivate, hkey⟩
  · rintro ⟨f, t, hmentions, hprivate, hkey⟩
    exact ⟨t, ⟨f, hmentions, hprivate⟩, hkey⟩

theorem mem_exposedKeys_iff {key : String} : key ∈ s.exposedKeys ↔ s.Exposes key := by
  rw [exposedKeys, key_mem_firstOfKeys_iff, key_mem_usedTypes_iff]
  exact and_iff_left (by simp [Table.contains])

theorem mem_hiddenKeys_iff {key : String} : key ∈ s.hiddenKeys ↔ s.Uses key ∧ ¬ s.Exposes key := by
  rw [hiddenKeys, key_mem_firstOfKeys_iff, TextSet.contains_ofList_iff, key_mem_usedTypes_iff,
    key_mem_usedTypes_iff]
  constructor
  · rintro ⟨⟨f, t, hmentions, -, hkey⟩, hunexposed⟩
    exact ⟨⟨f, t, hmentions, hkey⟩, hunexposed⟩
  · rintro ⟨⟨f, t, hmentions, hkey⟩, hunexposed⟩
    refine ⟨⟨f, t, hmentions, ?_, hkey⟩, hunexposed⟩
    by_contra hprivate
    exact hunexposed ⟨f, t, hmentions, Bool.not_eq_true _ ▸ hprivate, hkey⟩

theorem nodup_keys (s : Struct) : (s.exposedKeys ++ s.hiddenKeys).Nodup := by
  rw [List.nodup_append]
  refine ⟨nodup_keys_firstOfKeys _ _, nodup_keys_firstOfKeys _ _, ?_⟩
  rintro key hexposed _ hhidden rfl
  exact (mem_hiddenKeys_iff.1 hhidden).2 (mem_exposedKeys_iff.1 hexposed)

/-- Each type that is taken gives one edge, which stands for its key. -/
theorem aggregates_of_firstOfKeys {hidden : Bool} (seen : TextSet) :
    List.Forall₂ s.Aggregates ((firstOfKeys seen (s.usedTypes hidden)).map (·.key))
      ((firstOfKeys seen (s.usedTypes hidden)).map s.aggregationTo) := by
  rw [List.forall₂_map_left_iff, List.forall₂_map_right_iff, List.forall₂_same]
  intro t ht
  obtain ⟨f, hmentions, -⟩ := mem_usedTypes_iff.1 (mem_of_mem_firstOfKeys ht)
  exact ⟨f, t, hmentions, rfl, rfl⟩

theorem mentions_iff_of_perm {s' : Struct} (h : s'.fields.Perm s.fields) {f : Field}
    {t : TypeName} : s'.Mentions f t ↔ s.Mentions f t :=
  ⟨fun hm => ⟨h.mem_iff.1 hm.field, hm.named, hm.terminal, hm.declared⟩,
    fun hm => ⟨h.mem_iff.2 hm.field, hm.named, hm.terminal, hm.declared⟩⟩

theorem keys_perm {s' : Struct} (h : s'.fields.Perm s.fields) :
    s'.exposedKeys.Perm s.exposedKeys ∧ s'.hiddenKeys.Perm s.hiddenKeys := by
  obtain ⟨hexposed, hhidden, -⟩ := List.nodup_append.1 s.nodup_keys
  obtain ⟨hexposed', hhidden', -⟩ := List.nodup_append.1 s'.nodup_keys
  constructor
  · rw [List.perm_ext_iff_of_nodup hexposed' hexposed]
    intro key
    simp only [mem_exposedKeys_iff, Exposes, mentions_iff_of_perm h]
  · rw [List.perm_ext_iff_of_nodup hhidden' hhidden]
    intro key
    simp only [mem_hiddenKeys_iff, Exposes, Uses, mentions_iff_of_perm h]

theorem usedTypes_namedOnly (s : Struct) (hidden : Bool) :
    s.namedOnly.usedTypes hidden = s.usedTypes hidden := by
  rw [usedTypes, usedTypes, namedOnly, List.filter_filter]
  congr 2
  funext f
  cases f.embedded <;> simp

theorem usedTypes_embeddedOnly (s : Struct) (hidden : Bool) :
    s.embeddedOnly.usedTypes hidden = [] := by
  rw [List.eq_nil_iff_forall_not_mem]
  intro t ht
  obtain ⟨f, hmentions, -⟩ := mem_usedTypes_iff.1 ht
  have hembedded := (List.mem_filter.1 hmentions.field).2
  rw [hmentions.named] at hembedded
  cases hembedded

theorem embeddedFields_embeddedOnly (s : Struct) : s.embeddedOnly.embeddedFields = s.embeddedFields := by
  rw [embeddedFields, embeddedFields, embeddedOnly, List.filter_filter]
  simp only [Bool.and_self]

theorem embeddedFields_namedOnly (s : Struct) : s.namedOnly.embeddedFields = [] := by
  rw [embeddedFields, namedOnly, List.filter_filter]
  simp

/-- A struct has one composition for each embedded field, in order of the fields. For each key that
its named fields mention it has one aggregation, which is not private if and only if an exported
field mentions the key; this does not depend on the order of the fields. Named fields have no part
in the compositions, and embedded fields none in the aggregations. -/
theorem edges_of_fields (s : Struct) :
    List.Forall₂ s.Composes (s.fields.filter (·.embedded)) s.compositions ∧
      (List.Forall₂ s.Aggregates s.exposedKeys s.aggregations ∧
        List.Forall₂ s.Aggregates s.hiddenKeys s.privateAggregations ∧
        (s.exposedKeys ++ s.hiddenKeys).Nodup ∧
        (∀ key, key ∈ s.exposedKeys ↔ s.Exposes key) ∧
        ∀ key, key ∈ s.hiddenKeys ↔ s.Uses key ∧ ¬ s.Exposes key) ∧
      (∀ s' : Struct, s'.fields.Perm s.fields →
        s'.exposedKeys.Perm s.exposedKeys ∧ s'.hiddenKeys.Perm s.hiddenKeys) ∧
      (s.embeddedOnly.compositions = s.compositions ∧ s.embeddedOnly.aggregations = [] ∧
        s.embeddedOnly.privateAggregations = []) ∧
      s.namedOnly.compositions = [] ∧ s.namedOnly.aggregations = s.aggregations ∧
        s.namedOnly.privateAggregations = s.privateAggregations := by
  refine ⟨?_, ⟨aggregates_of_firstOfKeys _, aggregates_of_firstOfKeys _, s.nodup_keys,
    fun _ => mem_exposedKeys_iff, fun _ => mem_hiddenKeys_iff⟩, fun _ => keys_perm, ⟨?_, ?_, ?_⟩,
    ?_, ?_, ?_⟩
  · rw [compositions, List.forall₂_map_right_iff, embeddedFields, List.forall₂_same]
    exact fun _ _ => rfl
  · rw [compositions, compositions, embeddedFields_embeddedOnly]
    rfl
  · rw [aggregations, usedTypes_embeddedOnly]
    rfl
  · rw [privateAggregations, usedTypes_embeddedOnly, usedTypes_embeddedOnly]
    rfl
  · rw [compositions, embeddedFields_namedOnly]
    rfl
  · rw [aggregations, aggregations, usedTypes_namedOnly]
    rfl
  · rw [privateAggregations, privateAggregations, usedTypes_namedOnly, usedTypes_namedOnly]
    rfl

/-- One type is embedded and stands in private fields, and in an exported one behind them. -/
def cabinet : Struct where
  name := "Cabinet"
  package := shop
  fields :=
    [⟨"drawer", shop.view (.map (.basic "string") (.slice item)), false⟩,
     ⟨"Item", shop.view item, true⟩,
     ⟨"lock", shop.view (.signature ⟨[⟨"", lock⟩, ⟨"", item⟩], [⟨"", lock⟩]⟩), false⟩,
     ⟨"Top", shop.view (.chan (.pointer item)), false⟩]
  methods := []
  implemented := []
where
  shop : PackageId := ⟨"shop", "example.com/shop"⟩
  item : GoType := .named "Item" (some ⟨"item", "example.com/item"⟩)
  lock : GoType := .named "Lock" (some shop)

theorem edges_of_fields_cabinet :
    cabinet.exposedKeys = ["example.com/item.Item"] ∧
      cabinet.hiddenKeys = ["example.com/shop.Lock"] ∧
      List.Forall₂ cabinet.Aggregates cabinet.exposedKeys cabinet.aggregations ∧
      List.Forall₂ cabinet.Aggregates cabinet.hiddenKeys cabinet.privateAggregations ∧
      Struct.exposedKeys { cabinet with fields := cabinet.fields.reverse } =
        ["example.com/item.Item"] := by
  have hexposed : cabinet.exposedKeys = ["example.com/item.Item"] := by decide +kernel
  obtain ⟨-, ⟨haggregations, hprivate, -⟩, horder, -⟩ := edges_of_fields cabinet
  have hreverse :=
    (horder { cabinet with fields := cabinet.fields.reverse } (List.reverse_perm _)).1
  rw [hexposed] at hreverse
  exact ⟨hexposed, by decide +kernel, haggregations, hprivate, List.perm_singleton.1 hreverse⟩

end Struct

end GoUml
