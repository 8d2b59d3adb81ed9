import GoUml.Catalog
import Mathlib.Data.List.Nodup

/-!
# What tables answer

Everything the proofs know about tables is said through look-ups: what each operation does to the
value found at a key, and that a table is determined by what it answers. Entry lists and their
ascent stay inside this module. The second half says the same of tables keyed by path and name.
-/

namespace GoUml

namespace Table

variable {α β : Type}

theorem entryAt?_eq_none_of_forall_lt {key : String} {l : List (String × α)}
    (h : ∀ e ∈ l, key < e.1) : entryAt? key l = none := by
  induction l with
  | nil => rfl
  | cons head rest ih =>
    obtain ⟨k, a⟩ := head
    have hlt : key < k := h (k, a) List.mem_cons_self
    have hne : key ≠ k := fun heq => String.lt_irrefl _ (heq ▸ hlt)
    rw [entryAt?, if_neg hne]
    exact ih fun e he => h e (List.mem_cons_of_mem _ he)

theorem entryAt?_alterEntries (key k : String) (f : Option α → α) {l : List (String × α)}
    (h : l.Pairwise (fun a b => a.1 < b.1)) :
    entryAt? k (alterEntries key f l) =
      if k = key then some (f (entryAt? key l)) else entryAt? k l := by
  induction l with
  | nil => simp only [alterEntries, entryAt?]
  | cons head rest ih =>
    obtain ⟨k', a⟩ := head
    obtain ⟨hhead, hrest⟩ := List.pairwise_cons.1 h
    rw [alterEntries]
    split
    · next hlt =>
      have hnone : entryAt? key ((k', a) :: rest) = none := by
        apply entryAt?_eq_none_of_forall_lt
        intro e he
        rcases List.mem_cons.1 he with rfl | he
        · exact hlt
        · exact String.lt_trans hlt (hhead e he)
      rw [entryAt?, hnone]
    · split
      · next heq =>
        subst heq
        by_cases hk : k = key
        · simp [entryAt?, hk]
        · simp [entryAt?, hk]
      · next hne =>
        by_cases hk : k = k'
        · subst hk
          simp [entryAt?, Ne.symm hne]
        · simp [entryAt?, hk, hne, ih hrest]

theorem mem_iff_entryAt? {k : String} {a : α} {l : List (String × α)}
    (h : l.Pairwise (fun a b => a.1 < b.1)) : (k, a) ∈ l ↔ entryAt? k l = some a := by
  induction l with
  | nil => simp [entryAt?]
  | cons head rest ih =>
    obtain ⟨k', a'⟩ := head
    obtain ⟨hhead, hrest⟩ := List.pairwise_cons.1 h
    rw [List.mem_cons, ih hrest, entryAt?]
    by_cases hk : k = k'
    · subst hk
      have hnone : entryAt? k rest = none := entryAt?_eq_none_of_forall_lt hhead
      simp [hnone, eq_comm]
    · simp [hk]

theorem length_alterEntries {key : String} (f : Option α → α) {l : List (String × α)}
    (h : entryAt? key l = none) : (alterEntries key f l).length = l.length + 1 := by
  induction l with
  | nil => rfl
  | cons head rest ih =>
    obtain ⟨k, a⟩ := head
    by_cases hk : key = k
    · simp [entryAt?, hk] at h
    · rw [entryAt?, if_neg hk] at h
      rw [alterEntries, if_neg hk]
      split
      · rfl
      · rw [List.length_cons, List.length_cons, ih h]

/-! ### Look-ups -/

@[simp] theorem find?_empty (key : String) : (empty : Table α).find? key = none := rfl

theorem find?_alter (t : Table α) (key k : String) (f : Option α → α) :
    (t.alter key f).find? k = if k = key then some (f (t.find? key)) else t.find? k :=
  entryAt?_alterEntries key k f t.ascending

theorem find?_insert (t : Table α) (key k : String) (value : α) :
    (t.insert key value).find? k = if k = key then some value else t.find? k :=
  find?_alter t key k _

theorem size_insert_of_new {t : Table α} {key : String} (h : t.find? key = none) (value : α) :
    (t.insert key value).size = t.size + 1 :=
  length_alterEntries _ h

theorem find?_insertNew (t : Table α) (key k : String) (value : α) :
    (t.insertNew key value).find? k =
      if k = key then some ((t.find? key).getD value) else t.find? k :=
  find?_alter t key k _

theorem find?_modify (t : Table α) (key k : String) (f : α → α) :
    (t.modify key f).find? k = if k = key then (t.find? k).map f else t.find? k := by
  rw [modify]
  split
  · next value hvalue =>
    rw [find?_insert]
    split
    · next hk => rw [hk, hvalue, Option.map_some]
    · rfl
  · next hnone =>
    split
    · next hk => rw [hk, hnone, Option.map_none]
    · rfl

theorem find?_foldl_insert (entries : List (String × α)) (t : Table α) (key : String) :
    (entries.foldl (fun t e => t.insert e.1 e.2) t).find? key =
      ((entries.reverse.find? (·.1 = key)).map (·.2)).or (t.find? key) := by
  induction entries generalizing t with
  | nil => rfl
  | cons e rest ih =>
    rw [List.foldl_cons, ih, find?_insert, List.reverse_cons, List.find?_append, Option.map_or,
      Option.or_assoc]
    congr 1
    by_cases hkey : e.1 = key
    · simp [hkey]
    · simp [hkey, Ne.symm hkey]

/-- Of several entries with one key the last one counts. -/
theorem find?_ofList (entries : List (String × α)) (key : String) :
    (ofList entries).find? key = (entries.reverse.find? (·.1 = key)).map (·.2) := by
  rw [ofList, find?_foldl_insert, find?_empty, Option.or_none]

/-- A table made from a list of keys has a value at each of them. -/
theorem find?_ofList_map (keys : List String) (f : String → α) (key : String) :
    (ofList (keys.map fun k => (k, f k))).find? key =
      if key ∈ keys then some (f key) else none := by
  rw [find?_ofList, ← List.map_reverse, List.find?_map, Option.map_map]
  split
  · next hkey =>
    have hfound : keys.reverse.find? (fun k => k = key) = some key := by
      cases hfind : keys.reverse.find? (fun k => k = key) with
      | none => exact absurd (List.find?_eq_none.1 hfind key (List.mem_reverse.2 hkey)) (by simp)
      | some k => rw [of_decide_eq_true (List.find?_some hfind :)]
    exact congrArg (Option.map _) hfound
  · next hkey =>
    have hnone : keys.reverse.find? (fun k => k = key) = none := by
      rw [List.find?_eq_none]
      rintro k hk heq
      exact hkey (of_decide_eq_true heq ▸ List.mem_reverse.1 hk)
    exact congrArg (Option.map _) hnone

theorem mem_entries_iff {t : Table α} {key : String} {value : α} :
    (key, value) ∈ t.entries ↔ t.find? key = some value :=
  mem_iff_entryAt? t.ascending

theorem isEmpty_eq_false_iff {t : Table α} :
    t.isEmpty = false ↔ ∃ key value, t.find? key = some value := by
  rw [isEmpty, List.isEmpty_eq_false_iff_exists_mem]
  constructor
  · rintro ⟨⟨key, value⟩, he⟩
    exact ⟨key, value, mem_entries_iff.1 he⟩
  · rintro ⟨key, value, hfound⟩
    exact ⟨(key, value), mem_entries_iff.2 hfound⟩

theorem find?_map (f : String → α → β) (t : Table α) (key : String) :
    (t.map f).find? key = (t.find? key).map (f key) := by
  cases hfound : t.find? key with
  | some value =>
    rw [Option.map_some, ← mem_entries_iff]
    exact List.mem_map.2 ⟨(key, value), mem_entries_iff.2 hfound, rfl⟩
  | none =>
    rw [Option.map_none, Option.eq_none_iff_forall_ne_some]
    intro value hvalue
    obtain ⟨e, he, heq⟩ := List.mem_map.1 (mem_entries_iff.2 hvalue)
    obtain ⟨hkey, -⟩ := Prod.mk.inj heq
    have hsome : t.find? key = some e.2 := by
      rw [← hkey]
      exact mem_entries_iff.1 he
    rw [hfound] at hsome
    cases hsome

theorem nodup_entries (t : Table α) : t.entries.Nodup := by
  apply t.ascending.imp
  rintro a b hlt rfl
  exact String.lt_irrefl _ hlt

theorem pairwise_keys (t : Table α) : t.keys.Pairwise (· < ·) := by
  rw [keys, List.pairwise_map]
  exact t.ascending

theorem mem_keys_iff {t : Table α} {key : String} :
    key ∈ t.keys ↔ (t.find? key).isSome = true := by
  rw [keys, List.mem_map, Option.isSome_iff_exists]
  constructor
  · rintro ⟨⟨_, value⟩, he, rfl⟩
    exact ⟨value, mem_entries_iff.1 he⟩
  · rintro ⟨value, hfound⟩
    exact ⟨(key, value), mem_entries_iff.2 hfound, rfl⟩

/-- A table is what it answers. -/
theorem ext_find? {s t : Table α} (h : ∀ key, s.find? key = t.find? key) : s = t := by
  have hmem : ∀ e, e ∈ s.entries ↔ e ∈ t.entries := by
    rintro ⟨key, value⟩
    rw [mem_entries_iff, mem_entries_iff, h key]
  have hperm : s.entries.Perm t.entries :=
    (List.perm_ext_iff_of_nodup s.nodup_entries t.nodup_entries).2 hmem
  have hentries : s.entries = t.entries :=
    hperm.eq_of_pairwise (fun a b _ _ hab hba => absurd hab (String.lt_asymm hba))
      s.ascending t.ascending
  cases s
  cases t
  cases hentries
  rfl

theorem mem_values_iff {t : Table α} {value : α} :
    value ∈ t.values ↔ ∃ key, t.find? key = some value := by
  rw [values, List.mem_map]
  constructor
  · rintro ⟨⟨key, _⟩, he, rfl⟩
    exact ⟨key, mem_entries_iff.1 he⟩
  · rintro ⟨key, hfound⟩
    exact ⟨(key, value), mem_entries_iff.2 hfound, rfl⟩

end Table

namespace TextSet

theorem contains_insert_iff {set : TextSet} {text name : String} :
    (TextSet.insert set text).contains name = true ↔ name = text ∨ set.contains name = true := by
  rw [Table.contains, TextSet.insert, Table.find?_insert, Table.contains]
  by_cases hname : name = text
  · simp [hname]
  · simp [hname]

theorem find?_foldl_insert (texts : List String) (set : TextSet) (text : String) :
    (texts.foldl TextSet.insert set).find? text =
      if text ∈ texts then some () else set.find? text := by
  induction texts generalizing set with
  | nil => simp
  | cons t rest ih =>
    rw [List.foldl_cons, ih, TextSet.insert, Table.find?_insert]
    by_cases hrest : text ∈ rest
    · simp [hrest]
    · simp [hrest]

theorem contains_ofList_iff {texts : List String} {text : String} :
    (TextSet.ofList texts).contains text = true ↔ text ∈ texts := by
  rw [Table.contains, TextSet.ofList, find?_foldl_insert, Table.find?_empty]
  by_cases htext : text ∈ texts
  · simp [htext]
  · simp [htext]

end TextSet

/-! ### Tables by path and name -/

namespace PackageTable

variable {α : Type}

theorem get?_put (t : PackageTable α) (path name p n : String) (value : α) :
    (t.put path name value).get? p n = if p = path ∧ n = name then some value else t.get? p n := by
  rw [put, get?, Table.find?_alter]
  by_cases hp : p = path
  · subst hp
    rw [if_pos rfl, Option.bind_some, Table.find?_insert]
    by_cases hn : n = name
    · simp [hn]
    · cases hfound : t.find? p with
      | none => simp [hn, get?, hfound]
      | some names => simp [hn, get?, hfound]
  · rw [if_neg hp, if_neg fun h => hp h.1, get?]

theorem get?_modifyAt (t : PackageTable α) (path name p n : String) (f : α → α) :
    (t.modifyAt path name f).get? p n =
      if p = path ∧ n = name then (t.get? p n).map f else t.get? p n := by
  rw [modifyAt, get?, Table.find?_modify]
  by_cases hp : p = path
  · subst hp
    rw [if_pos rfl, get?]
    cases hfound : t.find? p with
    | none => simp
    | some names =>
      rw [Option.map_some, Option.bind_some, Option.bind_some, Table.find?_modify]
      by_cases hn : n = name
      · simp [hn]
      · simp [hn]
  · rw [if_neg hp, if_neg fun h => hp h.1, get?]

theorem isSome_find?_modifyAt (t : PackageTable α) (path name p : String) (f : α → α) :
    ((t.modifyAt path name f).find? p).isSome = (t.find? p).isSome := by
  rw [modifyAt, Table.find?_modify]
  split
  · rw [Option.isSome_map]
  · rfl

theorem get?_mapValues (f : α → α) (t : PackageTable α) (path name : String) :
    (t.mapValues f).get? path name = (t.get? path name).map f := by
  rw [mapValues, get?, Table.find?_map, get?]
  cases hfound : t.find? path with
  | none => rfl
  | some names => rw [Option.map_some, Option.bind_some, Table.find?_map, Option.bind_some]

theorem isSome_find?_mapValues (f : α → α) (t : PackageTable α) (path : String) :
    ((t.mapValues f).find? path).isSome = (t.find? path).isSome := by
  rw [mapValues, Table.find?_map, Option.isSome_map]

/-- A table by path and name is the paths it knows and what it answers. -/
theorem ext_get? {s t : PackageTable α} (hpaths : ∀ p, (s.find? p).isSome = (t.find? p).isSome)
    (hget : ∀ p n, s.get? p n = t.get? p n) : s = t := by
  apply Table.ext_find?
  intro p
  have hp := hpaths p
  cases hs : s.find? p with
  | none =>
    rw [hs, Option.isSome_none] at hp
    exact (Option.isNone_iff_eq_none.1 (by rw [← Option.not_isSome, ← hp]; rfl)).symm
  | some names =>
    rw [hs, Option.isSome_some] at hp
    obtain ⟨names', hnames'⟩ := Option.isSome_iff_exists.1 hp.symm
    rw [hnames']
    congr 1
    apply Table.ext_find?
    intro n
    have hn := hget p n
    rwa [get?, get?, hs, hnames', Option.bind_some, Option.bind_some] at hn

theorem mem_all_iff {t : PackageTable α} {value : α} :
    value ∈ t.all ↔ ∃ path name, t.get? path name = some value := by
  simp only [all, List.mem_flatMap, Table.mem_values_iff, get?, Option.bind_eq_some_iff]
  constructor
  · rintro ⟨names, ⟨path, hpath⟩, name, hname⟩
    exact ⟨path, name, names, hpath, hname⟩
  · rintro ⟨path, name, names, hpath, hname⟩
    exact ⟨names, ⟨path, hpath⟩, name, hname⟩

theorem all_mapValues (f : α → α) (t : PackageTable α) : (t.mapValues f).all = t.all.map f := by
  simp only [all, mapValues, Table.values, Table.map, List.map_flatMap, List.flatMap_map,
    List.map_map, Function.comp_def]

theorem inPackage_mapValues (f : α → α) (t : PackageTable α) (path : String) :
    (t.mapValues f).inPackage path = (t.inPackage path).map f := by
  rw [inPackage, mapValues, Table.find?_map, inPackage]
  cases t.find? path with
  | none => rfl
  | some names => simp [Table.values, Table.map]

theorem mem_inPackage_iff {t : PackageTable α} {path : String} {value : α} :
    value ∈ t.inPackage path ↔ ∃ name, t.get? path name = some value := by
  rw [inPackage]
  simp only [get?]
  cases t.find? path with
  | none => simp
  | some names =>
    rw [Option.map_some, Option.getD_some, Table.mem_values_iff]
    rfl

/-- Values that know the name at which they are filed are listed in ascending order of name. -/
theorem pairwise_inPackage {t : PackageTable α} {path : String} {key : α → String}
    (hkey : ∀ name value, t.get? path name = some value → key value = name) :
    (t.inPackage path).Pairwise fun a b => key a < key b := by
  rw [inPackage]
  simp only [get?] at hkey
  cases hfound : t.find? path with
  | none => exact .nil
  | some names =>
    rw [hfound] at hkey
    have hnamed : ∀ e ∈ names.entries, key e.2 = e.1 := fun e he =>
      hkey e.1 e.2 (Table.mem_entries_iff.1 he)
    rw [Option.map_some, Option.getD_some, Table.values, List.pairwise_map]
    apply names.ascending.imp_of_mem
    intro a b ha hb hlt
    rwa [hnamed a ha, hnamed b hb]

/-- Values that know where they are filed are listed once each. -/
theorem nodup_all_map {t : PackageTable α} {key : α → String × String}
    (hkey : ∀ p n value, t.get? p n = some value → key value = (p, n)) :
    (t.all.map key).Nodup := by
  have hinner : ∀ e ∈ t.entries, ∀ f ∈ e.2.entries, key f.2 = (e.1, f.1) := by
    intro e he f hf
    apply hkey
    rw [get?, Table.mem_entries_iff.1 he, Option.bind_some]
    exact Table.mem_entries_iff.1 hf
  rw [List.Nodup, all, List.map_flatMap, Table.values, List.flatMap_map, List.pairwise_flatMap]
  constructor
  · intro e he
    rw [Table.values, List.map_map, List.pairwise_map]
    apply e.2.ascending.imp_of_mem
    intro a b ha hb hlt heq
    simp only [Function.comp_apply, hinner e he a ha, hinner e he b hb, Prod.mk.injEq] at heq
    exact String.lt_irrefl _ (heq.2 ▸ hlt)
  · apply t.ascending.imp_of_mem
    intro a b ha hb hlt x hx y hy heq
    simp only [Table.values, List.map_map, List.mem_map, Function.comp_apply] at hx hy
    obtain ⟨f, hf, rfl⟩ := hx
    obtain ⟨g, hg, rfl⟩ := hy
    rw [hinner a ha f hf, hinner b hb g hg, Prod.mk.injEq] at heq
    exact String.lt_irrefl _ (heq.1 ▸ hlt)

end PackageTable

end GoUml
