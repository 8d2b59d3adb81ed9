import GoUml.Identifiers
import GoUml.Proofs.Correspondence
import Mathlib.Data.List.Perm.Subperm

/-!
# Identifiers are handed out once

A number behind one base can read like another base, and packages of one name share their bases, so
neither the base nor the number keeps two composite types apart. What does is the set of names in
use: it holds exactly the identifiers of the table, and a new identifier is the first candidate
outside of it. There always is one, because the candidates of a base are pairwise different and only
finitely many names are in use.
-/

namespace GoUml

open Text

namespace Identifiers

def Alphanumeric (text : String) : Prop :=
  ∀ c ∈ text.toList, (isAsciiLetter c || isAsciiDigit c) = true

theorem alphanumeric_sanitize (text : String) : Alphanumeric (sanitize text) := by
  intro c hc
  rw [sanitize, String.toList_ofList] at hc
  exact (List.mem_filter.1 hc).2

theorem alphanumeric_toString (n : Nat) : Alphanumeric (toString n) := by
  intro c hc
  rw [Nat.toString_eq_ofList_toDigits, String.toList_ofList] at hc
  have hdigit : c.isDigit = true := Nat.isDigit_of_mem_toDigits (by omega) (by omega) hc
  have hascii : isAsciiDigit c = true := by
    rw [Char.isDigit, Bool.and_eq_true] at hdigit
    rw [isAsciiDigit, Bool.and_eq_true]
    exact hdigit
  rw [hascii, Bool.or_true]

theorem Alphanumeric.append {a b : String} (ha : Alphanumeric a) (hb : Alphanumeric b) :
    Alphanumeric (a ++ b) := by
  intro c hc
  rw [String.toList_append] at hc
  rcases List.mem_append.1 hc with hc | hc
  · exact ha c hc
  · exact hb c hc

theorem Alphanumeric.candidate {base : String} (h : Alphanumeric base) (n : Nat) :
    Alphanumeric (candidate base n) := by
  cases n with
  | zero => exact h
  | succ n => exact h.append (alphanumeric_toString (n + 2))

/-- The characters behind the base. -/
theorem toList_candidate_succ (base : String) (n : Nat) :
    (candidate base (n + 1)).toList = base.toList ++ Nat.toDigits 10 (n + 2) := by
  rw [candidate, String.toList_append, Nat.toString_eq_ofList_toDigits, String.toList_ofList]

theorem candidate_injective (base : String) : Function.Injective (candidate base) := by
  have hne : ∀ n, base ≠ candidate base (n + 1) := by
    intro n heq
    have hlist := congrArg String.toList heq
    rw [toList_candidate_succ, List.self_eq_append_right] at hlist
    exact Nat.toDigits_ne_nil hlist
  intro m n h
  cases m with
  | zero =>
    cases n with
    | zero => rfl
    | succ n => exact absurd h (hne n)
  | succ m =>
    cases n with
    | zero => exact absurd h.symm (hne m)
    | succ n =>
      have hlist := congrArg String.toList h
      rw [toList_candidate_succ, toList_candidate_succ, List.append_cancel_left_eq] at hlist
      have hvalue := congrArg (fun digits => Nat.ofDigitChars 10 digits 0) hlist
      simp only [Nat.ofDigitChars_ten_toDigits] at hvalue
      omega

/-- The `n`-th candidate of the base is free and all before it are in use. -/
def FirstFree (taken : TextSet) (base : String) (n : Nat) : Prop :=
  taken.contains (candidate base n) = false ∧
    ∀ m < n, taken.contains (candidate base m) = true

theorem exists_free (taken : TextSet) (base : String) :
    ∃ n ≤ taken.size, taken.contains (candidate base n) = false := by
  by_contra hnone
  push Not at hnone
  have hsubset : (List.range (taken.size + 1)).map (candidate base) ⊆ taken.keys := by
    intro name hname
    obtain ⟨n, hn, rfl⟩ := List.mem_map.1 hname
    have hle : n ≤ taken.size := Nat.lt_succ_iff.1 (List.mem_range.1 hn)
    exact Table.mem_keys_iff.2 (Bool.eq_true_of_not_eq_false (hnone n hle))
  have hnodup : ((List.range (taken.size + 1)).map (candidate base)).Nodup :=
    List.nodup_range.map (candidate_injective base)
  have hlength := (hnodup.subperm hsubset).length_le
  rw [List.length_map, List.length_range, Table.keys, List.length_map, Table.size] at hlength
  omega

/-- The search ends, at the latest when it has tried one candidate more than there are names in
use. -/
theorem fresh_eq_candidate (taken : TextSet) (base : String) :
    ∃ n ≤ taken.size, FirstFree taken base n ∧ fresh taken base = candidate base n := by
  rw [fresh, List.find?_map]
  cases hfound : (List.range (taken.size + 1)).find? ((fun name => !taken.contains name) ∘
      candidate base) with
  | none =>
    obtain ⟨n, hn, hfree⟩ := exists_free taken base
    have hnot := List.find?_eq_none.1 hfound n (List.mem_range.2 (by omega))
    simp [hfree] at hnot
  | some n =>
    obtain ⟨hfree, hn, hbefore⟩ := List.find?_range_eq_some.1 hfound
    have hle : n ≤ taken.size := Nat.lt_succ_iff.1 (List.mem_range.1 hn)
    refine ⟨n, hle, ⟨by simpa using hfree, fun m hm => ?_⟩, rfl⟩
    simpa using hbefore m hm

/-! ### One registration -/

def baseOf (package : PackageId) (type : TypeName) : String :=
  sanitize (package.name ++ type.goName)

/-- The table with a type put in under the `n`-th candidate. -/
def enter (ids : Identifiers) (package : PackageId) (type : TypeName) (n : Nat) : Identifiers where
  entries := ids.entries.put package.path type.key
    ⟨package, type.goName, candidate (baseOf package type) n⟩
  taken := TextSet.insert ids.taken (candidate (baseOf package type) n)

/-- A registration finds an entry and does nothing, or finds none and enters the first free
candidate. -/
theorem register_cases (ids : Identifiers) (package : PackageId) (type : TypeName) :
    (∃ e, ids.entries.get? package.path type.key = some e ∧ ids.register package type = ids) ∨
    ids.entries.get? package.path type.key = none ∧
      ∃ n ≤ ids.taken.size, FirstFree ids.taken (baseOf package type) n ∧
        ids.register package type = ids.enter package type n := by
  cases hfound : ids.entries.get? package.path type.key with
  | some e => exact .inl ⟨e, rfl, by simp only [register, hfound]⟩
  | none =>
    obtain ⟨n, hn, hfree, hfresh⟩ := fresh_eq_candidate ids.taken (baseOf package type)
    refine .inr ⟨rfl, n, hn, hfree, ?_⟩
    simp only [register, hfound]
    rw [← baseOf, hfresh]
    rfl

theorem get?_enter (ids : Identifiers) (package : PackageId) (type : TypeName) (n : Nat)
    (path key : String) :
    (ids.enter package type n).entries.get? path key =
      if path = package.path ∧ key = type.key then
        some ⟨package, type.goName, candidate (baseOf package type) n⟩
      else ids.entries.get? path key :=
  PackageTable.get?_put _ _ _ _ _ _

/-- Names in use are the names of the entries, no two entries share one, and each is a candidate of
its own base. -/
structure Sound (ids : Identifiers) : Prop where
  derived : ∀ path key e, ids.entries.get? path key = some e →
    ∃ n < ids.taken.size, e.identifier = candidate (sanitize (e.package.name ++ e.displayed)) n
  distinct : ∀ path key e path' key' e', ids.entries.get? path key = some e →
    ids.entries.get? path' key' = some e' → e.identifier = e'.identifier →
      path = path' ∧ key = key'
  taken_iff : ∀ name, ids.taken.contains name = true ↔
    ∃ path key e, ids.entries.get? path key = some e ∧ e.identifier = name

theorem sound_empty : Sound empty where
  derived _ _ _ hfound := by cases hfound
  distinct _ _ _ _ _ _ hfound := by cases hfound
  taken_iff name := by
    constructor
    · intro htaken
      cases htaken
    · rintro ⟨path, key, e, hfound, -⟩
      cases hfound

theorem Sound.enter {ids : Identifiers} (h : ids.Sound) {package : PackageId} {type : TypeName}
    (hnew : ids.entries.get? package.path type.key = none) {n : Nat} (hn : n ≤ ids.taken.size)
    (hfree : FirstFree ids.taken (baseOf package type) n) : (ids.enter package type n).Sound := by
  have hsize : (ids.enter package type n).taken.size = ids.taken.size + 1 := by
    have hnone := hfree.1
    rw [Table.contains, Option.isSome_eq_false_iff, Option.isNone_iff_eq_none] at hnone
    exact Table.size_insert_of_new hnone ()
  have hunused : ∀ path key e, ids.entries.get? path key = some e →
      e.identifier ≠ candidate (baseOf package type) n := by
    intro path key e hfound heq
    have htaken := (h.taken_iff _).2 ⟨path, key, e, hfound, heq⟩
    rw [hfree.1] at htaken
    cases htaken
  refine ⟨?_, ?_, ?_⟩
  · intro path key e hfound
    rw [get?_enter] at hfound
    rw [hsize]
    split at hfound
    · cases hfound
      exact ⟨n, by omega, rfl⟩
    · obtain ⟨m, hm, heq⟩ := h.derived path key e hfound
      exact ⟨m, by omega, heq⟩
  · intro path key e path' key' e' hfound hfound' heq
    rw [get?_enter] at hfound hfound'
    split at hfound
    · next hplace =>
      split at hfound'
      · next hplace' => exact ⟨hplace.1.trans hplace'.1.symm, hplace.2.trans hplace'.2.symm⟩
      · cases hfound
        exact absurd heq.symm (hunused path' key' e' hfound')
    · split at hfound'
      · cases hfound'
        exact absurd heq (hunused path key e hfound)
      · exact h.distinct path key e path' key' e' hfound hfound' heq
  · intro name
    rw [Identifiers.enter, TextSet.contains_insert_iff, h.taken_iff]
    constructor
    · rintro (rfl | ⟨path, key, e, hfound, heq⟩)
      · exact ⟨package.path, type.key, _, by rw [PackageTable.get?_put, if_pos ⟨rfl, rfl⟩], rfl⟩
      · refine ⟨path, key, e, ?_, heq⟩
        rw [PackageTable.get?_put, if_neg, hfound]
        rintro ⟨rfl, rfl⟩
        rw [hnew] at hfound
        cases hfound
    · rintro ⟨path, key, e, hfound, heq⟩
      rw [PackageTable.get?_put] at hfound
      split at hfound
      · cases hfound
        exact .inl heq.symm
      · exact .inr ⟨path, key, e, hfound, heq⟩

theorem Sound.register {ids : Identifiers} (h : ids.Sound) (package : PackageId)
    (type : TypeName) : (ids.register package type).Sound := by
  rcases register_cases ids package type with ⟨e, -, heq⟩ | ⟨hnew, n, hn, hfree, heq⟩
  · rwa [heq]
  · rw [heq]
    exact h.enter hnew hn hfree

theorem Sound.nodup_identifiers {ids : Identifiers} (h : ids.Sound) :
    (ids.entries.all.map (·.identifier)).Nodup :=
  PackageTable.nodup_all_map_of_inj h.distinct

/-- As many names are in use as there are entries. -/
theorem Sound.size_eq {ids : Identifiers} (h : ids.Sound) : ids.size = ids.taken.size := by
  have htaken : ids.taken.keys.Nodup := by
    apply ids.taken.pairwise_keys.imp
    rintro a b hlt rfl
    exact String.lt_irrefl _ hlt
  have hperm : (ids.entries.all.map (·.identifier)).Perm ids.taken.keys := by
    rw [List.perm_ext_iff_of_nodup h.nodup_identifiers htaken]
    intro name
    rw [Table.mem_keys_iff, ← Table.contains, h.taken_iff]
    simp only [List.mem_map, PackageTable.mem_all_iff]
    constructor
    · rintro ⟨e, ⟨path, key, he⟩, rfl⟩
      exact ⟨path, key, e, he, rfl⟩
    · rintro ⟨path, key, e, he, rfl⟩
      exact ⟨e, ⟨path, key, he⟩, rfl⟩
  have hlength := hperm.length_eq
  rwa [List.length_map, Table.keys, List.length_map] at hlength

/-! ### Every sequence of registrations -/

def registerAll (calls : List (PackageId × TypeName)) : Identifiers :=
  calls.foldl (fun ids call => ids.register call.1 call.2) empty

theorem registerAll_concat (calls : List (PackageId × TypeName)) (package : PackageId)
    (type : TypeName) :
    registerAll (calls ++ [(package, type)]) = (registerAll calls).register package type := by
  rw [registerAll, List.foldl_append]
  rfl

theorem sound_registerAll (calls : List (PackageId × TypeName)) : (registerAll calls).Sound :=
  List.foldlRecOn calls _ sound_empty fun _ h call _ => h.register call.1 call.2

/-- An entry belongs to one of the registrations of its path and key. -/
theorem exists_call_of_get? {calls : List (PackageId × TypeName)} {path key : String}
    {e : IdentifierEntry} (h : (registerAll calls).entries.get? path key = some e) :
    ∃ call ∈ calls, call.1.path = path ∧ call.2.key = key ∧ e.package = call.1 ∧
      e.displayed = call.2.goName := by
  induction calls using List.reverseRecOn with
  | nil => cases h
  | append_singleton calls call ih =>
    obtain ⟨package, type⟩ := call
    have hearlier : (registerAll calls).entries.get? path key = some e →
        ∃ call ∈ calls ++ [(package, type)], call.1.path = path ∧ call.2.key = key ∧
          e.package = call.1 ∧ e.displayed = call.2.goName := by
      intro hfound
      obtain ⟨call, hcall, hspec⟩ := ih hfound
      exact ⟨call, List.mem_append_left _ hcall, hspec⟩
    rw [registerAll_concat] at h
    rcases register_cases (registerAll calls) package type with ⟨-, -, heq⟩ | ⟨-, n, -, -, heq⟩
    · rw [heq] at h
      exact hearlier h
    · rw [heq, get?_enter] at h
      split at h
      · next hplace =>
        cases h
        exact ⟨(package, type), by simp, hplace.1.symm, hplace.2.symm, rfl, rfl⟩
      · exact hearlier h

/-- What a registration finds, it leaves. -/
theorem get?_register_of_some {ids : Identifiers} {path key : String} {e : IdentifierEntry}
    (h : ids.entries.get? path key = some e) (package : PackageId) (type : TypeName) :
    (ids.register package type).entries.get? path key = some e := by
  rcases register_cases ids package type with ⟨-, -, heq⟩ | ⟨hnew, n, -, -, heq⟩
  · rwa [heq]
  · rw [heq, get?_enter, if_neg, h]
    rintro ⟨rfl, rfl⟩
    rw [hnew] at h
    cases h

theorem get?_registerAll_append {calls : List (PackageId × TypeName)} {path key : String}
    {e : IdentifierEntry} (h : (registerAll calls).entries.get? path key = some e)
    (later : List (PackageId × TypeName)) :
    (registerAll (calls ++ later)).entries.get? path key = some e := by
  induction later using List.reverseRecOn with
  | nil => rwa [List.append_nil]
  | append_singleton later call ih =>
    rw [← List.append_assoc, registerAll_concat]
    exact get?_register_of_some ih call.1 call.2

theorem isSome_identifier?_register (ids : Identifiers) (package : PackageId) (type : TypeName) :
    ((ids.register package type).identifier? package.path type).isSome = true := by
  rw [identifier?, Option.isSome_map]
  rcases register_cases ids package type with ⟨e, hfound, heq⟩ | ⟨-, n, -, -, heq⟩
  · rw [heq, hfound, Option.isSome_some]
  · rw [heq, get?_enter, if_pos ⟨rfl, rfl⟩, Option.isSome_some]

theorem identifier?_registerAll_append {calls : List (PackageId × TypeName)} {path name : String}
    {type : TypeName} (h : (registerAll calls).identifier? path type = some name)
    (later : List (PackageId × TypeName)) :
    (registerAll (calls ++ later)).identifier? path type = some name := by
  obtain ⟨e, he, rfl⟩ := Option.map_eq_some_iff.1 h
  rw [identifier?, get?_registerAll_append he later, Option.map_some]

theorem isSome_identifier?_iff {calls : List (PackageId × TypeName)} {path : String}
    {type : TypeName} :
    ((registerAll calls).identifier? path type).isSome = true ↔
      ∃ call ∈ calls, call.1.path = path ∧ call.2.key = type.key := by
  constructor
  · intro h
    rw [identifier?, Option.isSome_map] at h
    obtain ⟨e, he⟩ := Option.isSome_iff_exists.1 h
    obtain ⟨call, hcall, hpath, hkey, -⟩ := exists_call_of_get? he
    exact ⟨call, hcall, hpath, hkey⟩
  · rintro ⟨⟨package, other⟩, hcall, rfl, hkey⟩
    obtain ⟨before, later, rfl⟩ := List.append_of_mem hcall
    have hfirst := isSome_identifier?_register (registerAll before) package other
    rw [← registerAll_concat] at hfirst
    obtain ⟨name, hname⟩ := Option.isSome_iff_exists.1 hfirst
    have hlast := identifier?_registerAll_append hname later
    rw [List.append_assoc, List.singleton_append, identifier?, hkey] at hlast
    rw [identifier?, hlast, Option.isSome_some]

/-- Whatever is registered, in whatever order: no two entries of the table share an identifier, all
identifiers are made of ASCII letters and digits, and the names in use are the identifiers of the
entries. A type has an identifier in a package exactly when one with its key was registered there.
Registering it again changes nothing. Registering a new one searches no further than there are
entries and gives the first free candidate. The identifier that the first registration gives is the
one that is found ever after. -/
theorem registerAll_distinct_and_stable (calls : List (PackageId × TypeName)) :
    (∀ path key e path' key' e', (registerAll calls).entries.get? path key = some e →
      (registerAll calls).entries.get? path' key' = some e' → (path, key) ≠ (path', key') →
        e.identifier ≠ e'.identifier) ∧
    (∀ path key e, (registerAll calls).entries.get? path key = some e →
      Alphanumeric e.identifier) ∧
    (∀ name, (registerAll calls).taken.contains name = true ↔
      ∃ path key e, (registerAll calls).entries.get? path key = some e ∧ e.identifier = name) ∧
    (∀ path type, ((registerAll calls).identifier? path type).isSome = true ↔
      ∃ call ∈ calls, call.1.path = path ∧ call.2.key = type.key) ∧
    (∀ package type, ((registerAll calls).identifier? package.path type).isSome = true →
      (registerAll calls).register package type = registerAll calls) ∧
    (∀ package type, (registerAll calls).identifier? package.path type = none →
      ∃ n ≤ (registerAll calls).size, FirstFree (registerAll calls).taken (baseOf package type) n ∧
        ((registerAll calls).register package type).identifier? package.path type =
          some (candidate (baseOf package type) n)) ∧
    (∀ path type name, (registerAll calls).identifier? path type = some name →
      ∀ later, (registerAll (calls ++ later)).identifier? path type = some name) ∧
    ∀ package type, ∃ name,
      ((registerAll calls).register package type).identifier? package.path type = some name ∧
      ∀ later, (registerAll (calls ++ (package, type) :: later)).identifier? package.path type =
        some name := by
  have hsound := sound_registerAll calls
  refine ⟨?_, ?_, hsound.taken_iff, fun _ _ => isSome_identifier?_iff, ?_, ?_, ?_, ?_⟩
  · intro path key e path' key' e' hfound hfound' hne heq
    obtain ⟨hpath, hkey⟩ := hsound.distinct path key e path' key' e' hfound hfound' heq
    exact hne (Prod.ext hpath hkey)
  · intro path key e hfound
    obtain ⟨n, -, heq⟩ := hsound.derived path key e hfound
    rw [heq]
    exact (alphanumeric_sanitize _).candidate n
  · intro package type hsome
    rcases register_cases (registerAll calls) package type with ⟨-, -, heq⟩ | ⟨hnew, -⟩
    · exact heq
    · rw [identifier?, hnew] at hsome
      cases hsome
  · intro package type hnone
    rcases register_cases (registerAll calls) package type with
      ⟨e, hfound, -⟩ | ⟨-, n, hn, hfree, heq⟩
    · rw [identifier?, hfound] at hnone
      cases hnone
    · refine ⟨n, by rwa [hsound.size_eq], hfree, ?_⟩
      rw [heq, identifier?, get?_enter, if_pos ⟨rfl, rfl⟩, Option.map_some]
  · intro path type name hname later
    exact identifier?_registerAll_append hname later
  · intro package type
    obtain ⟨name, hname⟩ :=
      Option.isSome_iff_exists.1 (isSome_identifier?_register (registerAll calls) package type)
    refine ⟨name, hname, fun later => ?_⟩
    rw [← registerAll_concat] at hname
    have hlater := identifier?_registerAll_append hname later
    rwa [List.append_assoc] at hlater

end Identifiers

end GoUml
