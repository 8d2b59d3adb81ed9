import GoUml.Go.Resolution
import Mathlib.Data.List.Perm.Subperm

/-!
# Following declarations to a shape

A declared type often names another declared type, in another file or another package, and its shape
is that of the last declaration on this way. Declarations can also lead round in a circle, and then
the way ends at the first one that is met again. Every declaration is followed at most once, since
those visited have different keys and are all of the load; this is why the bound on the number of
steps is never what ends the search. Each declaration on the way is read where it stands: names in
it are bound by its own package, the imports of its own file and its own type parameters.
-/

namespace GoUml.Go.Load

def Declared.key (d : Declared) : String × String := (d.scope.package.path, d.spec.name)

/-- The type as it is declared, with the names in it bound where the declaration stands. -/
def boundType (load : Load) (d : Declared) : GoType := load.resolve d.scope d.spec.type

/-- The declaration that a declared type names, if it is one of the load. -/
def next? (load : Load) (d : Declared) : Option Declared :=
  (load.target? (load.boundType d)).map (·.1)

def visit? (load : Load) (d : Declared) : Nat → Option Declared
  | 0 => some d
  | n + 1 => (visit? load d n).bind load.next?

def keyAt? (load : Load) (d : Declared) (n : Nat) : Option (String × String) :=
  (load.visit? d n).map Declared.key

/-- The key that is visited after this many steps was visited before. -/
def RepeatsAt (load : Load) (d : Declared) (n : Nat) : Prop :=
  ∃ m < n, ∃ key, load.keyAt? d m = some key ∧ load.keyAt? d n = some key

/-- The declaration stands in a file of a package of the load, and its scope is what can be seen
from there. -/
def Placed (load : Load) (d : Declared) : Prop :=
  ∃ p ∈ load, ∃ file ∈ p.files, d.spec ∈ file.types ∧
    d.scope = ⟨⟨p.name, p.path⟩, file.imports, d.spec.typeParams⟩

/-- The type is a name that some package of the load declares. -/
def NamesDeclared (load : Load) (type : GoType) : Prop :=
  ∃ name package, type = .named name (some package) ∧
    ∃ d ∈ load.declarations, d.key = (package.path, name)

/-- Following declarations from `d` on, with no bound on the number of steps, ends with the given
type. -/
inductive Follows (load : Load) : Declared → List (String × String) → GoType → Prop
  | last {d : Declared} {visited : List (String × String)} (hnext : load.next? d = none) :
      Follows load d visited (load.boundType d)
  | round {d e : Declared} {visited : List (String × String)} (hnext : load.next? d = some e)
      (hvisited : e.key ∈ visited) : Follows load d visited (load.boundType d)
  | step {d e : Declared} {visited : List (String × String)} {result : GoType}
      (hnext : load.next? d = some e) (hvisited : e.key ∉ visited)
      (more : Follows load e (e.key :: visited) result) : Follows load d visited result

variable {load : Load} {d e : Declared} {visited : List (String × String)}

theorem find?_eq_none_iff {path name : String} :
    load.find? path name = none ↔ ∀ d ∈ load.declarations, d.key ≠ (path, name) := by
  simp [find?, Declared.key]

theorem mem_of_find? {path name : String} (h : load.find? path name = some d) :
    d ∈ load.declarations ∧ d.key = (path, name) := by
  refine ⟨List.mem_reverse.1 (List.mem_of_find?_eq_some h), ?_⟩
  have hkey := List.find?_some h
  simpa [Declared.key] using hkey

theorem target?_eq_some {type : GoType} {key : String × String}
    (h : load.target? type = some (d, key)) :
    d ∈ load.declarations ∧ d.key = key ∧
      ∃ package, type = .named key.2 (some package) ∧ package.path = key.1 := by
  unfold target? at h
  split at h
  · next name package =>
    obtain ⟨found, hfound, heq⟩ := Option.map_eq_some_iff.1 h
    obtain ⟨rfl, rfl⟩ := Prod.mk.inj heq
    obtain ⟨hmem, hkey⟩ := mem_of_find? hfound
    exact ⟨hmem, hkey, package, rfl, rfl⟩
  · cases h

theorem not_namesDeclared_of_target? {type : GoType} (h : load.target? type = none) :
    ¬ load.NamesDeclared type := by
  rintro ⟨name, package, rfl, d, hd, hkey⟩
  rw [target?, Option.map_eq_none_iff, find?_eq_none_iff] at h
  exact h d hd hkey

/-- A step goes to the declaration that is filed under the key that the declared type names. -/
theorem target?_boundType (load : Load) (d : Declared) :
    load.target? (load.boundType d) = (load.next? d).map fun e => (e, e.key) := by
  rw [next?]
  cases htarget : load.target? (load.boundType d) with
  | none => rfl
  | some found =>
    obtain ⟨e, key⟩ := found
    obtain ⟨-, rfl, -⟩ := target?_eq_some htarget
    rfl

theorem target?_of_next? (h : load.next? d = some e) :
    load.target? (load.boundType d) = some (e, e.key) := by
  rw [target?_boundType, h, Option.map_some]

theorem mem_declarations_of_next? (h : load.next? d = some e) : e ∈ load.declarations :=
  (target?_eq_some (target?_of_next? h)).1

theorem underlyingUpTo_of_next?_none (h : load.next? d = none) (limit : Nat) :
    load.underlyingUpTo limit d.scope d.spec.type visited = load.boundType d := by
  cases limit with
  | zero => rfl
  | succ limit =>
    have htarget := target?_boundType load d
    rw [h, Option.map_none, boundType] at htarget
    simp only [underlyingUpTo, htarget]
    rfl

theorem underlyingUpTo_of_next?_some (h : load.next? d = some e) (limit : Nat) :
    load.underlyingUpTo (limit + 1) d.scope d.spec.type visited =
      if e.key ∈ visited then load.boundType d
      else load.underlyingUpTo limit e.scope e.spec.type (e.key :: visited) := by
  have htarget := target?_of_next? h
  rw [boundType] at htarget
  simp only [underlyingUpTo, htarget, List.contains_iff_mem]
  rfl

/-! ### The bound on steps is never reached -/

/-- Visited declarations have different keys, so there are never more of them than declarations in
the load. -/
theorem length_visited_le (hnodup : visited.Nodup)
    (hdeclared : visited ⊆ load.declarations.map Declared.key) :
    visited.length ≤ load.declarations.length := by
  have hle := (List.subperm_of_subset hnodup hdeclared).length_le
  rwa [List.length_map] at hle

theorem follows_underlyingUpTo (limit : Nat) (d : Declared) (hnodup : visited.Nodup)
    (hdeclared : visited ⊆ load.declarations.map Declared.key)
    (hlimit : load.declarations.length < limit + visited.length) :
    load.Follows d visited (load.underlyingUpTo limit d.scope d.spec.type visited) := by
  induction limit generalizing d visited with
  | zero =>
    have hle := length_visited_le hnodup hdeclared
    omega
  | succ limit ih =>
    cases hnext : load.next? d with
    | none =>
      rw [underlyingUpTo_of_next?_none hnext]
      exact .last hnext
    | some e =>
      rw [underlyingUpTo_of_next?_some hnext]
      split
      · next hvisited => exact .round hnext hvisited
      · next hvisited =>
        have hmem := List.mem_map_of_mem (f := Declared.key) (mem_declarations_of_next? hnext)
        refine .step hnext hvisited (ih e ?_ ?_ ?_)
        · exact List.nodup_cons.2 ⟨hvisited, hnodup⟩
        · exact List.cons_subset.2 ⟨hmem, hdeclared⟩
        · rw [List.length_cons]
          omega

theorem follows_underlying (hd : d ∈ load.declarations) :
    load.Follows d [d.key] (load.underlying d) := by
  refine follows_underlyingUpTo _ d (List.pairwise_singleton _ _) ?_ ?_
  · exact List.cons_subset.2 ⟨List.mem_map_of_mem hd, List.nil_subset _⟩
  · rw [List.length_singleton]
    omega

theorem keyAt?_succ {n : Nat} (hn : load.visit? d n = some e) :
    load.keyAt? d (n + 1) = (load.next? e).map Declared.key := by
  rw [keyAt?, visit?, hn, Option.bind_some]

/-- The visited keys are those of the way so far, and none of them was met twice. -/
structure Tracks (load : Load) (d : Declared) (n : Nat) (visited : List (String × String)) :
    Prop where
  mem_iff : ∀ key, key ∈ visited ↔ ∃ m ≤ n, load.keyAt? d m = some key
  fresh : ∀ m ≤ n, ¬ load.RepeatsAt d m

theorem tracks_zero (load : Load) (d : Declared) : load.Tracks d 0 [d.key] := by
  constructor
  · intro key
    rw [List.mem_singleton]
    constructor
    · rintro rfl
      exact ⟨0, Nat.le_refl 0, rfl⟩
    · rintro ⟨m, hm, hkey⟩
      obtain rfl := Nat.le_zero.1 hm
      exact (Option.some.inj hkey).symm
  · rintro m hm ⟨k, hk, -⟩
    omega

variable {n : Nat}

theorem Tracks.repeatsAt_iff (h : load.Tracks d n visited) {key : String × String}
    (hkey : load.keyAt? d (n + 1) = some key) : load.RepeatsAt d (n + 1) ↔ key ∈ visited := by
  rw [h.mem_iff]
  constructor
  · rintro ⟨m, hm, key', hm', hlater⟩
    obtain rfl := Option.some.inj (hlater.symm.trans hkey)
    exact ⟨m, by omega, hm'⟩
  · rintro ⟨m, hm, hm'⟩
    exact ⟨m, by omega, key, hm', hkey⟩

theorem Tracks.step (h : load.Tracks d n visited) {key : String × String}
    (hkey : load.keyAt? d (n + 1) = some key) (hfresh : key ∉ visited) :
    load.Tracks d (n + 1) (key :: visited) := by
  constructor
  · intro key'
    rw [List.mem_cons, h.mem_iff]
    constructor
    · rintro (rfl | ⟨m, hm, hm'⟩)
      · exact ⟨n + 1, Nat.le_refl _, hkey⟩
      · exact ⟨m, by omega, hm'⟩
    · rintro ⟨m, hm, hm'⟩
      rcases Nat.le_succ_iff.1 hm with hle | rfl
      · exact .inr ⟨m, hle, hm'⟩
      · exact .inl (Option.some.inj (hm'.symm.trans hkey))
  · intro m hm
    rcases Nat.le_succ_iff.1 hm with hle | rfl
    · exact h.fresh m hle
    · exact mt (h.repeatsAt_iff hkey).1 hfresh

/-- The result is the type of the declaration behind which the way ends or comes round. -/
theorem Follows.exists_last {result : GoType} (h : load.Follows e visited result)
    (hn : load.visit? d n = some e) (htracks : load.Tracks d n visited) :
    ∃ m last, load.visit? d m = some last ∧ result = load.boundType last ∧
      (∀ k ≤ m, ¬ load.RepeatsAt d k) ∧
      (load.next? last = none ∨
        ∃ f, load.next? last = some f ∧ load.RepeatsAt d (m + 1)) := by
  induction h generalizing n with
  | @last e visited hnext => exact ⟨n, e, hn, rfl, htracks.fresh, .inl hnext⟩
  | @round e f visited hnext hvisited =>
    have hkey : load.keyAt? d (n + 1) = some f.key := by rw [keyAt?_succ hn, hnext, Option.map_some]
    exact ⟨n, e, hn, rfl, htracks.fresh, .inr ⟨f, hnext, (htracks.repeatsAt_iff hkey).2 hvisited⟩⟩
  | @step e f visited result hnext hvisited _ ih =>
    have hkey : load.keyAt? d (n + 1) = some f.key := by rw [keyAt?_succ hn, hnext, Option.map_some]
    apply ih (n := n + 1)
    · rw [visit?, hn, Option.bind_some, hnext]
    · exact htracks.step hkey hvisited

theorem visit?_eq_none_of_le {m : Nat} (h : n ≤ m) (hnone : load.visit? d n = none) :
    load.visit? d m = none := by
  induction h with
  | refl => exact hnone
  | step _ ih => rw [visit?, ih, Option.bind_none]

theorem not_repeatsAt_of_visit?_none (h : load.visit? d n = none) : ¬ load.RepeatsAt d n := by
  rintro ⟨m, -, key, -, hkey⟩
  rw [keyAt?, h] at hkey
  cases hkey

/-! ### Declarations where they stand -/

theorem placed_of_mem (h : d ∈ load.declarations) : load.Placed d := by
  obtain ⟨p, hp, hd⟩ := List.mem_flatMap.1 h
  obtain ⟨written, hwritten, rfl⟩ := List.mem_map.1 hd
  obtain ⟨file, hfile, hwritten⟩ := List.mem_flatMap.1 hwritten
  obtain ⟨spec, hspec, rfl⟩ := List.mem_map.1 hwritten
  exact ⟨p, hp, file, hfile, hspec, rfl⟩

theorem placed_of_visit? (hd : d ∈ load.declarations) (h : load.visit? d n = some e) :
    load.Placed e := by
  cases n with
  | zero =>
    cases h
    exact placed_of_mem hd
  | succ n =>
    obtain ⟨f, -, hnext⟩ := Option.bind_eq_some_iff.1 h
    exact placed_of_mem (mem_declarations_of_next? hnext)

/-- The shape of a type that a package of the load declares is found by following declarations,
which comes to an end. Where no key is visited twice, it is the bound type of the last declaration
on the way, and it names no type of the load. Otherwise it is the type with the first key that is
visited again. Every declaration on the way is read in the scope where it stands. -/
theorem underlying_of_chain {p : SourcePackage} (hp : p ∈ load) (hd : d ∈ declaredIn p) :
    ⟨d.spec.name, d.spec.isAlias, load.underlying d⟩ ∈ (load.resolvePackage p).declarations ∧
      load.Follows d [d.key] (load.underlying d) ∧
      (∀ n e, load.visit? d n = some e → load.Placed e) ∧
      ((∀ n, ¬ load.RepeatsAt d n) →
        ∃ n last, load.visit? d n = some last ∧ load.visit? d (n + 1) = none ∧
          load.underlying d = load.boundType last ∧ ¬ load.NamesDeclared (load.underlying d)) ∧
      ((∃ n, load.RepeatsAt d n) →
        ∃ n key package, load.RepeatsAt d n ∧ (∀ m < n, ¬ load.RepeatsAt d m) ∧
          load.keyAt? d n = some key ∧ package.path = key.1 ∧
          load.underlying d = .named key.2 (some package)) := by
  have hdeclared : d ∈ load.declarations := List.mem_flatMap.2 ⟨p, hp, hd⟩
  have hfollows := follows_underlying hdeclared
  obtain ⟨n, last, hvisit, hresult, hfresh, hend⟩ :=
    hfollows.exists_last (n := 0) rfl (load.tracks_zero d)
  refine ⟨List.mem_map_of_mem hd, hfollows, fun _ _ => placed_of_visit? hdeclared, ?_, ?_⟩
  · intro hnever
    rcases hend with hnext | ⟨f, -, hrepeats⟩
    · refine ⟨n, last, hvisit, ?_, hresult, ?_⟩
      · rw [visit?, hvisit, Option.bind_some, hnext]
      · rw [hresult]
        apply not_namesDeclared_of_target?
        rw [target?_boundType, hnext, Option.map_none]
    · exact absurd hrepeats (hnever (n + 1))
  · rintro ⟨m, hm⟩
    rcases hend with hnext | ⟨f, hnext, hrepeats⟩
    · have hafter : load.visit? d (n + 1) = none := by rw [visit?, hvisit, Option.bind_some, hnext]
      rcases Nat.lt_or_ge n m with hlt | hle
      · exact absurd hm (not_repeatsAt_of_visit?_none (visit?_eq_none_of_le hlt hafter))
      · exact absurd hm (hfresh m hle)
    · obtain ⟨-, -, package, htype, hpath⟩ := target?_eq_some (target?_of_next? hnext)
      refine ⟨n + 1, f.key, package, hrepeats, fun k hk => hfresh k (by omega), ?_, hpath, ?_⟩
      · rw [keyAt?_succ hvisit, hnext, Option.map_some]
      · rw [hresult, htype]

/-- Two packages that import each other. Their types `Right` and `Left` are declared over each other,
and `Brass` leads to them. -/
def alloySource : SourcePackage where
  name := "alloy"
  path := "example.com/alloy"
  files :=
    [⟨"alloy", [⟨"example.com/ore", none⟩],
      [⟨"Right", [], false, .qualified "ore" "Left"⟩, ⟨"Brass", [], false, .name "Right"⟩], []⟩]

def oreSource : SourcePackage where
  name := "ore"
  path := "example.com/ore"
  files :=
    [⟨"ore", [⟨"example.com/alloy", some "mix"⟩],
      [⟨"Left", [], false, .qualified "mix" "Right"⟩], []⟩]

def brass : Declared :=
  ⟨⟨⟨"alloy", "example.com/alloy"⟩, [⟨"example.com/ore", none⟩], []⟩,
    ⟨"Brass", [], false, .name "Right"⟩⟩

theorem underlying_of_chain_brass :
    alloySource ∈ [alloySource, oreSource] ∧ brass ∈ declaredIn alloySource ∧
      Follows [alloySource, oreSource] brass [brass.key]
        (underlying [alloySource, oreSource] brass) ∧
      ∃ n key package, RepeatsAt [alloySource, oreSource] brass n ∧
        (∀ m < n, ¬ RepeatsAt [alloySource, oreSource] brass m) ∧
        keyAt? [alloySource, oreSource] brass n = some key ∧ package.path = key.1 ∧
        underlying [alloySource, oreSource] brass = .named key.2 (some package) := by
  have hp : alloySource ∈ [alloySource, oreSource] := List.mem_cons_self
  have hd : brass ∈ declaredIn alloySource := List.mem_cons_of_mem _ List.mem_cons_self
  have hrepeats : RepeatsAt [alloySource, oreSource] brass 3 := by
    refine ⟨1, by decide, ("example.com/alloy", "Right"), ?_, ?_⟩
    all_goals decide +kernel
  obtain ⟨-, hfollows, -, -, hround⟩ := underlying_of_chain hp hd
  exact ⟨hp, hd, hfollows, hround ⟨3, hrepeats⟩⟩

end GoUml.Go.Load
