import GoUml.Proofs.Filing
import GoUml.Proofs.MethodSet
import Mathlib.Data.Finset.Card
import Mathlib.Logic.Relation

/-!
# What an interface requires

An interface requires what is declared by the interfaces it reaches through embedding, itself
included. The search for it is depth first, shares one list of visited interfaces, keeps the first
key of each name and stops at the first obstacle. Here it is shown to compute the closure on every
embedding graph, with cycles or without: a search that ends well leaves the visited interfaces
closed under embedding, so nothing reachable is missed behind an interface that was visited before.
-/

namespace GoUml

namespace Catalog

/-- The embedded type belongs to a package and is a loaded interface there. -/
def Resolves (c : Catalog) (e : TypeView) (inner : Interface) : Prop :=
  ∃ package, e.package = some package ∧ c.findInterface? package.path e.goName = some inner

/-- The embedded type belongs to a package and is no loaded interface there. -/
def Dangles (c : Catalog) (e : TypeView) : Prop :=
  ∃ package, e.package = some package ∧ c.findInterface? package.path e.goName = none

def Embeds (c : Catalog) (i j : Interface) : Prop := ∃ e ∈ i.embedded, c.Resolves e j

/-- Every interface reaches itself and what the interfaces it reaches embed. -/
def Reaches (c : Catalog) : Interface → Interface → Prop := Relation.ReflTransGen c.Embeds

/-- No struct has what the interface asks for. -/
def Blocked (c : Catalog) (i : Interface) : Prop :=
  i.typeSet = true ∨ ∃ e ∈ i.embedded, c.Dangles e

end Catalog

def TypeView.IsError (e : TypeView) : Prop := e.package = none ∧ e.goName = "error"

/-- The interface declares a method with this name and key, or embeds the predeclared `error`, which
does. -/
def Interface.Asks (i : Interface) (name key : String) : Prop :=
  (∃ m ∈ i.methods, m.name = name ∧ m.signatureKey = key) ∨
    (∃ e ∈ i.embedded, e.IsError) ∧ name = "Error" ∧ key = "()(string)"

/-! ### The search without a bound

The rules below are the steps of the search, with no bound on its depth. A search that has a
derivation by these rules ends. -/

namespace Requirements

/-- The state after the declared methods of an interface are taken and before its embedded
interfaces are looked into. -/
def enter (found : Requirements) (i : Interface) : Requirements where
  methods := found.methods.addAll i.methods
  visited := i.entityKey :: found.visited

/-- The state after an embedded type that belongs to no package. -/
def pass (found : Requirements) (e : TypeView) : Requirements :=
  if e.goName == "error" then { found with methods := found.methods.addError } else found

@[simp] theorem visited_pass (found : Requirements) (e : TypeView) :
    (found.pass e).visited = found.visited := by
  rw [pass]
  split <;> rfl

end Requirements

namespace Catalog

/-- Looking into a list of embedded types ends with the given outcome. -/
inductive Collects (c : Catalog) : List TypeView → Requirements → Bool × Requirements → Prop
  | done (found : Requirements) : Collects c [] found (true, found)
  | pass {e : TypeView} {rest : List TypeView} {found : Requirements} {out : Bool × Requirements}
      (hpackage : e.package = none) (tail : Collects c rest (found.pass e) out) :
      Collects c (e :: rest) found out
  | dangling {e : TypeView} {found : Requirements} (rest : List TypeView) (hdangles : c.Dangles e) :
      Collects c (e :: rest) found (false, found)
  | typeSet {e : TypeView} {inner : Interface} {found : Requirements} (rest : List TypeView)
      (hinner : c.Resolves e inner) (htypeSet : inner.typeSet = true) :
      Collects c (e :: rest) found (false, found)
  | visited {e : TypeView} {rest : List TypeView} {inner : Interface} {found : Requirements}
      {out : Bool × Requirements} (hinner : c.Resolves e inner) (htypeSet : inner.typeSet = false)
      (hvisited : inner.entityKey ∈ found.visited) (tail : Collects c rest found out) :
      Collects c (e :: rest) found out
  | refused {e : TypeView} {inner : Interface} {found out : Requirements} (rest : List TypeView)
      (hinner : c.Resolves e inner) (hvisited : inner.entityKey ∉ found.visited)
      (below : Collects c inner.embedded (found.enter inner) (false, out)) :
      Collects c (e :: rest) found (false, out)
  | entered {e : TypeView} {rest : List TypeView} {inner : Interface} {found middle : Requirements}
      {out : Bool × Requirements} (hinner : c.Resolves e inner) (htypeSet : inner.typeSet = false)
      (hvisited : inner.entityKey ∉ found.visited)
      (below : Collects c inner.embedded (found.enter inner) (true, middle))
      (tail : Collects c rest middle out) : Collects c (e :: rest) found out

/-- Collecting what an interface requires ends with the given outcome. -/
inductive CollectsFrom (c : Catalog) (i : Interface) (found : Requirements) :
    Bool × Requirements → Prop
  | typeSet (htypeSet : i.typeSet = true) : CollectsFrom c i found (false, found)
  | visited (htypeSet : i.typeSet = false) (hvisited : i.entityKey ∈ found.visited) :
      CollectsFrom c i found (true, found)
  | entered {out : Bool × Requirements} (htypeSet : i.typeSet = false)
      (hvisited : i.entityKey ∉ found.visited) (below : Collects c i.embedded (found.enter i) out) :
      CollectsFrom c i found out

end Catalog

/-- Nothing that was visited or found is lost. -/
structure Requirements.Extends (found out : Requirements) : Prop where
  visited : found.visited ⊆ out.visited
  methods : ∀ name key, found.methods.find? name = some key → out.methods.find? name = some key

namespace Requirements.Extends

theorem refl (found : Requirements) : found.Extends found :=
  ⟨List.Subset.refl _, fun _ _ h => h⟩

theorem trans {found middle out : Requirements} (first : found.Extends middle)
    (second : middle.Extends out) : found.Extends out :=
  ⟨List.Subset.trans first.visited second.visited,
    fun name key h => second.methods name key (first.methods name key h)⟩

theorem enter (found : Requirements) (i : Interface) : found.Extends (found.enter i) := by
  refine ⟨List.subset_cons_self _ _, ?_⟩
  intro name key h
  rw [Requirements.enter, MethodSet.find?_addAll, h, Option.some_or]

theorem pass (found : Requirements) (e : TypeView) : found.Extends (found.pass e) := by
  refine ⟨by rw [Requirements.visited_pass]; exact List.Subset.refl _, ?_⟩
  intro name key h
  rw [Requirements.pass]
  split
  · rw [MethodSet.find?_addError, h, Option.some_or]
  · exact h

theorem isSome {found out : Requirements} (h : found.Extends out) {name : String}
    (hname : (found.methods.find? name).isSome = true) :
    (out.methods.find? name).isSome = true := by
  obtain ⟨key, hkey⟩ := Option.isSome_iff_exists.1 hname
  rw [h.methods name key hkey, Option.isSome_some]

end Requirements.Extends

namespace Catalog

variable {c : Catalog}

theorem Collects.extends {embeds : List TypeView} {found : Requirements} {out : Bool × Requirements}
    (h : c.Collects embeds found out) : found.Extends out.2 := by
  induction h with
  | done found => exact .refl found
  | pass _ _ ih => exact (Requirements.Extends.pass _ _).trans ih
  | dangling _ _ => exact .refl _
  | typeSet _ _ _ => exact .refl _
  | visited _ _ _ _ ih => exact ih
  | refused _ _ _ _ ih => exact (Requirements.Extends.enter _ _).trans ih
  | entered _ _ _ _ _ ihBelow ihTail =>
    exact ((Requirements.Extends.enter _ _).trans ihBelow).trans ihTail

/-! ### The bound is never reached

Every step down visits a loaded interface that was not visited before. -/

def unvisited (c : Catalog) (visited : List EntityKey) : Nat :=
  ((c.interfaces.all.map Interface.entityKey).toFinset \ visited.toFinset).card

theorem unvisited_le (c : Catalog) (visited : List EntityKey) :
    c.unvisited visited ≤ c.interfaces.all.length := by
  calc
    c.unvisited visited ≤ (c.interfaces.all.map Interface.entityKey).toFinset.card :=
      Finset.card_le_card Finset.sdiff_subset
    _ ≤ (c.interfaces.all.map Interface.entityKey).length := List.toFinset_card_le _
    _ = c.interfaces.all.length := List.length_map _

theorem unvisited_anti {visited later : List EntityKey} (h : visited ⊆ later) :
    c.unvisited later ≤ c.unvisited visited := by
  apply Finset.card_le_card
  apply Finset.sdiff_subset_sdiff (Finset.Subset.refl _)
  intro key hkey
  exact List.mem_toFinset.2 (h (List.mem_toFinset.1 hkey))

theorem unvisited_cons_lt {visited : List EntityKey} {i : Interface}
    (hi : i ∈ c.interfaces.all) (hvisited : i.entityKey ∉ visited) :
    c.unvisited (i.entityKey :: visited) < c.unvisited visited := by
  apply Finset.card_lt_card
  rw [Finset.ssubset_iff_of_subset]
  · refine ⟨i.entityKey, ?_, ?_⟩
    · rw [Finset.mem_sdiff, List.mem_toFinset, List.mem_toFinset]
      exact ⟨List.mem_map_of_mem hi, hvisited⟩
    · rw [Finset.mem_sdiff, List.mem_toFinset, List.mem_toFinset]
      exact fun h => h.2 List.mem_cons_self
  · apply Finset.sdiff_subset_sdiff (Finset.Subset.refl _)
    intro key hkey
    exact List.mem_toFinset.2 (List.mem_cons_of_mem _ (List.mem_toFinset.1 hkey))

theorem Resolves.mem_all {e : TypeView} {inner : Interface} (h : c.Resolves e inner) :
    inner ∈ c.interfaces.all := by
  obtain ⟨package, _, hfind⟩ := h
  exact PackageTable.mem_all_iff.2 ⟨package.path, e.goName, hfind⟩

theorem require_succ (c : Catalog) (fuel : Nat) (i : Interface) (found : Requirements) :
    c.require (fuel + 1) i found =
      if i.typeSet then (false, found)
      else if found.visited.contains i.entityKey then (true, found)
      else c.requireEmbeds (c.require fuel) i.embedded (found.enter i) := rfl

/-- With a bound above the number of unvisited interfaces the search follows the rules. -/
theorem collects_requireEmbeds (fuel : Nat) (embeds : List TypeView) (found : Requirements)
    (h : c.unvisited found.visited < fuel) :
    c.Collects embeds found (c.requireEmbeds (c.require fuel) embeds found) := by
  induction fuel generalizing embeds found with
  | zero => omega
  | succ fuel ih =>
    induction embeds generalizing found with
    | nil => exact .done found
    | cons e rest ihRest =>
      rw [requireEmbeds]
      cases hpackage : e.package with
      | none => exact .pass hpackage (ihRest (found.pass e) (by rwa [Requirements.visited_pass]))
      | some package =>
        dsimp only
        cases hfind : c.findInterface? package.path e.goName with
        | none => exact .dangling rest ⟨package, hpackage, hfind⟩
        | some inner =>
          have hinner : c.Resolves e inner := ⟨package, hpackage, hfind⟩
          dsimp only
          rw [require_succ]
          by_cases htypeSet : inner.typeSet = true
          · rw [if_pos htypeSet]
            exact .typeSet rest hinner htypeSet
          · rw [if_neg htypeSet]
            by_cases hvisited : found.visited.contains inner.entityKey = true
            · rw [if_pos hvisited]
              exact .visited hinner (Bool.not_eq_true _ ▸ htypeSet) (List.contains_iff_mem.1 hvisited)
                (ihRest found h)
            · rw [if_neg hvisited]
              rw [List.contains_iff_mem] at hvisited
              have hless := unvisited_cons_lt hinner.mem_all hvisited
              have hbelow := ih inner.embedded (found.enter inner) (by
                change c.unvisited (inner.entityKey :: found.visited) < fuel
                omega)
              cases hout : c.requireEmbeds (c.require fuel) inner.embedded (found.enter inner) with
              | mk ok middle =>
                rw [hout] at hbelow
                cases ok with
                | false => exact .refused rest hinner hvisited hbelow
                | true =>
                  have hextends := (Requirements.Extends.enter found inner).trans hbelow.extends
                  have hmiddle : c.unvisited middle.visited ≤ c.unvisited found.visited :=
                    unvisited_anti hextends.visited
                  exact .entered hinner (Bool.not_eq_true _ ▸ htypeSet) hvisited hbelow
                    (ihRest middle (by omega))

theorem collectsFrom_require (c : Catalog) (i : Interface) (found : Requirements) :
    c.CollectsFrom i found (c.require c.requireFuel i found) := by
  have hbound := c.unvisited_le (found.enter i).visited
  have hfuel : c.requireFuel = (c.interfaces.all.length + 1) + 1 := rfl
  rw [hfuel, require_succ]
  by_cases htypeSet : i.typeSet = true
  · rw [if_pos htypeSet]
    exact .typeSet htypeSet
  · rw [if_neg htypeSet]
    by_cases hvisited : found.visited.contains i.entityKey = true
    · rw [if_pos hvisited]
      exact .visited (Bool.not_eq_true _ ▸ htypeSet) (List.contains_iff_mem.1 hvisited)
    · rw [if_neg hvisited]
      rw [List.contains_iff_mem] at hvisited
      exact .entered (Bool.not_eq_true _ ▸ htypeSet) hvisited
        (collects_requireEmbeds _ i.embedded (found.enter i) (by omega))

/-- The embedded type has been dealt with. -/
def Settled (c : Catalog) (found : Requirements) (e : TypeView) : Prop :=
  (e.package = none ∧ (e.goName = "error" → (found.methods.find? "Error").isSome = true)) ∨
    ∃ inner, c.Resolves e inner ∧ inner.typeSet = false ∧ inner.entityKey ∈ found.visited

/-- The declared methods and the embedded types of the interface have been dealt with. -/
structure Covered (c : Catalog) (found : Requirements) (i : Interface) : Prop where
  methods : ∀ m ∈ i.methods, (found.methods.find? m.name).isSome = true
  embedded : ∀ e ∈ i.embedded, c.Settled found e

theorem Settled.mono {found out : Requirements} {e : TypeView} (h : c.Settled found e)
    (hextends : found.Extends out) : c.Settled out e := by
  rcases h with ⟨hpackage, herror⟩ | ⟨inner, hinner, htypeSet, hvisited⟩
  · exact .inl ⟨hpackage, fun hname => hextends.isSome (herror hname)⟩
  · exact .inr ⟨inner, hinner, htypeSet, hextends.visited hvisited⟩

theorem Covered.mono {found out : Requirements} {i : Interface} (h : c.Covered found i)
    (hextends : found.Extends out) : c.Covered out i :=
  ⟨fun m hm => hextends.isSome (h.methods m hm), fun e he => (h.embedded e he).mono hextends⟩

theorem isSome_find?_enter (found : Requirements) {i : Interface} {m : Function}
    (hm : m ∈ i.methods) : ((found.enter i).methods.find? m.name).isSome = true := by
  have hfirst : (i.methods.find? (·.name = m.name)).isSome = true :=
    List.find?_isSome.2 ⟨m, hm, decide_eq_true rfl⟩
  rw [Requirements.enter, MethodSet.find?_addAll, Option.isSome_or, Option.isSome_map, hfirst,
    Bool.or_true]

theorem settled_pass (found : Requirements) {e : TypeView} (hpackage : e.package = none) :
    c.Settled (found.pass e) e := by
  refine .inl ⟨hpackage, fun hname => ?_⟩
  rw [Requirements.pass, if_pos (beq_iff_eq.2 hname), MethodSet.find?_addError, if_pos rfl,
    Option.isSome_or, Option.isSome_some, Bool.or_true]

theorem Resolves.find?_entityKey (hfiled : c.Filed) {e : TypeView} {inner : Interface}
    (h : c.Resolves e inner) :
    c.findInterface? inner.entityKey.1 inner.entityKey.2 = some inner := by
  obtain ⟨package, _, hfind⟩ := h
  rw [hfiled.interfaces _ _ inner hfind]
  exact hfind

/-- A search that ends well has dealt with all it was given, and with every interface that it
visited. -/
theorem Collects.covered (hfiled : c.Filed) {embeds : List TypeView} {found : Requirements}
    {out : Bool × Requirements} (h : c.Collects embeds found out) (hok : out.1 = true) :
    (∀ e ∈ embeds, c.Settled out.2 e) ∧
      ∀ key ∈ out.2.visited, key ∈ found.visited ∨
        ∃ j, c.findInterface? key.1 key.2 = some j ∧ c.Covered out.2 j := by
  induction h with
  | done found => exact ⟨fun e he => absurd he List.not_mem_nil, fun key hkey => .inl hkey⟩
  | pass hpackage tail ih =>
    obtain ⟨hsettled, hvisited⟩ := ih hok
    refine ⟨?_, fun key hkey => ?_⟩
    · intro e he
      rcases List.mem_cons.1 he with rfl | he
      · exact (settled_pass _ hpackage).mono tail.extends
      · exact hsettled e he
    · simpa only [Requirements.visited_pass] using hvisited key hkey
  | dangling _ _ => cases hok
  | typeSet _ _ _ => cases hok
  | visited hinner htypeSet hkey tail ih =>
    obtain ⟨hsettled, hvisited⟩ := ih hok
    refine ⟨?_, hvisited⟩
    intro e he
    rcases List.mem_cons.1 he with rfl | he
    · exact .inr ⟨_, hinner, htypeSet, tail.extends.visited hkey⟩
    · exact hsettled e he
  | refused _ _ _ _ _ => cases hok
  | @entered e rest inner found middle out hinner htypeSet hkey below tail ihBelow ihTail =>
    obtain ⟨hembedded, hbelow⟩ := ihBelow rfl
    obtain ⟨hsettled, hvisited⟩ := ihTail hok
    have hcovered : c.Covered middle inner :=
      ⟨fun m hm => below.extends.isSome (isSome_find?_enter found hm), hembedded⟩
    constructor
    · intro e' he
      rcases List.mem_cons.1 he with rfl | he
      · have hentered : inner.entityKey ∈ (found.enter inner).visited := List.mem_cons_self
        exact .inr ⟨inner, hinner, htypeSet,
          tail.extends.visited (below.extends.visited hentered)⟩
      · exact hsettled e' he
    · intro key hkey
      rcases hvisited key hkey with hmiddle | hlater
      · rcases hbelow key hmiddle with hbefore | ⟨j, hj, hcoveredj⟩
        · rcases List.mem_cons.1 hbefore with rfl | hbefore
          · exact .inr ⟨inner, hinner.find?_entityKey hfiled, hcovered.mono tail.extends⟩
          · exact .inl hbefore
        · exact .inr ⟨j, hj, hcoveredj.mono tail.extends⟩
      · exact .inr hlater

/-- The visited interfaces of a search that ends well include all that is reachable. -/
theorem covered_of_reaches (hfiled : c.Filed) {i j : Interface} {out : Requirements}
    (hi : c.findInterface? i.entityKey.1 i.entityKey.2 = some i)
    (hself : c.Covered out i)
    (hvisited : ∀ key ∈ out.visited, key = i.entityKey ∨
      ∃ j, c.findInterface? key.1 key.2 = some j ∧ c.Covered out j)
    (htypeSet : i.typeSet = false) (hreaches : c.Reaches i j) :
    j.typeSet = false ∧ c.Covered out j := by
  induction hreaches with
  | refl => exact ⟨htypeSet, hself⟩
  | tail _ hembeds ih =>
    obtain ⟨-, hcovered⟩ := ih
    obtain ⟨e, he, hresolves⟩ := hembeds
    have hkey := hresolves.find?_entityKey hfiled
    obtain ⟨package, hpackage, hfind⟩ := hresolves
    rcases hcovered.embedded e he with ⟨hnone, -⟩ | ⟨inner, ⟨package', hpackage', hfind'⟩, hinner, hmem⟩
    · rw [hpackage] at hnone
      cases hnone
    · rw [hpackage] at hpackage'
      cases hpackage'
      rw [hfind] at hfind'
      cases hfind'
      refine ⟨hinner, ?_⟩
      rcases hvisited _ hmem with heq | ⟨j, hj, hcoveredj⟩
      · rw [heq, hi] at hkey
        cases hkey
        exact hself
      · rw [hkey] at hj
        cases hj
        exact hcoveredj

theorem Covered.not_blocked {found : Requirements} {i : Interface} (h : c.Covered found i)
    (htypeSet : i.typeSet = false) : ¬ c.Blocked i := by
  rintro (hset | ⟨e, he, package, hpackage, hnone⟩)
  · rw [htypeSet] at hset
    cases hset
  · rcases h.embedded e he with ⟨hnone', -⟩ | ⟨inner, ⟨package', hpackage', hfind⟩, -⟩
    · rw [hpackage] at hnone'
      cases hnone'
    · rw [hpackage] at hpackage'
      cases hpackage'
      rw [hnone] at hfind
      cases hfind

theorem Covered.isSome_of_asks {found : Requirements} {i : Interface} (h : c.Covered found i)
    {name key : String} (hasks : i.Asks name key) :
    (found.methods.find? name).isSome = true := by
  rcases hasks with ⟨m, hm, rfl, -⟩ | ⟨⟨e, he, hpackage, herror⟩, rfl, -⟩
  · exact h.methods m hm
  · rcases h.embedded e he with ⟨-, hfound⟩ | ⟨inner, ⟨package, hsome, -⟩, -⟩
    · exact hfound herror
    · rw [hpackage] at hsome
      cases hsome

/-! ### What any search finds -/

/-- An interface that the embedded type stands for reaches one that asks for the method, or the
embedded type is the predeclared `error` and the method is its own. -/
def Offers (c : Catalog) (e : TypeView) (name key : String) : Prop :=
  (e.IsError ∧ name = "Error" ∧ key = "()(string)") ∨
    ∃ inner j, c.Resolves e inner ∧ c.Reaches inner j ∧ j.Asks name key

theorem asks_of_offers {i : Interface} {e : TypeView} {name key : String} (he : e ∈ i.embedded)
    (hoffers : c.Offers e name key) : ∃ j, c.Reaches i j ∧ j.Asks name key := by
  rcases hoffers with ⟨herror, hname, hkey⟩ | ⟨inner, j, hinner, hreaches, hasks⟩
  · exact ⟨i, .refl, .inr ⟨⟨e, he, herror⟩, hname, hkey⟩⟩
  · exact ⟨j, .head ⟨e, he, hinner⟩ hreaches, hasks⟩

theorem find?_enter_cases {found : Requirements} {i : Interface} {name key : String}
    (h : (found.enter i).methods.find? name = some key) :
    found.methods.find? name = some key ∨ i.Asks name key := by
  rw [Requirements.enter, MethodSet.find?_addAll, Option.or_eq_some_iff] at h
  rcases h with h | ⟨-, h⟩
  · exact .inl h
  · obtain ⟨m, hm, rfl⟩ := Option.map_eq_some_iff.1 h
    have hname : m.name = name := MethodSet.name_eq_of_find? hm
    exact .inr (.inl ⟨m, List.mem_of_find?_eq_some hm, hname, rfl⟩)

theorem find?_pass_cases {found : Requirements} {e : TypeView} {name key : String}
    (hpackage : e.package = none) (h : (found.pass e).methods.find? name = some key) :
    found.methods.find? name = some key ∨ c.Offers e name key := by
  rw [Requirements.pass] at h
  split at h
  · next herror =>
    rw [MethodSet.find?_addError, Option.or_eq_some_iff] at h
    rcases h with h | ⟨-, h⟩
    · exact .inl h
    · split at h
      · next hname =>
        cases h
        exact .inr (.inl ⟨⟨hpackage, beq_iff_eq.1 herror⟩, hname.symm, rfl⟩)
      · cases h
  · exact .inl h

/-- Whatever the outcome, every method of the result was there before or is offered. -/
theorem Collects.find?_cases {embeds : List TypeView} {found : Requirements}
    {out : Bool × Requirements} (h : c.Collects embeds found out) {name key : String}
    (hfound : out.2.methods.find? name = some key) :
    found.methods.find? name = some key ∨ ∃ e ∈ embeds, c.Offers e name key := by
  have hlater : ∀ {e : TypeView} {rest : List TypeView}, (∃ e' ∈ rest, c.Offers e' name key) →
      ∃ e' ∈ e :: rest, c.Offers e' name key :=
    fun ⟨e', he', hoffers⟩ => ⟨e', List.mem_cons_of_mem _ he', hoffers⟩
  have hbelow : ∀ {e : TypeView} {inner : Interface} {found : Requirements}, c.Resolves e inner →
      ((found.enter inner).methods.find? name = some key ∨
        ∃ e' ∈ inner.embedded, c.Offers e' name key) →
      found.methods.find? name = some key ∨ c.Offers e name key := by
    rintro e inner found hinner (hentered | ⟨e', he', hoffers⟩)
    · exact (find?_enter_cases hentered).imp_right fun hasks => .inr ⟨inner, inner, hinner, .refl, hasks⟩
    · obtain ⟨j, hreaches, hasks⟩ := asks_of_offers he' hoffers
      exact .inr (.inr ⟨inner, j, hinner, hreaches, hasks⟩)
  induction h with
  | done found => exact .inl hfound
  | pass hpackage _ ih =>
    rcases ih hfound with hpassed | hoffers
    · exact (find?_pass_cases hpackage hpassed).imp_right fun h => ⟨_, List.mem_cons_self, h⟩
    · exact .inr (hlater hoffers)
  | dangling _ _ => exact .inl hfound
  | typeSet _ _ _ => exact .inl hfound
  | visited _ _ _ _ ih => exact (ih hfound).imp_right hlater
  | refused _ hinner _ _ ih =>
    exact (hbelow hinner (ih hfound)).imp_right fun h => ⟨_, List.mem_cons_self, h⟩
  | entered hinner _ _ _ _ ihBelow ihTail =>
    rcases ihTail hfound with hmiddle | hoffers
    · exact (hbelow hinner (ihBelow hmiddle)).imp_right fun h => ⟨_, List.mem_cons_self, h⟩
    · exact .inr (hlater hoffers)

/-- A search that fails met an obstacle. -/
theorem Collects.obstacle {embeds : List TypeView} {found : Requirements}
    {out : Bool × Requirements} (h : c.Collects embeds found out) (hfailed : out.1 = false) :
    ∃ e ∈ embeds, c.Dangles e ∨ ∃ inner j, c.Resolves e inner ∧ c.Reaches inner j ∧ c.Blocked j := by
  induction h with
  | done found => cases hfailed
  | pass _ _ ih =>
    obtain ⟨e, he, hobstacle⟩ := ih hfailed
    exact ⟨e, List.mem_cons_of_mem _ he, hobstacle⟩
  | dangling _ hdangles => exact ⟨_, List.mem_cons_self, .inl hdangles⟩
  | typeSet _ hinner htypeSet =>
    exact ⟨_, List.mem_cons_self, .inr ⟨_, _, hinner, .refl, .inl htypeSet⟩⟩
  | visited _ _ _ _ ih =>
    obtain ⟨e, he, hobstacle⟩ := ih hfailed
    exact ⟨e, List.mem_cons_of_mem _ he, hobstacle⟩
  | refused _ hinner _ _ ih =>
    obtain ⟨e, he, hdangles | ⟨inner, j, hresolves, hreaches, hblocked⟩⟩ := ih rfl
    · exact ⟨_, List.mem_cons_self, .inr ⟨_, _, hinner, .refl, .inr ⟨e, he, hdangles⟩⟩⟩
    · exact ⟨_, List.mem_cons_self,
        .inr ⟨_, j, hinner, .head ⟨e, he, hresolves⟩ hreaches, hblocked⟩⟩
  | entered _ _ _ _ _ _ ihTail =>
    obtain ⟨e, he, hobstacle⟩ := ihTail hfailed
    exact ⟨e, List.mem_cons_of_mem _ he, hobstacle⟩

def noRequirements : Requirements := ⟨Table.empty, []⟩

theorem blocked_of_collectsFrom {i : Interface} {out : Bool × Requirements}
    (h : c.CollectsFrom i noRequirements out) (hfailed : out.1 = false) :
    ∃ j, c.Reaches i j ∧ c.Blocked j := by
  cases h with
  | typeSet htypeSet => exact ⟨i, .refl, .inl htypeSet⟩
  | visited _ hvisited => cases hvisited
  | entered htypeSet _ below =>
    obtain ⟨e, he, hdangles | ⟨inner, j, hinner, hreaches, hblocked⟩⟩ := below.obstacle hfailed
    · exact ⟨i, .refl, .inr ⟨e, he, hdangles⟩⟩
    · exact ⟨j, .head ⟨e, he, hinner⟩ hreaches, hblocked⟩

theorem asks_of_collectsFrom {i : Interface} {out : Bool × Requirements}
    (h : c.CollectsFrom i noRequirements out) {name key : String}
    (hfound : out.2.methods.find? name = some key) : ∃ j, c.Reaches i j ∧ j.Asks name key := by
  cases h with
  | typeSet _ => cases hfound
  | visited _ hvisited => cases hvisited
  | entered _ _ below =>
    rcases below.find?_cases hfound with hentered | ⟨e, he, hoffers⟩
    · rcases find?_enter_cases hentered with hnone | hasks
      · cases hnone
      · exact ⟨i, .refl, hasks⟩
    · exact asks_of_offers he hoffers

theorem covered_of_collectsFrom (hfiled : c.Filed) {i j : Interface} {out : Bool × Requirements}
    (hi : i ∈ c.interfaces.all) (h : c.CollectsFrom i noRequirements out) (hok : out.1 = true)
    (hreaches : c.Reaches i j) : j.typeSet = false ∧ c.Covered out.2 j := by
  obtain ⟨path, name, hfind⟩ := PackageTable.mem_all_iff.1 hi
  have hself : c.findInterface? i.entityKey.1 i.entityKey.2 = some i := by
    rw [hfiled.interfaces path name i hfind]
    exact hfind
  cases h with
  | typeSet _ => cases hok
  | visited _ hvisited => cases hvisited
  | entered htypeSet _ below =>
    obtain ⟨hsettled, hvisited⟩ := below.covered hfiled hok
    have hcovered : c.Covered out.2 i :=
      ⟨fun m hm => below.extends.isSome (isSome_find?_enter noRequirements hm), hsettled⟩
    refine covered_of_reaches hfiled hself hcovered ?_ htypeSet hreaches
    intro key hkey
    exact (hvisited key hkey).imp_left List.mem_singleton.1

theorem requiredMethods?_eq (c : Catalog) (i : Interface) :
    c.requiredMethods? i =
      if (c.require c.requireFuel i noRequirements).1 then
        some (c.require c.requireFuel i noRequirements).2.methods
      else none := by
  rw [requiredMethods?, noRequirements]
  cases c.require c.requireFuel i ⟨Table.empty, []⟩ with
  | mk ok found => cases ok <;> rfl

theorem implements_iff {s : Struct} {i : Interface} :
    c.implements s i = true ↔
      ∃ required, c.requiredMethods? i = some required ∧ required.isEmpty = false ∧
        ∀ name key, required.find? name = some key → (c.methodSet s).find? name = some key := by
  rw [implements, demanded?]
  cases c.requiredMethods? i with
  | none => simp
  | some required =>
    cases hempty : required.isEmpty with
    | true => simp [hempty]
    | false => simp [hempty, MethodSet.satisfies_iff]

/-- The methods that a loaded interface of a reachable catalog requires. There are none when it
reaches an interface that is blocked. Otherwise their names are those that the interfaces it reaches
ask for, each with the key of one of them, and a struct implements the interface when there is such
a name and it has all of them with the same keys. The search ends on every embedding graph. -/
theorem requiredMethods?_closure (h : c.Reachable) {i : Interface} (hi : i ∈ c.interfaces.all) :
    (c.requiredMethods? i = none ↔ ∃ j, c.Reaches i j ∧ c.Blocked j) ∧
      (∀ required, c.requiredMethods? i = some required →
        (∀ name, (required.find? name).isSome = true ↔
          ∃ j key, c.Reaches i j ∧ j.Asks name key) ∧
        ∀ name key, required.find? name = some key → ∃ j, c.Reaches i j ∧ j.Asks name key) ∧
      (∀ s, c.implements s i = true ↔
        ∃ required, c.requiredMethods? i = some required ∧ required.isEmpty = false ∧
          ∀ name key, required.find? name = some key → (c.methodSet s).find? name = some key) ∧
      ∃ out, c.CollectsFrom i noRequirements out ∧
        c.requiredMethods? i = if out.1 then some out.2.methods else none := by
  have hsearch := c.collectsFrom_require i noRequirements
  have heq := c.requiredMethods?_eq i
  cases hout : c.require c.requireFuel i noRequirements with
  | mk ok found =>
    rw [hout] at hsearch heq
    refine ⟨?_, ?_, fun s => implements_iff, (ok, found), hsearch, heq⟩
    · constructor
      · intro hnone
        cases ok with
        | true => rw [heq] at hnone; cases hnone
        | false => exact blocked_of_collectsFrom hsearch rfl
      · rintro ⟨j, hreaches, hblocked⟩
        cases ok with
        | true =>
          obtain ⟨htypeSet, hcovered⟩ := covered_of_collectsFrom h.filed hi hsearch rfl hreaches
          exact absurd hblocked (hcovered.not_blocked htypeSet)
        | false => exact heq
    · intro required hrequired
      cases ok with
      | false => rw [heq] at hrequired; cases hrequired
      | true =>
        rw [heq] at hrequired
        cases hrequired
        refine ⟨fun name => ⟨fun hsome => ?_, ?_⟩, fun name key => asks_of_collectsFrom hsearch⟩
        · obtain ⟨key, hkey⟩ := Option.isSome_iff_exists.1 hsome
          obtain ⟨j, hreaches, hasks⟩ := asks_of_collectsFrom hsearch hkey
          exact ⟨j, key, hreaches, hasks⟩
        · rintro ⟨j, key, hreaches, hasks⟩
          exact (covered_of_collectsFrom h.filed hi hsearch rfl hreaches).2.isSome_of_asks hasks

/-- Interfaces that embed each other: `A` reaches `D` on two ways, and itself through `C`. -/
def ring : Package where
  name := "ring"
  path := "example.com/ring"
  imports := []
  declarations :=
    [⟨"A", false, .interface [] [embed "B", embed "C"]⟩,
     ⟨"B", false, .interface [⟨"Open", ⟨[], []⟩⟩] [embed "D"]⟩,
     ⟨"C", false, .interface [] [embed "D", embed "A"]⟩,
     ⟨"D", false, .interface [] [.basic "error"]⟩]
  methods := []
where
  embed (name : String) : GoType := .named name (some ⟨"ring", "example.com/ring"⟩)

theorem requiredMethods?_closure_ring :
    (Catalog.empty.insert ring).Reachable ∧
      ∃ i ∈ (Catalog.empty.insert ring).interfaces.all, ∃ required,
        (Catalog.empty.insert ring).requiredMethods? i = some required ∧
        required.find? "Error" = some "()(string)" ∧
        (∃ j, (Catalog.empty.insert ring).Reaches i j ∧ j.Asks "Error" "()(string)") ∧
        ¬ ∃ j, (Catalog.empty.insert ring).Reaches i j ∧ (Catalog.empty.insert ring).Blocked j := by
  have hreachable : (Catalog.empty.insert ring).Reachable := .insert ring .empty
  have hrequires : ((Catalog.empty.insert ring).interfaces.all.any fun i =>
      i.name == "A" && ((Catalog.empty.insert ring).requiredMethods? i).any fun required =>
        required.find? "Error" == some "()(string)") = true := by
    decide +kernel
  obtain ⟨i, hi, hrequires⟩ := List.any_eq_true.1 hrequires
  obtain ⟨required, hrequired, herror⟩ :=
    (Option.any_eq_true _ _).1 (Bool.and_eq_true_iff.1 hrequires).2
  obtain ⟨hnone, hsome, -, -⟩ := requiredMethods?_closure hreachable hi
  refine ⟨hreachable, i, hi, required, hrequired, beq_iff_eq.1 herror, ?_, ?_⟩
  · exact (hsome required hrequired).2 "Error" "()(string)" (beq_iff_eq.1 herror)
  · rw [← hnone, hrequired]
    exact Option.some_ne_none required

end Catalog

end GoUml
