import GoUml.Proofs.MethodSet
import GoUml.Proofs.TypeKey

/-!
# Signature keys stand for signatures

Two methods can be compared type by type, or by the one text in which the keys of all their types
are joined. Keys have commas and parentheses of their own, so the two ways agree only because keys
can be cut apart again. Method sets hold nothing but the text, and still answer what the comparison
type by type would.
-/

namespace GoUml

open Text

/-- The view of a well-named type, as seen from any package. -/
def TypeView.WellNamed (v : TypeView) : Prop :=
  ∃ (viewer : PackageId) (t : GoType), t.WellNamed ∧ v = viewer.view t

theorem TypeView.WellNamed.piece {v : TypeView} (h : v.WellNamed) : Piece v.key := by
  obtain ⟨viewer, t, ht, rfl⟩ := h
  exact ht.piece

structure Function.WellNamed (f : Function) : Prop where
  parameters : ∀ p ∈ f.parameters, p.type.WellNamed
  results : ∀ r ∈ f.results, r.WellNamed

namespace Function

theorem signatureEq_iff {f g : Function} :
    f.signatureEq g = true ↔ f.name = g.name ∧
      f.parameters.map (·.type.key) = g.parameters.map (·.type.key) ∧
      f.results.map (·.key) = g.results.map (·.key) := by
  simp only [signatureEq, Bool.and_eq_true, beq_iff_eq, List.all_eq_true, map_eq_map_iff_zip]
  constructor
  · rintro ⟨⟨⟨⟨hname, hparameters⟩, hresults⟩, hparameterKeys⟩, hresultKeys⟩
    exact ⟨hname, ⟨hparameters, hparameterKeys⟩, hresults, hresultKeys⟩
  · rintro ⟨hname, ⟨hparameters, hparameterKeys⟩, hresults, hresultKeys⟩
    exact ⟨⟨⟨⟨hname, hparameters⟩, hresults⟩, hparameterKeys⟩, hresultKeys⟩

theorem signatureKey_eq_iff {f g : Function} (hf : f.WellNamed) (hg : g.WellNamed) :
    f.signatureKey = g.signatureKey ↔
      f.parameters.map (·.type.key) = g.parameters.map (·.type.key) ∧
      f.results.map (·.key) = g.results.map (·.key) := by
  constructor
  · intro h
    exact parenthesized_inj (List.forall_mem_map.2 fun p hp => (hf.parameters p hp).piece)
      (List.forall_mem_map.2 fun p hp => (hg.parameters p hp).piece)
      (List.forall_mem_map.2 fun r hr => (hf.results r hr).piece)
      (List.forall_mem_map.2 fun r hr => (hg.results r hr).piece) h
  · rintro ⟨hparameters, hresults⟩
    rw [signatureKey, signatureKey, hparameters, hresults]

theorem signatureEq_iff_signatureKey_eq {f g : Function} (hf : f.WellNamed) (hg : g.WellNamed) :
    f.signatureEq g = true ↔ f.name = g.name ∧ f.signatureKey = g.signatureKey := by
  rw [signatureEq_iff, signatureKey_eq_iff hf hg]

end Function

namespace MethodSet

theorem includes_ofFunctions_iff {fs : List Function} {g : Function}
    (hfs : ∀ f ∈ fs, f.WellNamed) (hg : g.WellNamed) :
    (ofFunctions fs).includes g = true ↔
      ∃ f, fs.find? (·.name = g.name) = some f ∧ f.signatureEq g = true := by
  rw [includes, beq_iff_eq, find?_ofFunctions, Option.map_eq_some_iff]
  constructor
  · rintro ⟨f, hfound, hkey⟩
    have hname : f.name = g.name := name_eq_of_find? hfound
    have hf := hfs f (List.mem_of_find?_eq_some hfound)
    exact ⟨f, hfound, (Function.signatureEq_iff_signatureKey_eq hf hg).2 ⟨hname, hkey⟩⟩
  · rintro ⟨f, hfound, hsame⟩
    have hf := hfs f (List.mem_of_find?_eq_some hfound)
    exact ⟨f, hfound, ((Function.signatureEq_iff_signatureKey_eq hf hg).1 hsame).2⟩

/-- To satisfy a method set is to include the first method of every name. -/
theorem satisfies_ofFunctions_iff {set : MethodSet} {gs : List Function} :
    set.satisfies (ofFunctions gs) = true ↔
      ∀ name g, gs.find? (·.name = name) = some g → set.includes g = true := by
  rw [satisfies_iff]
  simp only [find?_ofFunctions, Option.map_eq_some_iff, includes, beq_iff_eq]
  constructor
  · intro h name g hfound
    have hname : g.name = name := name_eq_of_find? hfound
    rw [hname]
    exact h name g.signatureKey ⟨g, hfound, rfl⟩
  · rintro h name key ⟨g, hfound, rfl⟩
    have hname : g.name = name := name_eq_of_find? hfound
    rw [← hname]
    exact h name g hfound

theorem satisfies_ofFunctions_ofFunctions_iff {fs gs : List Function}
    (hfs : ∀ f ∈ fs, f.WellNamed) (hgs : ∀ g ∈ gs, g.WellNamed) :
    (ofFunctions fs).satisfies (ofFunctions gs) = true ↔
      ∀ name ∈ gs.map Function.name, ∃ first required,
        fs.find? (·.name = name) = some first ∧ gs.find? (·.name = name) = some required ∧
          first.signatureEq required = true := by
  rw [satisfies_ofFunctions_iff]
  constructor
  · intro h name hname
    obtain ⟨named, hmem, rfl⟩ := List.mem_map.1 hname
    have hisSome : (gs.find? (·.name = named.name)).isSome = true :=
      List.find?_isSome.2 ⟨named, hmem, decide_eq_true rfl⟩
    obtain ⟨required, hrequired⟩ := Option.isSome_iff_exists.1 hisSome
    have hwell := hgs required (List.mem_of_find?_eq_some hrequired)
    obtain ⟨first, hfirst, hsame⟩ :=
      (includes_ofFunctions_iff hfs hwell).1 (h named.name required hrequired)
    rw [name_eq_of_find? hrequired] at hfirst
    exact ⟨first, required, hfirst, hrequired, hsame⟩
  · intro h name g hfound
    have hmem := List.mem_of_find?_eq_some hfound
    have hname := name_eq_of_find? hfound
    obtain ⟨first, required, hfirst, hrequired, hsame⟩ := h name (hname ▸ List.mem_map_of_mem hmem)
    rw [hfound, Option.some.injEq] at hrequired
    subst hrequired
    rw [includes_ofFunctions_iff hfs (hgs g hmem), hname]
    exact ⟨first, hfirst, hsame⟩

/-- **Method sets compare signatures.** For methods of well-named types, the text of a signature says
as much as its types one by one. So a method set, which holds the first text of each name, includes
a method or satisfies another set exactly when the methods are the same type by type. -/
theorem matches_iff_signatureEq {f g : Function} {fs gs : List Function} (hf : f.WellNamed)
    (hg : g.WellNamed) (hfs : ∀ f ∈ fs, f.WellNamed) (hgs : ∀ g ∈ gs, g.WellNamed) :
    (f.signatureEq g = true ↔ f.name = g.name ∧ f.signatureKey = g.signatureKey) ∧
      ((ofFunctions fs).includes g = true ↔
        ∃ first, fs.find? (·.name = g.name) = some first ∧ first.signatureEq g = true) ∧
      ((ofFunctions fs).satisfies (ofFunctions gs) = true ↔
        ∀ name ∈ gs.map Function.name, ∃ first required,
          fs.find? (·.name = name) = some first ∧ gs.find? (·.name = name) = some required ∧
            first.signatureEq required = true) :=
  ⟨Function.signatureEq_iff_signatureKey_eq hf hg, includes_ofFunctions_iff hfs hg,
    satisfies_ofFunctions_ofFunctions_iff hfs hgs⟩

/-- A method that takes a function of two parameters, as seen from `viewer`. -/
def visiting (viewer : PackageId) (parameter : String) : Function where
  name := "Visit"
  parameters := [⟨parameter,
    viewer.view (.signature ⟨[⟨"", .basic "int"⟩, ⟨"", .basic "string"⟩], []⟩)⟩]
  results := []

/-- A method of the same name that takes a function of one parameter, and a text. -/
def visitingOne (viewer : PackageId) : Function where
  name := "Visit"
  parameters := [⟨"visit", viewer.view (.signature ⟨[⟨"", .basic "int"⟩], []⟩)⟩,
    ⟨"text", viewer.view (.basic "string")⟩]
  results := []

theorem matches_visiting :
    (visiting ⟨"a", "a"⟩ "visit").signatureEq (visiting ⟨"b", "b"⟩ "callback") = true ∧
      (ofFunctions [visiting ⟨"a", "a"⟩ "visit"]).includes (visiting ⟨"b", "b"⟩ "callback") = true ∧
      (ofFunctions [visiting ⟨"a", "a"⟩ "visit"]).satisfies (ofFunctions [visitingOne ⟨"b", "b"⟩]) =
        false := by
  have hint : (GoType.basic "int").WellNamed := .basic (isName_of_identifier (by decide) (by decide))
  have hstring : (GoType.basic "string").WellNamed :=
    .basic (isName_of_identifier (by decide) (by decide))
  have hvisiting : ∀ viewer parameter, (visiting viewer parameter).WellNamed := by
    refine fun viewer parameter => ⟨?_, by simp [visiting]⟩
    refine List.forall_mem_singleton.2 ⟨viewer, _, .signature ?_ (by simp), rfl⟩
    simpa using ⟨hint, hstring⟩
  have hvisitingOne : ∀ viewer, (visitingOne viewer).WellNamed := by
    refine fun viewer => ⟨?_, by simp [visitingOne]⟩
    refine List.forall_mem_cons.2 ⟨⟨viewer, _, .signature ?_ (by simp), rfl⟩,
      List.forall_mem_singleton.2 ⟨viewer, _, hstring, rfl⟩⟩
    simpa using hint
  obtain ⟨hkeys, hincludes, hsatisfies⟩ := matches_iff_signatureEq (hvisiting ⟨"a", "a"⟩ "visit")
    (hvisiting ⟨"b", "b"⟩ "callback")
    (List.forall_mem_singleton.2 (hvisiting ⟨"a", "a"⟩ "visit"))
    (List.forall_mem_singleton.2 (hvisitingOne ⟨"b", "b"⟩))
  have hsame := hkeys.2 ⟨rfl, rfl⟩
  refine ⟨hsame, hincludes.2 ⟨_, rfl, hsame⟩, Bool.eq_false_iff.2 fun h => ?_⟩
  obtain ⟨first, required, hfirst, hrequired, hdifferent⟩ :=
    hsatisfies.1 h "Visit" (by simp [visitingOne])
  cases hfirst
  cases hrequired
  exact absurd hdifferent (by decide)

end MethodSet

end GoUml
