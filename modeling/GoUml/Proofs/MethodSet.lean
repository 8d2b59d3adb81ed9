import GoUml.MethodSet
import GoUml.Proofs.Table

/-!
# What method sets answer

A method set is reached only through the key it gives for a name. Adding methods never changes an
answer that is already there, and of the methods that are added the first of each name decides.
-/

namespace GoUml.MethodSet

theorem name_eq_of_find? {fs : List Function} {name : String} {f : Function}
    (h : fs.find? (·.name = name) = some f) : f.name = name := by
  simpa using List.find?_some h

theorem find?_add (set : MethodSet) (f : Function) (name : String) :
    (set.add f).find? name =
      (set.find? name).or (if f.name = name then some f.signatureKey else none) := by
  rw [add, Table.find?_insertNew]
  by_cases hname : name = f.name
  · subst hname
    rw [if_pos rfl, if_pos rfl]
    cases set.find? f.name <;> rfl
  · rw [if_neg hname, if_neg (Ne.symm hname), Option.or_none]

theorem find?_addAll (set : MethodSet) (fs : List Function) (name : String) :
    (set.addAll fs).find? name =
      (set.find? name).or ((fs.find? (·.name = name)).map Function.signatureKey) := by
  induction fs generalizing set with
  | nil => rw [List.find?_nil, Option.map_none, Option.or_none]; rfl
  | cons f rest ih =>
    have hstep : set.addAll (f :: rest) = (set.add f).addAll rest := rfl
    rw [hstep, ih, find?_add, Option.or_assoc]
    congr 1
    by_cases hname : f.name = name
    · simp [hname]
    · simp [hname]

theorem find?_ofFunctions (fs : List Function) (name : String) :
    (ofFunctions fs).find? name = (fs.find? (·.name = name)).map Function.signatureKey := by
  rw [ofFunctions, find?_addAll, Table.find?_empty, Option.none_or]

theorem exists_of_find?_ofFunctions {fs : List Function} {name key : String}
    (h : (ofFunctions fs).find? name = some key) :
    ∃ f ∈ fs, f.name = name ∧ f.signatureKey = key := by
  rw [find?_ofFunctions] at h
  obtain ⟨f, hf, hkey⟩ := Option.map_eq_some_iff.1 h
  exact ⟨f, List.mem_of_find?_eq_some hf, name_eq_of_find? hf, hkey⟩

/-- The key of the method of the predeclared interface `error`. -/
theorem parenthesized_error : parenthesized [] ["string"] = "()(string)" := by decide

theorem find?_addError (set : MethodSet) (name : String) :
    set.addError.find? name =
      (set.find? name).or (if "Error" = name then some "()(string)" else none) := by
  rw [addError, Table.find?_insertNew, parenthesized_error]
  by_cases hname : name = "Error"
  · subst hname
    rw [if_pos rfl, if_pos rfl]
    cases set.find? "Error" <;> rfl
  · rw [if_neg hname, if_neg (Ne.symm hname), Option.or_none]

theorem satisfies_iff {set required : MethodSet} :
    set.satisfies required = true ↔
      ∀ name key, required.find? name = some key → set.find? name = some key := by
  rw [satisfies, List.all_eq_true]
  constructor
  · intro h name key hfound
    exact beq_iff_eq.1 (h (name, key) (Table.mem_entries_iff.2 hfound))
  · rintro h ⟨name, key⟩ he
    exact beq_iff_eq.2 (h name key (Table.mem_entries_iff.1 he))

end GoUml.MethodSet
