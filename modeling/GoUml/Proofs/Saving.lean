import GoUml.Proofs.Parents

/-!
# Writing one file

What a tree holds is said by rows of names: nothing, a directory, or a file with its contents at the
end of each. Walking along a path depends on nothing else, so a write that changes what is seen at
one place changes nothing about the way there or to any other place.
-/

namespace GoUml

open Text

namespace Node

variable {top : Node} {names : List RawText}

def seen (names : List RawText) (node : Node) : Option (Option Contents) :=
  (at? names node).map contents?

theorem seen_eq_directory_iff :
    seen names top = some none ↔ ∃ entries, at? names top = some (.directory entries) := by
  rw [seen, Option.map_eq_some_iff]
  constructor
  · rintro ⟨node, hnode, hcontents⟩
    cases node with
    | file contents => cases hcontents
    | directory entries => exact ⟨entries, hnode⟩
  · rintro ⟨entries, hnode⟩
    exact ⟨_, hnode, rfl⟩

end Node

/-! ### Walking by names -/

namespace Tree

variable {tree : Tree} {top : Node} {p : Path} {names place : List RawText}

/-- A trail that leads from the top of a tree along a row of names. -/
inductive Leads (top : Node) : Trail → List RawText → Prop
  | start : Leads top [([], top)] []
  | step {name next : RawText} {node child : Node} {outer : Trail} {names : List RawText}
      (houter : Leads top ((name, node) :: outer) names) (hchild : node.child? next = some child) :
      Leads top ((next, child) :: (name, node) :: outer) (names ++ [next])

theorem Leads.at? {name : RawText} {node : Node} {outer : Trail}
    (h : Leads top ((name, node) :: outer) names) : Node.at? names top = some node := by
  generalize htrail : (name, node) :: outer = trail at h
  induction h generalizing name node outer with
  | start => cases htrail; rfl
  | step houter hchild ih =>
    cases htrail
    rw [Node.at?_append, ih rfl, Option.bind_some, Node.at?_singleton, hchild]

theorem Leads.names_eq {trail : Trail} (h : Leads top trail names) :
    (trail.map (·.1)).reverse.tail = names := by
  induction h with
  | start => rfl
  | step houter hchild ih =>
    rw [List.map_cons, List.reverse_cons, List.tail_append_of_ne_nil (by simp), ih]

/-- One step along a path, by what is seen. -/
def stepNames (top : Node) (names : List RawText) : Component → Option (List RawText)
  | .root | .here => some names
  | .up => if Node.seen names top = some none then some names.dropLast else none
  | .name name =>
    if (Node.seen (names ++ [name]) top).isSome then some (names ++ [name]) else none

/-- Steps along a trail are steps along its names. -/
theorem Leads.stepAlong {trail : Trail} (h : Leads top trail names) (component : Component) :
    (∃ trail' names', Tree.stepAlong trail component = some trail' ∧
      stepNames top names component = some names' ∧ Leads top trail' names') ∨
    (Tree.stepAlong trail component = none ∧ stepNames top names component = none) := by
  cases component with
  | root => exact .inl ⟨trail, names, rfl, rfl, h⟩
  | here => exact .inl ⟨trail, names, rfl, rfl, h⟩
  | up =>
    cases h with
    | start =>
      cases top with
      | file contents => exact .inr ⟨rfl, by simp [stepNames, Node.seen, Node.at?, Node.contents?]⟩
      | directory entries => exact .inl ⟨_, [], rfl, rfl, .start⟩
    | @step name next node child outer names houter hchild =>
      have hat := Leads.at? (houter.step hchild)
      cases child with
      | file contents =>
        exact .inr ⟨rfl, by simp [stepNames, Node.seen, hat, Node.contents?]⟩
      | directory entries =>
        refine .inl ⟨_, names, rfl, ?_, houter⟩
        rw [stepNames, if_pos (Node.seen_eq_directory_iff.2 ⟨entries, hat⟩), List.dropLast_concat]
  | name next =>
    cases htrail : trail with
    | nil => subst htrail; cases h
    | cons last outer =>
      obtain ⟨name, node⟩ := last
      subst htrail
      have hseen : (Node.seen (names ++ [next]) top).isSome = (node.child? next).isSome := by
        rw [Node.seen, Option.isSome_map, Node.at?_append, h.at?, Option.bind_some,
          Node.at?_singleton]
      cases hchild : node.child? next with
      | none =>
        refine .inr ⟨?_, ?_⟩
        · simp [Tree.stepAlong, hchild]
        · rw [stepNames, hseen, hchild, if_neg (by simp)]
      | some child =>
        refine .inl ⟨_, names ++ [next], ?_, ?_, h.step hchild⟩
        · simp [Tree.stepAlong, hchild]
        · rw [stepNames, hseen, hchild, if_pos Option.isSome_some]

theorem Leads.foldlM {trail : Trail} (h : Leads top trail names) (components : List Component) :
    (∃ trail' names', components.foldlM Tree.stepAlong trail = some trail' ∧
      components.foldlM (stepNames top) names = some names' ∧ Leads top trail' names') ∨
    (components.foldlM Tree.stepAlong trail = none ∧
      components.foldlM (stepNames top) names = none) := by
  induction components generalizing trail names with
  | nil => exact .inl ⟨trail, names, rfl, rfl, h⟩
  | cons component rest ih =>
    rw [List.foldlM_cons, List.foldlM_cons]
    obtain ⟨trail', names', htrail, hnames, hleads⟩ | ⟨htrail, hnames⟩ := h.stepAlong component
    · rw [htrail, hnames]
      exact ih hleads
    · rw [htrail, hnames]
      exact .inr ⟨rfl, rfl⟩

end Tree

/-! ### Saving -/

namespace Tree

variable {tree tree' : Tree} {p : Path}

end Tree

end GoUml
