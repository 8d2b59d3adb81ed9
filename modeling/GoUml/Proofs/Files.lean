import GoUml.Files.Tree
import GoUml.Proofs.RawText
import GoUml.Proofs.Splitting
import Mathlib.Data.List.Induction

/-!
# Paths and what they name

A path is cut into components by its text, and a tree is walked component by component. What ties
the two together is that joining a file name to a path adds that name behind its components, so an
entry of a directory is found under the path of the directory with its name behind it. A tree is
proper when its directories list file names in ascending order, as those of a file system do.
-/

namespace GoUml

open Text

/-- A name that an entry of a directory can have. -/
def IsFileName (name : RawText) : Prop :=
  name ≠ [] ∧ name ≠ [Path.dot] ∧ name ≠ [Path.dot, Path.dot] ∧ Path.slash ∉ name

instance : DecidablePred IsFileName := fun name =>
  inferInstanceAs (Decidable
    (name ≠ [] ∧ name ≠ [Path.dot] ∧ name ≠ [Path.dot, Path.dot] ∧ Path.slash ∉ name))

namespace Path

variable {p : Path} {name : RawText}

/-- The components of pieces that do not stand at the front. -/
def steps (pieces : List RawText) : List Component :=
  (pieces.filter fun piece => !isIdle piece).map componentOf

/-- The components of pieces at the front of a path that is not rooted. -/
def leading : List RawText → List Component
  | [] => []
  | first :: rest => if first == [dot] then .here :: steps rest else steps (first :: rest)

/-- The pieces that count, behind the slash in front of a rooted path. -/
def behindRoot (rooted : Bool) (pieces : List RawText) : List RawText :=
  if rooted then pieces.tail else pieces

theorem components_eq (p : Path) :
    p.components = if p.isRooted then .root :: steps p.pieces else leading p.pieces := by
  rw [components]
  cases p.pieces <;> rfl

theorem pieces_eq (p : Path) : p.pieces = behindRoot p.isRooted (splitList slash p.raw) := rfl

@[simp] theorem steps_append (pieces more : List RawText) :
    steps (pieces ++ more) = steps pieces ++ steps more := by
  simp [steps]

theorem leading_append {pieces : List RawText} (h : pieces ≠ []) (more : List RawText) :
    leading (pieces ++ more) = leading pieces ++ steps more := by
  cases pieces with
  | nil => exact absurd rfl h
  | cons first rest =>
    by_cases hfirst : first = [dot]
    · simp [hfirst, leading]
    · simp [hfirst, leading, ← steps_append]

theorem behindRoot_append (rooted : Bool) {pieces : List RawText} (h : pieces ≠ [])
    (more : List RawText) :
    behindRoot rooted (pieces ++ more) = behindRoot rooted pieces ++ more := by
  cases rooted with
  | false => rfl
  | true => exact List.tail_append_of_ne_nil h

theorem isIdle_of_isFileName (h : IsFileName name) : isIdle name = false := by
  simp [isIdle, h.1, h.2.1]

theorem steps_of_isFileName (h : IsFileName name) : steps [name] = [.name name] := by
  simp [steps, isIdle_of_isFileName h, componentOf, h.2.2.1]

theorem isRooted_iff : p.isRooted = true ↔ ∃ rest, p.raw = slash :: rest := by
  rw [isRooted, beq_iff_eq, List.head?_eq_some_iff]

theorem isRooted_of_append {q : Path} {more : RawText} (hp : p.raw ≠ [])
    (hq : q.raw = p.raw ++ more) : q.isRooted = p.isRooted := by
  rw [isRooted, isRooted, hq, List.head?_append_of_ne_nil _ hp]

theorem isRooted_join (hp : p.raw ≠ []) (name : RawText) :
    (p.join name).isRooted = p.isRooted := by
  rw [join]
  split
  · exact isRooted_of_append hp rfl
  · exact isRooted_of_append hp rfl

/-- The name takes the place of an empty piece behind the last slash, or stands behind the last
piece. -/
theorem exists_pieces_join (hp : p.raw ≠ []) (hname : IsFileName name) :
    ∃ front idle, p.pieces = front ++ idle ∧ steps idle = [] ∧
      (p.isRooted = false → front ≠ []) ∧ (p.join name).pieces = front ++ [name] := by
  have hsplit (raw : RawText) :
      splitList slash (raw ++ slash :: name) = splitList slash raw ++ [name] := by
    rw [splitList_append, splitList_of_not_mem hname.2.2.2]
  have hjoined := pieces_eq (p.join name)
  rw [isRooted_join hp] at hjoined
  by_cases hend : p.raw.getLast? = some slash
  · obtain ⟨front, hfront⟩ := List.getLast?_eq_some_iff.1 hend
    have hjoin : (p.join name).raw = front ++ slash :: name := by
      rw [join, if_pos (by simp [hend]), hfront, List.append_assoc, List.singleton_append]
    have hpieces : splitList slash p.raw = splitList slash front ++ [[]] := by
      rw [hfront]
      exact splitList_append slash front []
    rw [hjoin, hsplit, behindRoot_append _ (splitList_ne_nil _ _)] at hjoined
    refine ⟨_, [[]], ?_, rfl, fun hrooted => ?_, hjoined⟩
    · rw [pieces_eq, hpieces, behindRoot_append _ (splitList_ne_nil _ _)]
    · rw [hrooted]
      exact splitList_ne_nil _ _
  · have hjoin : (p.join name).raw = p.raw ++ slash :: name := by
      rw [join, if_neg (by simp [hp, hend])]
    rw [hjoin, hsplit, behindRoot_append _ (splitList_ne_nil _ _)] at hjoined
    refine ⟨p.pieces, [], (List.append_nil _).symm, rfl, fun hrooted => ?_, hjoined⟩
    rw [pieces_eq, hrooted]
    exact splitList_ne_nil _ _

theorem components_join (hp : p.raw ≠ []) (hname : IsFileName name) :
    (p.join name).components = p.components ++ [.name name] := by
  obtain ⟨front, idle, hpieces, hidle, hfront, hjoin⟩ := exists_pieces_join hp hname
  rw [components_eq, components_eq, isRooted_join hp, hjoin, hpieces]
  cases hrooted : p.isRooted with
  | true => simp [hidle, steps_of_isFileName hname]
  | false =>
    simp only [Bool.false_eq_true, if_false, leading_append (hfront hrooted), hidle,
      List.append_nil, steps_of_isFileName hname]

theorem asksDirectory_join (hp : p.raw ≠ []) (hname : IsFileName name) :
    (p.join name).asksDirectory = false := by
  obtain ⟨front, -, -, -, -, hjoin⟩ := exists_pieces_join hp hname
  simp [asksDirectory, hjoin, isIdle_of_isFileName hname]

theorem join_ne_empty (hname : IsFileName name) : (p.join name).raw ≠ [] := by
  rw [join]
  split <;> simp [hname.1]

/-- The path that leads down from `p` along a row of names. -/
def along (p : Path) (names : List RawText) : Path := names.foldl join p

theorem along_append (p : Path) (outer rest : List RawText) :
    p.along (outer ++ rest) = (p.along outer).along rest :=
  List.foldl_append

theorem along_concat (p : Path) (names : List RawText) (name : RawText) :
    p.along (names ++ [name]) = (p.along names).join name :=
  p.along_append names [name]

theorem along_ne_empty (hp : p.raw ≠ []) {names : List RawText}
    (hnames : ∀ name ∈ names, IsFileName name) : (p.along names).raw ≠ [] := by
  induction names using List.reverseRecOn with
  | nil => exact hp
  | append_singleton names name _ =>
    rw [along_concat]
    exact join_ne_empty (hnames name List.mem_concat_self)

theorem components_along (hp : p.raw ≠ []) {names : List RawText}
    (hnames : ∀ name ∈ names, IsFileName name) :
    (p.along names).components = p.components ++ names.map .name := by
  induction names using List.reverseRecOn with
  | nil => exact (List.append_nil _).symm
  | append_singleton names name ih =>
    obtain ⟨hfront, hname⟩ := List.forall_mem_append.1 hnames
    rw [along_concat, components_join (along_ne_empty hp hfront) (hname name List.mem_cons_self),
      ih hfront, List.map_append, List.append_assoc]
    rfl

theorem isRooted_along (hp : p.raw ≠ []) {names : List RawText}
    (hnames : ∀ name ∈ names, IsFileName name) : (p.along names).isRooted = p.isRooted := by
  induction names using List.reverseRecOn with
  | nil => rfl
  | append_singleton names name ih =>
    obtain ⟨hfront, -⟩ := List.forall_mem_append.1 hnames
    rw [along_concat, isRooted_join (along_ne_empty hp hfront), ih hfront]

theorem asksDirectory_along (hp : p.raw ≠ []) {names : List RawText} {last : RawText}
    (hnames : ∀ name ∈ names.concat last, IsFileName name) :
    (p.along (names.concat last)).asksDirectory = false := by
  rw [List.concat_eq_append] at hnames ⊢
  obtain ⟨hfront, hlast⟩ := List.forall_mem_append.1 hnames
  rw [along_concat]
  exact asksDirectory_join (along_ne_empty hp hfront) (hlast last List.mem_cons_self)

end Path

/-! ### Walking a tree -/

def Node.at? : List RawText → Node → Option Node
  | [], node => some node
  | name :: rest, node => (node.child? name).bind (at? rest)

theorem Node.at?_append (outer rest : List RawText) (node : Node) :
    at? (outer ++ rest) node = (at? outer node).bind (at? rest) := by
  induction outer generalizing node with
  | nil => rfl
  | cons name outer ih =>
    rw [List.cons_append, at?, at?, Option.bind_assoc]
    exact congrArg _ (funext ih)

theorem Node.at?_singleton (name : RawText) (node : Node) : at? [name] node = node.child? name := by
  rw [at?]
  exact Option.bind_fun_some _

namespace Tree

variable {tree : Tree} {p : Path} {node : Node}

/-- The walk along the components of a path ends at what it names, which is a directory if the path
asks for one. -/
theorem trail?_eq_some_iff {trail : Trail} :
    tree.trail? p = some trail ↔
      p.raw ≠ [] ∧ (tree.fromRoot p).foldlM stepAlong [([], tree.top)] = some trail ∧
        ∃ last ∈ trail.head?, p.asksDirectory = true → last.2.isDirectory = true := by
  rw [trail?]
  by_cases hp : p.raw = []
  · simp [hp]
  · rw [if_neg (by simpa using hp)]
    refine Option.bind_eq_some_iff.trans ?_
    constructor
    · rintro ⟨found, hwalk, hfound⟩
      cases found with
      | nil => cases hfound
      | cons last outer =>
        dsimp only at hfound
        split at hfound
        · cases hfound
        · next hasks =>
          cases hfound
          exact ⟨hp, hwalk, last, rfl, fun hdirectory => by simpa [hdirectory] using hasks⟩
    · rintro ⟨-, hwalk, last, hlast, hasks⟩
      refine ⟨trail, hwalk, ?_⟩
      cases trail with
      | nil => cases hlast
      | cons first outer =>
        cases hlast
        dsimp only
        rw [if_neg]
        intro hfile
        rw [Bool.and_eq_true, Bool.not_eq_true'] at hfile
        rw [hasks hfile.1] at hfile
        cases hfile.2

theorem find?_eq_some_iff :
    tree.find? p = some node ↔ ∃ name outer, tree.trail? p = some ((name, node) :: outer) := by
  refine Option.bind_eq_some_iff.trans ?_
  constructor
  · rintro ⟨trail, htrail, hnode⟩
    cases trail with
    | nil => cases hnode
    | cons last outer =>
      cases hnode
      exact ⟨last.1, outer, htrail⟩
  · rintro ⟨name, outer, htrail⟩
    exact ⟨_, htrail, rfl⟩

theorem ne_empty_of_find? (hnode : tree.find? p = some node) : p.raw ≠ [] := by
  obtain ⟨name, outer, htrail⟩ := find?_eq_some_iff.1 hnode
  exact (trail?_eq_some_iff.1 htrail).1

def Trail.last? (trail : Trail) : Option Node := trail.head?.map (·.2)

theorem find?_eq_last (hp : p.raw ≠ []) (hasks : p.asksDirectory = false) :
    tree.find? p = ((tree.fromRoot p).foldlM stepAlong [([], tree.top)]).bind Trail.last? := by
  apply Option.ext
  intro node
  simp only [find?_eq_some_iff, trail?_eq_some_iff, hasks]
  cases (tree.fromRoot p).foldlM stepAlong [([], tree.top)] with
  | none => simp
  | some trail => cases trail <;> simp [hp, Trail.last?, Prod.ext_iff]

theorem last_foldlM_names (names : List RawText) (name : RawText) (node : Node) (outer : Trail) :
    ((names.map .name).foldlM stepAlong ((name, node) :: outer)).bind Trail.last? =
      node.at? names := by
  induction names generalizing name node outer with
  | nil => rfl
  | cons next rest ih =>
    rw [List.map_cons, List.foldlM_cons, stepAlong, Node.at?]
    cases node.child? next with
    | none => rfl
    | some child => exact ih next child ((name, node) :: outer)

theorem fromRoot_along (hp : p.raw ≠ []) {names : List RawText}
    (hnames : ∀ name ∈ names, IsFileName name) :
    tree.fromRoot (p.along names) = tree.fromRoot p ++ names.map .name := by
  rw [fromRoot, fromRoot, Path.isRooted_along hp hnames, Path.components_along hp hnames]
  split
  · rfl
  · rw [List.append_assoc]

/-- What a row of names leads to from a directory is found behind the path of the directory. -/
theorem find?_along (hnode : tree.find? p = some node) {names : List RawText}
    (hnames : ∀ name ∈ names, IsFileName name) :
    tree.find? (p.along names) = node.at? names := by
  rcases List.eq_nil_or_concat names with rfl | ⟨front, last, rfl⟩
  · exact hnode
  · have hp : p.raw ≠ [] := ne_empty_of_find? hnode
    obtain ⟨name, outer, htrail⟩ := find?_eq_some_iff.1 hnode
    obtain ⟨-, hwalk, -⟩ := trail?_eq_some_iff.1 htrail
    rw [find?_eq_last (Path.along_ne_empty hp hnames) (Path.asksDirectory_along hp hnames),
      fromRoot_along hp hnames, List.foldlM_append, hwalk]
    exact last_foldlM_names _ name node outer

theorem isDirectory_iff :
    tree.isDirectory p = true ↔ ∃ entries, tree.find? p = some (.directory entries) := by
  rw [isDirectory, Option.any_eq_true]
  constructor
  · rintro ⟨node, hnode, hdirectory⟩
    cases node with
    | file contents => cases hdirectory
    | directory entries => exact ⟨entries, hnode⟩
  · rintro ⟨entries, hnode⟩
    exact ⟨_, hnode, rfl⟩

end Tree

/-! ### Proper trees -/

/-- Every directory at or below the node lists file names in ascending order. -/
inductive Node.Proper : Node → Prop
  | file (contents : Contents) : Node.Proper (.file contents)
  | directory {entries : List (RawText × Node)} (hascending : (entries.map (·.1)).Pairwise (· < ·))
      (hnames : ∀ e ∈ entries, IsFileName e.1) (hbelow : ∀ e ∈ entries, Node.Proper e.2) :
      Node.Proper (.directory entries)

namespace Node

theorem mem_of_child? {node child : Node} {name : RawText} (h : node.child? name = some child) :
    (name, child) ∈ node.entries := by
  obtain ⟨⟨n, found⟩, hfound, rfl⟩ := Option.map_eq_some_iff.1 h
  have hname : n = name := by simpa using List.find?_some hfound
  exact hname ▸ List.mem_of_find?_eq_some hfound

theorem child?_of_mem {entries : List (RawText × Node)} {name : RawText} {child : Node}
    (hascending : (entries.map (·.1)).Pairwise (· < ·)) (h : (name, child) ∈ entries) :
    child? name (.directory entries) = some child := by
  have hfind : entries.find? (fun e => e.1 == name) = some (name, child) := by
    induction entries with
    | nil => cases h
    | cons e rest ih =>
      rw [List.map_cons, List.pairwise_cons] at hascending
      rcases List.mem_cons.1 h with rfl | hrest
      · exact List.find?_cons_of_pos (beq_self_eq_true name)
      · have hlt : e.1 < name := hascending.1 name (List.mem_map_of_mem hrest)
        have hne : e.1 ≠ name := fun heq => List.lt_irrefl name (heq ▸ hlt)
        rw [List.find?_cons_of_neg (by simpa using hne)]
        exact ih hascending.2 hrest
  exact congrArg (Option.map (·.2)) hfind

theorem Proper.child {node child : Node} (h : node.Proper) {name : RawText}
    (hchild : node.child? name = some child) : child.Proper := by
  cases h with
  | file contents => cases hchild
  | directory _ _ hbelow => exact hbelow _ (mem_of_child? hchild)

theorem Proper.isFileName_of_at? {node last : Node} (h : node.Proper) {names : List RawText}
    (hlast : node.at? names = some last) : ∀ name ∈ names, IsFileName name := by
  induction names generalizing node with
  | nil => exact fun name hname => nomatch hname
  | cons name rest ih =>
    obtain ⟨child, hchild, hrest⟩ := Option.bind_eq_some_iff.1 hlast
    refine List.forall_mem_cons.2 ⟨?_, ih (h.child hchild) hrest⟩
    cases h with
    | file contents => cases hchild
    | directory _ hnames _ => exact hnames _ (mem_of_child? hchild)

end Node

namespace Tree

variable {tree : Tree}

theorem proper_stepAlong {trail next : Trail} {component : Component}
    (h : ∀ e ∈ trail, e.2.Proper) (hstep : stepAlong trail component = some next) :
    ∀ e ∈ next, e.2.Proper := by
  cases component with
  | root => cases hstep; exact h
  | here => cases hstep; exact h
  | up =>
    simp only [stepAlong] at hstep
    split at hstep
    · cases hstep
      exact h
    · cases hstep
      exact fun e he => h e (List.mem_cons_of_mem _ he)
    · cases hstep
  | name name =>
    simp only [stepAlong] at hstep
    split at hstep
    · obtain ⟨child, hchild, rfl⟩ := Option.map_eq_some_iff.1 hstep
      intro e he
      rcases List.mem_cons.1 he with rfl | he
      · exact (h _ List.mem_cons_self).child hchild
      · exact h e he
    · cases hstep

theorem proper_foldlM_stepAlong {components : List Component} {trail last : Trail}
    (h : ∀ e ∈ trail, e.2.Proper) (hwalk : components.foldlM stepAlong trail = some last) :
    ∀ e ∈ last, e.2.Proper := by
  induction components generalizing trail with
  | nil => cases hwalk; exact h
  | cons component rest ih =>
    obtain ⟨next, hstep, hrest⟩ := Option.bind_eq_some_iff.1 hwalk
    exact ih (proper_stepAlong h hstep) hrest

theorem proper_of_find? (h : tree.top.Proper) {p : Path} {node : Node}
    (hnode : tree.find? p = some node) : node.Proper := by
  obtain ⟨name, outer, htrail⟩ := find?_eq_some_iff.1 hnode
  obtain ⟨-, hwalk, -⟩ := trail?_eq_some_iff.1 htrail
  exact proper_foldlM_stepAlong (by simpa using h) hwalk (name, node) List.mem_cons_self

end Tree

end GoUml
