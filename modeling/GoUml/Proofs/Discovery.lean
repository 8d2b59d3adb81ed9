import GoUml.Load.Selection
import GoUml.Proofs.Files
import GoUml.Proofs.FirstFailure

/-!
# What recursive discovery finds

A walk decides at every directory whether it goes in, and what it leaves out is said about whole
ways down: none of the directories on the way is ignored, and none of the names on it is set aside.
Both are told by rows of names. A directory and what is below it have the same first name, so the
walk meets the rows in their lexicographic order, which is parents first and siblings by name.
-/

namespace GoUml

namespace Selection

variable {selection : Selection} {tree : Tree} {root : Path}

/-- Directories below a named one are not loaded under such a name. A name that is no text is never
set aside. -/
def SetAside (name : RawText) : Prop :=
  ∃ s : String, name = s ∧
    (s = "vendor" ∨ s = "testdata" ∨ s.toList.head? = some '.' ∨ s.toList.head? = some '_')

theorem startsWith_singleton_iff {s : String} {c : Char} :
    Text.startsWith s (String.ofList [c]) = true ↔ s.toList.head? = some c := by
  rw [Text.startsWith_iff, String.toList_ofList, List.head?_eq_some_iff]
  rfl

theorem isSetAside_eq_false_iff {name : RawText} :
    isSetAside name.text? = false ↔ ¬ SetAside name := by
  rw [← Bool.not_eq_true, not_iff_not, SetAside]
  simp only [← RawText.text?_eq_some_iff]
  cases name.text? with
  | none => simp [isSetAside]
  | some s =>
    have hdot : Text.startsWith s "." = true ↔ s.toList.head? = some '.' :=
      startsWith_singleton_iff
    have hunderscore : Text.startsWith s "_" = true ↔ s.toList.head? = some '_' :=
      startsWith_singleton_iff
    simp only [isSetAside, Bool.or_eq_true, beq_iff_eq, hdot, hunderscore, Option.some.injEq,
      exists_eq_left']
    tauto

theorem ignores_eq_false_iff {p : Path} :
    selection.ignores p = false ↔ ∀ q ∈ selection.ignored, q.components ≠ p.components := by
  rw [ignores, List.any_eq_false]
  simp [Path.same]

mutual

/-- The directories at and below a node that are not excluded, whether or not they can be listed. -/
def visits (selection : Selection) (p : Path) : Node → List Path
  | .file _ => []
  | .directory entries =>
    if selection.ignores p then [] else p :: visitsBelow selection p entries

def visitsBelow (selection : Selection) (outer : Path) : List (RawText × Node) → List Path
  | [] => []
  | (name, node) :: rest =>
    (if isSetAside name.text? then [] else visits selection (outer.join name) node) ++
      visitsBelow selection outer rest

end

/-- A directory that is visited, or the error that it cannot be listed. -/
def listed (tree : Tree) (root p : Path) : Except LoadError Path :=
  match tree.listingFault? p with
  | none => .ok p
  | some fault => .error (unlisted root p fault)

theorem listed_eq_ok_iff {p q : Path} :
    listed tree root p = .ok q ↔ tree.listingFault? p = none ∧ p = q := by
  rw [listed]
  cases tree.listingFault? p <;> simp

theorem listed_eq_error_iff {p : Path} {e : LoadError} :
    listed tree root p = .error e ↔
      ∃ fault, tree.listingFault? p = some fault ∧ e = unlisted root p fault := by
  rw [listed]
  cases tree.listingFault? p <;> simp [eq_comm]

mutual

/-- A walk goes wherever it would go if all directories could be listed, up to the first that
cannot. -/
theorem mapM_walk (root p : Path) (node : Node) :
    (selection.walk tree root p node).mapM id =
      (selection.visits p node).mapM (listed tree root) := by
  match node with
  | .file contents => rfl
  | .directory entries =>
    rw [walk, visits]
    by_cases hp : selection.ignores p = true
    · rw [if_pos hp, if_pos hp]
      rfl
    · rw [if_neg hp, if_neg hp, mapM_cons_of_ok (f := id) rfl]
      cases hfault : tree.listingFault? p with
      | none =>
        rw [mapM_cons_of_ok (listed_eq_ok_iff.2 ⟨hfault, rfl⟩), mapM_walkEntries root p entries]
      | some fault =>
        rw [mapM_cons_of_error (listed_eq_error_iff.2 ⟨fault, hfault, rfl⟩)]
        rfl

theorem mapM_walkEntries (root p : Path) (entries : List (RawText × Node)) :
    (selection.walkEntries tree root p entries).mapM id =
      (selection.visitsBelow p entries).mapM (listed tree root) := by
  match entries with
  | [] => rfl
  | (name, node) :: rest =>
    rw [walkEntries, visitsBelow, List.mapM_append, List.mapM_append,
      mapM_walkEntries root p rest]
    by_cases hname : isSetAside name.text? = true
    · rw [if_pos hname, if_pos hname]
      rfl
    · rw [if_neg hname, if_neg hname, mapM_walk root (p.join name) node]

end

structure Entered (selection : Selection) (p : Path) (node : Node) (names : List RawText) :
    Prop where
  directory : ∃ entries, node.at? names = some (.directory entries)
  kept : ∀ outer, outer <+: names → selection.ignores (p.along outer) = false
  named : ∀ name ∈ names, isSetAside name.text? = false

/-- The rows that a walk of the entries of a directory at `p` meets. -/
def EnteredBelow (selection : Selection) (p : Path) (entries : List (RawText × Node))
    (names : List RawText) : Prop :=
  ∃ name node rest, (name, node) ∈ entries ∧ names = name :: rest ∧ isSetAside name.text? = false ∧
    selection.Entered (p.join name) node rest

def ListsRows (p : Path) (found : List Path) (rows : List RawText → Prop) : Prop :=
  ∃ listed : List (List RawText), found = listed.map p.along ∧ listed.Pairwise (· < ·) ∧
    ∀ names, names ∈ listed ↔ rows names

theorem entered_directory_iff {p : Path} {entries : List (RawText × Node)} {names : List RawText}
    (hascending : (entries.map (·.1)).Pairwise (· < ·)) (hp : selection.ignores p = false) :
    selection.Entered p (.directory entries) names ↔
      names = [] ∨ selection.EnteredBelow p entries names := by
  constructor
  · rintro ⟨⟨below, hat⟩, hkept, hnamed⟩
    cases names with
    | nil => exact .inl rfl
    | cons name rest =>
      obtain ⟨node, hchild, hat⟩ := Option.bind_eq_some_iff.1 hat
      refine .inr ⟨name, node, rest, Node.mem_of_child? hchild, rfl,
        hnamed name List.mem_cons_self, ⟨below, hat⟩, fun outer houter => ?_, fun n hn => ?_⟩
      · exact hkept (name :: outer) (List.cons_prefix_cons.2 ⟨rfl, houter⟩)
      · exact hnamed n (List.mem_cons_of_mem _ hn)
  · rintro (rfl | ⟨name, node, rest, hmem, rfl, hname, ⟨below, hat⟩, hkept, hnamed⟩)
    · refine ⟨⟨entries, rfl⟩, fun outer houter => ?_, by simp⟩
      rw [List.prefix_nil.1 houter]
      exact hp
    · refine ⟨⟨below, ?_⟩, fun outer houter => ?_, List.forall_mem_cons.2 ⟨hname, hnamed⟩⟩
      · rw [Node.at?, Node.child?_of_mem hascending hmem]
        exact hat
      · rcases List.prefix_cons_iff.1 houter with rfl | ⟨inner, rfl, hinner⟩
        · exact hp
        · exact hkept inner hinner

theorem enteredBelow_cons_iff {p : Path} {name : RawText} {node : Node}
    {others : List (RawText × Node)} {names : List RawText} :
    selection.EnteredBelow p ((name, node) :: others) names ↔
      (∃ rest, names = name :: rest ∧ isSetAside name.text? = false ∧
        selection.Entered (p.join name) node rest) ∨ selection.EnteredBelow p others names := by
  constructor
  · rintro ⟨name', node', rest, hmem, hentered⟩
    rcases List.mem_cons.1 hmem with heq | hmem
    · cases heq
      exact .inl ⟨rest, hentered⟩
    · exact .inr ⟨name', node', rest, hmem, hentered⟩
  · rintro (⟨rest, hentered⟩ | ⟨name', node', rest, hmem, hentered⟩)
    · exact ⟨name, node, rest, List.mem_cons_self, hentered⟩
    · exact ⟨name', node', rest, List.mem_cons_of_mem _ hmem, hentered⟩

theorem listsRows_nil {p : Path} {rows : List RawText → Prop} (h : ∀ names, ¬ rows names) :
    ListsRows p [] rows :=
  ⟨[], rfl, .nil, fun names => iff_of_false List.not_mem_nil (h names)⟩

/-- A directory comes before what is below it. -/
theorem ListsRows.cons {p : Path} {found : List Path} {rows : List RawText → Prop}
    (h : ListsRows p found rows) (hrows : ¬ rows []) :
    ListsRows p (p :: found) fun names => names = [] ∨ rows names := by
  obtain ⟨listed, rfl, hsorted, hmem⟩ := h
  refine ⟨[] :: listed, rfl, List.pairwise_cons.2 ⟨fun names hnames => ?_, hsorted⟩,
    fun names => by rw [List.mem_cons, hmem]⟩
  cases names with
  | nil => exact absurd ((hmem []).1 hnames) hrows
  | cons name rest => exact List.nil_lt_cons name rest

/-- What is below one entry comes before what is below the entries behind it. -/
theorem ListsRows.append {p : Path} {name : RawText} {inner found : List Path}
    {rows rows' : List RawText → Prop} (hinner : ListsRows (p.join name) inner rows)
    (hfound : ListsRows p found rows')
    (hbehind : ∀ names, rows' names → ∃ other rest, names = other :: rest ∧ name < other) :
    ListsRows p (inner ++ found) fun names =>
      (∃ rest, names = name :: rest ∧ rows rest) ∨ rows' names := by
  obtain ⟨below, rfl, hascends, hbelow⟩ := hinner
  obtain ⟨listed, rfl, hsorted, hlisted⟩ := hfound
  refine ⟨below.map (name :: ·) ++ listed, ?_, List.pairwise_append.2 ⟨?_, hsorted, ?_⟩,
    fun names => ?_⟩
  · rw [List.map_append, List.map_map]
    rfl
  · refine List.pairwise_map.2 (hascends.imp fun h => ?_)
    exact List.cons_lt_cons_iff.2 (.inr ⟨rfl, h⟩)
  · intro first hfirst second hsecond
    obtain ⟨rest, -, rfl⟩ := List.mem_map.1 hfirst
    obtain ⟨other, rest', rfl, hlt⟩ := hbehind second ((hlisted second).1 hsecond)
    exact List.cons_lt_cons_iff.2 (.inl hlt)
  · rw [List.mem_append, List.mem_map, hlisted]
    refine or_congr_left (exists_congr fun rest => ?_)
    rw [hbelow, eq_comm, and_comm]

mutual

/-- The rows that a walk enters are those of the directories it visits. -/
theorem visits_lists (p : Path) {node : Node} (hproper : node.Proper) :
    ListsRows p (selection.visits p node) (selection.Entered p node) := by
  match node with
  | .file contents =>
    refine listsRows_nil ?_
    rintro names ⟨⟨entries, hat⟩, -, -⟩
    cases names <;> cases hat
  | .directory entries =>
    cases hproper with
    | directory hascending hnames hbelow =>
      rw [visits]
      by_cases hp : selection.ignores p = true
      · rw [if_pos hp]
        refine listsRows_nil fun names h => ?_
        cases hp.symm.trans (h.kept [] List.nil_prefix)
      · rw [if_neg hp]
        rw [Bool.not_eq_true] at hp
        have hentered : selection.Entered p (.directory entries) =
            fun names => names = [] ∨ selection.EnteredBelow p entries names :=
          funext fun names => propext (entered_directory_iff hascending hp)
        rw [hentered]
        refine (visitsBelow_lists p hascending hbelow).cons ?_
        rintro ⟨name, node, rest, -, hnil, -⟩
        cases hnil

theorem visitsBelow_lists (p : Path) {entries : List (RawText × Node)}
    (hascending : (entries.map (·.1)).Pairwise (· < ·)) (hproper : ∀ e ∈ entries, e.2.Proper) :
    ListsRows p (selection.visitsBelow p entries) (selection.EnteredBelow p entries) := by
  match entries with
  | [] =>
    refine listsRows_nil ?_
    rintro names ⟨name, node, rest, hmem, -⟩
    cases hmem
  | (name, node) :: others =>
    rw [List.map_cons, List.pairwise_cons] at hascending
    have hothers := @visitsBelow_lists p others hascending.2
      fun e he => hproper e (List.mem_cons_of_mem _ he)
    rw [visitsBelow]
    by_cases hname : isSetAside name.text? = true
    · have hentered : selection.EnteredBelow p ((name, node) :: others) =
          selection.EnteredBelow p others := by
        funext names
        rw [enteredBelow_cons_iff, hname]
        simp
      rw [if_pos hname, List.nil_append, hentered]
      exact hothers
    · rw [Bool.not_eq_true] at hname
      have hentered : selection.EnteredBelow p ((name, node) :: others) = fun names =>
          (∃ rest, names = name :: rest ∧ selection.Entered (p.join name) node rest) ∨
            selection.EnteredBelow p others names := by
        funext names
        rw [enteredBelow_cons_iff, hname]
        simp
      rw [if_neg (by simp [hname]), hentered]
      refine (visits_lists (p.join name) (hproper _ List.mem_cons_self)).append hothers ?_
      rintro names ⟨other, node', rest, hmem, rfl, -⟩
      exact ⟨other, rest, rfl, hascending.1 other (List.mem_map_of_mem hmem)⟩

end

/-- The names lead down from `root` to a directory that is selected: neither `root` nor a directory
on the way is ignored, and no name on the way is set aside. The name of `root` does not count. -/
structure Selects (selection : Selection) (tree : Tree) (root : Path) (names : List RawText) :
    Prop where
  directory : tree.isDirectory (root.along names) = true
  fileNames : ∀ name ∈ names, IsFileName name
  kept : ∀ outer, outer <+: names →
    ∀ q ∈ selection.ignored, q.components ≠ (root.along outer).components
  named : ∀ name ∈ names, ¬ SetAside name

/-- The paths are those of the directories that are selected at and below `root`, each once, parents
first and siblings by name. -/
structure Covers (selection : Selection) (tree : Tree) (root : Path) (found : List Path) :
    Prop where
  lists : ListsRows root found (selection.Selects tree root)
  distinct : (found.map Path.components).Nodup

theorem entered_iff_selects (hproper : tree.top.Proper) {node : Node}
    (hroot : tree.find? root = some node) {names : List RawText} :
    selection.Entered root node names ↔ selection.Selects tree root names := by
  have hdirectory (hnames : ∀ name ∈ names, IsFileName name) :
      tree.isDirectory (root.along names) = true ↔
        ∃ entries, node.at? names = some (.directory entries) := by
    rw [Tree.isDirectory_iff, Tree.find?_along hroot hnames]
  constructor
  · rintro ⟨⟨entries, hat⟩, hkept, hnamed⟩
    have hnames := (Tree.proper_of_find? hproper hroot).isFileName_of_at? hat
    exact ⟨(hdirectory hnames).2 ⟨entries, hat⟩, hnames,
      fun outer houter => ignores_eq_false_iff.1 (hkept outer houter),
      fun name hname => isSetAside_eq_false_iff.1 (hnamed name hname)⟩
  · rintro ⟨hselected, hnames, hkept, hnamed⟩
    exact ⟨(hdirectory hnames).1 hselected,
      fun outer houter => ignores_eq_false_iff.2 (hkept outer houter),
      fun name hname => isSetAside_eq_false_iff.2 (hnamed name hname)⟩

theorem nodup_components_of_lists (hroot : root.raw ≠ []) {found : List Path}
    (h : ListsRows root found (selection.Selects tree root)) :
    (found.map Path.components).Nodup := by
  obtain ⟨listed, rfl, hsorted, hmem⟩ := h
  rw [List.map_map]
  refine List.pairwise_map.2 (hsorted.imp_of_mem fun {names others} hnames hothers hlt heq => ?_)
  have hcomponents := Path.components_along hroot ((hmem names).1 hnames).fileNames
  have hcomponents' := Path.components_along hroot ((hmem others).1 hothers).fileNames
  rw [Function.comp_apply, Function.comp_apply, hcomponents, hcomponents',
    List.append_cancel_left_eq] at heq
  have hsame : names = others :=
    List.map_injective_iff.2 (fun _ _ h => Component.name.inj h) heq
  exact List.lt_irrefl others (hsame ▸ hlt)

theorem visits_lists_selected (selection : Selection) (hproper : tree.top.Proper) {node : Node}
    (hroot : tree.find? root = some node) :
    ListsRows root (selection.visits root node) (selection.Selects tree root) := by
  have hrows : selection.Selects tree root = selection.Entered root node :=
    funext fun names => propext (entered_iff_selects hproper hroot).symm
  rw [hrows]
  exact visits_lists root (Tree.proper_of_find? hproper hroot)

/-! ### Directories that cannot be searched -/

/-- The directory with these names below `root` is the first selected one that cannot be listed. -/
structure FirstUnlisted (selection : Selection) (tree : Tree) (root : Path) (names : List RawText)
    (fault : ListingFault) : Prop where
  selected : selection.Selects tree root names
  fault : tree.listingFault? (root.along names) = some fault
  first : ∀ earlier, earlier < names → selection.Selects tree root earlier →
    tree.listingFault? (root.along earlier) = none

/-- What can be wrong with a named directory. -/
inductive RootFault (selection : Selection) (tree : Tree) (root : Path) : LoadError → Prop
  | notFound (hroot : tree.isDirectory root = false) :
      RootFault selection tree root ⟨root, .directoryNotFound⟩
  | unlisted {names : List RawText} {fault : ListingFault} (hroot : tree.isDirectory root = true)
      (hrecursive : selection.recursive = true)
      (hfirst : selection.FirstUnlisted tree root names fault) :
      RootFault selection tree root (Selection.unlisted root (root.along names) fault)

/-- The directory is there, and all directories that are selected below it can be listed. -/
structure Searchable (selection : Selection) (tree : Tree) (root : Path) : Prop where
  directory : tree.isDirectory root = true
  listed : ∀ names, selection.Selects tree root names →
    tree.listingFault? (root.along names) = none

theorem searchable_of_faults_eq_nil (hfaults : tree.faults = [])
    (hroot : tree.isDirectory root = true) : selection.Searchable tree root := by
  refine ⟨hroot, fun names _ => ?_⟩
  rw [Tree.listingFault?, hfaults]
  exact Option.bind_fun_none _

theorem Searchable.not_rootFault (h : selection.Searchable tree root) (e : LoadError) :
    ¬ selection.RootFault tree root e := by
  rintro (hroot | ⟨-, -, hfirst⟩)
  · cases h.directory.symm.trans hroot
  · cases (h.listed _ hfirst.selected).symm.trans hfirst.fault

/-- In ascending rows, the first one that fails is the first one that cannot be listed. -/
theorem failsFirst_listed_iff {rows : List (List RawText)} (hsorted : rows.Pairwise (· < ·))
    (hmem : ∀ names, names ∈ rows ↔ selection.Selects tree root names) {e : LoadError} :
    FailsFirst (Selection.listed tree root) (rows.map root.along) e ↔
      ∃ names fault, selection.FirstUnlisted tree root names fault ∧
        e = unlisted root (root.along names) fault := by
  constructor
  · rintro ⟨before, p, after, hsplit, hbefore, hp⟩
    obtain ⟨earlier, rest, rfl, rfl, hrest⟩ := List.map_eq_append_iff.1 hsplit
    obtain ⟨names, later, rfl, rfl, rfl⟩ := List.map_eq_cons_iff.1 hrest
    obtain ⟨fault, hfault, rfl⟩ := listed_eq_error_iff.1 hp
    refine ⟨names, fault, ⟨(hmem names).1 (by simp), hfault, fun row hlt hrow => ?_⟩, rfl⟩
    rcases List.mem_append.1 ((hmem row).2 hrow) with hrow | hrow
    · obtain ⟨q, hq⟩ := hbefore _ (List.mem_map_of_mem hrow)
      exact (listed_eq_ok_iff.1 hq).1
    · rcases List.mem_cons.1 hrow with rfl | hrow
      · exact absurd hlt (List.lt_irrefl row)
      · have hbehind : names < row :=
          List.rel_of_pairwise_cons (List.pairwise_append.1 hsorted).2.1 hrow
        exact absurd (List.lt_trans hlt hbehind) (List.lt_irrefl row)
  · rintro ⟨names, fault, hfirst, rfl⟩
    obtain ⟨earlier, later, rfl⟩ := List.append_of_mem ((hmem names).2 hfirst.selected)
    refine ⟨earlier.map root.along, root.along names, later.map root.along, by simp, fun q hq => ?_,
      listed_eq_error_iff.2 ⟨fault, hfirst.fault, rfl⟩⟩
    obtain ⟨row, hrow, rfl⟩ := List.mem_map.1 hq
    have hlt := (List.pairwise_append.1 hsorted).2.2 row hrow names List.mem_cons_self
    have hselected := (hmem row).1 (List.mem_append_left _ hrow)
    exact ⟨_, listed_eq_ok_iff.2 ⟨hfirst.first row hlt hselected, rfl⟩⟩

theorem expand_of_isDirectory {entries : List (RawText × Node)}
    (h : tree.find? root = some (.directory entries)) :
    selection.expand tree root =
      if selection.recursive then
        (selection.visits root (.directory entries)).mapM (listed tree root)
      else .ok [root] := by
  rw [expand, h, ← mapM_walk]
  rfl

theorem expand_of_not_isDirectory (h : tree.isDirectory root = false) :
    selection.expand tree root = .error ⟨root, .directoryNotFound⟩ := by
  rw [Tree.isDirectory] at h
  rw [expand]
  cases hfind : tree.find? root with
  | none => rfl
  | some node =>
    rw [hfind, Option.any_some] at h
    simp [h]

theorem expand_eq_error_iff (hproper : tree.top.Proper) {e : LoadError} :
    selection.expand tree root = .error e ↔ selection.RootFault tree root e := by
  cases hroot : tree.isDirectory root with
  | false =>
    rw [expand_of_not_isDirectory hroot, Except.error.injEq]
    constructor
    · rintro rfl
      exact .notFound hroot
    · rintro (- | ⟨hroot', -, -⟩)
      · rfl
      · cases hroot.symm.trans hroot'
  | true =>
    obtain ⟨entries, hfind⟩ := Tree.isDirectory_iff.1 hroot
    obtain ⟨rows, hrows, hsorted, hmem⟩ := visits_lists_selected selection hproper hfind
    rw [expand_of_isDirectory hfind]
    by_cases hrecursive : selection.recursive = true
    · rw [if_pos hrecursive, mapM_eq_error_iff, hrows, failsFirst_listed_iff hsorted hmem]
      constructor
      · rintro ⟨names, fault, hfirst, rfl⟩
        exact .unlisted hroot hrecursive hfirst
      · rintro (hroot' | ⟨-, -, hfirst⟩)
        · cases hroot.symm.trans hroot'
        · exact ⟨_, _, hfirst, rfl⟩
    · rw [if_neg hrecursive]
      constructor
      · intro h
        cases h
      · rintro (hroot' | ⟨-, hrecursive', -⟩)
        · cases hroot.symm.trans hroot'
        · exact absurd hrecursive' hrecursive

/-! ### Discovery -/

theorem discover_eq (selection : Selection) (tree : Tree) :
    selection.discover tree =
      (selection.directories.mapM (selection.expand tree)).map List.flatten := by
  rw [discover]
  cases selection.directories.mapM (selection.expand tree) <;> rfl

/-- The error of discovery is that of the first named directory with which something is wrong. -/
theorem discover_eq_error_iff (hproper : tree.top.Proper) {e : LoadError} :
    selection.discover tree = .error e ↔
      ∃ before root after, selection.directories = before ++ root :: after ∧
        (∀ p ∈ before, ∀ e', ¬ selection.RootFault tree p e') ∧
          selection.RootFault tree root e := by
  have hmapM : selection.discover tree = .error e ↔
      selection.directories.mapM (selection.expand tree) = .error e := by
    rw [discover_eq]
    cases selection.directories.mapM (selection.expand tree) <;> simp [Except.map]
  have hexpands (p : Path) : (∃ found, selection.expand tree p = .ok found) ↔
      ∀ e', ¬ selection.RootFault tree p e' := by
    simp only [← expand_eq_error_iff hproper]
    cases selection.expand tree p <;> simp
  rw [hmapM, mapM_eq_error_iff, FailsFirst]
  simp only [hexpands, expand_eq_error_iff hproper]

theorem covers_of_expand (hproper : tree.top.Proper) (hrecursive : selection.recursive = true)
    (hroot : selection.Searchable tree root) :
    ∃ found, selection.expand tree root = .ok found ∧ selection.Covers tree root found := by
  obtain ⟨entries, hfind⟩ := Tree.isDirectory_iff.1 hroot.directory
  have hlists : ListsRows root (selection.visits root (.directory entries))
      (selection.Selects tree root) := visits_lists_selected selection hproper hfind
  refine ⟨selection.visits root (.directory entries), ?_,
    hlists, nodup_components_of_lists (Tree.ne_empty_of_find? hfind) hlists⟩
  obtain ⟨rows, hrows, -, hmem⟩ := hlists
  rw [expand_of_isDirectory hfind, if_pos hrecursive, mapM_eq_ok_iff, List.forall₂_same]
  intro p hp
  rw [hrows] at hp
  obtain ⟨names, hnames, rfl⟩ := List.mem_map.1 hp
  exact listed_eq_ok_iff.2 ⟨hroot.listed names ((hmem names).1 hnames), rfl⟩

/-- Recursive discovery finds, for one named directory after the other, exactly the directories that
are selected at and below it. The first named directory that is none, or below which a selected
directory cannot be listed, is the error. -/
theorem discover_exact (hproper : tree.top.Proper) (hrecursive : selection.recursive = true) :
    ((∀ root ∈ selection.directories, selection.Searchable tree root) →
      ∃ lists, selection.discover tree = .ok lists.flatten ∧
        List.Forall₂ (selection.Covers tree) selection.directories lists) ∧
    ∀ before root after, selection.directories = before ++ root :: after →
      (∀ p ∈ before, selection.Searchable tree p) →
        (tree.isDirectory root = false →
          selection.discover tree = .error ⟨root, .directoryNotFound⟩) ∧
        ∀ names fault, tree.isDirectory root = true →
          selection.FirstUnlisted tree root names fault →
            selection.discover tree = .error (unlisted root (root.along names) fault) := by
  constructor
  · intro hsearchable
    have hexpand : ∃ lists, List.Forall₂ (fun root found =>
        selection.expand tree root = .ok found ∧ selection.Covers tree root found)
        selection.directories lists := by
      generalize selection.directories = directories at hsearchable
      induction directories with
      | nil => exact ⟨[], .nil⟩
      | cons root rest ih =>
        obtain ⟨hroot, hrest⟩ := List.forall_mem_cons.1 hsearchable
        obtain ⟨found, hfound⟩ := covers_of_expand hproper hrecursive hroot
        obtain ⟨lists, hlists⟩ := ih hrest
        exact ⟨found :: lists, .cons hfound hlists⟩
    obtain ⟨lists, hlists⟩ := hexpand
    refine ⟨lists, ?_, hlists.imp fun _ _ h => h.2⟩
    rw [discover_eq, mapM_eq_ok_iff.2 (hlists.imp fun _ _ h => h.1)]
    rfl
  · intro before root after hsplit hbefore
    have herror {e : LoadError} (he : selection.RootFault tree root e) :
        selection.discover tree = .error e :=
      (discover_eq_error_iff hproper).2
        ⟨before, root, after, hsplit, fun p hp => (hbefore p hp).not_rootFault, he⟩
    exact ⟨fun hroot => herror (.notFound hroot),
      fun names fault hroot hfirst => herror (.unlisted hroot hrecursive hfirst)⟩

/-- A named directory that would be set aside below another one. One directory in it is hidden,
another one ignored under a path that is written in a different way. -/
def storeroom : Tree where
  top := .directory [("work", .directory [("vendor", .directory [
    (".git", .directory []),
    ("kit", .directory [
      ("kit.go", .file (.text "package kit")),
      ("parts", .directory []),
      ("testdata", .directory [("spare", .directory [])])]),
    ("lib", .directory [("deep", .directory [])])])])]
  home := ["work"]

def storeroomSelection : Selection where
  directories := [⟨"vendor"⟩]
  ignored := [⟨"vendor//lib/"⟩]
  recursive := true

def lockedStoreroom : Tree := { storeroom with faults := [(["work", "vendor"], .unopened)] }

theorem proper_storeroom : storeroom.top.Proper := by
  have hempty : Node.Proper (.directory []) := .directory (by decide) (by decide) (by simp)
  have hspare : Node.Proper (.directory [("spare", .directory [])]) :=
    .directory (by decide) (by decide) (by simp [hempty])
  have hkit : Node.Proper (.directory [("kit.go", .file (.text "package kit")),
      ("parts", .directory []), ("testdata", .directory [("spare", .directory [])])]) :=
    .directory (by decide) (by decide) (by simp [hempty, hspare, Node.Proper.file])
  have hlib : Node.Proper (.directory [("deep", .directory [])]) :=
    .directory (by decide) (by decide) (by simp [hempty])
  refine .directory (by decide) (by decide) fun work hwork => ?_
  rw [List.mem_singleton.1 hwork]
  refine .directory (by decide) (by decide) fun vendor hvendor => ?_
  rw [List.mem_singleton.1 hvendor]
  exact .directory (by decide) (by decide) (by simp [hempty, hkit, hlib])

theorem discover_exact_storeroom :
    storeroomSelection.recursive = true ∧
      storeroomSelection.discover storeroom =
        .ok [⟨"vendor"⟩, ⟨"vendor/kit"⟩, ⟨"vendor/kit/parts"⟩] ∧
      storeroomSelection.Covers storeroom ⟨"vendor"⟩
        [⟨"vendor"⟩, ⟨"vendor/kit"⟩, ⟨"vendor/kit/parts"⟩] ∧
      { storeroomSelection with directories := [⟨"vendor"⟩, ⟨"attic"⟩] }.discover storeroom =
        .error ⟨⟨"attic"⟩, .directoryNotFound⟩ ∧
      storeroomSelection.discover lockedStoreroom = .error ⟨⟨"vendor"⟩, .unreadable⟩ := by
  have hdiscover : storeroomSelection.discover storeroom =
      .ok [⟨"vendor"⟩, ⟨"vendor/kit"⟩, ⟨"vendor/kit/parts"⟩] := by
    decide +kernel
  have hsearchable (selection : Selection) :
      ∀ p ∈ ([⟨"vendor"⟩] : List Path), selection.Searchable storeroom p :=
    List.forall_mem_singleton.2 (searchable_of_faults_eq_nil rfl (by decide +kernel))
  obtain ⟨lists, hlists, hcovers⟩ := (@discover_exact storeroomSelection _ proper_storeroom rfl).1
    (hsearchable storeroomSelection)
  obtain ⟨found, rest, hfound, hrest, rfl⟩ := List.forall₂_cons_left_iff.1 hcovers
  cases List.forall₂_nil_left_iff.1 hrest
  rw [hdiscover, List.flatten_singleton] at hlists
  have hlocked :
      storeroomSelection.FirstUnlisted lockedStoreroom ⟨"vendor"⟩ [] .unopened := by
    refine ⟨⟨by decide +kernel, by simp, fun outer houter => ?_, by simp⟩, by decide +kernel,
      fun earlier hlt => absurd hlt (List.not_lt_nil earlier)⟩
    rw [List.prefix_nil.1 houter]
    decide +kernel
  refine ⟨rfl, hdiscover, Except.ok.inj hlists ▸ hfound, ?_, ?_⟩
  · exact ((discover_exact proper_storeroom rfl).2 [⟨"vendor"⟩] ⟨"attic"⟩ [] rfl
      (hsearchable _)).1 (by decide +kernel)
  · have hproper : lockedStoreroom.top.Proper := proper_storeroom
    exact ((discover_exact hproper rfl).2 [] ⟨"vendor"⟩ [] rfl (by simp)).2 [] .unopened
      (by decide +kernel) hlocked

/-- What names would be set aside if only their bytes counted. -/
def SetAsideByBytes (name : RawText) : Prop :=
  name = ("vendor" : RawText) ∨ name = ("testdata" : RawText) ∨
    name.head? = some 0x2E ∨ name.head? = some 0x5F

/-- What would be selected if an ignored directory were ignored under all its paths, and names were
set aside by their bytes. -/
structure SelectsByIdentity (selection : Selection) (tree : Tree) (root : Path)
    (names : List RawText) : Prop where
  directory : tree.isDirectory (root.along names) = true
  kept : ∀ outer, outer <+: names →
    ∀ q ∈ selection.ignored, tree.namesTo? q ≠ tree.namesTo? (root.along outer)
  named : ∀ name ∈ names, ¬ SetAsideByBytes name

/-- One directory has a hidden name that is no text, the other is ignored under another path. -/
def cellar : Tree where
  top := .directory [("work", .directory [([0x2E, 0xFF], .directory []), ("store", .directory [])])]
  home := ["work"]

def cellarSelection : Selection where
  directories := [⟨"."⟩]
  ignored := [⟨"store"⟩]
  recursive := true

/-- Directories are ignored by their paths as they are written, names that are no texts are not set
aside, and a directory that cannot be listed comes before a named one that is none. -/
theorem discover_not_by_identity :
    cellarSelection.discover cellar =
        .ok [⟨"."⟩, Path.join ⟨"."⟩ [0x2E, 0xFF], Path.join ⟨"."⟩ "store"] ∧
      ¬ cellarSelection.SelectsByIdentity cellar ⟨"."⟩ [[0x2E, 0xFF]] ∧
      ¬ cellarSelection.SelectsByIdentity cellar ⟨"."⟩ ["store"] ∧
      { cellarSelection with directories := [⟨"."⟩, ⟨"attic"⟩] }.discover
          { cellar with faults := [(["work"], .unopened)] } = .error ⟨⟨"."⟩, .unreadable⟩ := by
  have hstore : cellar.namesTo? ⟨"store"⟩ = cellar.namesTo? (Path.along ⟨"."⟩ ["store"]) := by
    decide +kernel
  refine ⟨by decide +kernel, fun h => ?_, fun h => ?_, by decide +kernel⟩
  · exact h.named _ List.mem_cons_self (.inr (.inr (.inl rfl)))
  · exact h.kept _ List.prefix_rfl ⟨"store"⟩ List.mem_cons_self hstore

end Selection

end GoUml
