import GoUml.Go.Module
import GoUml.Proofs.Parents
import GoUml.Proofs.Pointwise

/-!
# The import path of a directory

The search goes from an absolute directory up to the root, so it looks at the beginnings of its
names, the longest first, and it stops at the first module file. What that file says decides alone:
the path of its module with the names below it, or, when it declares none, the path of the directory
itself, even below a directory whose file declares a module.
-/

namespace GoUml.Go

open Text

variable {tree : Tree} {dir other : Path} {names outer below : List RawText} {text : String}

def moduleFile? (tree : Tree) (names : List RawText) : Option Contents :=
  (tree.top.at? (names ++ [Module.fileName])).bind Node.contents?

/-- The module files at and above the directory with these names are texts. -/
def ModulesReadable (tree : Tree) (names : List RawText) : Prop :=
  ∀ outer, outer <+: names → ∀ contents, moduleFile? tree outer = some contents →
    ∃ text, contents = .text text

theorem find?_fileIn (h : dir.IsAbsolute names) :
    tree.find? (Module.fileIn dir) = tree.top.at? (names ++ [Module.fileName]) := by
  have hname : IsFileName Module.fileName := by decide
  have hdir : dir.raw ≠ [] := by
    intro hempty
    obtain ⟨rest, hrest⟩ := Path.isRooted_iff.1 h.isRooted
    rw [hempty] at hrest
    cases hrest
  have hcomponents : tree.fromRoot (dir.join Module.fileName) =
      .root :: (names ++ [Module.fileName]).map .name := by
    rw [Tree.fromRoot, Path.isRooted_join hdir, if_pos h.isRooted,
      Path.components_join hdir hname, show dir.components = _ from h, List.map_append]
    rfl
  rw [Module.fileIn, Tree.find?_eq_last (Path.join_ne_empty hname)
    (Path.asksDirectory_join hdir hname), hcomponents]
  exact Tree.last_foldlM_names _ [] tree.top []

theorem contents?_fileIn (h : dir.IsAbsolute names) :
    tree.contents? (Module.fileIn dir) = moduleFile? tree names := by
  rw [Tree.contents?, find?_fileIn h, moduleFile?]

theorem isFile_fileIn (h : dir.IsAbsolute names) :
    tree.isFile (Module.fileIn dir) = (moduleFile? tree names).isSome := by
  rw [Tree.isFile, find?_fileIn h, moduleFile?]
  cases tree.top.at? (names ++ [Module.fileName]) with
  | none => rfl
  | some node => cases node <;> rfl

/-- The nearest module file at or above the directory with these names stands in the directory with
the names `outer`; `below` leads down from there. -/
structure Governed (tree : Tree) (names outer below : List RawText) (contents : Contents) :
    Prop where
  names_eq : names = outer ++ below
  holds : moduleFile? tree outer = some contents
  nearest : ∀ inner, outer <+: inner → inner <+: names → inner ≠ outer →
    moduleFile? tree inner = none

/-- There is no module file at or above the directory with these names. -/
def Alone (tree : Tree) (names : List RawText) : Prop :=
  ∀ outer, outer <+: names → moduleFile? tree outer = none

theorem pairwise_inits {α : Type} (l : List α) :
    l.inits.Pairwise fun shorter longer => shorter.length < longer.length := by
  induction l with
  | nil => exact List.pairwise_singleton _ _
  | cons a l ih =>
    rw [List.inits_cons]
    refine List.pairwise_cons.2 ⟨fun longer hlonger => ?_, List.pairwise_map.2 (ih.imp ?_)⟩
    · obtain ⟨rest, -, rfl⟩ := List.mem_map.1 hlonger
      exact Nat.succ_pos _
    · exact fun h => Nat.succ_lt_succ h

/-- Of the beginnings, the longest first, the first one with a property is the longest one with
it. -/
theorem find?_inits_reverse {α : Type} {P : List α → Bool} {l found : List α}
    (h : l.inits.reverse.find? P = some found) :
    found <+: l ∧ P found = true ∧
      ∀ longer, found <+: longer → longer <+: l → longer ≠ found → P longer = false := by
  obtain ⟨hfound, before, after, hsplit, hbefore⟩ := List.find?_eq_some_iff_append.1 h
  have hmem : found ∈ l.inits.reverse := List.mem_of_find?_eq_some h
  refine ⟨(List.mem_inits _ _).1 (List.mem_reverse.1 hmem), hfound,
    fun longer hle hbegins hne => ?_⟩
  have hlonger : longer ∈ l.inits.reverse :=
    List.mem_reverse.2 ((List.mem_inits _ _).2 hbegins)
  have hpairwise := List.pairwise_reverse.2 (pairwise_inits l)
  rw [hsplit] at hlonger hpairwise
  rcases List.mem_append.1 hlonger with hmem | hmem
  · simpa using hbefore longer hmem
  · rcases List.mem_cons.1 hmem with rfl | hmem
    · exact absurd rfl hne
    · have hshorter : longer.length < found.length :=
        (List.pairwise_cons.1 (List.pairwise_append.1 hpairwise).2.1).1 longer hmem
      exact absurd hle.length_le (Nat.not_le.2 hshorter)

/-- The search ends at the nearest module file. -/
theorem ancestors_search (tree : Tree) (h : dir.IsAbsolute names) :
    (dir.ancestors.find? (fun root => tree.isFile (Module.fileIn root)) = none ∧ Alone tree names) ∨
    ∃ root outer below contents,
      dir.ancestors.find? (fun root => tree.isFile (Module.fileIn root)) = some root ∧
      root.IsAbsolute outer ∧ Governed tree names outer below contents := by
  obtain ⟨hnone, hnames⟩ | ⟨root, outer, hroot, houter, habsolute⟩ :=
    rel_cases (rel_find?_of_forall₂ h.ancestors fun _ _ hroot => @isFile_fileIn tree _ _ hroot)
  · refine .inl ⟨hnone, fun outer houter => ?_⟩
    have hmem : outer ∈ names.inits.reverse := List.mem_reverse.2 ((List.mem_inits _ _).2 houter)
    simpa using List.find?_eq_none.1 hnames outer hmem
  · obtain ⟨⟨below, hbelow⟩, hholds, hnearest⟩ := find?_inits_reverse houter
    obtain ⟨contents, hcontents⟩ := Option.isSome_iff_exists.1 hholds
    refine .inr ⟨root, outer, below, contents, hroot, habsolute, hbelow.symm, hcontents,
      fun inner hle hbegins hne => ?_⟩
    simpa using hnearest inner hle hbegins hne

theorem Governed.not_alone {contents : Contents} (h : Governed tree names outer below contents) :
    ¬ Alone tree names := by
  intro halone
  cases (halone outer ⟨below, h.names_eq.symm⟩).symm.trans h.holds

/-- There is only one nearest module file. -/
theorem Governed.unique {outer' below' : List RawText} {contents contents' : Contents}
    (h : Governed tree names outer below contents)
    (h' : Governed tree names outer' below' contents') :
    outer = outer' ∧ below = below' ∧ contents = contents' := by
  have hbegins : outer <+: names := ⟨below, h.names_eq.symm⟩
  have hbegins' : outer' <+: names := ⟨below', h'.names_eq.symm⟩
  have houter : outer = outer' := by
    by_contra hne
    rcases List.prefix_or_prefix_of_prefix hbegins hbegins' with hle | hle
    · cases (h.nearest outer' hle hbegins' (Ne.symm hne)).symm.trans h'.holds
    · cases (h'.nearest outer hle hbegins hne).symm.trans h.holds
  subst houter
  refine ⟨rfl, List.append_cancel_left (h.names_eq.symm.trans h'.names_eq), ?_⟩
  exact Option.some.inj (h.holds.symm.trans h'.holds)

/-! ### Import paths -/

/-- The path of a directory that belongs to no module. -/
def ownPath (names : List RawText) : String :=
  if names = [] then "." else "/" ++ joinWith "/" (names.map RawText.display)

/-- The import path of the directory with these names, by what the nearest module file says. -/
inductive ImportedAs (tree : Tree) (names : List RawText) : String → Prop
  | declared {outer below : List RawText} {text module : String}
      (hgoverned : Governed tree names outer below (.text text))
      (hmodule : moduleOf? text = some module) :
      ImportedAs tree names (joinWith "/" (module :: below.map RawText.display))
  | silent {outer below : List RawText} {text : String}
      (hgoverned : Governed tree names outer below (.text text)) (hmodule : moduleOf? text = none) :
      ImportedAs tree names (ownPath names)
  | alone (halone : Alone tree names) : ImportedAs tree names (ownPath names)

theorem filterMap_display (names : List RawText) :
    names.filterMap (fun name => some name.display) = names.map RawText.display :=
  congrFun List.filterMap_eq_map names

theorem slashed_names (names : List RawText) :
    Path.slashed (names.map .name) = joinWith "/" (names.map RawText.display) := by
  rw [Path.slashed, List.filterMap_map]
  exact congrArg (joinWith "/") (filterMap_display names)

theorem joinWith_eq_empty_iff (hnames : ∀ name ∈ names, IsFileName name) :
    joinWith "/" (names.map RawText.display) = "" ↔ names = [] := by
  constructor
  · intro h
    by_contra hne
    refine joinWith_ne_empty (by simpa using hne) (fun text htext => ?_) h
    obtain ⟨name, hname, rfl⟩ := List.mem_map.1 htext
    exact fun hempty => (hnames name hname).1 (RawText.display_eq_empty_iff.1 hempty)
  · rintro rfl
    rfl

theorem slashed_absolute (h : dir.IsAbsolute names) :
    (if Path.slashed dir.components == "" then "." else Path.slashed dir.components) =
      ownPath names := by
  have hslashed : Path.slashed dir.components =
      joinWith "/" ("" :: names.map RawText.display) := by
    rw [show dir.components = _ from h, Path.slashed, List.filterMap_cons, List.filterMap_map]
    exact congrArg (fun texts => joinWith "/" ("" :: texts)) (filterMap_display names)
  rw [hslashed, ownPath]
  cases names with
  | nil => rfl
  | cons name rest =>
    rw [List.map_cons, joinWith_cons _ "" (List.cons_ne_nil _ _), String.empty_append]
    simp

theorem module_importPath {root : Path} (module : String) (hdir : dir.IsAbsolute (outer ++ below))
    (hroot : root.IsAbsolute outer) :
    (Module.mk root module).importPath dir =
      joinWith "/" (module :: below.map RawText.display) := by
  have hcomponents : dir.components = root.components ++ below.map .name := by
    rw [show dir.components = _ from hdir, show root.components = _ from hroot, List.map_append]
    rfl
  have hbelow : dir.below? root = some (below.map .name) := by
    rw [Path.below?, hcomponents,
      if_pos (List.isPrefixOf_iff_prefix.2 (List.prefix_append _ _)), List.drop_left]
  have hnames : ∀ name ∈ below, IsFileName name := fun name hname =>
    hdir.isFileName name (List.mem_append_right _ hname)
  simp only [Module.importPath, hbelow, Option.getD_some, slashed_names, beq_iff_eq,
    joinWith_eq_empty_iff hnames]
  split
  · next hnil => rw [hnil]; rfl
  · next hne => exact (joinWith_cons _ module (by simpa using hne)).symm

theorem importPath_of_alone (hdir : dir.IsAbsolute names) (halone : Alone tree names) :
    importPath tree dir = .ok (ownPath names) := by
  obtain ⟨hnone, -⟩ | ⟨root, outer, below, contents, -, -, hgoverned⟩ := ancestors_search tree hdir
  · have hfind : Module.find tree dir = .ok none := by rw [Module.find, hnone]
    rw [importPath, hfind, ← slashed_absolute hdir]
    rfl
  · exact absurd halone hgoverned.not_alone

theorem importPath_of_governed (hdir : dir.IsAbsolute names)
    (hgoverned : Governed tree names outer below (.text text)) :
    importPath tree dir =
      .ok (((moduleOf? text).map fun module =>
        joinWith "/" (module :: below.map RawText.display)).getD (ownPath names)) := by
  obtain ⟨-, halone⟩ | ⟨root, outer', below', contents, hsearch, hroot, hgoverned'⟩ :=
    ancestors_search tree hdir
  · exact absurd halone hgoverned.not_alone
  · obtain ⟨rfl, rfl, rfl⟩ := hgoverned.unique hgoverned'
    have htext : tree.text? (Module.fileIn root) = some text := by
      rw [Tree.text?, contents?_fileIn hroot, hgoverned.holds]
      rfl
    have hfind : Module.find tree dir = .ok ((moduleOf? text).map (⟨root, ·⟩)) := by
      rw [Module.find, hsearch]
      dsimp only
      rw [Module.declaredIn, htext]
    rw [importPath, hfind]
    cases hmodule : moduleOf? text with
    | none =>
      rw [← slashed_absolute hdir]
      rfl
    | some module =>
      have hpath := module_importPath module (hgoverned.names_eq ▸ hdir) hroot
      exact congrArg Except.ok hpath

theorem importPath_of_importedAs (hdir : dir.IsAbsolute names) {path : String}
    (h : ImportedAs tree names path) : importPath tree dir = .ok path := by
  cases h with
  | declared hgoverned hmodule => rw [importPath_of_governed hdir hgoverned, hmodule]; rfl
  | silent hgoverned hmodule => rw [importPath_of_governed hdir hgoverned, hmodule]; rfl
  | alone halone => exact importPath_of_alone hdir halone

/-! ### Different directories -/

/-- Names of files that are texts. Other names can read alike though they differ. -/
def AreTexts (names : List RawText) : Prop := ∀ name ∈ names, IsFileName name ∧ name.IsText

theorem slash_not_mem_display {name : RawText} (h : IsFileName name) (h' : name.IsText) :
    '/' ∉ name.display.toList := by
  obtain ⟨s, rfl⟩ := h'
  rw [RawText.display_ofString]
  intro hslash
  exact h.2.2.2 (List.mem_flatMap.2 ⟨'/', hslash, by decide⟩)

theorem slashed_inj {names others : List RawText} (hne : names ≠ []) (hne' : others ≠ [])
    (hnames : AreTexts names) (hothers : AreTexts others)
    (h : joinWith "/" (names.map RawText.display) = joinWith "/" (others.map RawText.display)) :
    names = others := by
  have hslash {names : List RawText} (hnames : AreTexts names) :
      ∀ text ∈ names.map RawText.display, '/' ∉ text.toList := by
    intro text htext
    obtain ⟨name, hname, rfl⟩ := List.mem_map.1 htext
    exact slash_not_mem_display (hnames name hname).1 (hnames name hname).2
  have hmap : names.map RawText.display = others.map RawText.display :=
    joinWith_inj (by simpa using hne) (by simpa using hne') (hslash hnames) (hslash hothers) h
  have hlength : names.length = others.length := by
    simpa using congrArg List.length hmap
  refine List.ext_getElem hlength fun i hi hi' => ?_
  have hi'' : i < (names.map RawText.display).length := by simpa using hi
  have heq : names[i].display = others[i].display := by
    simpa using List.getElem_of_eq hmap hi''
  exact (hnames _ (List.getElem_mem hi)).2.display_inj (hothers _ (List.getElem_mem hi')).2 heq

theorem ownPath_inj {names others : List RawText} (hnames : AreTexts names)
    (hothers : AreTexts others) (h : ownPath names = ownPath others) : names = others := by
  have hdot (names : List RawText) : "." ≠ "/" ++ joinWith "/" (names.map RawText.display) := by
    intro heq
    have hchars := congrArg (fun s => s.toList.head?) heq
    simp at hchars
  rw [ownPath, ownPath] at h
  split at h
  · next hnil =>
    split at h
    · next hnil' => rw [hnil, hnil']
    · exact absurd h (hdot others)
  · next hne =>
    split at h
    · exact absurd h.symm (hdot names)
    · next hne' => exact slashed_inj hne hne' hnames hothers ((String.append_right_inj _).1 h)

theorem modulePath_inj {below below' : List RawText} (module : String) (hbelow : AreTexts below)
    (hbelow' : AreTexts below')
    (h : joinWith "/" (module :: below.map RawText.display) =
      joinWith "/" (module :: below'.map RawText.display)) : below = below' := by
  have hcons {below : List RawText} (hne : below ≠ []) :
      joinWith "/" (module :: below.map RawText.display) =
        module ++ "/" ++ joinWith "/" (below.map RawText.display) :=
    joinWith_cons _ module (by simpa using hne)
  have hlonger (below : List RawText) :
      module ≠ module ++ "/" ++ joinWith "/" (below.map RawText.display) := by
    intro heq
    have hlength := congrArg String.length heq
    have hslash : "/".length = 1 := rfl
    rw [String.length_append, String.length_append] at hlength
    omega
  by_cases hnil : below = []
  · by_cases hnil' : below' = []
    · rw [hnil, hnil']
    · rw [hnil, hcons hnil'] at h
      exact absurd h (hlonger below')
  · by_cases hnil' : below' = []
    · rw [hnil', hcons hnil] at h
      exact absurd h.symm (hlonger below)
    · rw [hcons hnil, hcons hnil'] at h
      exact slashed_inj hnil hnil' hbelow hbelow' ((String.append_right_inj _).1 h)

/-- The import path of an absolute directory is what the nearest module file at or above it says,
and two directories with the same nearest module file and with names that are texts have different
ones. -/
theorem importPath_nearest (hreadable : ModulesReadable tree names) (hdir : dir.IsAbsolute names) :
    (∃ path, importPath tree dir = .ok path) ∧
    (∀ path, importPath tree dir = .ok path ↔ ImportedAs tree names path) ∧
    ∀ {other : Path} {names' outer below below' : List RawText} {text : String},
      other.IsAbsolute names' → names' ≠ names → (∀ name ∈ names, name.IsText) →
      (∀ name ∈ names', name.IsText) → Governed tree names outer below (.text text) →
      Governed tree names' outer below' (.text text) →
        importPath tree other ≠ importPath tree dir := by
  have hexists : ∃ path, importPath tree dir = .ok path ∧ ImportedAs tree names path := by
    obtain ⟨-, halone⟩ | ⟨root, outer, below, contents, -, -, hgoverned⟩ :=
      ancestors_search tree hdir
    · exact ⟨_, importPath_of_alone hdir halone, .alone halone⟩
    · obtain ⟨text, rfl⟩ :=
        hreadable outer ⟨below, hgoverned.names_eq.symm⟩ contents hgoverned.holds
      refine ⟨_, importPath_of_governed hdir hgoverned, ?_⟩
      cases hmodule : moduleOf? text with
      | none => exact .silent hgoverned hmodule
      | some module => exact .declared hgoverned hmodule
  obtain ⟨path, hpath, himported⟩ := hexists
  refine ⟨⟨path, hpath⟩, fun path' => ⟨fun hpath' => ?_, importPath_of_importedAs hdir⟩, ?_⟩
  · exact Except.ok.inj (hpath.symm.trans hpath') ▸ himported
  · intro other names' outer below below' text hother hne htexts htexts' hgoverned hgoverned' heq
    rw [importPath_of_governed hother hgoverned', importPath_of_governed hdir hgoverned,
      Except.ok.injEq] at heq
    have hnames : AreTexts names := fun name h => ⟨hdir.isFileName name h, htexts name h⟩
    have hnames' : AreTexts names' := fun name h => ⟨hother.isFileName name h, htexts' name h⟩
    apply hne
    cases hmodule : moduleOf? text with
    | none =>
      rw [hmodule] at heq
      exact ownPath_inj hnames' hnames heq
    | some module =>
      rw [hmodule] at heq
      rw [hgoverned.names_eq] at hnames ⊢
      rw [hgoverned'.names_eq] at hnames' ⊢
      have hbelow := modulePath_inj module (List.forall_mem_append.1 hnames').2
        (List.forall_mem_append.1 hnames).2 heq
      rw [hbelow]

/-- A module with a directory whose own module file declares no module. -/
def shopTree : Tree where
  top := .directory [("work", .directory [
    ("go.mod", .file (.text "module example.com/shop // the shop\n")),
    ("item", .directory [("go.mod", .file (.text "go 1.22\n"))]),
    ("till", .directory [])])]
  home := []

theorem importPath_nearest_till :
    ModulesReadable shopTree ["work", "till"] ∧ Path.IsAbsolute ⟨"/work/till/"⟩ ["work", "till"] ∧
      ImportedAs shopTree ["work", "till"] "example.com/shop/till" ∧
      importPath shopTree ⟨"/work"⟩ ≠ importPath shopTree ⟨"/work/till/"⟩ := by
  have hreadable : ModulesReadable shopTree ["work", "till"] := by
    have hinits : ∀ outer ∈ (["work", "till"] : List RawText).inits,
        ((moduleFile? shopTree outer).all fun contents => contents.text?.isSome) = true := by
      decide +kernel
    intro outer houter contents hcontents
    have htext := hinits outer ((List.mem_inits _ _).2 houter)
    rw [hcontents] at htext
    cases contents with
    | text text => exact ⟨text, rfl⟩
    | bytes size => cases htext
  have htill : Path.IsAbsolute ⟨"/work/till/"⟩ ["work", "till"] := by decide +kernel
  have hwork : Path.IsAbsolute ⟨"/work"⟩ ["work"] := by decide +kernel
  have hfile : moduleFile? shopTree ["work"] =
      some (.text "module example.com/shop // the shop\n") := by
    decide +kernel
  have hgoverns : Governed shopTree ["work"] ["work"] []
      (.text "module example.com/shop // the shop\n") := by
    refine ⟨rfl, hfile, fun inner hle hbegins hne => ?_⟩
    exact absurd (hbegins.eq_of_length_le hle.length_le) hne
  have hgoverned : Governed shopTree ["work", "till"] ["work"] ["till"]
      (.text "module example.com/shop // the shop\n") := by
    have hinits : ∀ inner ∈ (["work", "till"] : List RawText).inits,
        (["work"] : List RawText) <+: inner → inner ≠ ["work"] →
          moduleFile? shopTree inner = none := by
      decide +kernel
    refine ⟨rfl, hfile, fun inner hle hbegins hne => ?_⟩
    exact hinits inner ((List.mem_inits _ _).2 hbegins) hle hne
  obtain ⟨-, hpath, hdiffers⟩ := importPath_nearest hreadable htill
  exact ⟨hreadable, htill, (hpath _).1 (by decide +kernel),
    hdiffers hwork (by decide) (by simp [RawText.isText_ofString])
      (by simp [RawText.isText_ofString]) hgoverned hgoverns⟩

/-- A module file without a module is not treated as absent: it hides the module above it. -/
theorem silent_module_hides_outer :
    Path.IsAbsolute ⟨"/work/item"⟩ ["work", "item"] ∧
      moduleFile? shopTree ["work"] = some (.text "module example.com/shop // the shop\n") ∧
      moduleOf? "module example.com/shop // the shop\n" = some "example.com/shop" ∧
      moduleFile? shopTree ["work", "item"] = some (.text "go 1.22\n") ∧
      moduleOf? "go 1.22\n" = none ∧
      importPath shopTree ⟨"/work/item"⟩ = .ok "/work/item" ∧
      importPath (shopTree.remove ⟨"work/item/go.mod"⟩) ⟨"/work/item"⟩ =
        .ok "example.com/shop/item" := by
  decide +kernel

end GoUml.Go
