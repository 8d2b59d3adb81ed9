import GoUml.Proofs.Discovery
import GoUml.Proofs.FileCounts
import GoUml.Proofs.Resolving

/-!
# What a load gives and what it counts

A load finds its directories before it reads anything, and then reads them one after the other until
one fails. All sources of a directory are read and counted before the first error among them ends
the load, so a failing load has counted exactly the sources of the directories up to the one it
fails at, apart from one that cannot be listed, whose sources are not known. Which error it reports
is said here by what can be wrong with a directory, apart from how the reading goes through it.
-/

namespace GoUml.Go.Loader

variable {config : LoaderConfig} {tree : Tree} {schedule : Schedule} {dir : Path} {m : LoadMetrics}

def sourcesOf (tree : Tree) (dir : Path) : List Path :=
  sourcesAmong dir (((tree.find? dir).map Node.entries).getD [])

def scanned (n : Nat) (m : LoadMetrics) : LoadMetrics :=
  { m with directoriesScanned := m.directoriesScanned + n.toUInt64 }

def tally (config : LoaderConfig) (tree : Tree) (dirs : List Path) (m : LoadMetrics) :
    LoadMetrics :=
  counted ((dirs.flatMap (sourcesOf tree)).map (readSource config tree)) (scanned dirs.length m)

/-- What the sources of a directory are read as. -/
def ReadsAs (config : LoaderConfig) (tree : Tree) (dir : Path) (files : List SourceFile) : Prop :=
  tree.listingFault? dir = none ∧
    List.Forall₂ (fun p file => readSource config tree p = .ok file) (sourcesOf tree dir) files

/-- What a directory holds: nothing without sources, else all of them as one package. -/
inductive Yields (config : LoaderConfig) (tree : Tree) (dir : Path) : Option SourcePackage → Prop
  | nothing (hread : ReadsAs config tree dir []) : Yields config tree dir none
  | package {first : SourceFile} {rest : List SourceFile} {path : String}
      (hread : ReadsAs config tree dir (first :: rest))
      (hsame : ∀ file ∈ rest, file.package = first.package)
      (hpath : importPath tree dir = .ok path) :
      Yields config tree dir (some ⟨first.package, path, first :: rest⟩)

/-- What can be wrong with a directory that can be listed. A source that is not read comes before a
package that differs from that of the first source, and both come before the module file. -/
inductive Fails (config : LoaderConfig) (tree : Tree) (dir : Path) : LoadError → Prop
  | source {e : LoadError} (hlisted : tree.listingFault? dir = none)
      (hfirst : FailsFirst (readSource config tree) (sourcesOf tree dir) e) :
      Fails config tree dir e
  | mixed {first other : SourceFile} {same rest : List SourceFile}
      (hread : ReadsAs config tree dir (first :: (same ++ other :: rest)))
      (hsame : ∀ file ∈ same, file.package = first.package)
      (hother : other.package ≠ first.package) :
      Fails config tree dir ⟨dir, .mixedPackages first.package other.package⟩
  | moduleFile {first : SourceFile} {rest : List SourceFile} {root : Path}
      (hread : ReadsAs config tree dir (first :: rest))
      (hsame : ∀ file ∈ rest, file.package = first.package)
      (hnearest : dir.ancestors.find? (fun p => tree.isFile (Module.fileIn p)) = some root)
      (hunreadable : tree.text? (Module.fileIn root) = none) :
      Fails config tree dir ⟨Module.fileIn root, .unreadable⟩

/-- The result and the metrics of reading a directory. -/
inductive Reads (config : LoaderConfig) (tree : Tree) (dir : Path) (m : LoadMetrics) :
    Except LoadError (Option SourcePackage) × LoadMetrics → Prop
  | unlisted {fault : ListingFault} (hfault : tree.listingFault? dir = some fault) :
      Reads config tree dir m (.error ⟨dir, .unreadable⟩, scanned 1 m)
  | failed {e : LoadError} (hfails : Fails config tree dir e) :
      Reads config tree dir m (.error e, tally config tree [dir] m)
  | done {found : Option SourcePackage} (hyields : Yields config tree dir found) :
      Reads config tree dir m (.ok found, tally config tree [dir] m)

/-- The metrics with packages recorded that were resolved together. -/
def recorded (packages : List Package) (m : LoadMetrics) : LoadMetrics :=
  { m with
    packagesLoaded := m.packagesLoaded + packages.length.toUInt64
    typesExtracted := m.typesExtracted +
      (packages.flatMap fun p : Package => p.declarations).length.toUInt64 }

/-- What a load gives and the metrics after it: what is wrong with the first bad named directory
before anything is counted, else the first failing directory with everything counted up to it, else
one resolved package for each directory that has sources, in the order of the directories. -/
inductive Outcome (config : LoaderConfig) (tree : Tree) (selection : Selection) (m : LoadMetrics) :
    Except LoadError (List Package) × LoadMetrics → Prop
  | badRoot {before after : List Path} {root : Path} {e : LoadError}
      (hroots : selection.directories = before ++ root :: after)
      (hbefore : ∀ p ∈ before, ∀ e', ¬ selection.RootFault tree p e')
      (hroot : selection.RootFault tree root e) :
      Outcome config tree selection m (.error e, m)
  | unlisted {before after : List Path} {dir : Path} {fault : ListingFault}
      (hfound : selection.discover tree = .ok (before ++ dir :: after))
      (hbefore : ∀ d ∈ before, ∃ found, Yields config tree d found)
      (hfault : tree.listingFault? dir = some fault) :
      Outcome config tree selection m
        (.error ⟨dir, .unreadable⟩, scanned 1 (tally config tree before m))
  | failed {before after : List Path} {dir : Path} {e : LoadError}
      (hfound : selection.discover tree = .ok (before ++ dir :: after))
      (hbefore : ∀ d ∈ before, ∃ found, Yields config tree d found)
      (hfails : Fails config tree dir e) :
      Outcome config tree selection m (.error e, tally config tree (before ++ [dir]) m)
  | loaded {dirs : List Path} {found : List (Option SourcePackage)} {packages : List Package}
      (hfound : selection.discover tree = .ok dirs)
      (hyields : List.Forall₂ (Yields config tree) dirs found)
      (hresolved : List.Forall₂ (Load.ResolvesTo (found.filterMap id)) (found.filterMap id)
        packages) :
      Outcome config tree selection m (.ok packages, recorded packages (tally config tree dirs m))

/-- A computation after which the metrics are balanced if they were before it. -/
def KeepsBalance {α : Type} (x : Loading α) : Prop :=
  ∀ m : LoadMetrics, m.Balanced → (x.run.run m).2.Balanced

namespace KeepsBalance

variable {α β : Type}

theorem pure (a : α) : KeepsBalance (Pure.pure a : Loading α) := fun _ h => h

theorem modify {f : LoadMetrics → LoadMetrics}
    (hf : ∀ m : LoadMetrics, m.Balanced → (f m).Balanced) :
    KeepsBalance (modify f : Loading Unit) := hf

theorem bind {x : Loading α} {next : α → Loading β} (hx : KeepsBalance x)
    (hnext : ∀ a, KeepsBalance (next a)) : KeepsBalance (x >>= next) := by
  intro m h
  have hafter := hx m h
  obtain ⟨result, m', hrun⟩ : ∃ result m', x.run.run m = (result, m') := ⟨_, _, rfl⟩
  rw [hrun] at hafter
  cases result with
  | error e => rwa [run_bind_of_error hrun]
  | ok a =>
    rw [run_bind_of_ok hrun]
    exact hnext a m' hafter

theorem mapM {f : α → Loading β} (hf : ∀ a, KeepsBalance (f a)) (xs : List α) :
    KeepsBalance (xs.mapM f) := by
  induction xs with
  | nil => exact pure []
  | cons x xs ih =>
    rw [List.mapM_cons]
    exact (hf x).bind fun b => ih.bind fun bs => pure _

end KeepsBalance

/-- One use of a loader. -/
inductive Call where
  | load (tree : Tree) (selection : Selection) (schedule : Schedule)
  | loadDirectory (tree : Tree) (dir : Path) (schedule : Schedule)

def Call.metrics (config : LoaderConfig) (m : LoadMetrics) : Call → LoadMetrics
  | .load tree selection schedule => ((Loader.load config tree selection schedule).run.run m).2
  | .loadDirectory tree dir schedule =>
    ((Loader.loadDirectory config tree dir schedule).run.run m).2

def hullText : String :=
  "package ship\nimport \"port/crew\"\ntype Hull struct \x7b\n\tmaster *crew.Sailor\n\x7d\n"

def sailText : String := "package ship\nfunc (h *Hull) Sail(to string) error \x7b return nil \x7d\n"

/-- A module with two packages of which one uses the other, and with a directory of which one source
is no text. -/
def harbour : Tree where
  top := .directory [("work", .directory [
    ("crew", .directory [("crew.go", .file (.text "package crew\ntype Sailor string\n"))]),
    ("go.mod", .file (.text "module port\n")),
    ("ship", .directory [("hull.go", .file (.text hullText)), ("sail.go", .file (.text sailText))]),
    ("wreck", .directory [
      ("hull.go", .file (.bytes 3)), ("keel.go", .file (.text "package keel")),
      ("keel_test.go", .file (.text "package"))])])]
  home := ["work"]

end Go.Loader

end GoUml
