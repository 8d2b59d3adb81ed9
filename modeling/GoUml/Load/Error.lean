import GoUml.Files.Path

/-!
# Load errors

What can go wrong between a selection of directories and a set of packages, with the path at which
it went wrong.
-/

namespace GoUml

/-- Why a file that could be read is refused as a whole. -/
inductive FileRefusal where
  | missingPackage
  | tooLarge (size limit : Nat)
  deriving DecidableEq

def FileRefusal.message : FileRefusal → String
  | .missingPackage => "missing package clause"
  | .tooLarge size limit =>
    "file is " ++ toString size ++ " bytes, larger than the " ++ toString limit ++ " byte limit"

inductive LoadErrorKind where
  /-- The file or directory cannot be read as text. -/
  | unreadable
  | syntaxError
  | refused (refusal : FileRefusal)
  /-- Two files of one directory declare different packages. -/
  | mixedPackages (first other : String)
  | directoryNotFound
  /-- A serialized model does not decode. -/
  | malformedModel
  deriving DecidableEq

structure LoadError where
  path : Path
  kind : LoadErrorKind
  deriving DecidableEq

/-- What the error says, where the text is the library's own. -/
def LoadError.message? (e : LoadError) : Option String :=
  match e.kind with
  | .refused refusal => some ("Parse error in " ++ e.path.text ++ ": " ++ refusal.message)
  | .mixedPackages first other =>
    some ("Found packages " ++ first ++ " and " ++ other ++ " in " ++ e.path.text)
  | .directoryNotFound => some ("Could not find directory " ++ e.path.text)
  | .unreadable | .syntaxError | .malformedModel => none

/-- What a diagram that cannot be loaded says. -/
def LoadError.diagramMessage? (e : LoadError) : Option String :=
  e.message?.map ("Failed to load packages: " ++ ·)

end GoUml
