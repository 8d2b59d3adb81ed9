import GoUml.Text.Basic

/-!
# Import paths and module files

The module path that a `go.mod` file declares, and the package name that an import path suggests
when the package itself is not loaded.
-/

namespace GoUml.Go

open Text

/-! ### The module directive -/

/-- The line up to a comment. -/
def beforeComment : List Char → List Char
  | [] => []
  | '/' :: '/' :: _ => []
  | c :: rest => c :: beforeComment rest

/-- The path of a module directive: the word `module`, white space and a path that may stand in
quotes. -/
def moduleDirective? (line : String) : Option String := do
  let line := trim (String.ofList (beforeComment line.toList))
  let rest ← stripStart? "module".toList line.toList
  if (rest.head?.map isBlank).getD false then
    let path := trimWhile (· == '"') (trim (String.ofList rest))
    if path == "" then none else some path
  else none

/-- The module path declared by the first line of a module file that declares one. -/
def moduleOf? (contents : String) : Option String := (lines contents).findSome? moduleDirective?

/-! ### The name that a path suggests -/

/-- A major version such as `v2`. -/
def isMajorVersion : List Char → Bool
  | 'v' :: digits => !digits.isEmpty && digits.all isAsciiDigit
  | _ => false

/-- Cuts off the last `.v` when a version follows it. -/
def dropVersion (segment : List Char) : List Char :=
  match (splitList '.' segment).reverse with
  | last :: _ :: _ =>
    if isMajorVersion last then segment.take (segment.length - last.length - 1) else segment
  | _ => segment

/-- The last segment of a path, passing over a trailing version when another one precedes it. -/
def lastSegment (path : String) : List Char :=
  let segments := (splitList '/' path.toList).filter fun s => !s.isEmpty
  match segments.reverse with
  | [] => path.toList
  | [only] => only
  | last :: before :: _ => if isMajorVersion last then before else last

/-- The package name that an import path suggests: its last segment without a version, without
`go-` in front and without `-go` behind. -/
def suggestedName (path : String) : String :=
  let segment := dropVersion (lastSegment path)
  let segment := (stripStart? "go-".toList segment).getD segment
  String.ofList ((stripEnd? "-go".toList segment).getD segment)

end GoUml.Go
