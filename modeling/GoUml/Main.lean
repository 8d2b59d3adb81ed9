import GoUml.Command.Run

/-!
# The command line program

Reads the files that a command can ask about into a tree, runs the command on it, and carries out
what the run decided.
-/

namespace GoUml

/-- What stands at an entry of a directory, and the rows of names from it on that lead to
directories that cannot be listed. Files that cannot be read are no text. -/
partial def readNode (entry : IO.FS.DirEntry) : IO (Node × List (List RawText)) := do
  if ← entry.path.isDir then
    try
      let mut node := Node.emptyDirectory
      let mut unlisted := []
      for e in ← entry.path.readDir do
        let (inner, rows) ← readNode e
        node := Node.put inner [e.fileName] node
        unlisted := unlisted ++ rows.map (RawText.ofString e.fileName :: ·)
      return (node, unlisted)
    catch _ => return (.emptyDirectory, [[]])
  else
    try return (.file (.ofBytes (← IO.FS.readBinFile entry.path)), [])
    catch _ => return (.file (.bytes 0), [])

/-- Adds what an absolute path names to a tree. -/
def addFile (tree : Tree) (text : String) : IO Tree := do
  try
    let found ← IO.FS.realPath text
    match found.parent, found.fileName with
    | some parent, some name =>
      let (node, unlisted) ← readNode ⟨parent, name⟩
      let names := (Path.mk found.toString).names
      return { tree with
        top := Node.put node names tree.top
        faults := tree.faults ++ unlisted.map fun rows => (names ++ rows, .unopened) }
    | _, _ => return tree
  catch _ => return tree

/-- The tree of the working directory with the module files above it. -/
def readTree : IO Tree := do
  let current := (← IO.currentDir).toString
  let names := (Path.mk current).names
  let mut tree ← addFile (.empty names) current
  for outer in (Path.mk current).ancestors.drop 1 do
    tree ← addFile tree (Go.Module.fileIn outer).text
  return tree

/-- Adds the files that a command names outside of the working directory. -/
def addNamed (args : Arguments) (tree : Tree) : IO Tree := do
  let texts :=
    args.directories ++ (args.setting? .fromJson).toList ++ (args.setting? .config).toList
  let mut tree := tree
  for text in texts do
    unless tree.contains ⟨text⟩ do
      tree ← addFile tree text
  return tree

def usageHint : String :=
  "usage: godiagram <class|package> [OPTIONS] <DIR>...\n" ++
    "Run 'godiagram --help' for more information."

/-- What is said of an error; an error of the system is named by its path. -/
def CommandError.report (e : CommandError) : String :=
  match e.message?, e with
  | some text, _ => text
  | none, .configFile (.unreadable p) => "Failed to read " ++ p.text
  | none, .configFile _ => "Failed to parse TOML configuration"
  | none, .load e =>
    match e.kind with
    | .syntaxError => "Failed to load packages: Syntax error in " ++ e.path.text
    | .malformedModel => "Failed to load packages: Invalid semantic model in " ++ e.path.text
    | _ => "Failed to load packages: IO error reading " ++ e.path.text
  | none, _ => "IO error"

def optionHelp : String :=
  Text.joinWith "\n" <| (Arguments.longNames (some .classDiagram)).map fun e => "  --" ++ e.1

/-- Help that was asked for is no failure. -/
def ArgumentError.report : ArgumentError → IO UInt32
  | .displayHelp => do
    IO.println (usageHint ++ "\n\nOptions:\n" ++ optionHelp)
    return 0
  | .displayVersion => do
    IO.println "godiagram 0.1.0"
    return 0
  | _ => do
    IO.eprintln usageHint
    return 2

def runCommand (args : Arguments) : IO UInt32 := do
  match args.run (← addNamed args (← readTree)) with
  | .error e =>
    IO.eprintln ("Error: " ++ e.report)
    if e.isUsage then IO.eprintln usageHint
    return 1
  | .ok outcome =>
    match outcome.destination with
    | .standardOutput => IO.print outcome.text
    | .file p => IO.FS.writeFile p.text outcome.text
    return 0

end GoUml

def main (args : List String) : IO UInt32 :=
  match GoUml.Arguments.parse args with
  | .error e => e.report
  | .ok arguments => GoUml.runCommand arguments
