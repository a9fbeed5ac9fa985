import LivingDocs.Command.Run

/-!
# The command line

Takes a snapshot of the directories that a request is about, carries the request out in it, and
writes back what has changed. All decisions are made by `LivingDocs.Command.run`.

## Main definitions

* `main` — the program.
-/

set_option autoImplicit false

namespace LivingDocs.CommandLine

open FileSystem (Node Address)

/-- The node at a path on disk; links and special files are left out. -/
partial def readNode (path : String) : IO Node := do
  let real ← IO.FS.realPath path
  if ← real.isDir then
    let mut entries := []
    for entry in ← real.readDir do
      match (← entry.path.symlinkMetadata).type with
      | .dir | .file =>
        entries := putAscending entry.fileName (← readNode entry.path.toString) entries
      | _ => pure ()
    return .directory entries
  else
    return .file (← IO.FS.readBinFile real)

/-- The tree with `node` at an address, and directories on the way to it. -/
def graft (node : Node) : Address → Node → Node
  | [], _ => node
  | name :: names, tree =>
    let child := (tree.child? name).getD (.directory [])
    .directory (putAscending name (graft node names child) tree.entries)

/-- The names in an absolute path. -/
def addressOf (absolute : String) : Address := (Path.mk absolute).pieces.filter (· ≠ "")

/-- The tree with what is on disk at a path, if there is anything. -/
def load (tree : Node) (path : String) : IO Node := do
  try
    let node ← readNode path
    return graft node (addressOf (← IO.FS.realPath path).toString) tree
  catch _ => return tree

/-- Writes back a node that differs from the one that was there. -/
partial def store (path : String) (old : Option Node) : Node → IO Unit
  | .file content => do
    unless (old.bind Node.content?).map ByteArray.data == some content.data do
      IO.FS.writeBinFile path content
  | .directory entries => do
    unless old.any Node.isDirectory do IO.FS.createDirAll path
    for (name, node) in entries do
      store (path ++ "/" ++ name) (old.bind fun directory => directory.child? name) node

/-- The paths that a request names. -/
def pathsOf : Command.Request → List Path
  | .scan request => request.paths ++ request.output.toList
  | .report request => request.dir.toList ++ request.output.toList
  | _ => []

/-- The configured output directory, if the configuration can be loaded. -/
def configuredPaths (files : FileSystem) : List Path :=
  match Config.load files ⟨"."⟩ with
  | .ok loaded => [⟨loaded.config.outputDir⟩]
  | .error _ => []

/-- The file system with a tree that has been read, the names of which are checked here. -/
def checked (root : Node) (here : Address) : IO FileSystem :=
  if ordered : root.Ordered then return { root, here, ordered }
  else throw (IO.userError "a name on disk is not one that an entry can have")

/-- What is on disk in the working directory and at the paths of a request. -/
def snapshot (request : Command.Request) : IO FileSystem := do
  let current := (← IO.currentDir).toString
  let here := addressOf current
  let root ← load (graft (.directory []) here (.directory [])) current
  let paths := pathsOf request ++ configuredPaths (← checked root here)
  checked (← (paths.map Path.text).foldlM load root) here

/-- What is said about arguments that are not accepted. -/
def refusalText : Command.Refusal → String
  | .missingArgument => "error: a required argument was not provided\n"
  | .unknownArgument => "error: unexpected argument found\n"
  | .unknownCommand => "error: unrecognized subcommand\n"
  | .repeated => "error: an argument cannot be used multiple times\n"
  | .invalidValue => "error: a value is missing or invalid\n"
  | .needlessValue => "error: unexpected value for an argument\n"
  | .help => Console.overview
  | .version => "aerial 0.4.0\n"

/-- The number that the program ends with. -/
def exitCode (status : Command.Status) : UInt32 := status.code.toUInt32

/-- Carries out a request and tells what comes of it. -/
def perform (request : Command.Request) : IO UInt32 := do
  let files ← snapshot request
  let outcome := Command.run request files
  store "" (some files.root) outcome.files.root
  IO.print outcome.stdout
  IO.eprint outcome.stderr
  for warning in outcome.warnings do
    IO.eprintln s!"WARN {warning.message}"
  if let some failure := outcome.failure then IO.eprintln s!"error: {failure.message}"
  return exitCode outcome.status

end LivingDocs.CommandLine

open LivingDocs in
/-- The program. -/
def main (args : List String) : IO UInt32 := do
  match Command.Request.ofArguments (← IO.getEnv "AERIAL_APP") args with
  | .ok request => CommandLine.perform request
  | .error refusal =>
    let text := CommandLine.refusalText refusal
    if refusal.status = .success then IO.print text else IO.eprint text
    return CommandLine.exitCode refusal.status
