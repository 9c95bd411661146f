import ContractAudit.Command.Run

/-!
# The command

Reads what the command needs of the file system into a file tree, runs it on that tree, and writes
results and logs. The tree is read in rounds: the map decides which further files are looked at.
-/

namespace ContractAudit.Command

/-! ## Reading files -/

/-- The names on the way to an absolute path, `..` taking back the one before. -/
def plainNames (p : FilePath) : List String :=
  ((FileSystem.pieces p).foldl (fun done piece =>
    if piece = "" ∨ piece = "." then done
    else if piece = ".." then done.drop 1
    else piece :: done) []).reverse

/-- What stands at a path of names, if anything does: a file with its bytes, or a directory with its
entries, files in it without theirs. -/
def snapshot (names : List String) : IO (Option FileTree) := do
  let path ← try pure (some (← IO.FS.realPath ("/" ++ "/".intercalate names))) catch _ => pure none
  match path with
  | none => return none
  | some path =>
    try
      if ← path.isDir then
        let entries ← path.readDir
        let children ← entries.toList.mapM fun e => do
          let child := if ← e.path.isDir then FileTree.directory [] else .file []
          return (e.fileName, child)
        return some (.directory children)
      else return some (.file (← IO.FS.readBinFile path).toList)
    catch _ => return none

/-- Reads what stands on the way to a path into a tree. -/
def snapshotPath (fs : FileSystem) (p : FilePath) : IO FileSystem := do
  let names := plainNames (fs.workingDirectory.join p)
  let mut tree := fs.tree
  for n in List.range (names.length + 1) do
    let front := names.take n
    match ← snapshot front with
    | some (.directory entries) =>
      tree := tree.insert front (.directory [])
      if n = names.length then
        for (name, child) in entries do
          tree := tree.insert (front ++ [name]) child
    | some child => tree := tree.insert front child
    | none => break
  return { fs with tree }

/-- Reads all that the command looks at, in rounds, until nothing new is looked at. -/
def snapshotAll (o : Options) (fs : FileSystem) (done : List FilePath) : Nat → IO FileSystem
  | 0 => return fs
  | rounds + 1 => do
    let fresh := (o.paths fs).filter (!done.contains ·)
    if fresh.isEmpty then return fs
    let fs ← fresh.foldlM snapshotPath fs
    snapshotAll o fs (done ++ fresh) rounds

/-! ## Writing -/

def usageText : String :=
  "Usage: contractmap [OPTIONS] verify [FILE] [--impact <NODE_ID>] [--root <DIR>]\n\n" ++
  "Options:\n" ++
  "      --format <FORMAT>  text or json\n" ++
  "      --no-color         never set words off by colour\n" ++
  "      --log-json         write the log as JSON\n" ++
  "      --quiet            write only the summary\n" ++
  "  -h, --help             show this text\n" ++
  "  -V, --version          show the version"

/-- Runs the command on the files below the working directory. -/
def execute (o : Options) : IO UInt32 := do
  let cwd ← IO.FS.realPath "."
  let env : Environment :=
    { logFilter := ← IO.getEnv "CONTRACTMAP_LOG", logJson := ← IO.getEnv "CONTRACTMAP_LOG_JSON" }
  let fs ← snapshotAll o ⟨.directory [], ⟨cwd.toString⟩⟩ [] 8
  let out ← IO.getStdout
  let style := o.style (← IO.getEnv "NO_COLOR").isSome (← out.isTty)
  let outcome := o.run style fs
  for line in env.errorLines o outcome do
    IO.eprintln line
  IO.print outcome.output
  return outcome.exitCode.toUInt32

end ContractAudit.Command

open ContractAudit.Command

def main (args : List String) : IO UInt32 := do
  match parseArguments args with
  | .ok o => execute o
  | .error .help =>
    IO.println usageText
    return 0
  | .error .version =>
    IO.println versionLine
    return 0
  | .error .usage =>
    IO.eprintln usageText
    return 1
