import DentryWatch.Command.Basic

/-!
# The command line

The program reads what a command needs from the host's files into a disk, runs
the command on it, writes new directories and files back, and prints.
-/

namespace DentryWatch.Host

def locationOf (path : String) : Location := (Path.ofText path).parts.2

def placeAbove (disk : Disk) (location : Location) : Disk :=
  (disk.makeDirectories location.path).2

def loadFile (disk : Disk) (path : String) : IO Disk := do
  let bytes ← IO.FS.readBinFile path
  let location := locationOf path
  let (inode, disk) := (placeAbove disk location.dropLast).create location .file
  return disk.setContent inode bytes.toList

/-- Reads the names of a tree into a disk, with the kinds of its entries. -/
partial def loadTree (disk : Disk) (path : String) : IO Disk := do
  let root ← IO.FS.realPath path
  let mut disk := placeAbove disk (locationOf root.toString)
  for entry in ← root.readDir do
    let location := locationOf entry.path.toString
    match (← entry.path.symlinkMetadata).type with
    | .dir => disk ← loadTree disk entry.path.toString
    | .symlink =>
        let target ← try pure (← IO.FS.realPath entry.path).toString catch _ => pure "/nowhere"
        disk := disk.put location (.link (Path.ofText target))
    | _ => disk := (disk.create location .file).2
  return disk

/-- Reads what is there, be it a file, a tree or nothing. -/
def load (disk : Disk) (whole : Bool) (path : String) : IO Disk := do
  try
    let real ← IO.FS.realPath path
    if ← real.isDir then
      if whole then loadTree disk real.toString
      else return placeAbove disk (locationOf real.toString)
    else loadFile disk real.toString
  catch _ => return disk

/-- Writes what is new on a disk back to the host. -/
def save (before after : Disk) : IO Unit := do
  let mut names := before.nodes.filterMap fun (location, node) =>
    match node with
    | .file inode => some (inode, location.path.text)
    | _ => none
  for (location, node) in after.below [] do
    let path := location.path.text
    match node with
    | .directory _ => IO.FS.createDirAll path
    | .file inode =>
        if before.find? location != some node || before.content inode != after.content inode then
          match names.lookup inode with
          | some other =>
              if other = path then
                IO.FS.writeBinFile path (ByteArray.mk (after.content inode).toArray)
              else IO.FS.hardLink other path
          | none =>
              IO.FS.writeBinFile path (ByteArray.mk (after.content inode).toArray)
              names := (inode, path) :: names
    | _ => pure ()

/-- The time. The process file system dates its entries when they are looked at. -/
def now : IO Instant := do
  try
    let modified := (← (← IO.FS.realPath "/proc/self").metadata).modified
    return ⟨modified.sec, modified.nsec.toNat⟩
  catch _ => return ⟨0, 0⟩

/-- A path as the host resolves it from the working directory. -/
def absolute (path : Path) : IO Path := do
  if path.head? = some Path.slash then return path
  return (Path.ofText (← IO.currentDir).toString).join path

def loadFor (disk : Disk) (settings : Settings) : Command → IO Disk
  | .decode file => do load disk true (← absolute file).text
  | .replay options => do
      let disk ← load disk true (← absolute options.dir).text
      let disk ← load disk true (← absolute (options.out.getD settings.trace.dir)).text
      load disk false (NodeState.pathIn settings.report.procRoot).text
  | .monitor options => do
      let disk ← load disk true (← absolute options.dir).text
      load disk true (← absolute (options.out.getD settings.trace.dir)).text
  | .generate options => do load disk true (← absolute options.base).text
  | .config => return disk

def resolved : Command → IO Command
  | .decode file => return .decode (← absolute file)
  | .replay options => do
      return .replay { options with
        dir := ← absolute options.dir, out := ← options.out.mapM absolute
        raw := ← options.raw.mapM absolute }
  | .monitor options => do
      return .monitor { options with
        dir := ← absolute options.dir, out := ← options.out.mapM absolute }
  | .generate options => return .generate { options with base := ← absolute options.base }
  | .config => return .config

/-- The settings of the user and the project, overridden by the environment. -/
def settings : IO (Except Settings.LoadError Settings) := do
  let home := (← IO.getEnv "HOME").getD ""
  let global ← absolute ((Path.ofText home).child ".dcache/config.toml")
  let project ← absolute (Path.ofText ".dcache/config.toml")
  let disk ← load (← load {} false global.text) false project.text
  let names := ["DCACHE_TRACE", "DCACHE_TRACE_DIR", "DCACHE_RINGBUF_BYTES",
    "DCACHE_STATS_CAPACITY", "DCACHE_LISTEN"]
  let values ← names.mapM fun name => return (name, ← IO.getEnv name)
  return (Settings.load disk (some global) project).map fun loaded =>
    loaded.withEnvironment fun name => (values.lookup name).join

def run (command : Command) : IO UInt32 := do
  let loaded := ((← settings).toOption).getD {}
  let command ← resolved command
  let disk ← loadFor {} loaded command
  let outcome := command.run { disk, settings := loaded, now := ← now }
  save disk outcome.disk
  IO.print outcome.output
  match outcome.failure with
  | none => return 0
  | some failure =>
      IO.eprintln s!"Error: {failure.message}"
      return 1

def usage : String :=
  "usage: dentrywatch (decode FILE | replay DIR | monitor DIR | generate BASE | config) [options]"

end DentryWatch.Host

def main (words : List String) : IO UInt32 := do
  match words.filter fun word => word != "-v" && word != "--verbose" with
  | name :: rest =>
      match DentryWatch.Command.read name rest with
      | .ok command => DentryWatch.Host.run command
      | .error _ =>
          IO.eprintln DentryWatch.Host.usage
          return 2
  | [] =>
      IO.eprintln DentryWatch.Host.usage
      return 2
