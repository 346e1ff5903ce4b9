import Scad.CommandLine
import Scad.Json.Reader
import Scad.Rpc
import Scad.Rpc.Frame
import Scad.SessionLog

/-!
# Scad.Main

The program: it reads messages from standard input and writes the server's to standard output, after
it has begun a session log if it is to write one.
-/

namespace Scad
namespace Main

/-! ## Files -/

/-- A directory with the functions of directory entries. -/
def directoryAt (path : String) : IO.FS.DirEntry := { root := path, fileName := "" }

/-- The entries of a directory, none if it cannot be listed. -/
def entriesOf (path : String) : IO (List IO.FS.DirEntry) := do
  try
    return (← (directoryAt path).root.readDir).toList
  catch _ => return []

/-- The disk with what stands in a directory. -/
def addDirectory (disk : Disk) (path : FilePath) : IO Disk := do
  let entries ← entriesOf path.display
  entries.foldlM (fun disk e => do
    let kind : Disk.Entry := if ← e.path.isDir then .directory else .file []
    return disk.write (path.join (.ofString e.fileName)) kind) disk

/-- The disk with the content of a file, if it can be read. -/
def addFile (disk : Disk) (path : FilePath) : IO Disk := do
  try
    let content ← IO.FS.readBinFile path.display
    return disk.write path (.file content.toList)
  catch _ => return disk

/-- What the next message may look up on disk. -/
def snapshot (w : Workspace) : IO Disk := do
  let disk ← w.consultedDirectories.foldlM addDirectory Disk.empty
  w.consultedFiles.foldlM addFile disk

/-! ## Session logs -/

/-- The directory for session logs. -/
def logDirectory : IO String := do
  let cache ←
    match ← IO.getEnv "XDG_CACHE_HOME" with
    | some path => pure path
    | none => pure (((← IO.getEnv "HOME").getD "") ++ "/.cache")
  return cache ++ "/" ++ Server.name

/-- When an entry of a directory was last written, in seconds. -/
def writtenAt (e : IO.FS.DirEntry) : IO Int := return (← e.path.metadata).modified.sec

/-- Begins a session log and removes those that are too old by the time of the new one. -/
def beginLog : IO Unit := do
  let directory ← logDirectory
  IO.FS.createDirAll directory
  let name := "session-" ++ toString (← IO.monoNanosNow) ++ ".log"
  IO.FS.writeFile (directory ++ "/" ++ name) ("Starting " ++ CommandLine.versionText)
  let entries ← entriesOf directory
  match entries.find? fun e => e.fileName == name with
  | none => return
  | some log =>
    let now ← writtenAt log
    entries.forM fun e => do
      let age := (now - (← writtenAt e)) / 3600
      if SessionLog.isStale ⟨e.fileName, age, ← e.path.isDir⟩ then IO.FS.removeFile e.path

/-! ## Messages -/

/-- The lines of a header, none at the end of the input. -/
partial def readHeader (input : IO.FS.Stream) : IO (Option (List String)) := do
  let line ← input.getLine
  if line.isEmpty then return none
  else if Rpc.Frame.isEmptyLine line then return some []
  else return (← readHeader input).map (line :: ·)

/-- That many bytes of the input, or as many as there are. -/
partial def readBytes (input : IO.FS.Stream) (count : Nat) (done : ByteArray) : IO ByteArray := do
  if count ≤ done.size then return done
  else
    let more ← input.read (count - done.size).toUSize
    if more.isEmpty then return done else readBytes input count (done ++ more)

/-- Writes a message. -/
def send (output : IO.FS.Stream) (message : Json) : IO Unit := do
  output.putStr (Rpc.Frame.render message)
  output.flush

/-- Serves the messages of the input until it ends or the service exits. -/
partial def serve (input output : IO.FS.Stream) (service : Rpc.Service) : IO Unit := do
  let some header ← readHeader input | return
  let body ← readBytes input ((Rpc.Frame.length? header).getD 0) ByteArray.empty
  match (String.fromUTF8? body).bind Json.parse? with
  | none =>
    send output Rpc.Frame.parseError
    serve input output service
  | some message =>
    if Rpc.Frame.isResponse message then serve input output service
    else
      let disk ← snapshot service.session.server.workspace
      match { service with session.disk := disk }.call message with
      | none => return
      | some (service, response, sent) =>
        (sent ++ response.toList).forM (send output)
        unless service.phase = .exited do serve input output service

/-- Runs the program with the given arguments. -/
def run (arguments : List String) : IO UInt32 := do
  let request := CommandLine.parse arguments
  match CommandLine.ending? request, request with
  | some ending, _ =>
    IO.print ending.output
    IO.eprint ending.errors
    return ending.code.toUInt32
  | none, .ok (.run options) =>
    unless options.noFileLogging do beginLog
    serve (← IO.getStdin) (← IO.getStdout) (.initial Disk.empty none)
    return 0
  | none, _ => return 0

end Main
end Scad

/-- The program. -/
def main (arguments : List String) : IO UInt32 := Scad.Main.run arguments
