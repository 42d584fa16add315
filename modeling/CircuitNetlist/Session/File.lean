import CircuitNetlist.Session.Basic

/-!
# Netlists as files

A netlist is written into a file that is created, or emptied, before anything else is looked at.
What is written is collected in a buffer, which goes into the file when it is full, at a flush and
when the file is closed. If the write fails, the file is removed after it has been closed.
-/
namespace CircuitNetlist

/-- Folders, and files with their contents. -/
structure Disk where
  folders : List String := [""]
  files : List (String × ByteArray) := []
  /-- Paths that cannot be opened for writing, such as those of folders, and what is said of
  them. -/
  closed : List (String × String) := []

namespace Disk

/-- The part of a path in front of its last slash. -/
def folderOf (path : String) : String :=
  String.ofList ((path.toList.reverse.dropWhile (· ≠ '/')).drop 1).reverse

def content? (disk : Disk) (path : String) : Option ByteArray :=
  disk.files.lookup path

def remove (disk : Disk) (path : String) : Disk :=
  { disk with files := disk.files.filter (·.1 ≠ path) }

/-- Gives a file a content, whatever it had before. -/
def put (disk : Disk) (path : String) (content : ByteArray) : Disk :=
  { disk with files := (path, content) :: (disk.remove path).files }

/-- Adds bytes to the end of a file. -/
def append (disk : Disk) (path : String) (bytes : ByteArray) : Disk :=
  disk.put path ((disk.content? path).getD .empty ++ bytes)

/-- Opens a file for writing, which empties it. Its folder has to exist. -/
def create (disk : Disk) (path : String) : Except OutputFault Disk :=
  match disk.closed.lookup path with
  | some text => .error (.notOpened text)
  | none =>
    if disk.folders.contains (folderOf path) then .ok (disk.put path .empty)
    else .error .noSuchFile

end Disk

/-- A file that is open for writing, and what has not yet reached it. -/
structure OpenFile where
  disk : Disk
  path : String
  /-- The bytes that the buffer holds at most. -/
  capacity : Nat
  buffer : ByteArray := .empty

namespace OpenFile

/-- Empties the buffer into the file. -/
def spill (file : OpenFile) : OpenFile :=
  { file with disk := file.disk.append file.path file.buffer, buffer := .empty }

/-- Writes bytes. What would overfill the buffer empties it first, and what is no smaller than the
buffer goes past it. -/
def write (file : OpenFile) (bytes : ByteArray) : OpenFile :=
  let file := if file.capacity < file.buffer.size + bytes.size then file.spill else file
  if file.capacity ≤ bytes.size then { file with disk := file.disk.append file.path bytes }
  else { file with buffer := file.buffer ++ bytes }

/-- Performs one action of a script, of which only lines and flushes concern a file. -/
def perform (indent : String) (file : OpenFile) : Action → OpenFile
  | .write line => file.write (line.render indent).toUTF8
  | .flush => file.spill
  | .log _ | .enter _ => file

/-- Performs all events of a script; an open file refuses none. -/
def play (indent : String) (file : OpenFile) (events : List Event) : OpenFile :=
  events.foldl (fun file event => file.perform indent event.action) file

/-- Closes the file, also in the middle of a write that failed. -/
def close (file : OpenFile) : Disk :=
  file.spill.disk

end OpenFile

/-- What came of writing a file. -/
structure FileOutcome where
  result : Except Fault Unit
  disk : Disk
  log : List LogRecord

/-- Writes a package into an open file: how it ended, what was logged, and the file. -/
def Package.writeInto (p : Package) (f : Format) (file : OpenFile) :
    Except Fault Unit × List LogRecord × OpenFile :=
  match Session.open? f {} {} with
  | .error fault => (.error fault, [], file)
  | .ok session =>
    let script := p.script session.dialect session.options session.scope
    let (result, after) := session.run script
    (result.map fun _ => (), after.log, file.play session.options.indent script.events)

/-- Writes the netlist of a package into the file at a path, through a buffer of some capacity. -/
def Package.writeBuffered (capacity : Nat) (p : Package) (f : Format) (path : String)
    (disk : Disk) : FileOutcome :=
  match disk.create path with
  | .error fault => ⟨.error (.plain (.output fault)), disk, []⟩
  | .ok opened =>
    match p.writeInto f { disk := opened, path, capacity } with
    | (.ok (), log, file) => ⟨.ok (), file.close, log⟩
    | (.error fault, log, file) =>
      ⟨.error fault, file.close.remove path, log ++ [⟨.debug, s!"removing partial netlist {path}"⟩]⟩

/-- Writes the netlist of a package into the file at a path, through a buffer of eight kibibytes. -/
def Package.writeFile (p : Package) (f : Format) (path : String) (disk : Disk) : FileOutcome :=
  p.writeBuffered 8192 f path disk

end CircuitNetlist
