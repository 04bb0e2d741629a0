import CargoUnikernel.Library.Calls
import CargoUnikernel.Guest.WriteZeros

/-
  The guest's scrub of a directory tree.

  The walk holds inodes open and names everything relative
  to them. Reading a directory only gives names and types
  that may be wrong by then. An inode's own type is fixed
  when it is created; names, what they stand for and what
  files hold are the state.

  Main declarations:
    * `FileSystem`, `Request`, `Possible`
    * `overwriteFile`, `scrubEntry`
    * `scrubOpenDir`, `scrubOpenDir_eq`, `scrubDir`
-/

------------------------------------------------------------
-- File Systems
------------------------------------------------------------

namespace CargoUnikernel

namespace Guest

namespace Shutdown

namespace Scrub

open Streams Calls Calls.Script

/- What `readdir` can report, and all but the last can be. -/
inductive FileType
| regularFile
| directory
| symlink
| fifo
| socket
| characterDevice
| blockDevice
| unknown
deriving DecidableEq

/- A file name, which need not be text. -/
abbrev Name := List UInt8

/- `.` and `..`. -/
def dot : Name := [0x2e]
def dotDot : Name := [0x2e, 0x2e]

/- The two names that are no entries of their own. -/
def IsDots (name : Name) : Prop :=
  name = dot ∨ name = dotDot

instance (name : Name) : Decidable (IsDots name) := by
  unfold IsDots
  infer_instance

/- A name and a type, as they were read. -/
structure DirEntry where
  fileName : Name
  fileType : FileType

/- What is asked of an open file. -/
structure Metadata where
  isFile : Bool
  len : Nat

/-
  With what is at the root's path, if anything: the inode
  there, not what it leads to if it is a link.
-/
structure FileSystem (Ino : Type) where
  root : Option Ino
  entries : Ino → List (Name × Ino)
  parent : Ino → Ino
  content : Ino → List UInt8

namespace FileSystem

variable {Ino : Type} [DecidableEq Ino]

/- What a name stands for in a directory that is open. -/
def resolve
    (s : FileSystem Ino) (dir : Ino) (name : Name) :
    Option Ino :=
  if name = dot then
    some dir
  else if name = dotDot then
    some (s.parent dir)
  else
    (s.entries dir).lookup name

/- One file has other bytes. -/
def setContent
    (s : FileSystem Ino) (file : Ino) (bytes : List UInt8) :
    FileSystem Ino :=
  { s with content := Function.update s.content file bytes }

/- One name of one directory is gone. -/
def removeEntry
    (s : FileSystem Ino) (dir : Ino) (name : Name) :
    FileSystem Ino :=
  { s with
    entries :=
      Function.update s.entries dir
        ((s.entries dir).filter fun entry =>
          entry.1 ≠ name) }

end FileSystem

------------------------------------------------------------
-- System Calls
------------------------------------------------------------

/- `RDONLY | DIRECTORY`, and `WRONLY | NONBLOCK`. -/
inductive OpenMode
| directory
| writable
deriving DecidableEq

/- With `NOFOLLOW` neither is an open of a symlink. -/
def OpenMode.admits : OpenMode → FileType → Bool
| .directory, type => type == .directory
| .writable, type => type != .directory && type != .symlink

/-
  The calls on inodes that are open. Writing zeros is one
  call: all its writes are to the one inode. Entering a
  directory is none of the system's.
-/
inductive Request (Ino : Type)
| openDir
| openAt (fd : Ino) (name : Name) (mode : OpenMode)
| readFrom (fd : Ino)
| metadata (file : Ino)
| writeZeros (file : Ino) (len : Nat)
| syncData (file : Ino)
| unlinkAt (fd : Ino) (name : Name) (removeDir : Bool)
| enter (fd : Ino) (depth : Nat)

variable {Ino : Type}

/- Nothing, or `false`, is an error. -/
@[reducible] def Answer : Request Ino → Type
| .openDir => Option Ino
| .openAt _ _ _ => Option Ino
| .readFrom _ => Option (List DirEntry)
| .metadata _ => Option Metadata
| .writeZeros _ _ => Bool
| .syncData _ => Bool
| .unlinkAt _ _ _ => Bool
| .enter _ _ => Unit

/- How many zeros are written at once. -/
def scrubChunk : Nat := 16 * 1024

/- Where the zeros stop is left to the calls that write. -/
def zeroed
    (calls : List WriteCall) (len : Nat)
    (content : List UInt8) : Progress :=
  WriteZeros.writeZeros (List.replicate scrubChunk 0) calls
    len ⟨content, 0⟩

section

variable [DecidableEq Ino]

/- A directory has to be empty, and nothing else is one. -/
def mayUnlink
    (type : Ino → FileType) (s : FileSystem Ino)
    (dir : Ino) (name : Name) (removeDir : Bool) : Bool :=
  match (s.entries dir).lookup name with
  | none => false
  | some ino =>
      if removeDir then
        type ino == .directory && (s.entries ino).isEmpty
      else
        type ino != .directory

/-
  What can come of a call. Any of them can fail. A directory
  may be read as anything: what is read is stale, may miss
  what is there, and need not give its type.
-/
def Possible
    (type : Ino → FileType) (s : FileSystem Ino) :
    (request : Request Ino) → Answer request →
      FileSystem Ino → Prop
| .openDir, answer, t =>
    t = s ∧
      ∀ ino, answer = some ino →
        s.root = some ino ∧
          OpenMode.directory.admits (type ino)
| .openAt fd name mode, answer, t =>
    t = s ∧
      ∀ ino, answer = some ino →
        s.resolve fd name = some ino ∧ mode.admits (type ino)
| .readFrom _, _, t => t = s
| .metadata file, answer, t =>
    t = s ∧
      ∀ metadata, answer = some metadata →
        metadata.isFile = (type file == .regularFile) ∧
          metadata.len = (s.content file).length
| .writeZeros file len, answer, t =>
    ∃ calls,
      t =
          s.setContent file
            (zeroed calls len (s.content file)).sink.content ∧
        answer =
          decide
            ((zeroed calls len (s.content file)).ending = .done)
| .syncData _, _, t => t = s
| .unlinkAt fd name removeDir, answer, t =>
    (answer = false → t = s) ∧
      (answer = true →
        mayUnlink type s fd name removeDir = true ∧
          t = s.removeEntry fd name)
| .enter _ _, _, t => t = s

end

------------------------------------------------------------
-- The Walk
------------------------------------------------------------

/- A procedure on the file system. -/
abbrev Walk (Ino α : Type) := Script (Request Ino) Answer α

/- The calls, each as a procedure of its own. -/
def openDir : Walk Ino (Option Ino) :=
  perform Request.openDir

/- `openat` of a name below a directory. -/
def openAt (fd : Ino) (name : Name) (mode : OpenMode) :
    Walk Ino (Option Ino) :=
  perform (Request.openAt fd name mode)

/- The entries of a directory. -/
def readFrom (fd : Ino) : Walk Ino (Option (List DirEntry)) :=
  perform (Request.readFrom fd)

/- `fstat`. -/
def metadata (file : Ino) : Walk Ino (Option Metadata) :=
  perform (Request.metadata file)

/- Zeros over the length of a file. -/
def writeZeros (file : Ino) (len : Nat) : Walk Ino Bool :=
  perform (Request.writeZeros file len)

/- `fdatasync`. -/
def syncData (file : Ino) : Walk Ino Bool :=
  perform (Request.syncData file)

/- `unlinkat` of a file or a directory. -/
def unlinkAt (fd : Ino) (name : Name) (removeDir : Bool) :
    Walk Ino Bool :=
  perform (Request.unlinkAt fd name removeDir)

/- The walk goes into a directory. -/
def enter (fd : Ino) (depth : Nat) : Walk Ino Unit :=
  perform (Request.enter fd depth)

/- Zeros as long as the file is, and only over a file. -/
def overwriteFile (file : Ino) : Walk Ino Bool := do
  match ← metadata file with
  | none => pure false
  | some found =>
      if found.isFile then
        if ← writeZeros file found.len then
          syncData file
        else
          pure false
      else
        pure false

/- `unlinkat`, whatever comes of it. -/
def unlink
    (fd : Ino) (name : Name) (removeDir : Bool) :
    Walk Ino Unit := do
  let _ ← unlinkAt fd name removeDir
  pure ()

/- A directory that opens as one; or it is none of them. -/
def scrubChildDir
    (scrubChild : Ino → Walk Ino Unit)
    (fd : Ino) (name : Name) : Walk Ino Bool := do
  match ← openAt fd name .directory with
  | some child =>
      scrubChild child
      unlink fd name true
      pure true
  | none => pure false

/- What was reported as a file goes, overwritten or not. -/
def scrubFile (fd : Ino) (name : Name) : Walk Ino Unit := do
  match ← openAt fd name .writable with
  | some child =>
      let _ ← overwriteFile child
      unlink fd name false
  | none => pure ()

/- What may be a file goes if it was overwritten. -/
def scrubProbed (fd : Ino) (name : Name) :
    Walk Ino Unit := do
  match ← openAt fd name .writable with
  | some child =>
      if ← overwriteFile child then
        unlink fd name false
      else
        pure ()
  | none => pure ()

/-
  Files are zeroed and unlinked, directories scrubbed first.
-/
def scrubEntry
    (scrubChild : Ino → Walk Ino Unit)
    (fd : Ino) (entry : DirEntry) : Walk Ino Unit :=
  if IsDots entry.fileName then
    pure ()
  else
    match entry.fileType with
    | .directory => do
        let _ ← scrubChildDir scrubChild fd entry.fileName
        pure ()
    | .regularFile => scrubFile fd entry.fileName
    | .symlink => unlink fd entry.fileName false
    | .unknown => do
        if ← scrubChildDir scrubChild fd entry.fileName then
          pure ()
        else
          scrubProbed fd entry.fileName
    | _ => pure ()

/- One entry after another, whatever becomes of them. -/
def scrubEntries
    (scrubChild : Ino → Walk Ino Unit) (fd : Ino) :
    Walk Ino Unit := do
  match ← readFrom fd with
  | none => pure ()
  | some entries => forM entries (scrubEntry scrubChild fd)

/- Deeper directories are left alone. -/
def maxScrubDepth : Nat := 64

/- By the levels that are left below the depth. -/
def scrubLevels : Nat → Nat → Ino → Walk Ino Unit
| 0, depth, fd => enter fd depth
| left + 1, depth, fd => do
    enter fd depth
    scrubEntries (scrubLevels left (depth + 1)) fd

/- As many levels as are left at this depth. -/
def scrubOpenDir (fd : Ino) (depth : Nat) : Walk Ino Unit :=
  scrubLevels (maxScrubDepth - depth) depth fd

/- The depth is what is compared, and it grows by one. -/
theorem scrubOpenDir_eq (fd : Ino) (depth : Nat) :
    scrubOpenDir fd depth =
      if maxScrubDepth ≤ depth then
        enter fd depth
      else
        (do
          enter fd depth
          scrubEntries
            (fun child => scrubOpenDir child (depth + 1))
            fd) := by
  unfold scrubOpenDir
  by_cases hDepth : maxScrubDepth ≤ depth
  · rw [if_pos hDepth, Nat.sub_eq_zero_of_le hDepth]
    rfl
  · have hLeft :
        maxScrubDepth - depth =
          maxScrubDepth - (depth + 1) + 1 := by
      omega
    rw [if_neg hDepth, hLeft]
    rfl

/- A directory that cannot be opened is passed over. -/
def scrubDir (depth : Nat) : Walk Ino Unit := do
  match ← openDir with
  | some fd => scrubOpenDir fd depth
  | none => pure ()

end Scrub

end Shutdown

end Guest

end CargoUnikernel
