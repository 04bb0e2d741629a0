import CargoUnikernel.Library.Fallible
import CargoUnikernel.Library.Interference
import CargoUnikernel.Pipeline.Script

/-
  The build container and the files it works on.

  Projects have files of their own. The caches under
  `/build`, `/build-meta` and `/tmp/cargo-target`, and the
  tag of the toolchain image, are the same for all projects
  of a user. What the tools make of their inputs is a
  parameter. Of the root file system also the modes and the
  modification times are kept, as they are archived.

  Main declarations:
    * `Content`, `Tools`, `Loc`, `Path.loc`
    * `Member`, `rootfsMembers`, `installWrites`
    * `Command.effect`, `Command.reads`, `Command.targets`
    * `Command.effect_congr`, `Command.written_effect`
    * `runCommands`, and lemmas on what it leaves
-/

------------------------------------------------------------
-- Contents
------------------------------------------------------------

namespace CargoUnikernel

namespace Pipeline

open Schema Guest.BuildScript Interference

/- The build arguments a toolchain image was made with. -/
abbrev Toolchain := List (String × Text)

/- The hash of each component, where there is one. -/
structure ComponentHashes where
  kernelSha256 : Option Text := none
  cpioSha256 : Option Text := none
  appSha256 : Option Text := none
  guestInitSha256 : Option Text := none
  ovmfSha256 : Option Text := none

/- What `sev_measurement.json` records. -/
structure Sidecar where
  measurementSha384 : Text
  vcpus : UInt32
  vcpuType : Text
  kernelCmdline : Text
  ovmfSource : Text
  componentSha256 : ComponentHashes

/-
  What a place holds. A mode that no command has set is
  whatever the file was made with, and a modification time is
  the epoch or the time of some copy.
-/
inductive Content
| data (bytes : List UInt8)
| text (text : Text)
| script (commands : List Command)
| sidecar (record : Sidecar)
| toolchain (image : Toolchain)
| mode (bits : Option Nat)
| time (isEpoch : Bool)

/- What a launch is measured from, besides the firmware. -/
inductive KernelBlobs
| uki (kernel : Content)
| direct (kernel initrd : Content) (append : Text)

/- An entry of the root file system, as it is archived. -/
structure Member where
  entry : RootfsEntry
  content : Option Content
  mode : Option Content
  time : Option Content

/- The tools, as functions of what they are given. -/
structure Tools where
  kernel :
    Toolchain → List (String × Text) → Option Content →
      Option Content
  cargoBuild :
    Toolchain → Text → List Text → Content → Option Content
  buildCommand :
    Toolchain → List Text → Text → Content → Option Content
  isStatic : Content → Bool
  guestInit :
    Toolchain → List Feature → Environment → Option Content
  mke2fs : Toolchain → Option Content
  archive : List Member → Content
  ukify :
    Toolchain → Content → Content → Text → Text →
      Option Content
  sevSnpMeasure :
    UInt32 → Text → Content → KernelBlobs → Option Text
  sha256 : Content → Text
  latestAptSnapshot : Text

------------------------------------------------------------
-- Locations
------------------------------------------------------------

/- The host's places, and the image's tag. -/
inductive Loc (ι : Type)
| project (i : ι) (file : ProjectFile)
| embeddedOvmf (i : ι)
| appTarget (i : ι)
| kernelImage
| guestInit
| rootfs (file : RootfsFile)
| rootfsMode (entry : RootfsEntry)
| rootfsTime (entry : RootfsEntry)
| stagedImage (name : Text) (kind : ImageKind)
| hash (file : HashFile)
| extraKconfig
| buildScript
| builderImage
deriving DecidableEq

/- The contents of all these places. -/
abbrev Files (ι : Type) := Store (Loc ι) Content

/- Where the container of a project has a path from. -/
def Path.loc {ι : Type} (i : ι) : Path → Loc ι
| .workspace file => .project i file
| .embeddedOvmf => .embeddedOvmf i
| .kernelImage => .kernelImage
| .guestInit => .guestInit
| .appTarget => .appTarget i
| .rootfs file => .rootfs file
| .rootfsMode entry => .rootfsMode entry
| .rootfsTime entry => .rootfsTime entry
| .stagedImage name kind => .stagedImage name kind
| .hash file => .hash file
| .extraKconfig => .extraKconfig

/- Two paths of a container are two places. -/
theorem Path.loc_injective {ι : Type} (i : ι) :
    Function.Injective (Path.loc i) := by
  intro a b hLoc
  cases a <;> cases b <;> simp_all [Path.loc]

@[simp] theorem Path.loc_inj
    {ι : Type} (i : ι) (a b : Path) :
    a.loc i = b.loc i ↔ a = b :=
  (Path.loc_injective i).eq_iff

------------------------------------------------------------
-- Commands
------------------------------------------------------------

/- What a command writes, and whether it succeeds. -/
structure Effect where
  writes : Writes Path Content
  ok : Bool

namespace Effect

/- A file that is made, or nothing and a failure. -/
def produce (dst : Path) : Option Content → Effect
| some content => { writes := [(dst, some content)], ok := true }
| none => { writes := [], ok := false }

/- A redirection truncates the file even on failure. -/
def redirect (dst : Path) (output : Option Text) : Effect where
  writes := [(dst, some (.text (output.getD [])))]
  ok := output.isSome

/- Nothing is written, and a condition decides. -/
def check (condition : Bool) : Effect where
  writes := []
  ok := condition

end Effect

/- What one container sees of the files. -/
abbrev View := Store Path Content

------------------------------------------------------------
-- The Root File System
------------------------------------------------------------

/- The files that a root file system may have. -/
def rootfsFiles : List RootfsFile :=
  [.init, .app, .mke2fs]

/- The directories that are there from the beginning. -/
def freshDirs : List RootfsDir :=
  [.proc, .sys, .dev, .tmp, .run, .payload]

/- The directories that it may have. -/
def rootfsDirs : List RootfsDir :=
  freshDirs ++ [.sbin]

/- Directories and files, in their order. -/
def rootfsEntries : List RootfsEntry :=
  rootfsDirs.map .dir ++ rootfsFiles.map .file

/- The list has all of them. -/
theorem mem_rootfsFiles (file : RootfsFile) :
    file ∈ rootfsFiles := by
  cases file with
  | init => decide
  | app => decide
  | mke2fs => decide

theorem mem_rootfsEntries (entry : RootfsEntry) :
    entry ∈ rootfsEntries := by
  cases entry with
  | dir dir => cases dir <;> decide
  | file file => cases file <;> decide

/- The directory that a file is in, below the root's. -/
def RootfsFile.dir : RootfsFile → Option RootfsDir
| .init => none
| .app => some .payload
| .mke2fs => some .sbin

namespace RootfsEntry

/- What is there exactly if the entry is. -/
def presence : RootfsEntry → Path
| .dir d => .rootfsMode (.dir d)
| .file f => .rootfs f

/- The entry is there, whatever it holds. -/
def isThere (view : View) (entry : RootfsEntry) : Bool :=
  (view entry.presence).isSome

/- Directories hold nothing of their own. -/
def content (view : View) : RootfsEntry → Option Content
| .dir _ => none
| .file f => view (.rootfs f)

/- An entry with its mode and its time. -/
def member (view : View) (entry : RootfsEntry) : Member where
  entry := entry
  content := entry.content view
  mode := view (.rootfsMode entry)
  time := view (.rootfsTime entry)

end RootfsEntry

/- What is archived. -/
def rootfsMembers (view : View) : List Member :=
  (rootfsEntries.filter (RootfsEntry.isThere view)).map
    (RootfsEntry.member view)

/- Nothing but new directories. -/
def freshRootfsWrites : Writes Path Content :=
  rootfsFiles.map (fun file => (.rootfs file, none)) ++
    rootfsEntries.flatMap fun entry =>
      if entry ∈ freshDirs.map .dir then
        [(.rootfsMode entry, some (.mode none)),
          (.rootfsTime entry, some (.time false))]
      else
        [(.rootfsMode entry, none), (.rootfsTime entry, none)]

/- A file that is there keeps its mode, as does its directory. -/
def installWrites
    (view : View) (file : RootfsFile) (content : Content) :
    Writes Path Content :=
  (.rootfs file, some content) ::
    (.rootfsTime (.file file), some (.time false)) ::
      if (view (.rootfs file)).isSome then
        []
      else
        (.rootfsMode (.file file), some (.mode none)) ::
          file.dir.toList.map fun dir =>
            (.rootfsTime (.dir dir), some (.time false))

/- A directory that is there stays as it is. -/
def mkdirWrites
    (view : View) (dir : RootfsDir) : Writes Path Content :=
  if (view (.rootfsMode (.dir dir))).isSome then
    []
  else
    [(.rootfsMode (.dir dir), some (.mode none)),
      (.rootfsTime (.dir dir), some (.time false))]

/- The modes of the entries that are there. -/
def chmodWrites
    (view : View) (mode : Nat) (entries : List RootfsEntry) :
    Writes Path Content :=
  (entries.filter (RootfsEntry.isThere view)).map fun entry =>
    (.rootfsMode entry, some (.mode (some mode)))

/- Every entry has the time of the epoch. -/
def touchWrites (view : View) : Writes Path Content :=
  (rootfsEntries.filter (RootfsEntry.isThere view)).map
    fun entry => (.rootfsTime entry, some (.time true))

------------------------------------------------------------
-- The Effects of Commands
------------------------------------------------------------

/- What is measured, if it is there. -/
def KernelArgs.blobs (view : View) :
    KernelArgs → Option KernelBlobs
| .uki kernel => (view kernel).map .uki
| .direct kernel initrd append =>
    (view kernel).bind fun kernel =>
      (view initrd).map fun initrd =>
        .direct kernel initrd append

/- Where it is. -/
def KernelArgs.paths : KernelArgs → List Path
| .uki kernel => [kernel]
| .direct kernel initrd _ => [kernel, initrd]

namespace Command

/- The measurement on one line. -/
def measureOutput
    (tools : Tools) (vcpus : UInt32) (vcpuType : Text)
    (ovmf : Option Content) (blobs : Option KernelBlobs) :
    Option Text :=
  ovmf.bind fun ovmf =>
    blobs.bind fun blobs =>
      (tools.sevSnpMeasure vcpus vcpuType ovmf blobs).map
        fun output => output.filter fun c => c ≠ '\n'

/- `readelf` finds nothing to object to in a missing file. -/
def passesStaticCheck
    (tools : Tools) (bin : Option Content) : Bool :=
  match bin with
  | some content => tools.isStatic content
  | none => true

/- What a command writes, and whether it succeeds. -/
def effect
    (tools : Tools) (toolchain : Toolchain) (view : View) :
    Command → Effect
| .buildKernel env kconfig =>
    .produce .kernelImage
      (if kconfig then
        (view .extraKconfig).bind fun fragment =>
          tools.kernel toolchain env (some fragment)
      else
        tools.kernel toolchain env none)
| .cargoBuild profile features package =>
    .produce .appTarget
      ((view (.workspace (.package (.inside package)))).bind
        (tools.cargoBuild toolchain profile features))
| .buildCommand packages command package output =>
    .produce (.workspace (.file output))
      ((view (.workspace (.package (.inside package)))).bind
        (tools.buildCommand toolchain packages command))
| .verifyStaticBinary bin =>
    .check (passesStaticCheck tools (view bin))
| .buildGuestInit features exports =>
    .produce .guestInit
      (tools.guestInit toolchain features exports)
| .freshRootfs => { writes := freshRootfsWrites, ok := true }
| .install src file =>
    match view src with
    | none => .check false
    | some content =>
        { writes := installWrites view file content, ok := true }
| .installMke2fs =>
    match tools.mke2fs toolchain with
    | none => { writes := mkdirWrites view .sbin, ok := false }
    | some content =>
        { writes :=
            installWrites view .mke2fs content ++
              mkdirWrites view .sbin
          ok := true }
| .chmodFiles mode files =>
    { writes := chmodWrites view mode (files.map .file)
      ok :=
        (files.map .file).all (RootfsEntry.isThere view) }
| .chmodDirs mode =>
    { writes := chmodWrites view mode (rootfsDirs.map .dir)
      ok := true }
| .touchRootfs => { writes := touchWrites view, ok := true }
| .copy src dst => .produce dst (view src)
| .copyUnlessExists src dst =>
    if (view dst).isSome then
      .check true
    else
      .produce dst (view src)
| .sha256sum src file =>
    .redirect (.hash file) ((view src).map tools.sha256)
| .packRootfs output =>
    .produce output (some (tools.archive (rootfsMembers view)))
| .ukify linux initrd cmdline uname output =>
    .produce output
      ((view linux).bind fun linux =>
        (view initrd).bind fun initrd =>
          tools.ukify toolchain linux initrd cmdline uname)
| .sevSnpMeasure vcpus vcpuType ovmf kernelArgs output =>
    .redirect output
      (measureOutput tools vcpus vcpuType (view ovmf)
        (kernelArgs.blobs view))

/- What the effect depends on. -/
def reads (view : View) : Command → List Path
| .buildKernel _ kconfig =>
    if kconfig then [.extraKconfig] else []
| .cargoBuild _ _ package =>
    [.workspace (.package (.inside package))]
| .buildCommand _ _ package _ =>
    [.workspace (.package (.inside package))]
| .verifyStaticBinary bin => [bin]
| .buildGuestInit _ _ => []
| .freshRootfs => []
| .install src file => [src, .rootfs file]
| .installMke2fs => [.rootfs .mke2fs, .rootfsMode (.dir .sbin)]
| .chmodFiles _ files =>
    files.map fun file => RootfsEntry.presence (.file file)
| .chmodDirs _ =>
    rootfsDirs.map fun dir => RootfsEntry.presence (.dir dir)
| .touchRootfs => rootfsEntries.map RootfsEntry.presence
| .copy src _ => [src]
| .copyUnlessExists src dst =>
    dst :: if (view dst).isSome then [] else [src]
| .sha256sum src _ => [src]
| .packRootfs _ =>
    rootfsEntries.flatMap fun entry =>
      [entry.presence, .rootfsMode entry, .rootfsTime entry]
| .ukify linux initrd _ _ _ => [linux, initrd]
| .sevSnpMeasure _ _ ovmf kernelArgs _ =>
    ovmf :: kernelArgs.paths

/- The file with its mode, and the times it changes. -/
def installTargets (file : RootfsFile) : List Path :=
  [.rootfs file, .rootfsTime (.file file),
    .rootfsMode (.file file)] ++
    file.dir.toList.map fun dir => .rootfsTime (.dir dir)

/- What it may write. -/
def targets : Command → List Path
| .buildKernel _ _ => [.kernelImage]
| .cargoBuild _ _ _ => [.appTarget]
| .buildCommand _ _ _ output => [.workspace (.file output)]
| .verifyStaticBinary _ => []
| .buildGuestInit _ _ => [.guestInit]
| .freshRootfs =>
    rootfsFiles.map .rootfs ++
      (rootfsEntries.map .rootfsMode ++
        rootfsEntries.map .rootfsTime)
| .install _ file => installTargets file
| .installMke2fs =>
    installTargets .mke2fs ++
      [.rootfsMode (.dir .sbin), .rootfsTime (.dir .sbin)]
| .chmodFiles _ files =>
    files.map fun file => .rootfsMode (.file file)
| .chmodDirs _ => rootfsDirs.map fun dir => .rootfsMode (.dir dir)
| .touchRootfs => rootfsEntries.map .rootfsTime
| .copy _ dst => [dst]
| .copyUnlessExists _ dst => [dst]
| .sha256sum _ file => [.hash file]
| .packRootfs output => [output]
| .ukify _ _ _ _ output => [output]
| .sevSnpMeasure _ _ _ _ output => [output]

end Command

------------------------------------------------------------
-- Locality
------------------------------------------------------------

/- What is measured depends on where it is. -/
theorem KernelArgs.blobs_congr
    {view other : View} {args : KernelArgs}
    (hAgree : ∀ path ∈ args.paths, view path = other path) :
    args.blobs other = args.blobs view := by
  cases args with
  | uki kernel =>
      have hKernel := hAgree kernel (by simp [paths])
      simp only [blobs, hKernel]
  | direct kernel initrd append =>
      have hKernel := hAgree kernel (by simp [paths])
      have hInitrd := hAgree initrd (by simp [paths])
      simp only [blobs, hKernel, hInitrd]

namespace Command

variable (tools : Tools) (toolchain : Toolchain)

/- A command does the same where it reads the same. -/
theorem effect_congr
    {view other : View} {command : Command}
    (hAgree :
      ∀ path ∈ command.reads view, view path = other path) :
    command.effect tools toolchain other =
      command.effect tools toolchain view := by
  cases command with
  | buildKernel env kconfig =>
      cases kconfig with
      | false => rfl
      | true =>
          have hFragment := hAgree .extraKconfig (by simp [reads])
          simp only [effect, hFragment]
  | buildGuestInit _ _ | freshRootfs => rfl
  | cargoBuild _ _ package | buildCommand _ _ package _ =>
      have hPackage :=
        hAgree (.workspace (.package (.inside package)))
          (by simp [reads])
      simp only [effect, hPackage]
  | install src file =>
      have hSrc := hAgree src (by simp [reads])
      have hFile := hAgree (.rootfs file) (by simp [reads])
      simp only [effect, installWrites, hSrc, hFile]
  | installMke2fs =>
      have hFile := hAgree (.rootfs .mke2fs) (by simp [reads])
      have hDir :=
        hAgree (.rootfsMode (.dir .sbin)) (by simp [reads])
      simp only [effect, installWrites, mkdirWrites, hFile,
        hDir]
  | chmodFiles mode files =>
      have hThere :
          ∀ entry ∈ files.map RootfsEntry.file,
            entry.isThere view = entry.isThere other := by
        intro entry hMem
        rw [List.mem_map] at hMem
        rcases hMem with ⟨file, hFile, rfl⟩
        unfold RootfsEntry.isThere
        rw [hAgree _ (List.mem_map_of_mem hFile)]
      have hAll :
          (files.map RootfsEntry.file).all
              (RootfsEntry.isThere other) =
            (files.map RootfsEntry.file).all
              (RootfsEntry.isThere view) := by
        rw [Bool.eq_iff_iff, List.all_eq_true,
          List.all_eq_true]
        constructor
        · intro hOther entry hMem
          rw [hThere entry hMem]
          exact hOther entry hMem
        · intro hView entry hMem
          rw [← hThere entry hMem]
          exact hView entry hMem
      simp only [effect, chmodWrites,
        List.filter_congr hThere, hAll]
  | chmodDirs mode =>
      have hThere :
          ∀ entry ∈ rootfsDirs.map RootfsEntry.dir,
            entry.isThere view = entry.isThere other := by
        intro entry hMem
        rw [List.mem_map] at hMem
        rcases hMem with ⟨dir, hDir, rfl⟩
        unfold RootfsEntry.isThere
        rw [hAgree _ (List.mem_map_of_mem hDir)]
      simp only [effect, chmodWrites, List.filter_congr hThere]
  | touchRootfs =>
      have hThere :
          RootfsEntry.isThere view =
            RootfsEntry.isThere other := by
        funext entry
        unfold RootfsEntry.isThere
        rw [hAgree _
          (List.mem_map_of_mem (mem_rootfsEntries entry))]
      simp only [effect, touchWrites, hThere]
  | verifyStaticBinary src | copy src _ | sha256sum src _ =>
      have hSrc := hAgree src (by simp [reads])
      simp only [effect, hSrc]
  | copyUnlessExists src dst =>
      have hDst := hAgree dst (by simp [reads])
      simp only [effect, ← hDst]
      by_cases hExists : (view dst).isSome
      · rw [if_pos hExists, if_pos hExists]
      · have hSrc := hAgree src (by simp [reads, hExists])
        rw [if_neg hExists, if_neg hExists, hSrc]
  | packRootfs output =>
      have hEach :
          ∀ entry : RootfsEntry,
            ∀ path ∈ [entry.presence, .rootfsMode entry,
                .rootfsTime entry],
              view path = other path := by
        intro entry path hPath
        apply hAgree
        rw [reads, List.mem_flatMap]
        exact ⟨entry, mem_rootfsEntries entry, hPath⟩
      have hThere :
          RootfsEntry.isThere view =
            RootfsEntry.isThere other := by
        funext entry
        unfold RootfsEntry.isThere
        rw [hEach entry entry.presence (by simp)]
      have hMember :
          RootfsEntry.member view =
            RootfsEntry.member other := by
        funext entry
        unfold RootfsEntry.member
        rw [hEach entry (.rootfsMode entry) (by simp),
          hEach entry (.rootfsTime entry) (by simp)]
        cases entry with
        | dir d => rfl
        | file f =>
            have hFile :=
              hEach (.file f) (.rootfs f) List.mem_cons_self
            simp only [RootfsEntry.content, hFile]
      simp only [effect, rootfsMembers, hThere, hMember]
  | ukify linux initrd _ _ _ =>
      have hLinux := hAgree linux (by simp [reads])
      have hInitrd := hAgree initrd (by simp [reads])
      simp only [effect, hLinux, hInitrd]
  | sevSnpMeasure _ _ ovmf args _ =>
      have hOvmf := hAgree ovmf (by simp [reads])
      have hBlobs : args.blobs other = args.blobs view := by
        apply KernelArgs.blobs_congr
        intro path hMem
        exact hAgree path (List.mem_cons_of_mem _ hMem)
      simp only [effect, hOvmf, hBlobs]

/- What is read depends on what is read. -/
theorem reads_congr
    {view other : View} {command : Command}
    (hAgree :
      ∀ path ∈ command.reads view, view path = other path) :
    command.reads other = command.reads view := by
  cases command with
  | copyUnlessExists src dst =>
      have hDst := hAgree dst (by simp [reads])
      simp only [reads, hDst]
  | _ => rfl

/- What the parts of an effect write. -/
theorem written_produce (dst : Path) (content : Option Content) :
    written (Effect.produce dst content).writes ⊆ [dst] := by
  cases content <;> simp [Effect.produce, written]

theorem written_installWrites
    (view : View) (file : RootfsFile) (content : Content) :
    written (installWrites view file content) ⊆
      installTargets file := by
  unfold installWrites written installTargets
  split
  · simp
  · simp [Function.comp_def]

theorem written_mkdirWrites (view : View) (dir : RootfsDir) :
    written (mkdirWrites view dir) ⊆
      [.rootfsMode (.dir dir), .rootfsTime (.dir dir)] := by
  unfold mkdirWrites written
  split
  · simp
  · simp

theorem written_chmodWrites
    (view : View) (mode : Nat) (entries : List RootfsEntry) :
    written (chmodWrites view mode entries) ⊆
      entries.map .rootfsMode := by
  unfold chmodWrites written
  rw [List.map_map]
  exact List.map_subset _ (List.filter_subset_self _)

theorem written_touchWrites (view : View) :
    written (touchWrites view) ⊆
      rootfsEntries.map .rootfsTime := by
  unfold touchWrites written
  rw [List.map_map]
  exact List.map_subset _ (List.filter_subset_self _)

/- Nothing but its targets is written by a command. -/
theorem written_effect (view : View) (command : Command) :
    written (command.effect tools toolchain view).writes ⊆
      command.targets := by
  cases command with
  | verifyStaticBinary _ => exact List.nil_subset _
  | freshRootfs =>
      change written freshRootfsWrites ⊆
        targets .freshRootfs
      decide
  | install src file =>
      simp only [effect]
      split
      · exact List.nil_subset _
      · exact written_installWrites view file _
  | installMke2fs =>
      have hMkdir := written_mkdirWrites view .sbin
      simp only [effect, targets]
      split
      · intro path hMem
        exact List.mem_append_right _ (hMkdir hMem)
      · rename_i content _
        have hInstall :=
          written_installWrites view .mke2fs content
        intro path hMem
        unfold written at hMem hInstall hMkdir
        rw [List.map_append, List.mem_append] at hMem
        rcases hMem with hFile | hDir
        · exact List.mem_append_left _ (hInstall hFile)
        · exact List.mem_append_right _ (hMkdir hDir)
  | chmodFiles mode files =>
      have hWritten :=
        written_chmodWrites view mode (files.map .file)
      rw [List.map_map] at hWritten
      exact hWritten
  | chmodDirs mode =>
      have hWritten :=
        written_chmodWrites view mode (rootfsDirs.map .dir)
      rw [List.map_map] at hWritten
      exact hWritten
  | touchRootfs => exact written_touchWrites view
  | copyUnlessExists src dst =>
      simp only [effect]
      by_cases hExists : (view dst).isSome
      · rw [if_pos hExists]
        exact List.nil_subset _
      · rw [if_neg hExists]
        exact written_produce dst _
  | sha256sum _ _ | sevSnpMeasure _ _ _ _ _ =>
      exact List.Subset.refl _
  | _ => exact written_produce _ _

end Command

------------------------------------------------------------
-- Running Commands
------------------------------------------------------------

section Running

variable {ι : Type}
variable (tools : Tools) (toolchain : Toolchain) (i : ι)

/- The files as the container of a project sees them. -/
def viewOf (s : Files ι) : View :=
  fun path => s (path.loc i)

/- The writes at the places the paths stand for. -/
def hostWrites (ws : Writes Path Content) :
    Writes (Loc ι) Content :=
  ws.map fun entry => (entry.1.loc i, entry.2)

/- The same places, as the host has them. -/
theorem written_hostWrites (ws : Writes Path Content) :
    written (hostWrites i ws) =
      (written ws).map (Path.loc i) := by
  unfold written hostWrites
  rw [List.map_map, List.map_map]
  rfl

variable [DecidableEq ι]

/- The files after a command, whether it succeeds or not. -/
def Command.after (command : Command) (s : Files ι) : Files ι :=
  apply
    (hostWrites i
      (command.effect tools toolchain (viewOf i s)).writes) s

/- The command ends with status zero. -/
def Command.succeeds
    (command : Command) (s : Files ι) : Bool :=
  (command.effect tools toolchain (viewOf i s)).ok

/- One after the other, until one fails. -/
def runCommands :
    List Command → Files ι → Except BuildError (Files ι)
| [], s => .ok s
| command :: rest, s =>
    if command.succeeds tools toolchain i s then
      runCommands rest (command.after tools toolchain i s)
    else
      .error .containerBuildFailed

/- One command, and then the rest. -/
theorem runCommands_cons_eq_ok_iff
    {command : Command} {rest : List Command}
    {s t : Files ι} :
    runCommands tools toolchain i (command :: rest) s = .ok t ↔
      command.succeeds tools toolchain i s = true ∧
        runCommands tools toolchain i rest
          (command.after tools toolchain i s) = .ok t := by
  by_cases hOk : command.succeeds tools toolchain i s
  · simp [runCommands, hOk]
  · simp [runCommands, hOk]

/- A script in two parts. -/
theorem runCommands_append_eq_ok_iff
    {first rest : List Command} {s t : Files ι} :
    runCommands tools toolchain i (first ++ rest) s = .ok t ↔
      ∃ mid,
        runCommands tools toolchain i first s = .ok mid ∧
          runCommands tools toolchain i rest mid = .ok t := by
  induction first generalizing s with
  | nil =>
      simp only [List.nil_append]
      constructor
      · intro hRun
        exact ⟨s, rfl, hRun⟩
      · rintro ⟨mid, hMid, hRun⟩
        cases hMid
        exact hRun
  | cons command first ih =>
      rw [List.cons_append, runCommands_cons_eq_ok_iff, ih]
      simp only [runCommands_cons_eq_ok_iff]
      constructor
      · rintro ⟨hOk, mid, hMid, hRun⟩
        exact ⟨mid, ⟨hOk, hMid⟩, hRun⟩
      · rintro ⟨mid, ⟨hOk, hMid⟩, hRun⟩
        exact ⟨hOk, mid, hMid, hRun⟩

/- A command leaves alone what is no target of it. -/
theorem Command.after_of_not_target
    {command : Command} {loc : Loc ι}
    (hTarget :
      ∀ path ∈ command.targets, path.loc i ≠ loc)
    (s : Files ι) :
    command.after tools toolchain i s loc = s loc := by
  unfold Command.after
  apply apply_of_not_mem
  rw [written_hostWrites, List.mem_map]
  rintro ⟨path, hMem, hLoc⟩
  exact hTarget path
    (Command.written_effect tools toolchain (viewOf i s)
      command hMem) hLoc

/- One with a single target leaves all else alone. -/
theorem Command.after_of_other_target
    {command : Command} {target : Path} {loc : Loc ι}
    (hTargets : command.targets = [target])
    (hOther : loc ≠ target.loc i)
    (s : Files ι) :
    command.after tools toolchain i s loc = s loc := by
  apply Command.after_of_not_target
  intro path hMem hLoc
  rw [hTargets, List.mem_singleton] at hMem
  rw [hMem] at hLoc
  exact hOther hLoc.symm

/- So do commands one after the other. -/
theorem runCommands_of_not_target
    {commands : List Command} {s t : Files ι} {loc : Loc ι}
    (hRun : runCommands tools toolchain i commands s = .ok t)
    (hTarget :
      ∀ command ∈ commands, ∀ path ∈ command.targets,
        path.loc i ≠ loc) :
    t loc = s loc := by
  induction commands generalizing s with
  | nil =>
      cases hRun
      rfl
  | cons command rest ih =>
      rw [runCommands_cons_eq_ok_iff] at hRun
      rw [ih hRun.2 fun other hMem =>
        hTarget other (List.mem_cons_of_mem command hMem)]
      exact Command.after_of_not_target tools toolchain i
        (hTarget command List.mem_cons_self) s

end Running

end Pipeline

end CargoUnikernel
