import CargoUnikernel.Guest.Boot.Machine

/-
  What the init does to the file systems.

  Each function of the init is a procedure of the same name.
  A failure that is fatal stops it; nothing else is done on
  the way to the wipe.

  Main declarations:
    * `Failure`, `Stop`, `Init`
    * `attempt`, `must`, `decode`
    * `baseMounts`, `mountPersistentVar`, `mountVar`
    * `prepareMountDirectory`, `mountVarTmp`, `bindPayload`
    * `lockdownFilesystem`
-/

------------------------------------------------------------
-- Procedures of the Init
------------------------------------------------------------

namespace CargoUnikernel

namespace Guest

namespace Boot

open BuildScript (Constant)
open Procedures (Proc)

/- What `fatal_shutdown` is told, by what has failed. -/
inductive Failure
| baked (fatal : Baked.Fatal)
| firewallRuleset (message : String)
| firewallInstall (errno : Errno)
| mount (target : Text) (errno : Errno)
| unsafeMountPoint (path : Text) (errno : Errno)
| bindMount (target : Text) (errno : Errno)
| remount (target : Text) (errno : Errno)
| inspectDevice (errno : Errno)
| formatDevice (fatal : Storage.Fatal)
| shutdownTriggers (errno : Errno)
| chown (dir : Text) (errno : Errno)
| openRandom
| pollRandom
| crngNotInitialized
| appMissing
| appPermissions (errno : Errno)
| baselineDenylist
| landlock (fatal : Landlock.Fatal)
| landlockRuleset (errno : Errno)
| landlockRule (path : Text) (errno : Errno)
| spawn (errno : Errno)
| shutdownWatcher

/- A failure, or a wait that is not over yet. -/
inductive Stop
| fatal (failure : Failure)
| waiting

/- A procedure of the init. -/
abbrev Init (α : Type) := Proc Request Answer Stop α

/- An action, and whether it succeeded. -/
def act (action : Action) : Init (Except Errno Unit) :=
  Proc.perform (Request.act action)

/- A question, and its answer. -/
def ask (query : Query) : Init query.Answer :=
  Proc.perform (Request.ask query)

/- The boot is given up. -/
def fatal {α : Type} (failure : Failure) : Init α :=
  .stop (.fatal failure)

/- A call that makes no difference if it fails. -/
def attempt (action : Action) : Init Unit := do
  let _ ← act action
  pure ()

/- A call whose failure is fatal. -/
def must
    (action : Action) (failure : Errno → Failure) :
    Init Unit := do
  let result ← act action
  .expect (fun errno => .fatal (failure errno)) result

/- What cannot be decoded is fatal. -/
def decode {α : Type} (result : Baked.Boot α) : Init α :=
  .expect (fun error => .fatal (.baked error)) result

------------------------------------------------------------
-- The First Mounts
------------------------------------------------------------

open MountFlags

/- The flags that most mounts have. -/
def nosuidNodevNoexec : MountFlags :=
  (nosuid.union nodev).union noexec

/-
  Execution is refused unless the config accepts the danger.
-/
def writableExecMountFlags (image : Image) : MountFlags :=
  if image.has .dangerAllowWriteExecute then
    nosuid.union nodev
  else
    (nosuid.union nodev).union noexec

/- An entry of the table of mounts. -/
structure BaseMount where
  source : String
  target : String
  fstype : FsType
  flags : MountFlags
  data : Option Text

/- What is mounted first, in this order. -/
def baseMounts
    (image : Image) (tmpData runData shmData : Text) :
    List BaseMount :=
  [⟨"proc", "/proc", .proc, nosuidNodevNoexec,
      some "hidepid=2".toList⟩,
    ⟨"sysfs", "/sys", .sysfs, nosuidNodevNoexec, none⟩,
    ⟨"devtmpfs", "/dev", .devtmpfs, nosuid.union noexec,
      none⟩,
    ⟨"tmpfs", "/tmp", .tmpfs, writableExecMountFlags image,
      some tmpData⟩,
    ⟨"tmpfs", "/run", .tmpfs, nosuidNodevNoexec,
      some runData⟩,
    ⟨"tmpfs", "/dev/shm", .tmpfs, nosuidNodevNoexec,
      some shmData⟩]

/- One of them; a mount that fails is fatal. -/
def mountBase (base : BaseMount) : Init Unit := do
  attempt (.createDirAll base.target.toList)
  must
    (.mount base.source.toList (.path base.target.toList)
      base.fstype base.flags base.data)
    (.mount base.target.toList)

/- The terminals; a boot can do without. -/
def mountDevpts : Init Unit := do
  attempt (.createDir "/dev/pts".toList)
  attempt
    (.mount "devpts".toList (.path "/dev/pts".toList) .devpts
      (nosuid.union noexec)
      (some "mode=0620,ptmxmode=0666".toList))

/- The device is formatted unless it carries the label. -/
def mountPersistentVar (image : Image) : Init Unit := do
  let marker ← ask .deviceCarriesOurMarker
  let ours ←
    .expect (fun errno => .fatal (.inspectDevice errno)) marker
  .when (!ours) do
    let formatted ← ask .wipeAndFormat
    .expect (fun error => .fatal (.formatDevice error))
      formatted
  must
    (.mount "/dev/vda".toList (.path "/var".toList) .ext4
      (writableExecMountFlags image) none)
    (.mount "/var".toList)

/- The volume, or memory in its place. -/
def mountVar (image : Image) : Init Unit := do
  attempt (.createDirAll "/var".toList)
  if image.has .storagePersistent then
    mountPersistentVar image
  else
    must
      (.mount "tmpfs".toList (.path "/var".toList) .tmpfs
        (writableExecMountFlags image)
        (some "mode=0755".toList))
      (.mount "/var".toList)

/- It may be there already. -/
def createMountPoint (path : Text) : Init Unit := do
  let created ← act (.createDir path)
  match created with
  | .ok () => pure ()
  | .error errno =>
      .when (errno ≠ eexist)
        (fatal (.unsafeMountPoint path errno))

/- The directory is opened by its own name. -/
def prepareMountDirectory (path : Text) : Init Path := do
  createMountPoint path
  let opened ← ask (.openNoFollow path)
  .expect (fun errno => .fatal (.unsafeMountPoint path errno))
    opened

/- In memory, below a directory that is opened first. -/
def mountVarTmp (image : Image) : Init Unit := do
  let varTmp ← prepareMountDirectory "/var/tmp".toList
  let varTmpData ←
    decode
      (Baked.tmpfsData image.constant .tmpfsVarTmpMb
        "mode=1777")
  must
    (.mount "tmpfs".toList (.fd varTmp) .tmpfs
      nosuidNodevNoexec (some varTmpData))
    (.mount "/var/tmp".toList)

/- The app's files become a mount of their own. -/
def bindPayload (payloadDir : Text) : Init Unit := do
  must (.mountBind payloadDir payloadDir)
    (.bindMount payloadDir)
  must
    (.mountRemount payloadDir
      ((msBind.union nosuid).union nodev) [])
    (.remount payloadDir)

------------------------------------------------------------
-- Lockdown
------------------------------------------------------------

/- The flags are those of the first mount. -/
def tmpRemountFlags (image : Image) : MountFlags :=
  writableExecMountFlags image

/- The feature hides all but processes. -/
def procRemountData (image : Image) : Text :=
  if image.has .procSubsetPid then
    "hidepid=2,subset=pid".toList
  else
    "hidepid=2".toList

/- Not the end of the boot if it fails. -/
def sealRootfs : Init Unit :=
  attempt (.mountRemount "/".toList rdonly [])

/- What is not written any more is sealed. -/
def lockdownFilesystem
    (image : Image) (payloadDir : Text) : Init Unit := do
  must
    (.mountRemount "/sys".toList
      (nosuidNodevNoexec.union rdonly) [])
    (.remount "/sys".toList)
  sealRootfs
  must
    (.mountRemount "/proc".toList nosuidNodevNoexec
      (procRemountData image))
    (.remount "/proc".toList)
  must
    (.mountRemount payloadDir
      (((msBind.union rdonly).union nosuid).union nodev) [])
    (.remount payloadDir)
  let tmpData ←
    decode
      (Baked.tmpfsData image.constant .tmpfsTmpMb "mode=1777")
  must
    (.mountRemount "/tmp".toList (tmpRemountFlags image)
      tmpData)
    (.remount "/tmp".toList)
  let runData ←
    decode
      (Baked.tmpfsData image.constant .tmpfsRunMb "mode=0755")
  must
    (.mountRemount "/run".toList nosuidNodevNoexec runData)
    (.remount "/run".toList)

end Boot

end Guest

end CargoUnikernel
