import CargoUnikernel.Guest.Baked
import CargoUnikernel.Guest.Landlock
import CargoUnikernel.Guest.Storage
import CargoUnikernel.Library.MountTable
import CargoUnikernel.Library.Procedures

/-
  The machine that the guest's init boots on.

  It is what the kernel keeps of the init's calls: mounts,
  names that lead elsewhere, and what was switched on. A call
  can succeed only where it is ready, and it can fail at any
  time, with nothing changed.

  Main declarations:
    * `Image`, `Image.of`, `Image.BuiltFrom`
    * `MountFlags`, `FileSystem`, `Machine`
    * `Action`, `Query`, `Request`, `Answer`
    * `Action.Ready`, `Request.Ready`
    * `Action.Effect`, `Proceeds`
    * `Session`, `Possible`, `BootEvent`
-/

------------------------------------------------------------
-- Images
------------------------------------------------------------

namespace CargoUnikernel

namespace Guest

namespace Boot

open BuildScript (Constant)
open Landlock (locate)
open Pipeline (Feature)

/- The names on the way from the root. -/
abbrev Path := Landlock.Path

/- An error of the kernel. -/
abbrev Errno := Nat

/- A directory that is there already. -/
def eexist : Errno := 17

/- Where the image has the app. -/
def payloadDir : Text := "/payload".toList
def appPath : Text := "/payload/app".toList

/-
  What an init is compiled with. The host exports neither of
  the two paths, so they are what the build script has for
  them, unless a line in some other value sets one of them.
-/
structure Image where
  features : List Feature
  constant : Constant → Text
  payload : constant .payloadDir = payloadDir
  app : constant .appPath = appPath

/- An image is its features and its constants. -/
theorem Image.eq_of_fields
    {image other : Image}
    (hFeatures : image.features = other.features)
    (hConstant : image.constant = other.constant) :
    image = other := by
  cases image
  cases other
  cases hFeatures
  cases hConstant
  rfl

/- The path is exported as it is here. -/
theorem constant_appPath (config : Schema.Config) :
    BuildScript.constant (Pipeline.appEnvExports config)
        .appPath =
      appPath :=
  Pipeline.constant_appEnvExports config .appPath

/- The image with the values of a configuration. -/
def Image.of (config : Schema.Config) : Image where
  features := Pipeline.initFeatures config
  constant :=
    BuildScript.constant (Pipeline.appEnvExports config)
  payload := Landlock.constant_payloadDir config
  app := constant_appPath config

/- The init was built with the feature. -/
def Image.has (image : Image) (feature : Feature) : Bool :=
  feature ∈ image.features

/-
  The image that the pipeline builds: its constants are what
  cargo reads in the lines that the guest's build script
  prints of the exports that it has received.
-/
structure Image.BuiltFrom
    (image : Image) (config : Schema.Config) : Prop where
  features : image.features = Pipeline.initFeatures config
  constants :
    ∀ name,
      BuildScript.compiled
          (BuildScript.main
            (BuildScript.received
              (Pipeline.appEnvExports config)))
          name =
        some (image.constant name)

------------------------------------------------------------
-- Mounts
------------------------------------------------------------

/- The flags of `mount(2)` that are used. -/
structure MountFlags extends MountTable.Flags where
  bind : Bool
deriving DecidableEq

namespace MountFlags

/- No flag. -/
def empty : MountFlags where
  readOnly := false
  noSuid := false
  noDev := false
  noExec := false
  bind := false

/- One flag each, under the kernel's names. -/
def rdonly : MountFlags := { empty with readOnly := true }
def nosuid : MountFlags := { empty with noSuid := true }
def nodev : MountFlags := { empty with noDev := true }
def noexec : MountFlags := { empty with noExec := true }
def msBind : MountFlags := { empty with bind := true }

/- The flags of both. -/
def union (a b : MountFlags) : MountFlags where
  readOnly := a.readOnly || b.readOnly
  noSuid := a.noSuid || b.noSuid
  noDev := a.noDev || b.noDev
  noExec := a.noExec || b.noExec
  bind := a.bind || b.bind

end MountFlags

/- The types of file systems that the guest has. -/
inductive FsType
| rootfs
| proc
| sysfs
| devtmpfs
| tmpfs
| devpts
| ext4
deriving DecidableEq

/- A file system of a type, and the options it was given. -/
structure FileSystem where
  fstype : FsType
  options : Text
deriving DecidableEq

/- `subset=pid` is among the options. -/
def FileSystem.isSubset (fs : FileSystem) : Bool :=
  fs.fstype == .proc &&
    (Text.split ',' fs.options).contains "subset=pid".toList

/- A mount of this machine, and its table of them. -/
abbrev Mount := MountTable.Mount Text FileSystem
abbrev Table := MountTable.Table Text FileSystem

/- The entries of processes, which a subset leaves. -/
def isProcess (name : Text) : Bool :=
  name == "self".toList || name == "thread-self".toList ||
    (!name.isEmpty && name.all Char.isDigit)

/- What a mount of `/proc` does not have at a path. -/
def hides (mount : Mount) (path : Path) : Bool :=
  mount.kind.isSubset &&
    ((path.drop mount.target.length).head?.any fun name =>
      !isProcess name)

/- The type of file system that has the files of a path. -/
def home : Path → Option FsType
| first :: _ :: _ =>
    if first = "proc".toList then
      some .proc
    else if first = "sys".toList then
      some .sysfs
    else if first = "dev".toList then
      some .devtmpfs
    else
      none
| _ => none

------------------------------------------------------------
-- The Machine
------------------------------------------------------------

/- What a name can be, if there is one. -/
inductive Entry
| absent
| directory
| symlink
| other
deriving DecidableEq

/- What the calls of a boot depend on and change. -/
structure Machine where
  pid : Nat
  mounts : Table
  entry : Path → Entry
  rootSealed : Bool
  owner : Path → Option (Nat × Nat)
  filtered : Bool
  handlesSigterm : Bool
  seeded : Bool
  wipeStarted : Bool
  killed : Bool
  scrubbed : List Path
  poweredOff : Bool

/- A path as it is written, or a directory that is open. -/
inductive Target
| path (text : Text)
| fd (directory : Path)

/- What a call that only succeeds or fails does. -/
inductive Action
| mlockall
| setNotDumpable
| sendBatch (batch : Firewall.Batch)
| createDirAll (path : Text)
| createDir (path : Text)
| mount
    (source : Text) (target : Target) (fstype : FsType)
    (flags : MountFlags) (data : Option Text)
| mountBind (source target : Text)
| mountRemount
    (target : Text) (flags : MountFlags) (data : Text)
| signalSigterm
| setNonblocking (path : Text)
| chown (path : Text) (uid gid : Nat)
| write (path contents : Text)
| setPermissions (path : Text) (mode : Nat)
| landlockCreateRuleset
    (abi : Int) (handledAccessFs : UInt64) (scopes : UInt64)
| landlockAddRule (path : Text) (access : UInt64)
| unmount (path : Text)
| killAll
| sync
| reboot (halt : Bool)

/- The requests of the ioctls, by their names. -/
inductive Ioctl
| siocgifindex
| siocgifflags
| siocsifflags
| siocgifaddr
| siocsifaddr
| siocsifnetmask
| siocaddrt
deriving DecidableEq

/- What a poll on the random device comes back with. -/
inductive Polled
| timeout
| interrupted
| failed
| events (isIn : Bool)
deriving DecidableEq

/- The child, as it is handed to the fork. -/
structure Launch where
  program : Text
  child : Baked.Child
  nullStdio : Bool
  mdwe : Bool
  landlocked : Bool

/- What is asked without anything being changed. -/
inductive Query
| processId
| openNoFollow (path : Text)
| deviceCarriesOurMarker
| wipeAndFormat
| readDir (path : Text)
| readToString (path : Text)
| fileExists (path : Text)
| openFile (path : Text)
| now
| sleep
| ioctl (inet6 : Bool) (request : Ioctl) (arg : List UInt8)
| buildBaselineDenylist
| landlockAbi
| landlockOpen (path : Text)
| reap
| testKill
| spawnWatcher
| armWipeDeadline
| wipeDeadlineReached

/- Everything that the init asks of the kernel. -/
inductive Request
| act (action : Action)
| ask (query : Query)
| poll
| swapWipeStarted
| scrubDir (path : Text)
| spawn (launch : Launch)

/- What a query is answered with. -/
def Query.Answer : Query → Type
| .processId | .now => Nat
| .openNoFollow _ => Except Errno Path
| .deviceCarriesOurMarker => Except Errno Bool
| .wipeAndFormat => Except Storage.Fatal Unit
| .readDir _ => Except Errno (List (Except Errno Text))
| .readToString _ => Except Errno Text
| .fileExists _ | .openFile _ | .reap | .testKill
| .spawnWatcher | .armWipeDeadline
| .wipeDeadlineReached | .buildBaselineDenylist => Bool
| .sleep => Unit
| .ioctl _ _ _ => Except Errno (List UInt8)
| .landlockAbi => Int
| .landlockOpen _ => Except Errno Landlock.Kind

/- What a request is answered with. -/
def Answer : Request → Type
| .act _ => Except Errno Unit
| .ask query => query.Answer
| .poll => Polled
| .swapWipeStarted => Bool
| .scrubDir _ => Unit
| .spawn _ => Except Errno Nat

------------------------------------------------------------
-- Where a Call Is Ready
------------------------------------------------------------

/- There is a mount that has files at the path. -/
def reaches (table : Table) (path : Path) : Bool :=
  (MountTable.covering table path).any fun mount =>
    !hides mount path &&
      (home path).all fun fstype =>
        mount.kind.fstype == fstype

/- And it can be written. -/
def writable
    (table : Table) (rootSealed : Bool) (path : Path) : Bool :=
  reaches table path &&
    (MountTable.covering table path).any fun mount =>
      !mount.flags.readOnly &&
        !(mount.kind.fstype == .rootfs && rootSealed)

/- And what is there can be executed. -/
def executable (table : Table) (path : Path) : Bool :=
  reaches table path &&
    (MountTable.covering table path).any fun mount =>
      !mount.flags.noExec

namespace Machine

/- The path is in some file system. -/
def Reaches (s : Machine) (path : Path) : Prop :=
  reaches s.mounts path = true

/- That file system can be written to. -/
def Writes (s : Machine) (path : Path) : Prop :=
  writable s.mounts s.rootSealed path = true

/- And files in it can be executed. -/
def Executes (s : Machine) (path : Path) : Prop :=
  executable s.mounts path = true

/-
  Where a path ends up. A name that leads elsewhere can end
  up anywhere.
-/
def Lands (s : Machine) (path landed : Path) : Prop :=
  landed = path ∨
    ∃ link, link <+: path ∧ s.entry link = .symlink

/- The same if the last name is not followed. -/
def LandsNoFollow (s : Machine) (path landed : Path) : Prop :=
  landed = path ∨
    ∃ link, link <+: path.dropLast ∧ s.entry link = .symlink

/-
  There is a directory for a file to be made in. The kernel
  has the files that are not stored anywhere.
-/
def HasParent (s : Machine) (path : Path) : Prop :=
  home path = none → s.entry path.dropLast ≠ .absent

/- A directory that is open is where it is. -/
def LandsAt (s : Machine) : Target → Path → Prop
| .path text, landed => s.Lands (locate text) landed
| .fd directory, landed => landed = directory

end Machine

/- Where the descriptors of the init are found. -/
def selfFd : Path :=
  ["proc".toList, "self".toList, "fd".toList]

/- A volume is mounted from its device. -/
def Action.Ready (s : Machine) : Action → Prop
| .createDirAll path | .createDir path | .chown path _ _
| .write path _ | .setPermissions path _ =>
    s.Writes (locate path)
| .mount source target fstype _ _ =>
    (fstype = .ext4 → s.Reaches (locate source)) ∧
      match target with
      | .path text => s.Reaches (locate text)
      | .fd _ => s.Reaches selfFd
| .mountBind source target =>
    s.Reaches (locate source) ∧ s.Reaches (locate target)
| .mountRemount target _ _ =>
    MountTable.IsMountPoint s.mounts (locate target)
| _ => True

/-
  A link is up only with a filter in front of it, where the
  image has one.
-/
def Query.Ready (image : Image) (s : Machine) : Query → Prop
| .openNoFollow path | .readDir path | .readToString path
| .fileExists path | .openFile path =>
    s.Reaches (locate path)
| .ioctl _ .siocsifflags _ =>
    image.has .firewall = true → s.filtered = true
| .deviceCarriesOurMarker | .wipeAndFormat =>
    s.Reaches (locate "/dev/vda".toList)
| _ => True

/- The program and the null device are there. -/
def Launch.Ready (launch : Launch) (s : Machine) : Prop :=
  s.Executes (locate launch.program) ∧
    (launch.nullStdio = true →
      s.Reaches (locate "/dev/null".toList))

/- What has to be so for the call to make sense. -/
def Request.Ready
    (image : Image) (s : Machine) : Request → Prop
| .act action => action.Ready s
| .ask query => query.Ready image s
| .poll => s.Reaches (locate "/dev/random".toList)
| .swapWipeStarted | .scrubDir _ => True
| .spawn launch => launch.Ready s

------------------------------------------------------------
-- What a Call Does
------------------------------------------------------------

/- A remount without `MS_BIND` is of the file system, too. -/
def remounted
    (flags : MountFlags) (data : Text) (mount : Mount) :
    Mount :=
  if flags.bind then
    { mount with flags := flags.toFlags }
  else
    { mount with
      flags := flags.toFlags
      kind := { mount.kind with options := data } }

/- Whether a remount makes the root file system read-only. -/
def sealsRoot
    (table : Table) (path : Path) (flags : MountFlags) : Bool :=
  !flags.bind && flags.readOnly &&
    (MountTable.covering table path).any fun mount =>
      mount.kind.fstype == .rootfs

/-
  What lies beneath a new mount: whatever is stored there,
  or what the kernel or no one has made there.
-/
def NewEntries
    (fstype : FsType) (s t : Machine) (landed : Path) :
    Prop :=
  (∀ path, ¬landed <+: path → t.entry path = s.entry path) ∧
    ∀ path, landed <+: path → t.entry path = .symlink →
      fstype = .ext4 ∧ path ≠ landed

/- A new name, and a directory under it. -/
def Machine.MakesDirectory
    (s : Machine) (path : Path) (t : Machine) : Prop :=
  ∃ landed, s.LandsNoFollow path landed ∧
    s.entry landed = .absent ∧
      t =
        { s with
          entry := Function.update s.entry landed .directory }

/- What an action that succeeds does to the machine. -/
def Action.Effect (s : Machine) : Action → Machine → Prop
| .sendBatch _, t => t = { s with filtered := true }
| .createDirAll path, t =>
    t = s ∨ s.MakesDirectory (locate path) t
| .createDir path, t => s.MakesDirectory (locate path) t
| .mount _ target fstype flags data, t =>
    ∃ landed, s.LandsAt target landed ∧
      NewEntries fstype s t landed ∧
      t =
        { s with
          mounts :=
            { target := landed
              kind := ⟨fstype, data.getD []⟩
              flags := flags.toFlags } :: s.mounts
          entry := t.entry }
| .mountBind source target, t =>
    ∃ from_ landed,
      s.Lands (locate source) from_ ∧
        s.Lands (locate target) landed ∧
        t =
          { s with
            mounts := MountTable.bind s.mounts from_ landed
            entry := fun path =>
              if landed.isPrefixOf path then
                s.entry (from_ ++ path.drop landed.length)
              else
                s.entry path }
| .mountRemount target flags data, t =>
    ∃ landed, s.Lands (locate target) landed ∧
      t =
        { s with
          mounts :=
            MountTable.update (remounted flags data) s.mounts
              landed
          rootSealed :=
            s.rootSealed ||
              sealsRoot s.mounts landed flags }
| .signalSigterm, t => t = { s with handlesSigterm := true }
| .write path _, t => s.HasParent (locate path) ∧ t = s
| .chown path uid gid, t =>
    ∃ landed, s.Lands (locate path) landed ∧
      t =
        { s with
          owner :=
            Function.update s.owner landed (some (uid, gid)) }
| .killAll, t => t = { s with killed := true }
| .unmount path, t =>
    ∃ landed, s.Lands (locate path) landed ∧
      MountTable.IsMountPoint s.mounts landed ∧
      t =
        { s with
          mounts := MountTable.unmount s.mounts landed }
| .reboot _, t => t = { s with poweredOff := true }
| _, t => t = s

/- A name in a directory. -/
structure IsFileName (name : Text) : Prop where
  noSlash : '/' ∉ name
  noNul : '\x00' ∉ name
  nonempty : name ≠ []
  notDot : name ≠ ".".toList
  notUp : name ≠ "..".toList

/-
  What an answer says of the machine. An ioctl is answered in
  its argument, which keeps the name of its interface.
-/
def Query.Consistent
    (s : Machine) : (query : Query) → query.Answer → Prop
| .processId, pid => pid = s.pid
| .readDir _, .ok entries =>
    ∀ name, .ok name ∈ entries → IsFileName name
| .openNoFollow path, .ok directory =>
    s.entry directory = .directory ∧
      s.LandsNoFollow (locate path) directory
| .ioctl inet6 _ arg, .ok reply =>
    reply.length = arg.length ∧
      (inet6 = false → reply.take 16 = arg.take 16)
| _, _ => True

/- Too old to be enforced with. -/
def isTooOld (abi : Int) : Bool :=
  abi < Landlock.minAbi

/-
  An answer that is not the one that was asked for. A name
  that there is already is none of these, and neither is what
  a wait or the log asks.
-/
def refuses : (request : Request) → Answer request → Bool
| .act (.createDir _), .error errno => errno ≠ eexist
| .act _, .error _ => true
| .ask (.openNoFollow _), .error _ => true
| .ask .deviceCarriesOurMarker, .error _ => true
| .ask .wipeAndFormat, .error _ => true
| .ask (.fileExists _), found => !found
| .ask (.openFile _), opened => !opened
| .ask .buildBaselineDenylist, built => !built
| .ask .landlockAbi, abi => isTooOld abi
| .ask (.landlockOpen _), .error _ => true
| .ask .spawnWatcher, spawned => !spawned
| .ask .armWipeDeadline, armed => !armed
| .ask .wipeDeadlineReached, reached => reached
| .poll, .failed => true
| .spawn _, .error _ => true
| _, _ => false

/- A call that fails changes nothing. -/
def Proceeds (s : Machine) :
    (request : Request) → Answer request → Machine → Prop
| .act _, .error _, t => t = s
| .act action, .ok (), t => action.Ready s ∧ action.Effect s t
| .ask query, answer, t => query.Consistent s answer ∧ t = s
| .poll, .events true, t => t = { s with seeded := true }
| .poll, _, t => t = s
| .swapWipeStarted, before, t =>
    before = s.wipeStarted ∧
      t = { s with wipeStarted := true }
| .scrubDir path, _, t =>
    t = { s with scrubbed := locate path :: s.scrubbed }
| .spawn _, .error _, t => t = s
| .spawn launch, .ok _, t => launch.Ready s ∧ t = s

/- A call that was refused, and how. -/
structure Refusal where
  request : Request
  answer : Answer request

/- The machine, and what it has refused so far. -/
structure Session where
  machine : Machine
  refused : List Refusal

/- One call, after which it is known if it was refused. -/
def Possible
    (s : Session) (request : Request)
    (answer : Answer request) (t : Session) : Prop :=
  Proceeds s.machine request answer t.machine ∧
    t.refused =
      if refuses request answer then
        ⟨request, answer⟩ :: s.refused
      else
        s.refused

/-
  A call of a boot: the machine, the request, the answer.
-/
abbrev BootEvent := Calls.Event Session Request Answer

end Boot

end Guest

end CargoUnikernel
