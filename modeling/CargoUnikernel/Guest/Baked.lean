import CargoUnikernel.Guest.BuildScript
import CargoUnikernel.Guest.Firewall.Batch
import CargoUnikernel.Library.Fallible
import CargoUnikernel.Library.Numeral

/-
  How the guest reads its baked-in constants.

  A constant that cannot be read ends the boot: the guest
  wipes itself and powers off. The decoders are in the order
  in which the init runs them.

  Main declarations:
    * `Fatal`
    * `parsePairs`, `parsePathList`, `baked`
    * `appIds`, `resourceLimits`
    * `tmpfsData`, `parseRules`
    * `decodeConstants`
-/

------------------------------------------------------------
-- Pairs and Numbers
------------------------------------------------------------

namespace CargoUnikernel

namespace Guest

namespace Baked

open Fallible BuildScript Firewall

/- What `fatal_shutdown` is told. -/
inductive Fatal
| malformedPair (what : String) (pair : Text)
| notANumber (what : Constant) (bits : Nat)
| badAppIds
| tooLarge (what : Constant)
| malformedRule (entry : Text)
deriving DecidableEq

/- What ends the boot, or what was read. -/
abbrev Boot := Except Fatal

/- A pair without `=` is fatal. -/
def parsePair (what : String) (pair : Text) :
    Boot (Text × Text) :=
  match Text.splitOnce '=' pair with
  | some halves => .ok halves
  | none => .error (.malformedPair what pair)

/-
  Pairs are separated by `;`, and empty ones are skipped.
-/
def parsePairs (raw : Text) (what : String) :
    Boot (List (Text × Text)) :=
  (Text.entries ';' raw).mapM (parsePair what)

/- A list of paths, which have no value half. -/
def parsePathList (raw : Text) : List Text :=
  Text.entries ';' raw

/- An unsigned number of so many bits. -/
def baked (bits : Nat) (raw : Text) (what : Constant) :
    Boot Nat :=
  match Numeral.parse (2 ^ bits) raw with
  | some n => .ok n
  | none => .error (.notANumber what bits)

------------------------------------------------------------
-- Users, Limits and Sizes
------------------------------------------------------------

/- Neither root nor the reserved id of all ones. -/
def validateAppIds (uid gid : Nat) : Boot Unit :=
  reject
    ((uid = 0 ∨ uid = 2 ^ 32 - 1) ∨
      (gid = 0 ∨ gid = 2 ^ 32 - 1))
    .badAppIds

/- The ids of the app, which must not be root's. -/
def appIds (constant : Constant → Text) : Boot (Nat × Nat) := do
  let uid ← baked 32 (constant .appUid) .appUid
  let gid ← baked 32 (constant .appGid) .appGid
  validateAppIds uid gid
  .ok (uid, gid)

/- The bytes of a MiB. -/
def mib : Nat :=
  1024 * 1024

/- In bytes, as far as 64 bits can tell. -/
def limitMbBytes (raw : Text) (what : Constant) : Boot Nat := do
  let mb ← baked 64 raw what
  if mb * mib < 2 ^ 64 then
    .ok (mb * mib)
  else
    .error (.tooLarge what)

/- The limits of the app's process. -/
structure ResourceLimits where
  nofile : Nat
  nproc : Nat
  memlockBytes : Nat
  addressSpaceBytes : Nat
deriving DecidableEq

/- All four are read before any is set. -/
def resourceLimits (constant : Constant → Text) :
    Boot ResourceLimits := do
  let nofile ← baked 64 (constant .limitNofile) .limitNofile
  let nproc ← baked 64 (constant .limitNproc) .limitNproc
  let memlockBytes ←
    limitMbBytes (constant .limitMemlockMb) .limitMemlockMb
  let addressSpaceBytes ←
    limitMbBytes (constant .limitAsMb) .limitAsMb
  .ok
    { nofile := nofile
      nproc := nproc
      memlockBytes := memlockBytes
      addressSpaceBytes := addressSpaceBytes }

/- The options of a mount, sized in MiB. -/
def tmpfsData
    (constant : Constant → Text) (what : Constant)
    (rest : String) : Boot Text := do
  let mb ← baked 64 (constant what) what
  .ok
    ("size=".toList ++ Numeral.display mb ++ "m,".toList ++
      rest.toList)

------------------------------------------------------------
-- Firewall Rules
------------------------------------------------------------

/- The firewall knows two protocols. -/
def protocol? (name : Text) : Option UInt8 :=
  if name = "tcp".toList then
    some ipprotoTcp
  else if name = "udp".toList then
    some ipprotoUdp
  else
    none

/- A rule, unless some part of the entry is malformed. -/
def rule? (entry : Text) : Option Rule := do
  let halves ← Text.splitOnce ':' entry
  let protocol ← protocol? halves.1
  let ports := halves.2
  let ends := (Text.splitOnce '-' ports).getD (ports, ports)
  let firstPort ← Numeral.parse (2 ^ 16) ends.1
  let lastPort ← Numeral.parse (2 ^ 16) ends.2
  if firstPort = 0 ∨ lastPort < firstPort then
    none
  else
    some
      { protocol := protocol
        firstPort := UInt16.ofNat firstPort
        lastPort := UInt16.ofNat lastPort }

/- An entry that cannot be read is fatal. -/
def parseRule (entry : Text) : Boot Rule :=
  match rule? entry with
  | some rule => .ok rule
  | none => .error (.malformedRule entry)

/- The rules, in the order of the entries. -/
def parseRules (raw : Text) : Boot (List Rule) :=
  (Text.entries ';' raw).mapM parseRule

------------------------------------------------------------
-- The Boot
------------------------------------------------------------

/- The data of the mounts in memory. -/
structure Mounts where
  tmp : Text
  run : Text
  shm : Text
  varTmp : Text
deriving DecidableEq

/- The sizes of the mounts that are made at boot. -/
def prepareSystemEnv (constant : Constant → Text) :
    Boot Mounts := do
  let tmp ← tmpfsData constant .tmpfsTmpMb "mode=1777"
  let run ← tmpfsData constant .tmpfsRunMb "mode=0755"
  let shm ← tmpfsData constant .tmpfsShmMb "mode=1777"
  let varTmp ← tmpfsData constant .tmpfsVarTmpMb "mode=1777"
  .ok { tmp := tmp, run := run, shm := shm, varTmp := varTmp }

/- Two of them are mounted once more, without execution. -/
def lockdownFilesystem (constant : Constant → Text) :
    Boot (Text × Text) := do
  let tmp ← tmpfsData constant .tmpfsTmpMb "mode=1777"
  let run ← tmpfsData constant .tmpfsRunMb "mode=0755"
  .ok (tmp, run)

/- What the child is started with. -/
structure Child where
  limits : ResourceLimits
  ids : Nat × Nat
  env : List (Text × Text)
deriving DecidableEq

/- What is decoded when the app is started. -/
def spawnApp (constant : Constant → Text) : Boot Child := do
  let limits ← resourceLimits constant
  let ids ← appIds constant
  let env ← parsePairs (constant .appEnv) "[app.runtime].env"
  .ok { limits := limits, ids := ids, env := env }

/- Only a guest built with the firewall has rules to read. -/
def firewallRules
    (hasFirewall : Bool) (constant : Constant → Text) :
    Boot (List Rule) :=
  if hasFirewall then
    parseRules (constant .firewallRules)
  else
    .ok []

/- All that a boot decodes. -/
structure Decoded where
  rules : List Rule
  mounts : Mounts
  sysctls : List (Text × Text)
  child : Child
deriving DecidableEq

/- Everything that is decoded on the way to the app. -/
def decodeConstants
    (hasFirewall : Bool) (constant : Constant → Text) :
    Boot Decoded := do
  let _ ← appIds constant
  let rules ← firewallRules hasFirewall constant
  let mounts ← prepareSystemEnv constant
  let sysctls ←
    parsePairs (constant .extraSysctls)
      "[hardening].extra_sysctls"
  let _ ← lockdownFilesystem constant
  let child ← spawnApp constant
  .ok
    { rules := rules
      mounts := mounts
      sysctls := sysctls
      child := child }

end Baked

end Guest

end CargoUnikernel
