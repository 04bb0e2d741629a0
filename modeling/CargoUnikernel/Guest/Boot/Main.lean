import CargoUnikernel.Guest.Accounts
import CargoUnikernel.Guest.Boot.Services

/-
  The boot as a whole, and the wipe that a failure ends in.

  Main declarations:
    * `prepareSystemEnv`, `spawnApp`, `boot`
    * `wipeWritableState`, `withinDeadline`,
      `killWipeAndPowerOff`
    * `End`, `main`
-/

------------------------------------------------------------
-- The Boot
------------------------------------------------------------

namespace CargoUnikernel

namespace Guest

namespace Boot

open BuildScript (Constant)
open Procedures (Proc)

/- The init was built for some address family. -/
def hasNetwork (image : Image) : Bool :=
  image.has .netIpv4 || image.has .netIpv6

/- The mounts that everything else needs. -/
def prepareSystemEnv
    (image : Image) (payloadDir : Text) : Init Unit := do
  let tmpData ←
    decode
      (Baked.tmpfsData image.constant .tmpfsTmpMb "mode=1777")
  let runData ←
    decode
      (Baked.tmpfsData image.constant .tmpfsRunMb "mode=0755")
  let shmData ←
    decode
      (Baked.tmpfsData image.constant .tmpfsShmMb "mode=1777")
  forM (baseMounts image tmpData runData shmData) mountBase
  mountDevpts
  mountVar image
  mountVarTmp image
  bindPayload payloadDir
  .when (hasNetwork image) (initNetworking image)

/- The app may ask for attestation reports. -/
def exposeSevGuestDevice : Init Unit := do
  let present : Bool ←
    ask (.fileExists "/dev/sev-guest".toList)
  .when present
    (attempt (.setPermissions "/dev/sev-guest".toList 0o666))

/- The app is there, and it can be executed. -/
def prepareAppBinary (appPath : Text) : Init Unit := do
  let present : Bool ← ask (.fileExists appPath)
  if present then
    must (.setPermissions appPath 0o555) .appPermissions
  else
    fatal .appMissing

/- Where scratch files may be executed in a danger build. -/
def scratchDirs : List String :=
  ["/tmp", "/var", "/var/tmp", "/dev/shm"]

/-
  Scratch directories, for an app that may execute there.
-/
def withScratch
    (image : Image) (rule : Landlock.Rule) : Landlock.Rule :=
  if image.has .dangerAllowWriteExecute = true ∧
      rule.path ∈ scratchDirs.map String.toList then
    { rule with access := rule.access ||| Landlock.fsExecute }
  else
    rule

/- The rules, in the order they are added. -/
def landlockRules
    (image : Image) (payloadDir : Text) :
    List Landlock.Rule :=
  let extraRead :=
    Baked.parsePathList (image.constant .landlockRo)
  let extraReadWrite :=
    Baked.parsePathList (image.constant .landlockRw)
  (Landlock.builtinRules payloadDir (image.has .sevSnp)).map
      (withScratch image) ++
    extraRead.map (fun path =>
      Landlock.required path Landlock.readAccess) ++
    extraReadWrite.map fun path =>
      Landlock.required path Landlock.readWrite

/- An optional path that cannot be opened is passed over. -/
def addRule (rule : Landlock.Rule) : Init Unit := do
  if '\x00' ∈ rule.path then
    fatal (.landlock (.nulInPath rule.path))
  else
    let opened ← ask (.landlockOpen rule.path)
    match opened with
    | .error _ =>
        if rule.presence = .optional then
          pure ()
        else
          fatal (.landlock (.missingPath rule.path))
    | .ok kind =>
        must
          (.landlockAddRule rule.path
            (Landlock.maskFor kind rule.access))
          (.landlockRule rule.path)

/- Signals and abstract sockets are scoped where they can be. -/
def scopesFor (abi : Int) : UInt64 :=
  if abi ≥ 6 then 3 else 0

/- The ruleset, if the kernel's version is new enough. -/
def buildLandlock
    (image : Image) (payloadDir : Text) : Init Unit := do
  let abi : Int ← ask .landlockAbi
  if isTooOld abi then
    fatal (.landlock (.abiTooOld abi.toNat))
  else
    must
      (.landlockCreateRuleset abi
        (Landlock.handledAccessFs abi.toNat) (scopesFor abi))
      .landlockRuleset
    forM (landlockRules image payloadDir) addRule

/- How the app is started. -/
def launchOf
    (image : Image) (appPath : Text) (child : Baked.Child) :
    Launch where
  program := appPath
  child := child
  nullStdio := !image.has .appConsole
  mdwe := !image.has .dangerAllowWriteExecute
  landlocked := image.has .landlock

/- Everything is built before the fork. -/
def spawnApp
    (image : Image) (payloadDir appPath : Text) : Init Nat := do
  let built : Bool ← ask .buildBaselineDenylist
  if built then
    let limits ← decode (Baked.resourceLimits image.constant)
    .when (image.has .landlock) (buildLandlock image payloadDir)
    let ids ← decode (Baked.appIds image.constant)
    let env ←
      decode
        (Baked.parsePairs (image.constant .appEnv)
          "[app.runtime].env")
    let child : Baked.Child :=
      { limits := limits, ids := ids, env := env }
    let spawned ←
      Proc.perform
        (Request.spawn (launchOf image appPath child))
    .expect (fun errno => .fatal (.spawn errno)) spawned
  else
    fatal .baselineDenylist

/- The thread that waits for a shutdown. -/
def spawnWatcher : Init Unit := do
  let spawned : Bool ← ask .spawnWatcher
  if spawned then
    pure ()
  else
    fatal .shutdownWatcher

/- From the first message to the watchdog. -/
def boot (image : Image) (turns : Nat) : Init Nat := do
  let payloadDir := image.constant .payloadDir
  let appPath := image.constant .appPath
  let ids ← decode (Baked.appIds image.constant)
  attempt .setNotDumpable
  .when (image.has .firewall) do
    let rules ←
      decode (Baked.parseRules (image.constant .firewallRules))
    install image rules
  prepareSystemEnv image payloadDir
  armShutdownTriggers
  chownDirsForApp ids.1 ids.2
  writeEtc (Accounts.passwd ids.1 ids.2)
    (Accounts.group ids.2) (image.constant .nameservers)
    (image.constant .dnsSearch)
  let extraSysctls ←
    decode
      (Baked.parsePairs (image.constant .extraSysctls)
        "[hardening].extra_sysctls")
  applyHardening image extraSysctls
  waitForEntropy turns
  .when (image.has .sevSnp) exposeSevGuestDevice
  .when (image.has .netIpv6)
    (configureStaticIpv6 (image.constant .ipv6Static)
      (image.constant .ipv6Gateway)
      (image.constant .ipv6Iface))
  .when (hasNetwork image) (waitForNetworkSettle image turns)
  prepareAppBinary appPath
  lockdownFilesystem image payloadDir
  let appPid ← spawnApp image payloadDir appPath
  spawnWatcher
  pure appPid

------------------------------------------------------------
-- The Wipe
------------------------------------------------------------

/- Halting is what is left where powering off fails. -/
def forcePowerOff : Init Unit := do
  let off ← act (.reboot false)
  match off with
  | .ok () => pure ()
  | .error _ => attempt (.reboot true)

/- Children are reaped until none is left to be. -/
def reapAll : Nat → Init Unit
| 0 => .stop .waiting
| turns + 1 => do
    let reaped : Bool ← ask .reap
    if reaped then
      reapAll turns
    else
      pure ()

/- Until the deadline, reap and look for the app. -/
def exitTurns (deadline : Nat) : Nat → Init Unit
| 0 => .stop .waiting
| turns + 1 => do
    let now : Nat ← ask .now
    if now < deadline then
      reapAll turns
      let alive : Bool ← ask .testKill
      if alive then
        ask .sleep
        exitTurns deadline turns
      else
        pure ()
    else
      pure ()

/- Up to two seconds, in milliseconds. -/
def waitForProcessesToExit (turns : Nat) : Init Unit := do
  let start : Nat ← ask .now
  exitTurns (start + 2000) turns

/- All that is found is zeroed, as far as it can be. -/
def scrubDir (path : Text) : Init Unit := do
  let _ ← Proc.perform (Request.scrubDir path)
  pure ()

/- What is mounted over it comes before a directory. -/
def scrubbedDirs : List String :=
  ["/var/tmp", "/tmp", "/run", "/dev/shm"]

/- What is mounted below goes first. -/
def unmountVar : Init Unit := do
  attempt (.unmount "/var/tmp".toList)
  attempt (.unmount "/var".toList)

/- A persistent `/var` is unmounted as it is. -/
def wipeVar (image : Image) : Init Unit :=
  if image.has .storagePersistent then
    unmountVar
  else
    scrubDir "/var".toList

/- All that the app could write to. -/
def wipeWritableState (image : Image) : Init Unit := do
  forM scrubbedDirs fun dir => scrubDir dir.toList
  wipeVar image
  attempt .sync

/-
  While it runs, the thread that bounds the wipe can power
  off at any time: what is not done by then is never done.
-/
def withinDeadline (wipe : Init Unit) : Init Unit :=
  .unlessDue (ask .wipeDeadlineReached) () wipe

/-
  The wipe is for the first to come, and only if something
  is there to end it in time. Powering off is the last thing
  that happens, whichever of the two threads gets to it.
-/
def killWipeAndPowerOff
    (image : Image) (turns : Nat) : Init Unit := do
  let started : Bool ← Proc.perform Request.swapWipeStarted
  if started then
    forcePowerOff
  else
    let armed : Bool ← ask .armWipeDeadline
    if armed then
      withinDeadline do
        attempt .killAll
        waitForProcessesToExit turns
        wipeWritableState image
      forcePowerOff
    else
      forcePowerOff

/- How the init is left. -/
inductive End
| notInit
| watching (appPid : Nat)
| poweredOff (failure : Failure)

/- A wait that is not over stays so. -/
def fatalShutdown
    (image : Image) (turns : Nat) : Stop → Init End
| .waiting => .stop .waiting
| .fatal failure => do
    killWipeAndPowerOff image turns
    pure (.poweredOff failure)

/- The whole of the init, from its first call. -/
def main (image : Image) (turns : Nat) : Init End := do
  attempt .mlockall
  let pid : Nat ← ask .processId
  if pid ≠ 1 then
    pure .notInit
  else
    Proc.recover
      (do
        let appPid ← boot image turns
        pure (End.watching appPid))
      (fatalShutdown image turns)

end Boot

end Guest

end CargoUnikernel
