import CargoUnikernel.Guest.Boot.Main
import CargoUnikernel.Guest.Boot.Stages

/-
  What is asked of every call of a boot, and of its end.

  A call may be made only where its mounts let it succeed. A
  mount hides no other one, and what is mounted in memory is
  wiped later on. The packet filter is that of the image, and
  the app is started only on a machine that is sealed. What
  stops the boot must be explained: by a call that was
  refused, or by what the image was built with.

  Main declarations:
    * `Sealed`, `wiped`, `Allowed`
    * `Failure.Blames`, `Failure.Explained`, `Excused`
    * `Sound`, `At`
    * `sound_call`, `sound_attempt`, `sound_must`
-/

------------------------------------------------------------
-- Sealed Machines
------------------------------------------------------------

namespace CargoUnikernel

namespace Guest

namespace Boot

open Landlock (locate)
open Procedures

/- All that is at or beneath a directory is on such a mount. -/
def AllOn
    (table : Table) (dir : Path) (Good : Mount → Prop) :
    Prop :=
  ∀ path, dir <+: path →
    ∃ mount, MountTable.covering table path = some mount ∧
      Good mount

/- Neither root nor the id that the kernel reserves. -/
def IsUnprivileged (id : Nat) : Prop :=
  id ≠ 0 ∧ id ≠ 2 ^ 32 - 1

/-
  What the app is promised, and what the others are promised
  of the app. The root file system is as the kernel left it
  if it could not be made read-only.
-/
structure Sealed
    (image : Image) (launch : Launch) (s : Machine) :
    Prop where
  payload :
    AllOn s.mounts payloadRoot fun mount =>
      mount.target = payloadRoot ∧
        mount.flags =
          { readOnly := true
            noSuid := true
            noDev := true
            noExec := false }
  proc :
    AllOn s.mounts procDir fun mount =>
      mount.target = procDir ∧
        mount.kind = ⟨.proc, procRemountData image⟩
  sys :
    AllOn s.mounts sysDir fun mount =>
      mount.target = sysDir ∧ mount.flags.readOnly = true
  varTmp :
    AllOn s.mounts varTmpDir fun mount =>
      mount.target = varTmpDir ∧
        mount.kind.fstype = .tmpfs ∧
        mount.flags.noExec = true
  sized :
    ∃ data,
      Baked.prepareSystemEnv image.constant = .ok data ∧
        ∀ sized ∈
            [(tmpDir, data.tmp), (runDir, data.run),
              (shmDir, data.shm), (varTmpDir, data.varTmp)],
          AllOn s.mounts sized.1 fun mount =>
            mount.target = sized.1 ∧
              mount.kind = ⟨.tmpfs, sized.2⟩
  writeXorExecute :
    ∀ mount ∈ s.mounts,
      mount.flags.readOnly = false →
        mount.flags.noExec = false →
          (mount.target = [] ∧ s.rootSealed = false) ∨
            image.has .dangerAllowWriteExecute = true ∧
              (mount.target = tmpDir ∨ mount.target = varDir)
  noSuid :
    ∀ mount ∈ s.mounts,
      mount.flags.noSuid = true ∨ mount.target = []
  noDev :
    ∀ mount ∈ s.mounts,
      mount.flags.noDev = true ∨
        mount.target ∈ [[], devDir, ptsDir]
  filtered :
    image.has .firewall = true → s.filtered = true
  handlesSigterm : s.handlesSigterm = true
  seeded : s.seeded = true
  owned :
    ∀ dir ∈ [varDir, runDir],
      s.owner dir = some launch.child.ids
  isLaunch : launch = launchOf image appPath launch.child
  child : Baked.spawnApp image.constant = .ok launch.child
  unprivileged :
    IsUnprivileged launch.child.ids.1 ∧
      IsUnprivileged launch.child.ids.2

------------------------------------------------------------
-- Calls
------------------------------------------------------------

/- What the wipe zeroes. -/
def wiped (image : Image) : List Path :=
  (scrubbedDirs.map fun dir => locate dir.toList) ++
    if image.has .storagePersistent then [] else [varDir]

/-
  No mount is hidden, and no memory is left unwiped. Nothing
  is where `/etc` would be.
-/
structure MountsWell
    (image : Image) (table : Table) (fstype : FsType)
    (landed : Path) : Prop where
  hidesNone : ∀ mount ∈ table, ¬landed <+: mount.target
  isWiped : fstype = .tmpfs → landed ∈ wiped image
  isOffEtc : ¬landed <+: etcDir

/- What is scrubbed is wiped. -/
theorem mem_wiped
    {image : Image} {dir : String}
    (hMem : dir ∈ scrubbedDirs) :
    locate dir.toList ∈ wiped image := by
  apply List.mem_append_left
  exact List.mem_map_of_mem hMem

/- A mount is made well by tests that can be computed. -/
theorem mountsWell_of_all
    {image : Image} {table : Table} {fstype : FsType}
    {landed : Path}
    (hHides :
      table.all (fun mount =>
        !landed.isPrefixOf mount.target) = true)
    (hEtc : landed.isPrefixOf etcDir = false)
    (hWiped : fstype = .tmpfs → landed ∈ wiped image) :
    MountsWell image table fstype landed where
  hidesNone := by
    intro mount hMem
    have hMount := List.all_eq_true.1 hHides mount hMem
    rwa [Bool.not_eq_true', ← Bool.not_eq_true,
      List.isPrefixOf_iff_prefix] at hMount
  isWiped := hWiped
  isOffEtc := by
    rwa [← List.isPrefixOf_iff_prefix, Bool.not_eq_true]

/- What is asked besides that the call is ready. -/
def Request.Careful (image : Image) (s : Machine) :
    Request → Prop
| .act (.mount _ target fstype _ _) =>
    ∀ landed, s.LandsAt target landed →
      MountsWell image s.mounts fstype landed
| .act (.mountBind source target) =>
    ∀ from_ landed, s.Lands (locate source) from_ →
      s.Lands (locate target) landed →
        ∃ mount,
          MountTable.covering s.mounts from_ = some mount ∧
            MountsWell image s.mounts mount.kind.fstype landed
| .act (.createDirAll path) | .act (.createDir path) =>
    ∀ landed, s.LandsNoFollow (locate path) landed →
      landed ≠ etcDir
| .act (.unmount _) =>
    ∀ dir ∈ wiped image, dir ∈ s.scrubbed
| .act (.sendBatch batch) =>
    image.has .firewall = true ∧ ∃ rules,
      Baked.parseRules (image.constant .firewallRules) =
          .ok rules ∧
        Firewall.buildBatch (image.has .netIpv6) rules =
          .ok batch
| .spawn launch => Sealed image launch s
| _ => True

/- The call makes sense and takes care. -/
def Allowed
    (image : Image) (s : Machine) (request : Request) : Prop :=
  request.Ready image s ∧ request.Careful image s

------------------------------------------------------------
-- Failures
------------------------------------------------------------

/- All that the image was built with can be read. -/
def Image.Decodes (image : Image) : Prop :=
  ∃ decoded,
    Baked.decodeConstants (image.has .firewall)
        image.constant =
      .ok decoded

/- The call, and its errno, that a failure tells of. -/
def Failure.Blames (failure : Failure) (refusal : Refusal) :
    Prop :=
  match failure with
  | .firewallInstall errno =>
      ∃ batch, refusal = ⟨.act (.sendBatch batch), .error errno⟩
  | .mount target errno =>
      ∃ source place fstype flags data,
        refusal =
            ⟨.act (.mount source place fstype flags data),
              .error errno⟩ ∧
          (place = .path target ∨
            target = "/var/tmp".toList ∧
              ∃ directory, place = .fd directory)
  | .unsafeMountPoint path errno =>
      refusal = ⟨.act (.createDir path), .error errno⟩ ∨
        refusal = ⟨.ask (.openNoFollow path), .error errno⟩
  | .bindMount target errno =>
      ∃ source,
        refusal =
          ⟨.act (.mountBind source target), .error errno⟩
  | .remount target errno =>
      ∃ flags data,
        refusal =
          ⟨.act (.mountRemount target flags data),
            .error errno⟩
  | .inspectDevice errno =>
      refusal = ⟨.ask .deviceCarriesOurMarker, .error errno⟩
  | .formatDevice fatal =>
      refusal = ⟨.ask .wipeAndFormat, .error fatal⟩
  | .shutdownTriggers errno =>
      refusal = ⟨.act .signalSigterm, .error errno⟩ ∨
        ∃ path,
          refusal = ⟨.act (.setNonblocking path), .error errno⟩
  | .chown dir errno =>
      ∃ uid gid,
        refusal = ⟨.act (.chown dir uid gid), .error errno⟩
  | .openRandom =>
      refusal =
        ⟨.ask (.openFile "/dev/random".toList), false⟩
  | .pollRandom => refusal = ⟨.poll, .failed⟩
  | .appMissing => refusal = ⟨.ask (.fileExists appPath), false⟩
  | .appPermissions errno =>
      ∃ mode,
        refusal =
          ⟨.act (.setPermissions appPath mode), .error errno⟩
  | .baselineDenylist =>
      refusal = ⟨.ask .buildBaselineDenylist, false⟩
  | .landlock (.abiTooOld abi) =>
      ∃ found : Int,
        refusal = ⟨.ask .landlockAbi, found⟩ ∧
          isTooOld found = true ∧ found.toNat = abi
  | .landlock (.missingPath path) =>
      ∃ errno,
        refusal = ⟨.ask (.landlockOpen path), .error errno⟩
  | .landlockRuleset errno =>
      ∃ abi handled scopes,
        refusal =
          ⟨.act (.landlockCreateRuleset abi handled scopes),
            .error errno⟩
  | .landlockRule path errno =>
      ∃ access,
        refusal =
          ⟨.act (.landlockAddRule path access), .error errno⟩
  | .spawn errno =>
      ∃ launch, refusal = ⟨.spawn launch, .error errno⟩
  | .shutdownWatcher => refusal = ⟨.ask .spawnWatcher, false⟩
  | .baked _ | .firewallRuleset _ | .crngNotInitialized
  | .landlock (.nulInPath _) => False

/-
  Why the init gives up. The rules are always built into a
  batch, so they are never the reason.
-/
def Failure.Explained (image : Image) (s : Session) :
    Failure → Prop
| .baked _ => ¬image.Decodes
| .firewallRuleset _ => False
| .crngNotInitialized => s.machine.seeded = false
| .landlock (.nulInPath path) =>
    '\x00' ∈ path ∧
      ∃ rule ∈ landlockRules image payloadDir,
        rule.path = path
| failure => ∃ refusal ∈ s.refused, failure.Blames refusal

/- A boot is given up for a reason, and before the wipe. -/
def Excused (image : Image) : Stop → Session → Prop
| .waiting, _ => True
| .fatal failure, s =>
    failure.Explained image s ∧ s.machine.wipeStarted = false

------------------------------------------------------------
-- Sound Procedures
------------------------------------------------------------

/- What a boot may ask of the machine as it is. -/
def May
    (image : Image) (s : Session) (request : Request) : Prop :=
  Allowed image s.machine request

/- It keeps to all of this, from one kind of session on. -/
def Sound
    (image : Image) {α : Type} (Pre : Session → Prop)
    (proc : Init α) (Post : α → Session → Prop) : Prop :=
  Spec Possible (May image) Pre proc (Excused image) Post

/- The machine has come to this stage. -/
def At (table : Table) (marks : Marks) (s : Session) : Prop :=
  Stage table marks s.machine

/- If the answer was a refusal, it is known of. -/
def Told
    (request : Request) (answer : Answer request)
    (s : Session) : Prop :=
  refuses request answer = true →
    ⟨request, answer⟩ ∈ s.refused

section

variable {image : Image} {table : Table} {marks : Marks}
variable {α β : Type}

/- One call, by what is asked of it and what it does. -/
theorem sound_call
    {Pre : Session → Prop} {request : Request}
    {Post : Answer request → Session → Prop}
    (hAllowed : ∀ s, Pre s → Allowed image s.machine request)
    (hPost :
      ∀ s answer t, Pre s →
        Proceeds s.machine request answer t.machine →
          Told request answer t → Post answer t) :
    Sound image Pre (.perform request) Post := by
  apply spec_perform hAllowed
  rintro s answer t hPre ⟨hProceeds, hRefused⟩
  apply hPost s answer t hPre hProceeds
  intro hRefuses
  rw [hRefused, if_pos hRefuses]
  exact List.mem_cons_self

/- The stage is the same, whatever the answer was. -/
theorem sound_quiet
    {request : Request}
    (hQuiet : request.isQuiet = true)
    (hAllowed :
      ∀ s, Stage table marks s → Allowed image s request) :
    Sound image (At table marks) (.perform request)
      fun answer s =>
        At table marks s ∧ Told request answer s := by
  apply sound_call fun s => hAllowed s.machine
  intro s answer t hStage hProceeds hTold
  exact ⟨Stage.of_quiet hStage hQuiet hProceeds, hTold⟩

/- A boot may be given up with an excuse. -/
theorem sound_fatal
    {Pre : Session → Prop} {failure : Failure}
    {Post : α → Session → Prop}
    (hExcused :
      ∀ s, Pre s → Excused image (.fatal failure) s) :
    Sound image Pre (fatal failure) Post :=
  spec_stop hExcused

/- No call, and nothing changes. -/
theorem sound_pure
    {Pre : Session → Prop} {value : α}
    {Post : α → Session → Prop}
    (hPost : ∀ s, Pre s → Post value s) :
    Sound image Pre (pure value) Post :=
  spec_done hPost

/- A refusal that is blamed explains a failure. -/
theorem explained_of_blames
    {failure : Failure} {refusal : Refusal} {s : Session}
    (hMem : refusal ∈ s.refused)
    (hBlames : failure.Blames refusal) :
    failure.Explained image s := by
  cases failure with
  | baked error => exact hBlames.elim
  | firewallRuleset message => exact hBlames
  | crngNotInitialized => exact hBlames.elim
  | landlock error =>
      cases error with
      | nulInPath path => exact hBlames.elim
      | _ => exact ⟨refusal, hMem, hBlames⟩
  | _ => exact ⟨refusal, hMem, hBlames⟩

/- What was just refused is the reason. -/
theorem sound_blaming
    {request : Request} {answer : Answer request}
    {failure : Failure} {Post : α → Session → Prop}
    (hRefuses : refuses request answer = true)
    (hBlames : failure.Blames ⟨request, answer⟩) :
    Sound image
      (fun s => At table marks s ∧ Told request answer s)
      (fatal failure) Post := by
  apply sound_fatal
  rintro s ⟨hStage, hTold⟩
  exact ⟨explained_of_blames (hTold hRefuses) hBlames,
    hStage.unwiped⟩

/- An action whose failure is passed over. -/
theorem sound_attempt
    {action : Action} {Post : Session → Prop}
    (hAllowed :
      ∀ s, Stage table marks s → Allowed image s (.act action))
    (hFails : ∀ s, At table marks s → Post s)
    (hDone :
      ∀ s t : Session, Stage table marks s.machine →
        action.Effect s.machine t.machine → Post t) :
    Sound image (At table marks) (attempt action)
      fun _ => Post := by
  have hCall :
      Sound image (At table marks) (act action)
        fun _ => Post := by
    apply sound_call fun s => hAllowed s.machine
    intro s answer t hStage hProceeds _
    cases answer with
    | error errno =>
        apply hFails
        unfold At
        rwa [show t.machine = s.machine from hProceeds]
    | ok done => exact hDone s t hStage hProceeds.2
  apply spec_bind hCall
  intro _
  exact sound_pure fun _ hPost => hPost

/- A call that no one waits for the outcome of. -/
theorem sound_attempt_quiet
    {action : Action}
    (hQuiet : (Request.act action).isQuiet = true)
    (hAllowed :
      ∀ s, Stage table marks s →
        Allowed image s (.act action)) :
    Sound image (At table marks) (attempt action)
      fun _ => At table marks :=
  sound_attempt hAllowed (fun _ hStage => hStage)
    fun _ _ hStage => hStage.of_effect hQuiet

/- An action whose failure is fatal. -/
theorem sound_must
    {action : Action} {failure : Errno → Failure}
    {after : Table} {more : Marks}
    (hAllowed :
      ∀ s, Stage table marks s → Allowed image s (.act action))
    (hRefuses :
      ∀ errno, refuses (.act action) (.error errno) = true)
    (hBlames :
      ∀ errno,
        (failure errno).Blames ⟨.act action, .error errno⟩)
    (hDone :
      ∀ s t, Stage table marks s → action.Effect s t →
        Stage after more t) :
    Sound image (At table marks) (must action failure)
      fun _ => At after more := by
  have hCall :
      Sound image (At table marks) (act action)
        fun answer s =>
          (answer = .ok () → At after more s) ∧
            ∀ errno, answer = .error errno →
              At table marks s ∧
                Told (.act action) (.error errno) s := by
    apply sound_call fun s => hAllowed s.machine
    intro s answer t hStage hProceeds hTold
    cases answer with
    | error errno =>
        refine ⟨nofun, ?_⟩
        rintro other ⟨⟩
        refine ⟨?_, hTold⟩
        unfold At
        rwa [show t.machine = s.machine from hProceeds]
    | ok done =>
        exact ⟨fun _ => hDone _ _ hStage hProceeds.2, nofun⟩
  apply spec_bind hCall
  intro answer
  cases answer with
  | error errno =>
      apply spec_strengthen fun _ hBoth => hBoth.2 errno rfl
      exact sound_blaming (hRefuses errno) (hBlames errno)
  | ok done => exact sound_pure fun _ hBoth => hBoth.1 rfl

/- A constant that decodes is never fatal. -/
theorem sound_decode
    {result : Baked.Boot α}
    (hDecodes : image.Decodes → ∃ value, result = .ok value) :
    Sound image (At table marks) (decode result)
      fun value s => result = .ok value ∧ At table marks s := by
  apply spec_expect
  · intro value s hResult hStage
    exact ⟨hResult, hStage⟩
  · intro error s hResult hStage
    refine ⟨?_, Stage.unwiped hStage⟩
    intro hImage
    rcases hDecodes hImage with ⟨value, hValue⟩
    rw [hResult] at hValue
    cases hValue

end

end Boot

end Guest

end CargoUnikernel
