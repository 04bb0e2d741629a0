import CargoUnikernel.Guest.Boot.Obligations

/-
  The mounts of a boot, one after the other.

  Main declarations:
    * `Stage.mount`, `Stage.remount`
    * `Root`, `Layout`, `Layout.table`
    * `sound_mountBases`, `sound_mountVar`
    * `sound_mountVarTmp`, `sound_bindPayload`
    * `sound_lockdownFilesystem`
-/

------------------------------------------------------------
-- New Mounts
------------------------------------------------------------

namespace CargoUnikernel

namespace Guest

namespace Boot

open Landlock (locate)
open Procedures

section

variable {image : Image} {table : Table} {marks : Marks}
variable {s t : Machine}

/- Only what is mounted as the volume has names to follow. -/
theorem Stage.mount
    {source : Text} {target : Target} {fstype : FsType}
    {flags : MountFlags} {data : Option Text} {place : Path}
    (hStage : Stage table marks s)
    (hPlace : ∀ landed, s.LandsAt target landed → landed = place)
    (hVolume : fstype = .ext4 → place = varDir)
    (hEffect :
      (Action.mount source target fstype flags data).Effect s
        t) :
    Stage
      ({ target := place
         kind := ⟨fstype, data.getD []⟩
         flags := flags.toFlags } :: table)
      marks t := by
  rcases hEffect with ⟨landed, hLands, hEntries, hMounted⟩
  rw [hPlace landed hLands] at hEntries hMounted
  have hLinks : LinksOnVolume t := by
    intro link hLink
    by_cases hBeneath : place <+: link
    · rcases hEntries.2 link hBeneath hLink with ⟨hType, hNot⟩
      rw [hVolume hType] at hBeneath hNot
      exact ⟨hBeneath, hNot⟩
    · rw [hEntries.1 link hBeneath] at hLink
      exact hStage.links link hLink
  rw [hMounted]
  exact
    { hStage with
      mounts := by rw [hStage.mounts]
      links := hLinks }

/- The mount of the path has other flags. -/
theorem Stage.remount
    {target : Text} {flags : MountFlags} {data : Text}
    (hStage : Stage table marks s)
    (hOff : IsOffVolume (locate target))
    (hEffect :
      (Action.mountRemount target flags data).Effect s t) :
    Stage
      (MountTable.update (remounted flags data) table
        (locate target))
      { marks with
        rootSealed :=
          marks.rootSealed ||
            sealsRoot table (locate target) flags }
      t := by
  rcases hEffect with ⟨landed, hLands, hRemounted⟩
  rw [landed_eq hStage.links hOff hLands] at hRemounted
  rw [hRemounted]
  exact
    { hStage with
      mounts := by rw [hStage.mounts]
      rootSealed := by rw [hStage.rootSealed, hStage.mounts] }

end

------------------------------------------------------------
-- The First Mounts
------------------------------------------------------------

section

variable {image : Image} {table : Table} {marks : Marks}

/- What is in the table once it is mounted. -/
def BaseMount.mounted (base : BaseMount) : Mount where
  target := locate base.target.toList
  kind := ⟨base.fstype, base.data.getD []⟩
  flags := base.flags.toFlags

/- The entry can be mounted on top of a table. -/
structure BaseMount.Fits
    (image : Image) (table : Table) (base : BaseMount) :
    Prop where
  isVirtual : base.fstype ≠ .ext4
  isOffVolume : IsOffVolume base.mounted.target
  writable :
    Boot.writable table false base.mounted.target = true
  mountsWell :
    MountsWell image table base.fstype base.mounted.target

/- What is looked at of one of the first mounts. -/
theorem BaseMount.fits
    {base : BaseMount} {place : Path}
    (hPlace : locate base.target.toList = place)
    (hVirtual : base.fstype ≠ .ext4)
    (hOff : varDir.isPrefixOf place = false)
    (hWritable : Boot.writable table false place = true)
    (hHides :
      table.all (fun mount =>
        !place.isPrefixOf mount.target) = true)
    (hEtc : place.isPrefixOf etcDir = false)
    (hWiped :
      base.fstype = .tmpfs → base.target ∈ scrubbedDirs) :
    base.Fits image table := by
  subst hPlace
  refine ⟨hVirtual, isOffVolume_of_not_beneath hOff,
    hWritable, mountsWell_of_all hHides hEtc ?_⟩
  intro hMemory
  exact mem_wiped (hWiped hMemory)

/- Each one on top of those before it. -/
def AllFit (image : Image) : Table → List BaseMount → Prop
| _, [] => True
| table, base :: bases =>
    base.Fits image table ∧
      AllFit image (base.mounted :: table) bases

/- A directory that is made is another one than `/etc`. -/
theorem Stage.sparesEtc
    {s : Machine} {path landed : Path}
    (hStage : Stage table marks s)
    (hOff : IsOffVolume path.dropLast)
    (hEtc : ¬path <+: etcDir)
    (hLands : s.LandsNoFollow path landed) :
    landed ≠ etcDir := by
  rw [landedNoFollow_eq hStage.links hOff hLands]
  intro hSame
  exact hEtc (hSame ▸ List.prefix_rfl)

/- A directory where one can be made. -/
theorem sound_createDirAll
    {path : String}
    (hUnsealed : marks.rootSealed = false)
    (hOff : IsOffVolume (locate path.toList).dropLast)
    (hEtc : ¬locate path.toList <+: etcDir)
    (hWritable :
      writable table false (locate path.toList) = true) :
    Sound image (At table marks)
      (attempt (.createDirAll path.toList))
      fun _ => At table marks := by
  apply sound_attempt_quiet rfl
  intro s hStage
  rw [← hUnsealed] at hWritable
  refine ⟨hStage.writes hWritable, ?_⟩
  intro landed
  exact hStage.sparesEtc hOff hEtc

/- What can be written can be reached. -/
theorem reaches_of_writable
    {isSealed : Bool} {path : Path}
    (hWritable : writable table isSealed path = true) :
    reaches table path = true := by
  unfold writable at hWritable
  rw [Bool.and_eq_true] at hWritable
  exact hWritable.1

/- A mount that ends up where it should. -/
structure Mounts
    (image : Image) (table : Table) (marks : Marks)
    (source : Text) (target : Target) (fstype : FsType)
    (place : Path) : Prop where
  lands :
    ∀ s landed, Stage table marks s →
      s.LandsAt target landed → landed = place
  ready :
    ∀ s flags data, Stage table marks s →
      (Action.mount source target fstype flags data).Ready s
  isVolume : fstype = .ext4 → place = varDir
  mountsWell : MountsWell image table fstype place

section

variable {source : Text} {target : Target} {fstype : FsType}
variable {place : Path} {flags : MountFlags}
variable {data : Option Text}

/- The call is allowed at the stage. -/
theorem Mounts.allowed
    (hMounts :
      Mounts image table marks source target fstype place)
    {s : Machine} (hStage : Stage table marks s) :
    Allowed image s
      (.act (.mount source target fstype flags data)) := by
  refine ⟨hMounts.ready s flags data hStage, ?_⟩
  intro landed hLands
  rw [hMounts.lands s landed hStage hLands, hStage.mounts]
  exact hMounts.mountsWell

/- The stage has the new mount on top. -/
theorem Mounts.stage
    (hMounts :
      Mounts image table marks source target fstype place)
    {s t : Machine} (hStage : Stage table marks s)
    (hEffect :
      (Action.mount source target fstype flags data).Effect s
        t) :
    Stage
      ({ target := place
         kind := ⟨fstype, data.getD []⟩
         flags := flags.toFlags } :: table)
      marks t :=
  hStage.mount
    (fun landed => hMounts.lands s landed hStage)
    hMounts.isVolume hEffect

/- A mount is there, or the boot is given up. -/
theorem sound_mount
    {failure : Errno → Failure}
    (hMounts :
      Mounts image table marks source target fstype place)
    (hBlames :
      ∀ errno,
        (failure errno).Blames
          ⟨.act (.mount source target fstype flags data),
            .error errno⟩) :
    Sound image (At table marks)
      (must (.mount source target fstype flags data) failure)
      fun _ =>
        At
          ({ target := place
             kind := ⟨fstype, data.getD []⟩
             flags := flags.toFlags } :: table)
          marks :=
  sound_must (fun _ hStage => hMounts.allowed hStage)
    (fun _ => rfl) hBlames
    fun _ _ hStage => hMounts.stage hStage

end

/- Its directory is made before it. -/
theorem sound_mountBase
    {base : BaseMount}
    (hUnsealed : marks.rootSealed = false)
    (hFits : base.Fits image table) :
    Sound image (At table marks) (mountBase base)
      fun _ => At (base.mounted :: table) marks := by
  have hParent : IsOffVolume base.mounted.target.dropLast := by
    intro hVar
    have hAbove := hFits.isOffVolume
      (hVar.trans (List.dropLast_prefix _))
    rw [hAbove] at hVar
    cases List.prefix_nil.1 hVar
  apply spec_bind
    (sound_createDirAll hUnsealed hParent
      hFits.mountsWell.isOffEtc hFits.writable)
  intro _
  refine sound_mount ⟨?_, ?_, ?_, hFits.mountsWell⟩ ?_
  · intro s landed hStage hLands
    exact landed_eq hStage.links hFits.isOffVolume hLands
  · intro s flags data hStage
    refine ⟨?_, hStage.reaches ?_⟩
    · intro hVolume
      exact absurd hVolume hFits.isVirtual
    · exact reaches_of_writable hFits.writable
  · intro hVolume
    exact absurd hVolume hFits.isVirtual
  · intro errno
    exact ⟨_, _, _, _, _, rfl, .inl rfl⟩

/- By induction on the list, in its order. -/
theorem sound_mountBases
    {bases : List BaseMount}
    (hUnsealed : marks.rootSealed = false)
    (hFit : AllFit image table bases) :
    Sound image (At table marks) (forM bases mountBase)
      fun _ =>
        At
          (bases.foldl
            (fun table base => base.mounted :: table) table)
          marks := by
  induction bases generalizing table with
  | nil => exact sound_pure fun _ hStage => hStage
  | cons base bases ih =>
      rw [List.forM_cons]
      apply spec_bind (sound_mountBase hUnsealed hFit.1)
      intro _
      exact ih hFit.2

end

------------------------------------------------------------
-- Layouts
------------------------------------------------------------

/- The root file system, as it is found. -/
structure Root where
  options : Text
  noSuid : Bool
  noDev : Bool
  noExec : Bool

/- The root, as the kernel has mounted it. -/
def Root.mount (root : Root) : Mount where
  target := []
  kind := ⟨.rootfs, root.options⟩
  flags :=
    { readOnly := false
      noSuid := root.noSuid
      noDev := root.noDev
      noExec := root.noExec }

open MountFlags

/- All that two boots of an image can differ in. -/
structure Layout where
  root : Root
  data : Baked.Mounts
  pts : Bool
  sealedRoot : Bool
  sealedSys : Bool
  sealedProc : Bool
  sealedPayload : Bool

namespace Layout

/- Before anything is sealed. -/
def opened
    (root : Root) (data : Baked.Mounts) (pts : Bool) :
    Layout where
  root := root
  data := data
  pts := pts
  sealedRoot := false
  sealedSys := false
  sealedProc := false
  sealedPayload := false

/- The root, read-only once it is sealed. -/
def rootMount (l : Layout) : Mount :=
  if l.sealedRoot then
    ⟨[], ⟨.rootfs, []⟩, rdonly.toFlags⟩
  else
    l.root.mount

/- The process file system; the remount may hide more. -/
def procMount (image : Image) (l : Layout) : Mount where
  target := procDir
  kind :=
    ⟨.proc,
      if l.sealedProc then
        procRemountData image
      else
        "hidepid=2".toList⟩
  flags := nosuidNodevNoexec.toFlags

/- The device tree, read-only once it is sealed. -/
def sysMount (l : Layout) : Mount where
  target := sysDir
  kind := ⟨.sysfs, []⟩
  flags :=
    if l.sealedSys then
      (nosuidNodevNoexec.union rdonly).toFlags
    else
      nosuidNodevNoexec.toFlags

/- The devices, none of which is executed. -/
def devMount : Mount where
  target := devDir
  kind := ⟨.devtmpfs, []⟩
  flags := (nosuid.union noexec).toFlags

/- One of the file systems in memory. -/
def tmpMount (image : Image) (l : Layout) : Mount where
  target := tmpDir
  kind := ⟨.tmpfs, l.data.tmp⟩
  flags := (writableExecMountFlags image).toFlags

/- One of the file systems in memory. -/
def runMount (l : Layout) : Mount where
  target := runDir
  kind := ⟨.tmpfs, l.data.run⟩
  flags := nosuidNodevNoexec.toFlags

/- One of the file systems in memory. -/
def shmMount (l : Layout) : Mount where
  target := shmDir
  kind := ⟨.tmpfs, l.data.shm⟩
  flags := nosuidNodevNoexec.toFlags

/- The terminals. -/
def ptsMount : Mount where
  target := ptsDir
  kind := ⟨.devpts, "mode=0620,ptmxmode=0666".toList⟩
  flags := (nosuid.union noexec).toFlags

/- The volume, or memory in its place. -/
def varMount (image : Image) : Mount where
  target := varDir
  kind :=
    if image.has .storagePersistent then
      ⟨.ext4, []⟩
    else
      ⟨.tmpfs, "mode=0755".toList⟩
  flags := (writableExecMountFlags image).toFlags

/- In memory, whatever the volume is. -/
def varTmpMount (l : Layout) : Mount where
  target := varTmpDir
  kind := ⟨.tmpfs, l.data.varTmp⟩
  flags := nosuidNodevNoexec.toFlags

/- The app's files, read-only once they are sealed. -/
def payloadMount (l : Layout) : Mount where
  target := payloadRoot
  kind := ⟨.rootfs, l.root.options⟩
  flags :=
    if l.sealedPayload then
      (((msBind.union rdonly).union nosuid).union nodev).toFlags
    else
      ((msBind.union nosuid).union nodev).toFlags

/- The mounts that no boot goes without. -/
def firstMounts (image : Image) (l : Layout) : Table :=
  [l.shmMount, l.runMount, l.tmpMount image, devMount,
    l.sysMount, l.procMount image, l.rootMount]

/- A terminal is no part of it if it could not be had. -/
def deviceMounts (image : Image) (l : Layout) : Table :=
  if l.pts then
    ptsMount :: l.firstMounts image
  else
    l.firstMounts image

/- And the volume on top of them. -/
def withVar (image : Image) (l : Layout) : Table :=
  varMount image :: l.deviceMounts image

/- And what is below the volume. -/
def withVarTmp (image : Image) (l : Layout) : Table :=
  l.varTmpMount :: l.withVar image

/- All the mounts of a boot. -/
def table (image : Image) (l : Layout) : Table :=
  l.payloadMount :: l.withVarTmp image

end Layout

------------------------------------------------------------
-- Up to the Payload
------------------------------------------------------------

section

variable {image : Image} {marks : Marks}
variable {root : Root} {data : Baked.Mounts} {pts : Bool}

open Layout

/- None of the first mounts hides another. -/
theorem allFit_baseMounts
    (root : Root) (tmp run shm : Text) :
    AllFit image [root.mount]
      (baseMounts image tmp run shm) := by
  simp only [baseMounts, AllFit, BaseMount.mounted,
    locate_proc, locate_sys, locate_dev, locate_tmp,
    locate_run]
  refine ⟨?_, ?_, ?_, ?_, ?_, ?_, trivial⟩
  · exact BaseMount.fits locate_proc nofun rfl rfl rfl rfl nofun
  · exact BaseMount.fits locate_sys nofun rfl rfl rfl rfl nofun
  · exact BaseMount.fits locate_dev nofun rfl rfl rfl rfl nofun
  · refine BaseMount.fits locate_tmp nofun rfl rfl rfl rfl ?_
    simp [scrubbedDirs]
  · refine BaseMount.fits locate_run nofun rfl rfl rfl rfl ?_
    simp [scrubbedDirs]
  · refine BaseMount.fits locate_shm nofun rfl rfl rfl rfl ?_
    simp [scrubbedDirs]

/- All of the first mounts. -/
theorem sound_baseMounts
    (hUnsealed : marks.rootSealed = false)
    (tmp run shm : Text) :
    Sound image (At [root.mount] marks)
      (forM (baseMounts image tmp run shm) mountBase)
      fun _ =>
        At
          ((opened root ⟨tmp, run, shm, []⟩ false).deviceMounts
            image)
          marks := by
  have hMounted :
      (baseMounts image tmp run shm).foldl
          (fun table base => base.mounted :: table)
          [root.mount] =
        (opened root ⟨tmp, run, shm, []⟩ false).deviceMounts
          image := by
    simp only [baseMounts, BaseMount.mounted, locate_proc,
      locate_sys, locate_dev, locate_tmp, locate_run,
      locate_shm, List.foldl_cons, List.foldl_nil]
    rfl
  rw [← hMounted]
  exact sound_mountBases hUnsealed
    (allFit_baseMounts root tmp run shm)

/- The terminals are there or not. -/
theorem sound_mountDevpts
    (hUnsealed : marks.rootSealed = false) :
    Sound image
      (At ((opened root data false).deviceMounts image) marks)
      mountDevpts
      fun _ s =>
        ∃ pts,
          At ((opened root data pts).deviceMounts image) marks
            s := by
  have hMounts :
      Mounts image
        ((opened root data false).deviceMounts image) marks
        "devpts".toList (.path "/dev/pts".toList) .devpts
        ptsDir := by
    refine ⟨?_, ?_, nofun, mountsWell_of_all rfl rfl nofun⟩
    · intro s landed hStage hLands
      apply landed_eq hStage.links _ hLands
      exact isOffVolume_of_not_beneath rfl
    · intro s flags data hStage
      exact ⟨nofun, hStage.reaches rfl⟩
  unfold mountDevpts
  refine spec_bind (sound_attempt_quiet rfl ?_) ?_
  · intro s hStage
    refine ⟨hStage.writes ?_, ?_⟩
    · rw [hUnsealed]
      rfl
    · intro landed
      exact hStage.sparesEtc (isOffVolume_of_not_beneath rfl)
        (by decide)
  · intro _
    apply sound_attempt fun s => hMounts.allowed
    · intro s hStage
      exact ⟨false, hStage⟩
    · intro s t hStage hEffect
      exact ⟨true, hMounts.stage hStage hEffect⟩

/- A name of a device, or of anything else beneath it. -/
theorem reaches_vda :
    reaches ((opened root data pts).deviceMounts image)
      (locate "/dev/vda".toList) = true := by
  cases pts
  · rfl
  · rfl

/- Either kind of volume can be mounted. -/
theorem mounts_var
    {source : Text} {fstype : FsType}
    (hSource :
      fstype = .ext4 → locate source = locate "/dev/vda".toList)
    (hWiped :
      fstype = .tmpfs → image.has .storagePersistent = false) :
    Mounts image ((opened root data pts).deviceMounts image)
      marks source (.path "/var".toList) fstype varDir := by
  refine ⟨?_, ?_, fun _ => rfl, ?_⟩
  · intro s landed hStage hLands
    exact landed_eq hStage.links (fun _ => locate_var) hLands
  · intro s flags data hStage
    refine ⟨?_, ?_⟩
    · intro hVolume
      rw [hSource hVolume]
      exact hStage.reaches reaches_vda
    · apply hStage.reaches
      cases pts
      · rfl
      · rfl
  · refine mountsWell_of_all ?_ rfl ?_
    · cases pts
      · rfl
      · rfl
    · intro hMemory
      unfold wiped
      rw [hWiped hMemory]
      exact List.mem_append_right _ List.mem_cons_self

/- A device of another's is formatted, or the boot ends. -/
theorem sound_mountPersistentVar
    (hPersistent : image.has .storagePersistent = true) :
    Sound image
      (At ((opened root data pts).deviceMounts image) marks)
      (mountPersistentVar image)
      fun _ =>
        At (withVar image (opened root data pts)) marks := by
  have hReady :
      ∀ s,
        Stage ((opened root data pts).deviceMounts image) marks
            s →
          s.Reaches (locate "/dev/vda".toList) := by
    intro s hStage
    exact hStage.reaches reaches_vda
  unfold mountPersistentVar
  refine spec_bind
    (sound_quiet rfl fun s hStage => ⟨hReady s hStage, trivial⟩)
    ?_
  intro marker
  cases marker with
  | error errno => exact sound_blaming rfl rfl
  | ok ours =>
      rw [Proc.expect_ok_bind]
      refine spec_strengthen (fun _ hBoth => hBoth.1) ?_
      refine spec_bind (spec_when ?_ fun _ _ hStage => hStage)
        ?_
      · intro _
        refine spec_bind
          (sound_quiet rfl
            fun s hStage => ⟨hReady s hStage, trivial⟩) ?_
        intro formatted
        cases formatted with
        | error fatal => exact sound_blaming rfl rfl
        | ok done =>
            exact sound_pure fun _ hBoth => hBoth.1
      · intro _
        have hVar :
            varMount image =
              { target := varDir
                kind := ⟨.ext4, []⟩
                flags :=
                  (writableExecMountFlags image).toFlags } := by
          unfold varMount
          rw [hPersistent]
          rfl
        unfold withVar
        rw [hVar]
        refine sound_mount (mounts_var (fun _ => rfl) nofun) ?_
        intro errno
        exact ⟨_, _, _, _, _, rfl, .inl rfl⟩

/- The volume is there, of whatever kind. -/
theorem sound_mountVar
    (hUnsealed : marks.rootSealed = false) :
    Sound image
      (At ((opened root data pts).deviceMounts image) marks)
      (mountVar image)
      fun _ =>
        At (withVar image (opened root data pts)) marks := by
  unfold mountVar
  refine spec_bind
    (sound_createDirAll hUnsealed
      (isOffVolume_of_not_beneath rfl) (by decide) ?_) ?_
  · cases pts
    · rfl
    · rfl
  · intro _
    by_cases hPersistent : image.has .storagePersistent = true
    · rw [if_pos hPersistent]
      exact sound_mountPersistentVar hPersistent
    · rw [if_neg hPersistent]
      have hPersistent := Bool.eq_false_iff.2 hPersistent
      have hVar :
          varMount image =
            { target := varDir
              kind := ⟨.tmpfs, "mode=0755".toList⟩
              flags :=
                (writableExecMountFlags image).toFlags } := by
        unfold varMount
        rw [hPersistent]
        rfl
      unfold withVar
      rw [hVar]
      refine sound_mount
        (mounts_var nofun fun _ => hPersistent) ?_
      intro errno
      exact ⟨_, _, _, _, _, rfl, .inl rfl⟩

------------------------------------------------------------
-- Beneath the Volume
------------------------------------------------------------

/- The volume can be written, whatever is stored on it. -/
theorem writable_withVar :
    writable (withVar image (opened root data pts)) false
      varTmpDir = true := by
  unfold withVar varMount writableExecMountFlags
  cases image.has .storagePersistent
  · cases image.has .dangerAllowWriteExecute
    · rfl
    · rfl
  · cases image.has .dangerAllowWriteExecute
    · rfl
    · rfl

/- A directory that is there is one too. -/
theorem sound_createMountPoint
    {table : Table} {path : Text}
    (hUnsealed : marks.rootSealed = false)
    (hParent : IsOffVolume (locate path).dropLast)
    (hEtc : ¬locate path <+: etcDir)
    (hWritable : writable table false (locate path) = true) :
    Sound image (At table marks) (createMountPoint path)
      fun _ => At table marks := by
  unfold createMountPoint
  refine spec_bind (sound_quiet rfl ?_) ?_
  · intro s hStage
    refine ⟨hStage.writes ?_, ?_⟩
    · rwa [hUnsealed]
    · intro landed
      exact hStage.sparesEtc hParent hEtc
  · intro created
    cases created with
    | ok done => exact sound_pure fun _ hBoth => hBoth.1
    | error errno =>
        apply spec_when
        · intro hOther
          exact sound_blaming hOther (.inl rfl)
        · intro s _ hBoth
          exact hBoth.1

/-
  The directory that is opened is the one that is named: a
  link in its place is refused, and none comes before it.
-/
theorem sound_prepareMountDirectory
    {table : Table} {path : Text}
    (hUnsealed : marks.rootSealed = false)
    (hParent : IsOffVolume (locate path).dropLast)
    (hEtc : ¬locate path <+: etcDir)
    (hWritable : writable table false (locate path) = true) :
    Sound image (At table marks) (prepareMountDirectory path)
      fun directory s =>
        directory = locate path ∧ At table marks s := by
  unfold prepareMountDirectory
  refine spec_bind
    (sound_createMountPoint hUnsealed hParent hEtc hWritable)
    ?_
  intro _
  have hOpen :
      Sound image (At table marks) (ask (.openNoFollow path))
        fun opened s =>
          (∀ directory, opened = .ok directory →
            directory = locate path) ∧
            At table marks s ∧
              Told (.ask (.openNoFollow path)) opened s := by
    apply sound_call
    · intro s hStage
      refine ⟨hStage.reaches ?_, trivial⟩
      exact reaches_of_writable hWritable
    · intro s opened t hStage hProceeds hTold
      refine ⟨?_, Stage.of_quiet hStage rfl hProceeds, hTold⟩
      rintro directory rfl
      exact landedNoFollow_eq hStage.links hParent
        hProceeds.1.2
  refine spec_bind hOpen ?_
  intro opened
  cases opened with
  | error errno =>
      refine spec_strengthen (fun _ hAll => hAll.2) ?_
      exact sound_blaming rfl (.inr rfl)
  | ok directory =>
      apply sound_pure
      rintro s ⟨hSame, hStage, _⟩
      exact ⟨hSame directory rfl, hStage⟩

/- Its own file system, whatever the volume has there. -/
theorem sound_mountVarTmp
    (hUnsealed : marks.rootSealed = false)
    (hDecodes :
      image.Decodes →
        ∃ value,
          Baked.tmpfsData image.constant .tmpfsVarTmpMb
              "mode=1777" =
            .ok value) :
    Sound image
      (At (withVar image (opened root data pts)) marks)
      (mountVarTmp image)
      fun _ s =>
        ∃ varTmp,
          Baked.tmpfsData image.constant .tmpfsVarTmpMb
              "mode=1777" =
            .ok varTmp ∧
          At
            (withVarTmp image
              (opened root { data with varTmp := varTmp }
                pts))
            marks s := by
  unfold mountVarTmp
  refine spec_bind
    (sound_prepareMountDirectory hUnsealed (fun _ => rfl)
      (by decide) writable_withVar) ?_
  intro directory
  apply spec_given
  rintro rfl
  refine spec_bind (sound_decode hDecodes) ?_
  intro varTmp
  apply spec_given
  intro hVarTmp
  have hMounts :
      Mounts image (withVar image (opened root data pts)) marks
        "tmpfs".toList (.fd (locate "/var/tmp".toList)) .tmpfs
        varTmpDir := by
    refine ⟨?_, ?_, nofun, ?_⟩
    · intro s landed _ hLands
      exact hLands
    · intro s flags data hStage
      refine ⟨nofun, hStage.reaches ?_⟩
      cases pts
      · rfl
      · rfl
    · refine mountsWell_of_all ?_ rfl ?_
      · cases pts
        · rfl
        · rfl
      · intro _
        exact mem_wiped (.head _)
  refine spec_consequence (fun _ hStage => hStage)
    (sound_mount hMounts ?_) ?_
  · intro errno
    exact ⟨_, _, _, _, _, rfl, .inr ⟨rfl, _, rfl⟩⟩
  · intro _ s hStage
    exact ⟨varTmp, hVarTmp, hStage⟩

------------------------------------------------------------
-- Remounts
------------------------------------------------------------

/- A mount point is remounted under its own name. -/
theorem sound_remount
    {table after : Table} {target data : Text}
    {flags : MountFlags} {place : Path}
    (hPlace : locate target = place)
    (hOff : IsOffVolume place)
    (hPoint : MountTable.IsMountPoint table place)
    (hSeals : sealsRoot table place flags = false)
    (hAfter :
      MountTable.update (remounted flags data) table place =
        after) :
    Sound image (At table marks)
      (must (.mountRemount target flags data)
        (.remount target))
      fun _ => At after marks := by
  subst hPlace hAfter
  apply sound_must
  · intro s hStage
    refine ⟨?_, trivial⟩
    rw [← hStage.mounts] at hPoint
    exact hPoint
  · intro errno
    rfl
  · intro errno
    exact ⟨_, _, rfl⟩
  · intro s t hStage hEffect
    have hAfter := hStage.remount hOff hEffect
    rwa [hSeals, Bool.or_false] at hAfter

/- The payload becomes a mount of its own. -/
theorem Stage.bindPayload
    {table : Table} {mount : Mount} {s t : Machine}
    (hStage : Stage table marks s)
    (hCovering :
      MountTable.covering table payloadRoot = some mount)
    (hEffect :
      (Action.mountBind Boot.payloadDir Boot.payloadDir).Effect
        s t) :
    Stage ({ mount with target := payloadRoot } :: table) marks
      t := by
  have hOff : IsOffVolume (locate Boot.payloadDir) :=
    isOffVolume_of_not_beneath rfl
  rcases hEffect with ⟨from_, landed, hFrom, hLands, hBound⟩
  rw [landed_eq hStage.links hOff hFrom,
    landed_eq hStage.links hOff hLands, locate_payloadDir]
    at hBound
  have hEntry : t.entry = s.entry := by
    rw [hBound]
    funext path
    dsimp only
    split
    · next hBeneath =>
        rcases List.isPrefixOf_iff_prefix.1 hBeneath with
          ⟨rest, rfl⟩
        rw [List.drop_left]
    · rfl
  have hMounts :
      MountTable.bind s.mounts payloadRoot payloadRoot =
        { mount with target := payloadRoot } :: table := by
    unfold MountTable.bind
    rw [hStage.mounts, hCovering]
  have hLinks : LinksOnVolume t := by
    unfold LinksOnVolume
    rw [hEntry]
    exact hStage.links
  rw [hBound] at hLinks ⊢
  exact
    { hStage with
      mounts := hMounts
      links := hLinks }

/- The app's files are on the root before. -/
theorem sound_bindMount :
    Sound image
      (At (withVarTmp image (opened root data pts)) marks)
      (must (.mountBind Boot.payloadDir Boot.payloadDir)
        (.bindMount Boot.payloadDir))
      fun _ =>
        At
          ({ root.mount with target := payloadRoot } ::
            withVarTmp image (opened root data pts))
          marks := by
  have hCovering :
      MountTable.covering
          (withVarTmp image (opened root data pts))
          payloadRoot =
        some root.mount := by
    cases pts
    · rfl
    · rfl
  have hHides :
      (withVarTmp image (opened root data pts)).all
          (fun mount =>
            !payloadRoot.isPrefixOf mount.target) =
        true := by
    cases pts
    · rfl
    · rfl
  have hReaches :
      reaches (withVarTmp image (opened root data pts))
          payloadRoot =
        true := by
    cases pts
    · rfl
    · rfl
  have hOff : IsOffVolume (locate Boot.payloadDir) :=
    isOffVolume_of_not_beneath rfl
  apply sound_must
  · intro s hStage
    refine ⟨⟨hStage.reaches hReaches,
      hStage.reaches hReaches⟩, ?_⟩
    intro from_ landed hFrom hLands
    rw [landed_eq hStage.links hOff hFrom,
      landed_eq hStage.links hOff hLands, hStage.mounts]
    exact ⟨_, hCovering, mountsWell_of_all hHides rfl nofun⟩
  · intro errno
    rfl
  · intro errno
    exact ⟨_, rfl⟩
  · intro s t hStage hEffect
    exact hStage.bindPayload hCovering hEffect

/- And in a mount of their own after. -/
theorem sound_bindPayload :
    Sound image
      (At (withVarTmp image (opened root data pts)) marks)
      (bindPayload Boot.payloadDir)
      fun _ =>
        At ((opened root data pts).table image) marks := by
  apply spec_bind sound_bindMount
  intro _
  exact sound_remount locate_payloadDir
    (isOffVolume_of_not_beneath rfl) ⟨_, rfl, rfl⟩ rfl rfl

------------------------------------------------------------
-- Lockdown
------------------------------------------------------------

section

variable {l : Layout}

/- One mark of the layout is set by each remount. -/
theorem sound_remountSys :
    Sound image (At (l.table image) marks)
      (must
        (.mountRemount "/sys".toList
          (nosuidNodevNoexec.union rdonly) [])
        (.remount "/sys".toList))
      fun _ =>
        At (({ l with sealedSys := true }).table image)
          marks := by
  rcases l with ⟨root, data, pts, _, _, _, _⟩
  have hOff : IsOffVolume sysDir :=
    isOffVolume_of_not_beneath rfl
  cases pts
  · exact sound_remount locate_sys hOff ⟨_, rfl, rfl⟩ rfl rfl
  · exact sound_remount locate_sys hOff ⟨_, rfl, rfl⟩ rfl rfl

/- The root file system is sealed, or left as it is. -/
theorem sound_sealRootfs
    (hRoot : l.sealedRoot = false)
    (hUnsealed : marks.rootSealed = false) :
    Sound image (At (l.table image) marks) sealRootfs
      fun _ s =>
        ∃ isSealed,
          At
            (({ l with sealedRoot := isSealed }).table image)
            { marks with rootSealed := isSealed } s := by
  rcases l with ⟨root, data, pts, _, _, _, _⟩
  subst hRoot
  have hOff : IsOffVolume (locate "/".toList) :=
    isOffVolume_of_not_beneath rfl
  apply sound_attempt
  · intro s hStage
    refine ⟨?_, trivial⟩
    have hPoint := hStage.mounts
    unfold Request.Ready Action.Ready
    rw [hPoint]
    cases pts
    · exact ⟨_, rfl, rfl⟩
    · exact ⟨_, rfl, rfl⟩
  · intro s hStage
    have hMark := Stage.rootSealed hStage
    rw [hUnsealed] at hMark
    exact ⟨false, { hStage with rootSealed := hMark }⟩
  · intro s t hStage hEffect
    refine ⟨true, ?_⟩
    have hAfter := hStage.remount hOff hEffect
    rw [hUnsealed, Bool.false_or] at hAfter
    cases pts
    · exact hAfter
    · exact hAfter

theorem sound_remountProc :
    Sound image (At (l.table image) marks)
      (must
        (.mountRemount "/proc".toList nosuidNodevNoexec
          (procRemountData image))
        (.remount "/proc".toList))
      fun _ =>
        At (({ l with sealedProc := true }).table image)
          marks := by
  rcases l with ⟨root, data, pts, _, _, _, _⟩
  have hOff : IsOffVolume procDir :=
    isOffVolume_of_not_beneath rfl
  cases pts
  · exact sound_remount locate_proc hOff ⟨_, rfl, rfl⟩ rfl rfl
  · exact sound_remount locate_proc hOff ⟨_, rfl, rfl⟩ rfl rfl

theorem sound_remountPayload :
    Sound image (At (l.table image) marks)
      (must
        (.mountRemount Boot.payloadDir
          (((msBind.union rdonly).union nosuid).union nodev)
          [])
        (.remount Boot.payloadDir))
      fun _ =>
        At (({ l with sealedPayload := true }).table image)
          marks :=
  sound_remount locate_payloadDir
    (isOffVolume_of_not_beneath rfl) ⟨_, rfl, rfl⟩ rfl rfl

/- The flags are neither of a bind nor of a sealed mount. -/
theorem writableExecMountFlags_plain (image : Image) :
    (writableExecMountFlags image).bind = false ∧
      (writableExecMountFlags image).readOnly = false := by
  unfold writableExecMountFlags
  split
  · exact ⟨rfl, rfl⟩
  · exact ⟨rfl, rfl⟩

/- The sizes are the ones that were there. -/
theorem sound_remountTmp :
    Sound image (At (l.table image) marks)
      (must
        (.mountRemount "/tmp".toList (tmpRemountFlags image)
          l.data.tmp)
        (.remount "/tmp".toList))
      fun _ => At (l.table image) marks := by
  rcases l with ⟨root, sizes, pts, _, _, _, _⟩
  rcases writableExecMountFlags_plain image with
    ⟨hBind, hWritable⟩
  have hOff : IsOffVolume tmpDir :=
    isOffVolume_of_not_beneath rfl
  have hRemounted :
      remounted (tmpRemountFlags image) sizes.tmp =
        fun mount =>
          { mount with
            flags := (writableExecMountFlags image).toFlags
            kind :=
              { mount.kind with options := sizes.tmp } } := by
    funext mount
    unfold remounted tmpRemountFlags
    rw [hBind]
    rfl
  have hSeals (table : Table) :
      sealsRoot table tmpDir (tmpRemountFlags image) =
        false := by
    unfold sealsRoot tmpRemountFlags
    rw [hWritable, Bool.and_false, Bool.false_and]
  refine spec_consequence (fun _ hStage => hStage)
    (sound_remount locate_tmp hOff ?_ (hSeals _) rfl) ?_
  · cases pts
    · exact ⟨_, rfl, rfl⟩
    · exact ⟨_, rfl, rfl⟩
  · intro _ s hStage
    rw [hRemounted] at hStage
    cases pts
    · exact hStage
    · exact hStage

/- This one leaves its flags as they are. -/
theorem sound_remountRun :
    Sound image (At (l.table image) marks)
      (must
        (.mountRemount "/run".toList nosuidNodevNoexec
          l.data.run)
        (.remount "/run".toList))
      fun _ => At (l.table image) marks := by
  rcases l with ⟨root, sizes, pts, _, _, _, _⟩
  have hOff : IsOffVolume runDir :=
    isOffVolume_of_not_beneath rfl
  refine spec_consequence (fun _ hStage => hStage)
    (sound_remount locate_run hOff ?_ ?_ rfl) ?_
  · cases pts
    · exact ⟨_, rfl, rfl⟩
    · exact ⟨_, rfl, rfl⟩
  · rfl
  · intro _ s hStage
    cases pts
    · exact hStage
    · exact hStage

/- Everything but the root file system is sealed for sure. -/
structure Layout.IsSealed (l : Layout) : Prop where
  sys : l.sealedSys = true
  proc : l.sealedProc = true
  payload : l.sealedPayload = true

/- The data are those that each mount decodes. -/
theorem prepareSystemEnv_eq_ok
    {constant : BuildScript.Constant → Text}
    {data : Baked.Mounts}
    (hDecoded : Baked.prepareSystemEnv constant = .ok data) :
    Baked.tmpfsData constant .tmpfsTmpMb "mode=1777" =
        .ok data.tmp ∧
      Baked.tmpfsData constant .tmpfsRunMb "mode=0755" =
          .ok data.run ∧
        Baked.tmpfsData constant .tmpfsShmMb "mode=1777" =
            .ok data.shm ∧
          Baked.tmpfsData constant .tmpfsVarTmpMb
              "mode=1777" =
            .ok data.varTmp := by
  unfold Baked.prepareSystemEnv at hDecoded
  simp only [Fallible.bind_eq_ok_iff] at hDecoded
  rcases hDecoded with
    ⟨tmp, hTmp, run, hRun, shm, hShm, varTmp, hVarTmp, hSame⟩
  cases hSame
  exact ⟨hTmp, hRun, hShm, hVarTmp⟩

/- What is sealed at the end, whatever the root. -/
theorem sound_lockdownFilesystem
    (hRoot : l.sealedRoot = false)
    (hUnsealed : marks.rootSealed = false)
    (hDecoded :
      Baked.prepareSystemEnv image.constant = .ok l.data) :
    Sound image (At (l.table image) marks)
      (lockdownFilesystem image Boot.payloadDir)
      fun _ s =>
        ∃ last : Layout,
          (last.IsSealed ∧ last.data = l.data) ∧
            At (last.table image)
              { marks with rootSealed := last.sealedRoot }
              s := by
  rcases prepareSystemEnv_eq_ok hDecoded with ⟨hTmp, hRun, _⟩
  unfold lockdownFilesystem decode
  rw [hTmp, hRun]
  refine spec_bind sound_remountSys ?_
  intro _
  refine spec_bind (sound_sealRootfs hRoot hUnsealed) ?_
  intro _
  refine spec_exists ?_
  intro isSealed
  refine spec_bind sound_remountProc ?_
  intro _
  refine spec_bind sound_remountPayload ?_
  intro _
  let last : Layout :=
    ⟨l.root, l.data, l.pts, isSealed, true, true, true⟩
  rw [Proc.expect_ok_bind]
  refine spec_bind (@sound_remountTmp image _ last) ?_
  intro _
  rw [Proc.expect_ok_bind]
  refine spec_consequence (fun _ hStage => hStage)
    (@sound_remountRun image _ last) ?_
  intro _ s hStage
  exact ⟨last, ⟨⟨rfl, rfl, rfl⟩, rfl⟩, hStage⟩

end

end

end Boot

end Guest

end CargoUnikernel
