import CargoUnikernel.Pipeline.Artifacts
import Mathlib.Data.Set.Basic

/-
  What a script needs to find when it starts.

  A script needs what it reads before it has written it. It
  writes every file that is shared between the builds of a
  user before it reads it, so it needs nothing but the files
  of its project, its fragment of the kernel configuration,
  and the digest of the firmware where it measures none.

  Main declarations:
    * `Command.mayRead`, `Command.overwrites`
    * `needs`, `not_mem_needs_of_split`
    * `atTheEnd`, `kept`
    * `needs_generateBuildScript`
-/

------------------------------------------------------------
-- Commands
------------------------------------------------------------

namespace CargoUnikernel

namespace Pipeline

open Schema Interference Fallible

namespace Command

variable {tools : Tools} {toolchain : Toolchain}

/- What it reads where there is nothing yet, which is most. -/
def mayRead (command : Command) : List Path :=
  command.reads fun _ => none

/- What is read is among what may be. -/
theorem reads_subset_mayRead
    (view : View) (command : Command) :
    command.reads view ⊆ command.mayRead := by
  cases command with
  | copyUnlessExists src dst =>
      simp only [reads, mayRead]
      split
      · simp
      · simp
  | _ => exact List.Subset.refl _

/- What it writes whatever there was, if it succeeds. -/
def overwrites : Command → List Path
| .install _ _ | .installMke2fs | .chmodFiles _ _
| .chmodDirs _ | .touchRootfs | .copyUnlessExists _ _ => []
| command => command.targets

/- All of the old root file system is overwritten. -/
theorem written_freshRootfsWrites :
    freshRootfs.targets ⊆ written freshRootfsWrites := by
  intro path hMem
  simp only [targets, List.mem_append, List.mem_map] at hMem
  unfold written freshRootfsWrites
  rw [List.map_append, List.mem_append]
  have hEntry (entry : RootfsEntry) :
      ∀ path ∈ [Path.rootfsMode entry, .rootfsTime entry],
        path ∈
          (rootfsEntries.flatMap fun entry =>
            if entry ∈ freshDirs.map .dir then
              [(Path.rootfsMode entry,
                  some (Content.mode none)),
                (.rootfsTime entry, some (.time false))]
            else
              [(.rootfsMode entry, none),
                (.rootfsTime entry, none)]).map Prod.fst := by
    intro path hPath
    rw [List.map_flatMap, List.mem_flatMap]
    refine ⟨entry, mem_rootfsEntries entry, ?_⟩
    split
    · exact hPath
    · exact hPath
  rcases hMem with
    ⟨file, _, rfl⟩ | ⟨entry, _, rfl⟩ | ⟨entry, _, rfl⟩
  · left
    rw [List.map_map]
    exact List.mem_map_of_mem (mem_rootfsFiles file)
  · exact Or.inr (hEntry entry _ (by simp))
  · exact Or.inr (hEntry entry _ (by simp))

/- What is made is written. -/
theorem mem_written_produce
    {dst : Path} {content : Option Content}
    (hOk : (Effect.produce dst content).ok = true) :
    dst ∈ written (Effect.produce dst content).writes := by
  cases content with
  | none => cases hOk
  | some content => exact List.mem_cons_self

/- A command that succeeds has written these. -/
theorem mem_written_of_overwrites
    {view : View} {command : Command} {path : Path}
    (hOk : (command.effect tools toolchain view).ok = true)
    (hMem : path ∈ command.overwrites) :
    path ∈
      written (command.effect tools toolchain view).writes := by
  cases command with
  | install _ _ | installMke2fs | chmodFiles _ _
  | chmodDirs _ | touchRootfs | copyUnlessExists _ _
  | verifyStaticBinary _ => cases hMem
  | freshRootfs => exact written_freshRootfsWrites hMem
  | sha256sum _ _ | sevSnpMeasure _ _ _ _ _ => exact hMem
  | _ =>
      rw [List.mem_singleton.1 hMem]
      exact mem_written_produce hOk

end Command

------------------------------------------------------------
-- Scripts
------------------------------------------------------------

/- What is read before it is written, the end included. -/
def needs (after : Set Path) : List Command → Set Path
| [] => after
| command :: rest =>
    { path | path ∈ command.mayRead ∨
      path ∉ command.overwrites ∧ path ∈ needs after rest }

section

variable {after : Set Path} {path : Path}

/- What is not read before it is overwritten. -/
theorem not_mem_needs_cons
    {command : Command} {rest : List Command}
    (hRead : path ∉ command.mayRead)
    (hRest :
      path ∈ command.overwrites ∨ path ∉ needs after rest) :
    path ∉ needs after (command :: rest) := by
  rintro (hMem | ⟨hNot, hMem⟩)
  · exact hRead hMem
  · exact hRest.elim hNot fun hNone => hNone hMem

/- The same over a part of the script. -/
theorem not_mem_needs_append
    {first rest : List Command}
    (hRead : ∀ command ∈ first, path ∉ command.mayRead)
    (hRest : path ∉ needs after rest) :
    path ∉ needs after (first ++ rest) := by
  induction first with
  | nil => exact hRest
  | cons command first ih =>
      apply not_mem_needs_cons
      · exact hRead command List.mem_cons_self
      · right
        apply ih
        intro other hMem
        exact hRead other (List.mem_cons_of_mem _ hMem)

/- What is written before it is read is not needed. -/
theorem not_mem_needs_of_split
    {first rest : List Command} {command : Command}
    (hRead : ∀ other ∈ first, path ∉ other.mayRead)
    (hHere : path ∉ command.mayRead)
    (hWrites : path ∈ command.overwrites) :
    path ∉ needs after (first ++ command :: rest) :=
  not_mem_needs_append hRead
    (not_mem_needs_cons hHere (Or.inl hWrites))

/- Nor what is never read, if it is written at all. -/
theorem not_mem_needs_of_not_read
    {commands : List Command}
    (hRead : ∀ command ∈ commands, path ∉ command.mayRead)
    (hWrites :
      path ∈ after →
        ∃ command ∈ commands, path ∈ command.overwrites) :
    path ∉ needs after commands := by
  by_cases hAfter : path ∈ after
  · rcases hWrites hAfter with ⟨command, hMem, hWritten⟩
    rcases List.append_of_mem hMem with ⟨first, rest, rfl⟩
    apply not_mem_needs_of_split _ _ hWritten
    · intro other hOther
      exact hRead other (List.mem_append_left _ hOther)
    · exact hRead command hMem
  · rw [← List.append_nil commands]
    exact not_mem_needs_append hRead hAfter

end

------------------------------------------------------------
-- What the Parts Read
------------------------------------------------------------

/- Where a path is, as far as scripts go. -/
inductive Area
| project
| kconfig
| kernel
| guestInit
| rootfs
| staged
| hash
deriving DecidableEq

/- The group that a path belongs to. -/
def Path.area : Path → Area
| .workspace _ | .embeddedOvmf | .appTarget => .project
| .extraKconfig => .kconfig
| .kernelImage => .kernel
| .guestInit => .guestInit
| .rootfs _ | .rootfsMode _ | .rootfsTime _ => .rootfs
| .stagedImage _ _ => .staged
| .hash _ => .hash

/- The images that the script stages itself. -/
def isStaged (config : Config) (path : Path) : Prop :=
  path = stagedImage config .bzImage ∨
    path = stagedImage config .cpio

section

variable {links : Links} {config : Config} {path : Path}
variable {appBin : Path} {command : Command}

/- What each part of the script may read. -/
theorem mayRead_scriptKernelBuild
    (hMem : command ∈ scriptKernelBuild config)
    (hRead : path ∈ command.mayRead) :
    path = .extraKconfig ∧ hasExtraKconfig config = true := by
  unfold scriptKernelBuild at hMem
  rw [List.mem_singleton] at hMem
  subst hMem
  simp only [Command.mayRead, Command.reads] at hRead
  split at hRead
  · rename_i hExtra
    exact ⟨List.mem_singleton.1 hRead, hExtra⟩
  · cases hRead

/- An app is built from the project, and is part of it. -/
theorem mayRead_scriptAppBuild
    {app : AcquiredApp} {built : List Command × Path}
    (hApp : scriptAppBuild links config app = .ok built) :
    built.2.area = .project ∧
      ∀ command ∈ built.1, ∀ path ∈ command.mayRead,
        path.area = .project := by
  unfold scriptAppBuild scriptAppSource at hApp
  cases app with
  | binary path =>
      cases hApp
      simp [Command.mayRead, Command.reads, Path.area]
  | localSource package =>
      cases hSource : config.app.source with
      | none =>
          rw [hSource] at hApp
          cases hApp
      | some source =>
          rw [hSource] at hApp
          dsimp only at hApp
          unfold scriptBuildAt at hApp
          split at hApp
          · cases hApp
            simp [Command.mayRead, Command.reads, Path.area]
          · split at hApp
            · cases hApp
            · cases hApp
            · cases hApp
              simp [Command.mayRead, Command.reads, Path.area]

/- An entry is of the root file system. -/
theorem RootfsEntry.presence_area (entry : RootfsEntry) :
    entry.presence.area = .rootfs := by
  cases entry with
  | dir _ => rfl
  | file _ => rfl

/- The app, the init, and what is there already. -/
theorem mayRead_scriptRootfs
    (hBin : appBin.area = .project)
    (hMem : command ∈ scriptRootfs config appBin)
    (hRead : path ∈ command.mayRead) :
    path.area = .project ∨ path = .guestInit ∨
      path.area = .rootfs := by
  unfold scriptRootfs ifPersistent at hMem
  simp only [List.mem_append, List.mem_cons,
    List.not_mem_nil, or_false, List.mem_ite_nil_right]
    at hMem
  have hPresence (entries : List RootfsEntry)
      (hEntry : path ∈ entries.map RootfsEntry.presence) :
      path.area = .rootfs := by
    rw [List.mem_map] at hEntry
    rcases hEntry with ⟨entry, _, rfl⟩
    exact entry.presence_area
  have hInstall {src : Path} {file : RootfsFile}
      (hInstalled : path ∈ [src, .rootfs file]) :
      path = src ∨ path.area = .rootfs := by
    rcases List.mem_pair.1 hInstalled with rfl | rfl
    · exact Or.inl rfl
    · exact Or.inr rfl
  rcases hMem with
    ((((rfl | rfl | rfl) | ⟨_, rfl⟩) |
      rfl | rfl | rfl) | ⟨_, rfl⟩) | rfl | rfl
  · cases hRead
  · exact Or.inr (hInstall hRead)
  · rcases hInstall hRead with rfl | hRootfs
    · exact Or.inl hBin
    · exact Or.inr (Or.inr hRootfs)
  · rcases List.mem_pair.1 hRead with rfl | rfl
    · exact Or.inr (Or.inr rfl)
    · exact Or.inr (Or.inr rfl)
  · rw [List.mem_singleton.1 hRead]
    exact Or.inr (Or.inr rfl)
  · rw [List.mem_singleton.1 hRead]
    exact Or.inr (Or.inr rfl)
  · have hArea :=
      hPresence [.file .init, .file .app] hRead
    exact Or.inr (Or.inr hArea)
  · have hArea := hPresence [.file .mke2fs] hRead
    exact Or.inr (Or.inr hArea)
  · have hArea := hPresence (rootfsDirs.map .dir)
    rw [List.map_map] at hArea
    exact Or.inr (Or.inr (hArea hRead))
  · have hArea := hPresence rootfsEntries hRead
    exact Or.inr (Or.inr hArea)

/- Only the root file system. -/
theorem mayRead_packRootfs {output : Path}
    (hRead : path ∈ (Command.packRootfs output).mayRead) :
    path.area = .rootfs := by
  simp only [Command.mayRead, Command.reads,
    List.mem_flatMap] at hRead
  rcases hRead with ⟨entry, _, hMem⟩
  simp only [List.mem_cons, List.not_mem_nil, or_false]
    at hMem
  rcases hMem with rfl | rfl | rfl
  · exact entry.presence_area
  · rfl
  · rfl

/- The project, and what was staged in this build. -/
theorem mayRead_scriptFormat
    {format : OutputFormat}
    (hBin : appBin.area = .project)
    (hMem : command ∈ scriptFormat links config appBin format)
    (hRead : path ∈ command.mayRead) :
    path.area = .project ∨ isStaged config path := by
  unfold isStaged
  cases format with
  | cpio =>
      simp only [scriptFormat, List.mem_cons,
        List.not_mem_nil, or_false] at hMem
      rcases hMem with rfl | rfl
      · exact Or.inr (Or.inr (List.mem_singleton.1 hRead))
      · exact Or.inr (Or.inl (List.mem_singleton.1 hRead))
  | uki =>
      simp only [scriptFormat, List.mem_singleton] at hMem
      subst hMem
      exact Or.inr (List.mem_pair.1 hRead)
  | binary =>
      simp only [scriptFormat, List.mem_singleton] at hMem
      subst hMem
      rw [List.mem_singleton.1 hRead]
      exact Or.inl hBin

/- The firmware is the project's. -/
theorem inContainerPath_area (ovmf : OvmfSource) :
    (inContainerPath links config ovmf).area = .project := by
  unfold inContainerPath
  split
  · rfl
  · rfl

/- The project, and what was staged in this build. -/
theorem mayRead_scriptSevSnpMeasurement
    (hMem : command ∈ scriptSevSnpMeasurement links config)
    (hRead : path ∈ command.mayRead) :
    path.area = .project ∨ isStaged config path := by
  unfold scriptSevSnpMeasurement at hMem
  split at hMem
  · cases hMem
  · split at hMem
    · cases hMem
    · rename_i sev hSev
      simp only [scriptSevSnp, List.mem_cons,
        List.not_mem_nil, or_false] at hMem
      rcases hMem with rfl | rfl | rfl
      · simp only [Command.mayRead, Command.reads,
          Option.isSome_none, Bool.false_eq_true,
          if_false, List.mem_cons, List.not_mem_nil,
          or_false] at hRead
        rcases hRead with rfl | rfl
        · exact Or.inl rfl
        · exact Or.inl (inContainerPath_area sev.ovmf)
      · simp only [Command.mayRead, Command.reads,
          List.mem_cons] at hRead
        rcases hRead with rfl | hArgs
        · exact Or.inl (inContainerPath_area sev.ovmf)
        · unfold kernelArgs at hArgs
          split at hArgs
          · rw [List.mem_singleton.1 hArgs]
            exact Or.inl rfl
          · exact Or.inr (List.mem_pair.1 hArgs)
      · rw [List.mem_singleton.1 hRead]
        exact Or.inl (inContainerPath_area sev.ovmf)

end

------------------------------------------------------------
-- The Whole Script
------------------------------------------------------------

/- What is looked at when the script has ended. -/
def atTheEnd (config : Config) : Set Path :=
  { path | path.area = .project ∨ isStaged config path ∨
    path.area = .hash }

/- What a script needs from before, and the end of a build. -/
def kept (config : Config) : Set Path :=
  { path | path.area = .project ∨
    path = .extraKconfig ∧ hasExtraKconfig config = true ∨
    path = .hash .ovmf ∧ config.profile.kind ≠ .sevSnp }

section

variable {links : Links} {config : ValidConfig} {path : Path}

/- Who reads what in a whole script. -/
theorem mayRead_script
    {built : List Command × Path} {app : AcquiredApp}
    (hApp :
      scriptAppBuild links config.config app = .ok built)
    {command : Command}
    (hMem :
      command ∈
        scriptBefore links config.config built ++
          scriptSevSnpMeasurement links config.config)
    (hRead : path ∈ command.mayRead) :
    path.area = .project ∨
      path = .extraKconfig ∧
          hasExtraKconfig config.config = true ∨
        path = .guestInit ∨ path = .kernelImage ∨
          path.area = .rootfs ∨
            isStaged config.config path := by
  have hProject := mayRead_scriptAppBuild hApp
  simp only [scriptBefore, scriptRootfsAndImages,
    List.mem_append, List.mem_cons, List.not_mem_nil,
    or_false, List.mem_flatMap] at hMem
  rcases hMem with
    (((hMem | hMem) | hMem | (hMem | rfl | rfl) |
      ⟨format, _, hMem⟩) | hMem)
  · exact
      Or.inr (Or.inl (mayRead_scriptKernelBuild hMem hRead))
  · exact Or.inl (hProject.2 command hMem path hRead)
  · unfold scriptGuestInitBuild at hMem
    rw [List.mem_singleton] at hMem
    subst hMem
    cases hRead
  · have hRootfs := mayRead_scriptRootfs hProject.1 hMem hRead
    tauto
  · have hRootfs := mayRead_packRootfs hRead
    tauto
  · have hKernel := List.mem_singleton.1 hRead
    tauto
  · have hFormat := mayRead_scriptFormat hProject.1 hMem hRead
    tauto
  · have hSev := mayRead_scriptSevSnpMeasurement hMem hRead
    tauto

/- The root file system is made anew before it is read. -/
theorem rootfs_mem_freshRootfs
    (hArea : path.area = .rootfs) :
    path ∈ Command.freshRootfs.overwrites := by
  change path ∈ rootfsFiles.map .rootfs ++
    (rootfsEntries.map .rootfsMode ++
      rootfsEntries.map .rootfsTime)
  cases path with
  | rootfs file =>
      exact
        List.mem_append_left _
          (List.mem_map_of_mem (mem_rootfsFiles file))
  | rootfsMode entry =>
      apply List.mem_append_right
      exact
        List.mem_append_left _
          (List.mem_map_of_mem (mem_rootfsEntries entry))
  | rootfsTime entry =>
      apply List.mem_append_right
      exact
        List.mem_append_right _
          (List.mem_map_of_mem (mem_rootfsEntries entry))
  | _ => cases hArea

/- What is shared is written first, part after part. -/
theorem not_mem_needs_shared
    {built : List Command × Path} {app : AcquiredApp}
    {after : Set Path} {rest : List Command}
    (hApp :
      scriptAppBuild links config.config app = .ok built)
    (hShared :
      path = .kernelImage ∨ path = .guestInit ∨
        path.area = .rootfs ∨ isStaged config.config path) :
    path ∉
      needs after
        (scriptBefore links config.config built ++ rest) := by
  have hProject := mayRead_scriptAppBuild hApp
  have hKernel :
      ∀ command ∈ scriptKernelBuild config.config,
        path ∉ command.mayRead := by
    intro command hMem hRead
    have hExtra := (mayRead_scriptKernelBuild hMem hRead).1
    subst hExtra
    rcases hShared with h | h | h | h | h <;> cases h
  have hBuilt : ∀ command ∈ built.1, path ∉ command.mayRead := by
    intro command hMem hRead
    have hArea := hProject.2 command hMem path hRead
    rcases hShared with rfl | rfl | h | rfl | rfl
    · cases hArea
    · cases hArea
    · rw [h] at hArea
      cases hArea
    · cases hArea
    · cases hArea
  have hInitBuild :
      ∀ command ∈ scriptGuestInitBuild config.config,
        path ∉ command.mayRead := by
    intro command hMem hRead
    unfold scriptGuestInitBuild at hMem
    rw [List.mem_singleton] at hMem
    subst hMem
    cases hRead
  simp only [scriptBefore, scriptRootfsAndImages,
    List.append_assoc]
  by_cases hImage : path = .kernelImage
  · apply not_mem_needs_cons
    · exact hKernel _ (List.mem_singleton_self _)
    · left
      rw [hImage]
      exact List.mem_singleton_self _
  · apply not_mem_needs_append hKernel
    apply not_mem_needs_append hBuilt
    by_cases hInit : path = .guestInit
    · apply not_mem_needs_cons List.not_mem_nil
      left
      rw [hInit]
      exact List.mem_singleton_self _
    · apply not_mem_needs_append hInitBuild
      by_cases hArea : path.area = .rootfs
      · apply not_mem_needs_cons List.not_mem_nil
        exact Or.inl (rootfs_mem_freshRootfs hArea)
      · have hStaged : isStaged config.config path :=
          ((hShared.resolve_left hImage).resolve_left
            hInit).resolve_left hArea
        have hRootfs :
            ∀ command ∈ scriptRootfs config.config built.2,
              path ∉ command.mayRead := by
          intro command hMem hRead
          have hAreas :=
            mayRead_scriptRootfs hProject.1 hMem hRead
          rcases hStaged with rfl | rfl
          · rcases hAreas with h | h | h <;> cases h
          · rcases hAreas with h | h | h <;> cases h
        apply not_mem_needs_append hRootfs
        apply not_mem_needs_cons
        · intro hRead
          exact hArea (mayRead_packRootfs hRead)
        · rcases hStaged with hBzImage | hCpio
          · right
            apply not_mem_needs_cons
            · intro hRead
              exact hImage (List.mem_singleton.1 hRead)
            · left
              rw [hBzImage]
              exact List.mem_singleton_self _
          · left
            rw [hCpio]
            exact List.mem_singleton_self _

/- The digests that a script writes, of what it has used. -/
theorem exists_overwrites_hash
    (built : List Command × Path) (file : HashFile)
    (hKind :
      file = .ovmf → config.config.profile.kind = .sevSnp) :
    ∃ command ∈
        scriptBefore links config.config built ++
          scriptSevSnpMeasurement links config.config,
      .hash file ∈ command.overwrites := by
  have hRootfs {command : Command}
      (hMem :
        command ∈ scriptRootfs config.config built.2) :
      command ∈
        scriptBefore links config.config built ++
          scriptSevSnpMeasurement links config.config := by
    simp only [scriptBefore, scriptRootfsAndImages,
      List.mem_append]
    tauto
  cases file with
  | app =>
      refine
        ⟨.sha256sum (.rootfs .app) .app, hRootfs ?_,
          List.mem_singleton_self _⟩
      simp [scriptRootfs]
  | guestInit =>
      refine
        ⟨.sha256sum (.rootfs .init) .guestInit, hRootfs ?_,
          List.mem_singleton_self _⟩
      simp [scriptRootfs]
  | ovmf =>
      rcases exists_sevSnp config (hKind rfl) with ⟨sev, hSev⟩
      refine
        ⟨.sha256sum
            (inContainerPath links config.config sev.ovmf)
            .ovmf,
          List.mem_append_right _ ?_,
          List.mem_singleton_self _⟩
      simp [scriptSevSnpMeasurement, hKind rfl, hSev,
        scriptSevSnp]

/-
  A build needs nothing that another build of the user can
  write, but for the digest of firmware that is not its own.
-/
theorem needs_generateBuildScript
    {app : AcquiredApp} {script : List Command}
    (hScript :
      generateBuildScript links config.config app =
        .ok script) :
    needs (atTheEnd config.config) script ⊆
      kept config.config := by
  rcases generateBuildScript_eq_ok hScript with
    ⟨built, hApp, rfl⟩
  intro path hNeeds
  by_contra hKept
  have hProject : path.area ≠ .project :=
    fun hArea => hKept (Or.inl hArea)
  by_cases hShared :
      path = .kernelImage ∨ path = .guestInit ∨
        path.area = .rootfs ∨ isStaged config.config path
  · exact not_mem_needs_shared hApp hShared hNeeds
  · refine not_mem_needs_of_not_read ?_ ?_ hNeeds
    · intro command hMem hRead
      have hReads := mayRead_script hApp hMem hRead
      have hExtra :
          ¬ (path = .extraKconfig ∧
            hasExtraKconfig config.config = true) :=
        fun hBoth => hKept (Or.inr (Or.inl hBoth))
      tauto
    · rintro (hArea | hStaged | hHash)
      · exact absurd hArea hProject
      · tauto
      · cases path with
        | hash file =>
            apply exists_overwrites_hash
            rintro rfl
            by_contra hKind
            exact hKept (Or.inr (Or.inr ⟨rfl, hKind⟩))
        | _ => cases hHash

end

end Pipeline

end CargoUnikernel
