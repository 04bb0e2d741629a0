import CargoUnikernel.Guest.Boot.Served

/-
  The whole boot, up to the start of the app.

  Main declarations:
    * `sound_install`, `sound_prepareSystemEnv`
    * `sealed_of_stage`, `sound_spawnApp`, `sound_boot`
    * `sound_main`
-/

------------------------------------------------------------
-- What Is Decoded
------------------------------------------------------------

namespace CargoUnikernel

namespace Guest

namespace Boot

open Fallible
open Landlock (locate)
open Procedures

namespace Image.Decodes

variable {image : Image}

/- What decodes as a whole decodes part by part. -/
theorem parts (hDecodes : image.Decodes) :
    ∃ ids rules mounts sysctls child,
      Baked.appIds image.constant = .ok ids ∧
        Baked.firewallRules (image.has .firewall)
            image.constant = .ok rules ∧
          Baked.prepareSystemEnv image.constant = .ok mounts ∧
            Baked.parsePairs (image.constant .extraSysctls)
                "[hardening].extra_sysctls" = .ok sysctls ∧
              Baked.spawnApp image.constant = .ok child := by
  rcases hDecodes with ⟨decoded, hDecoded⟩
  unfold Baked.decodeConstants at hDecoded
  simp only [bind_eq_ok_iff] at hDecoded
  rcases hDecoded with
    ⟨ids, hIds, rules, hRules, mounts, hMounts, sysctls,
      hSysctls, _, _, child, hChild, _⟩
  exact ⟨ids, rules, mounts, sysctls, child, hIds, hRules,
    hMounts, hSysctls, hChild⟩

/- The ids, as the part that is needed. -/
theorem appIds (hDecodes : image.Decodes) :
    ∃ ids, Baked.appIds image.constant = .ok ids := by
  rcases hDecodes.parts with ⟨ids, _, _, _, _, hIds, _⟩
  exact ⟨ids, hIds⟩

/- The rules, where there is a firewall. -/
theorem parseRules
    (hFirewall : image.has .firewall = true)
    (hDecodes : image.Decodes) :
    ∃ rules,
      Baked.parseRules (image.constant .firewallRules) =
        .ok rules := by
  rcases hDecodes.parts with ⟨_, rules, _, _, _, _, hRules, _⟩
  unfold Baked.firewallRules at hRules
  rw [hFirewall] at hRules
  exact ⟨rules, hRules⟩

/- The data of the mounts. -/
theorem tmpfs (hDecodes : image.Decodes) :
    ∃ data : Baked.Mounts,
      Baked.tmpfsData image.constant .tmpfsTmpMb
          "mode=1777" = .ok data.tmp ∧
        Baked.tmpfsData image.constant .tmpfsRunMb
            "mode=0755" = .ok data.run ∧
          Baked.tmpfsData image.constant .tmpfsShmMb
              "mode=1777" = .ok data.shm ∧
            Baked.tmpfsData image.constant .tmpfsVarTmpMb
                "mode=1777" = .ok data.varTmp := by
  rcases hDecodes.parts with
    ⟨_, _, data, _, _, _, _, hMounts, _⟩
  exact ⟨data, prepareSystemEnv_eq_ok hMounts⟩

/- The pairs of the config. -/
theorem extraSysctls (hDecodes : image.Decodes) :
    ∃ sysctls,
      Baked.parsePairs (image.constant .extraSysctls)
          "[hardening].extra_sysctls" = .ok sysctls := by
  rcases hDecodes.parts with
    ⟨_, _, _, sysctls, _, _, _, _, hSysctls, _⟩
  exact ⟨sysctls, hSysctls⟩

/- What the app is started with. -/
theorem child (hDecodes : image.Decodes) :
    ∃ limits env,
      Baked.resourceLimits image.constant = .ok limits ∧
        Baked.parsePairs (image.constant .appEnv)
            "[app.runtime].env" = .ok env := by
  rcases hDecodes.parts with
    ⟨_, _, _, _, child, _, _, _, _, hChild⟩
  unfold Baked.spawnApp at hChild
  simp only [bind_eq_ok_iff] at hChild
  rcases hChild with ⟨limits, hLimits, _, _, env, hEnv, _⟩
  exact ⟨limits, env, hLimits, hEnv⟩

end Image.Decodes

------------------------------------------------------------
-- Up to the Mounts
------------------------------------------------------------

section

variable {image : Image} {marks : Marks}
variable {root : Root} {data : Baked.Mounts} {pts : Bool}

open Layout

/- The rules always make a batch. -/
theorem sound_install
    {table : Table} {rules : List Firewall.Rule}
    (hFirewall : image.has .firewall = true)
    (hRules :
      Baked.parseRules (image.constant .firewallRules) =
        .ok rules) :
    Sound image (At table marks) (install image rules)
      fun _ => At table { marks with filtered := true } := by
  unfold install
  rw [Firewall.buildBatch_eq_ok, Proc.expect_ok_bind]
  apply sound_must
  · intro s hStage
    exact ⟨trivial, hFirewall, rules, hRules,
      Firewall.buildBatch_eq_ok _ _⟩
  · intro errno
    rfl
  · intro errno
    exact ⟨_, rfl⟩
  · intro s t hStage hEffect
    rw [show t = _ from hEffect]
    exact { hStage with filtered := fun _ => rfl }

/- The mounts are there, with or without the terminals. -/
theorem sound_prepareSystemEnv
    (hUnsealed : marks.rootSealed = false)
    (hFiltered :
      image.has .firewall = true → marks.filtered = true) :
    Sound image (At [root.mount] marks)
      (prepareSystemEnv image payloadDir)
      fun _ s =>
        ∃ data pts,
          Baked.prepareSystemEnv image.constant = .ok data ∧
            At ((opened root data pts).table image) marks
              s := by
  unfold prepareSystemEnv
  refine spec_bind (sound_decode ?_) ?_
  · intro hDecodes
    rcases hDecodes.tmpfs with ⟨data, hTmp, _⟩
    exact ⟨_, hTmp⟩
  intro tmpData
  refine spec_given fun hTmp => ?_
  refine spec_bind (sound_decode ?_) ?_
  · intro hDecodes
    rcases hDecodes.tmpfs with ⟨data, _, hRun, _⟩
    exact ⟨_, hRun⟩
  intro runData
  refine spec_given fun hRun => ?_
  refine spec_bind (sound_decode ?_) ?_
  · intro hDecodes
    rcases hDecodes.tmpfs with ⟨data, _, _, hShm, _⟩
    exact ⟨_, hShm⟩
  intro shmData
  refine spec_given fun hShm => ?_
  refine spec_bind (sound_baseMounts hUnsealed _ _ _)
    fun _ => ?_
  refine spec_bind (sound_mountDevpts hUnsealed) fun _ => ?_
  refine spec_exists fun pts => ?_
  refine spec_bind (sound_mountVar hUnsealed) fun _ => ?_
  refine spec_bind (sound_mountVarTmp hUnsealed ?_) fun _ => ?_
  · intro hDecodes
    rcases hDecodes.tmpfs with ⟨data, _, _, _, hVarTmp⟩
    exact ⟨_, hVarTmp⟩
  refine spec_exists fun varTmp => ?_
  refine spec_given fun hVarTmp => ?_
  have hDecoded :
      Baked.prepareSystemEnv image.constant =
        .ok ⟨tmpData, runData, shmData, varTmp⟩ := by
    unfold Baked.prepareSystemEnv
    rw [hTmp, ok_bind, hRun, ok_bind, hShm, ok_bind, hVarTmp,
      ok_bind]
  refine spec_bind sound_bindPayload fun _ => ?_
  refine spec_consequence (fun _ hStage => hStage)
    (keeps_when fun _ => keeps_initNetworking hFiltered) ?_
  intro _ s hStage
  exact ⟨_, pts, hDecoded, hStage⟩

------------------------------------------------------------
-- The App
------------------------------------------------------------

/- The device is below `/dev`. -/
theorem keeps_exposeSevGuestDevice
    (hUnsealed : marks.rootSealed = false) :
    Keeps image ((opened root data pts).table image) marks
      exposeSevGuestDevice := by
  have hWritable :
      writable ((opened root data pts).table image) false
          (locate "/dev/sev-guest".toList) =
        true := by
    cases pts
    · rfl
    · rfl
  unfold exposeSevGuestDevice
  refine keeps_bind (keeps_ask ?_) fun present => ?_
  · intro s hStage
    exact hStage.reaches (reaches_of_writable hWritable)
  · apply keeps_when
    intro _
    apply sound_attempt_quiet rfl
    intro s hStage
    refine ⟨hStage.writes ?_, trivial⟩
    rwa [hUnsealed]

/- The app is on the root, which is not sealed yet. -/
theorem keeps_prepareAppBinary
    (hUnsealed : marks.rootSealed = false) :
    Keeps image ((opened root data pts).table image) marks
      (prepareAppBinary appPath) := by
  have hWritable :
      writable ((opened root data pts).table image) false
          (locate appPath) =
        true :=
    rfl
  unfold prepareAppBinary
  refine spec_bind (sound_quiet rfl ?_) ?_
  · intro s hStage
    refine ⟨hStage.reaches ?_, trivial⟩
    exact reaches_of_writable hWritable
  · intro present
    cases present with
    | false => exact sound_blaming rfl rfl
    | true =>
        refine spec_strengthen (fun _ hBoth => hBoth.1) ?_
        apply sound_must
        · intro s hStage
          refine ⟨hStage.writes ?_, trivial⟩
          rwa [hUnsealed]
        · intro errno
          rfl
        · intro errno
          exact ⟨_, rfl⟩
        · intro s t hStage hEffect
          exact hStage.of_effect rfl hEffect

/- A rule that is added is one of the list. -/
theorem keeps_addRule
    {table : Table} {rule : Landlock.Rule}
    (hRule : rule ∈ landlockRules image payloadDir) :
    Keeps image table marks (addRule rule) := by
  unfold addRule
  split
  · next hNul =>
      apply sound_fatal
      intro s hStage
      exact ⟨⟨hNul, rule, hRule, rfl⟩, Stage.unwiped hStage⟩
  · refine spec_bind (sound_quiet rfl ?_) ?_
    · intro s hStage
      exact ⟨trivial, trivial⟩
    · intro opened
      cases opened with
      | error errno =>
          dsimp only
          split
          · exact sound_pure fun _ hBoth => hBoth.1
          · exact sound_blaming rfl ⟨errno, rfl⟩
      | ok kind =>
          refine spec_strengthen (fun _ hBoth => hBoth.1) ?_
          apply sound_must
          · intro s hStage
            exact ⟨trivial, trivial⟩
          · intro errno
            rfl
          · intro errno
            exact ⟨_, rfl⟩
          · intro s t hStage hEffect
            exact hStage.of_effect rfl hEffect

/- The ruleset changes nothing until it is applied. -/
theorem keeps_buildLandlock {table : Table} :
    Keeps image table marks
      (buildLandlock image payloadDir) := by
  unfold buildLandlock
  refine spec_bind (sound_quiet rfl ?_) ?_
  · intro s hStage
    exact ⟨trivial, trivial⟩
  · intro abi
    split
    · next hOld =>
        exact sound_blaming hOld ⟨abi, rfl, hOld, rfl⟩
    · refine spec_strengthen (fun _ hBoth => hBoth.1) ?_
      refine keeps_bind (sound_must ?_ ?_ ?_ ?_) fun _ => ?_
      · intro s hStage
        exact ⟨trivial, trivial⟩
      · intro errno
        rfl
      · intro errno
        exact ⟨_, _, _, rfl⟩
      · intro s t hStage hEffect
        exact hStage.of_effect rfl hEffect
      · exact keeps_forM fun rule hRule => keeps_addRule hRule

------------------------------------------------------------
-- What the Stage Promises
------------------------------------------------------------

/- A property of each of the mounts is one of the table. -/
theorem forall_mem_table
    {l : Layout} {Property : Mount → Prop}
    (hPayload : Property l.payloadMount)
    (hVarTmp : Property l.varTmpMount)
    (hVar : Property (varMount image))
    (hPts : Property ptsMount)
    (hShm : Property l.shmMount)
    (hRun : Property l.runMount)
    (hTmp : Property (l.tmpMount image))
    (hDev : Property devMount)
    (hSys : Property l.sysMount)
    (hProc : Property (l.procMount image))
    (hRoot : Property l.rootMount) :
    ∀ mount ∈ l.table image, Property mount := by
  have hFirst :
      ∀ mount ∈ l.firstMounts image, Property mount := by
    unfold firstMounts
    simp only [List.forall_mem_cons, List.not_mem_nil,
      false_implies, implies_true, and_true]
    exact ⟨hShm, hRun, hTmp, hDev, hSys, hProc, hRoot⟩
  have hDevices :
      ∀ mount ∈ l.deviceMounts image, Property mount := by
    unfold deviceMounts
    split
    · rw [List.forall_mem_cons]
      exact ⟨hPts, hFirst⟩
    · exact hFirst
  unfold table withVarTmp withVar
  simp only [List.forall_mem_cons]
  exact ⟨hPayload, hVarTmp, hVar, hDevices⟩

/- Only a danger build lets scratch files be executed. -/
theorem writableExecMountFlags_refuses (image : Image) :
    (writableExecMountFlags image).noSuid = true ∧
      (writableExecMountFlags image).noDev = true ∧
        ((writableExecMountFlags image).noExec = false →
          image.has .dangerAllowWriteExecute = true) := by
  unfold writableExecMountFlags
  split
  · next hDanger => exact ⟨rfl, rfl, fun _ => hDanger⟩
  · exact ⟨rfl, rfl, nofun⟩

/- Ids that are read are not root's. -/
theorem isUnprivileged_of_appIds
    {constant : BuildScript.Constant → Text} {ids : Nat × Nat}
    (hIds : Baked.appIds constant = .ok ids) :
    IsUnprivileged ids.1 ∧ IsUnprivileged ids.2 := by
  unfold Baked.appIds at hIds
  simp only [bind_eq_ok_iff] at hIds
  rcases hIds with ⟨uid, _, gid, _, ⟨_, hValid, hSame⟩⟩
  have hSame : (uid, gid) = ids := Except.ok.inj hSame
  unfold Baked.validateAppIds at hValid
  rw [reject_eq_ok_iff] at hValid
  rw [← hSame]
  unfold IsUnprivileged
  omega

/- The app's ids are those that were read. -/
theorem appIds_of_spawnApp
    {constant : BuildScript.Constant → Text}
    {child : Baked.Child}
    (hChild : Baked.spawnApp constant = .ok child) :
    Baked.appIds constant = .ok child.ids := by
  unfold Baked.spawnApp at hChild
  simp only [bind_eq_ok_iff] at hChild
  rcases hChild with ⟨_, _, ids, hIds, _, _, hSame⟩
  rw [hIds, ← Except.ok.inj hSame]

/- All that is done besides mounting has been done. -/
structure Marks.Complete
    (image : Image) (marks : Marks) : Prop where
  filtered :
    image.has .firewall = true → marks.filtered = true
  handlesSigterm : marks.handlesSigterm = true
  seeded : marks.seeded = true
  owned : marks.owned = [runDir, varDir]
  ids : Baked.appIds image.constant = .ok marks.ids

section

variable {l : Layout} {child : Baked.Child} {s : Machine}

/- By the flags of each mount, once all is sealed. -/
theorem writeXorExecute_of_stage
    (hStage :
      Stage (l.table image)
        { marks with rootSealed := l.sealedRoot } s)
    (hSealed : l.IsSealed) :
    ∀ mount ∈ s.mounts,
      mount.flags.readOnly = false →
        mount.flags.noExec = false →
          (mount.target = [] ∧ s.rootSealed = false) ∨
            image.has .dangerAllowWriteExecute = true ∧
              (mount.target = tmpDir ∨
                mount.target = varDir) := by
  have hScratch := (writableExecMountFlags_refuses image).2.2
  rw [hStage.mounts]
  apply forall_mem_table
  case hPayload =>
    intro hWritable
    unfold payloadMount at hWritable
    rw [hSealed.payload] at hWritable
    cases hWritable
  case hVar =>
    intro _ hExec
    exact .inr ⟨hScratch hExec, .inr rfl⟩
  case hTmp =>
    intro _ hExec
    exact .inr ⟨hScratch hExec, .inl rfl⟩
  case hSys =>
    intro hWritable
    unfold sysMount at hWritable
    rw [hSealed.sys] at hWritable
    cases hWritable
  case hRoot =>
    intro hWritable _
    rw [hStage.rootSealed]
    unfold rootMount at hWritable ⊢
    by_cases hRoot : l.sealedRoot = true
    · rw [if_pos hRoot] at hWritable
      cases hWritable
    · rw [if_neg hRoot]
      exact .inl ⟨rfl, Bool.eq_false_iff.2 hRoot⟩
  all_goals exact fun _ => nofun

/- Only the root may have been mounted without the flag. -/
theorem noSuid_of_stage
    (hStage : Stage (l.table image) marks s) :
    ∀ mount ∈ s.mounts,
      mount.flags.noSuid = true ∨ mount.target = [] := by
  have hScratch := (writableExecMountFlags_refuses image).1
  rw [hStage.mounts]
  apply forall_mem_table
  case hPayload =>
    unfold payloadMount
    cases l.sealedPayload
    · exact .inl rfl
    · exact .inl rfl
  case hSys =>
    unfold sysMount
    cases l.sealedSys
    · exact .inl rfl
    · exact .inl rfl
  case hVar => exact .inl hScratch
  case hTmp => exact .inl hScratch
  case hRoot =>
    unfold rootMount
    split
    · exact .inr rfl
    · exact .inr rfl
  all_goals exact .inl rfl

/- Devices are where devices belong. -/
theorem noDev_of_stage
    (hStage : Stage (l.table image) marks s) :
    ∀ mount ∈ s.mounts,
      mount.flags.noDev = true ∨
        mount.target ∈ [[], devDir, ptsDir] := by
  have hScratch := (writableExecMountFlags_refuses image).2.1
  rw [hStage.mounts]
  apply forall_mem_table
  case hPayload =>
    unfold payloadMount
    cases l.sealedPayload
    · exact .inl rfl
    · exact .inl rfl
  case hSys =>
    unfold sysMount
    cases l.sealedSys
    · exact .inl rfl
    · exact .inl rfl
  case hVar => exact .inl hScratch
  case hTmp => exact .inl hScratch
  case hRoot =>
    unfold rootMount
    split
    · exact .inr (.head _)
    · exact .inr (.head _)
  case hDev => exact .inr (.tail _ (.head _))
  case hPts => exact .inr (.tail _ (.tail _ (.head _)))
  all_goals exact .inl rfl

/- Each of the directories is on the mount that is for it. -/
theorem sized_table (l : Layout) :
    ∀ sized ∈
        [(tmpDir, l.data.tmp), (runDir, l.data.run),
          (shmDir, l.data.shm), (varTmpDir, l.data.varTmp)],
      AllOn (l.table image) sized.1 fun mount =>
        mount.target = sized.1 ∧
          mount.kind = ⟨.tmpfs, sized.2⟩ := by
  rcases l with ⟨root, data, pts, _, _, _, _⟩
  simp only [List.forall_mem_cons, List.not_mem_nil,
    false_implies, implies_true, and_true]
  refine ⟨?_, ?_, ?_, ?_⟩
  · rintro path ⟨rest, rfl⟩
    cases pts
    · exact ⟨_, rfl, rfl, rfl⟩
    · exact ⟨_, rfl, rfl, rfl⟩
  · rintro path ⟨rest, rfl⟩
    cases pts
    · exact ⟨_, rfl, rfl, rfl⟩
    · exact ⟨_, rfl, rfl, rfl⟩
  · rintro path ⟨rest, rfl⟩
    cases pts
    · exact ⟨_, rfl, rfl, rfl⟩
    · exact ⟨_, rfl, rfl, rfl⟩
  · rintro path ⟨rest, rfl⟩
    cases pts
    · exact ⟨_, rfl, rfl, rfl⟩
    · exact ⟨_, rfl, rfl, rfl⟩

/- The last stage is what an app has to find. -/
theorem sealed_of_stage
    (hStage :
      Stage (l.table image)
        { marks with rootSealed := l.sealedRoot } s)
    (hSealed : l.IsSealed)
    (hDecoded :
      Baked.prepareSystemEnv image.constant = .ok l.data)
    (hComplete : marks.Complete image)
    (hChild : Baked.spawnApp image.constant = .ok child) :
    Sealed image (launchOf image appPath child) s := by
  have hIds : child.ids = marks.ids := by
    have hBoth := hComplete.ids
    rw [appIds_of_spawnApp hChild] at hBoth
    exact Except.ok.inj hBoth
  refine
    { payload := ?_
      proc := ?_
      sys := ?_
      varTmp := ?_
      sized := ⟨l.data, hDecoded, ?_⟩
      writeXorExecute := writeXorExecute_of_stage hStage hSealed
      noSuid := noSuid_of_stage hStage
      noDev := noDev_of_stage hStage
      filtered := ?_
      handlesSigterm :=
        hStage.handlesSigterm hComplete.handlesSigterm
      seeded := hStage.seeded.trans hComplete.seeded
      owned := ?_
      isLaunch := rfl
      child := hChild
      unprivileged :=
        isUnprivileged_of_appIds (appIds_of_spawnApp hChild) }
  · intro path hBeneath
    rw [hStage.mounts]
    refine ⟨l.payloadMount,
      MountTable.covering_cons_of_beneath hBeneath, rfl, ?_⟩
    unfold payloadMount
    rw [hSealed.payload]
    rfl
  · rintro path ⟨rest, rfl⟩
    rw [hStage.mounts]
    refine ⟨l.procMount image, ?_, rfl, ?_⟩
    · unfold table withVarTmp withVar deviceMounts
      cases l.pts
      · rfl
      · rfl
    · unfold procMount
      rw [hSealed.proc]
      rfl
  · rintro path ⟨rest, rfl⟩
    rw [hStage.mounts]
    refine ⟨l.sysMount, ?_, rfl, ?_⟩
    · unfold table withVarTmp withVar deviceMounts
      cases l.pts
      · rfl
      · rfl
    · unfold sysMount
      rw [hSealed.sys]
      rfl
  · rintro path ⟨rest, rfl⟩
    rw [hStage.mounts]
    exact ⟨l.varTmpMount, rfl, rfl, rfl, rfl⟩
  · rw [hStage.mounts]
    exact sized_table l
  · intro hFirewall
    exact hStage.filtered (hComplete.filtered hFirewall)
  · intro dir hMem
    have hOwner : s.owner dir = some marks.ids := by
      apply hStage.owned
      show dir ∈ marks.owned
      rw [hComplete.owned]
      simpa [or_comm] using hMem
    exact hOwner.trans (congrArg some hIds.symm)

end

------------------------------------------------------------
-- The Start of the App
------------------------------------------------------------

/- The app is started at the last stage and at no other. -/
theorem sound_spawnApp
    {l : Layout}
    (hSealed : l.IsSealed)
    (hDecoded :
      Baked.prepareSystemEnv image.constant = .ok l.data)
    (hComplete : marks.Complete image) :
    Sound image
      (At (l.table image)
        { marks with rootSealed := l.sealedRoot })
      (spawnApp image payloadDir appPath)
      fun _ s =>
        (∃ child,
          Baked.spawnApp image.constant = .ok child) ∧
          At (l.table image)
            { marks with rootSealed := l.sealedRoot } s := by
  have hExecutes :
      executable (l.table image) (locate appPath) = true := by
    unfold table payloadMount
    rw [hSealed.payload]
    rfl
  have hNull :
      reaches (l.table image) (locate "/dev/null".toList) =
        true := by
    unfold table withVarTmp withVar deviceMounts
    cases l.pts
    · rfl
    · rfl
  unfold spawnApp
  refine spec_bind (sound_quiet rfl ?_) ?_
  · intro s hStage
    exact ⟨trivial, trivial⟩
  intro built
  cases built with
  | false => exact sound_blaming rfl rfl
  | true =>
      refine spec_strengthen (fun _ hBoth => hBoth.1) ?_
      refine spec_bind (sound_decode ?_) fun limits => ?_
      · intro hDecodes
        rcases hDecodes.child with ⟨limits, _, hLimits, _⟩
        exact ⟨limits, hLimits⟩
      refine spec_given fun hLimits => ?_
      refine spec_bind
        (keeps_when fun _ => keeps_buildLandlock) fun _ => ?_
      refine spec_bind
        (sound_decode Image.Decodes.appIds) fun ids => ?_
      refine spec_given fun hIds => ?_
      refine spec_bind (sound_decode ?_) fun env => ?_
      · intro hDecodes
        rcases hDecodes.child with ⟨_, env, _, hEnv⟩
        exact ⟨env, hEnv⟩
      refine spec_given fun hEnv => ?_
      have hChild :
          Baked.spawnApp image.constant =
            .ok { limits := limits, ids := ids, env := env } := by
        unfold Baked.spawnApp
        rw [hLimits, ok_bind, hIds, ok_bind, hEnv, ok_bind]
      refine spec_bind (sound_quiet rfl ?_) fun spawned => ?_
      · intro s hStage
        refine ⟨⟨hStage.executes hExecutes, ?_⟩, ?_⟩
        · intro _
          exact hStage.reaches hNull
        · exact sealed_of_stage hStage hSealed hDecoded
            hComplete hChild
      cases spawned with
      | error errno => exact sound_blaming rfl ⟨_, rfl⟩
      | ok pid =>
          apply sound_pure
          rintro s ⟨hStage, _⟩
          exact ⟨⟨_, hChild⟩, hStage⟩

/- A thread mounts nothing. -/
theorem keeps_spawnWatcher {table : Table} :
    Keeps image table marks spawnWatcher := by
  unfold spawnWatcher
  refine spec_bind (sound_quiet rfl ?_) ?_
  · intro s hStage
    exact ⟨trivial, trivial⟩
  intro spawned
  cases spawned with
  | false => exact sound_blaming rfl rfl
  | true => exact sound_pure fun _ hBoth => hBoth.1

/- Without entropy the boot is given up. -/
theorem sound_waitForEntropy
    (hUnseeded : marks.seeded = false) (turns : Nat) :
    Sound image
      (At ((opened root data pts).table image) marks)
      (waitForEntropy turns)
      fun _ =>
        At ((opened root data pts).table image)
          { marks with seeded := true } := by
  unfold waitForEntropy
  refine spec_bind (sound_quiet rfl ?_) ?_
  · intro s hStage
    refine ⟨hStage.reaches ?_, trivial⟩
    cases pts
    · rfl
    · rfl
  intro opened
  cases opened with
  | false => exact sound_blaming rfl rfl
  | true =>
      refine spec_strengthen (fun _ hBoth => hBoth.1) ?_
      refine spec_bind (keeps_ask fun _ _ => trivial)
        fun start => ?_
      exact sound_entropyTurns hUnseeded _ turns

/- Nothing is done yet but the root file system. -/
def Marks.fresh (ids : Nat × Nat) : Marks where
  rootSealed := false
  filtered := false
  handlesSigterm := false
  seeded := false
  ids := ids
  owned := []

/- Whose the app is makes no difference yet. -/
theorem At.fresh
    {table : Table} {ids : Nat × Nat} {s : Session}
    (hStage : At table (.fresh ids) s) (other : Nat × Nat) :
    At table (.fresh other) s :=
  { hStage with owned := nofun }

/- The filter is there before there is any link to go up. -/
theorem sound_firewall (ids : Nat × Nat) :
    Sound image (At [root.mount] (.fresh ids))
      (.when (image.has .firewall) do
        let rules ←
          decode
            (Baked.parseRules
              (image.constant .firewallRules))
        install image rules)
      fun _ =>
        At [root.mount]
          { Marks.fresh ids with
            filtered := image.has .firewall } := by
  apply spec_when
  · intro hFirewall
    rw [hFirewall]
    refine spec_bind
      (sound_decode
        (Image.Decodes.parseRules hFirewall))
      fun rules => ?_
    exact spec_given fun hRules =>
      sound_install hFirewall hRules
  · intro s hFirewall hStage
    rw [hFirewall]
    exact hStage

/-
  What comes between the mounts and the lockdown, and what is
  promised of it then.
-/
theorem sound_boot (turns : Nat) (ids : Nat × Nat) :
    Sound image (At [root.mount] (.fresh ids))
      (boot image turns)
      fun _ s => ∃ launch, Sealed image launch s.machine := by
  unfold boot
  rw [image.payload, image.app]
  refine spec_bind (sound_decode Image.Decodes.appIds)
    fun ids => ?_
  refine spec_given fun hIds => ?_
  refine spec_strengthen (fun _ hStage => hStage.fresh ids) ?_
  refine spec_bind (sound_attempt_quiet rfl ?_) fun _ => ?_
  · intro s hStage
    exact ⟨trivial, trivial⟩
  refine spec_bind (sound_firewall ids) fun _ => ?_
  refine spec_bind
    (sound_prepareSystemEnv rfl fun hFirewall => hFirewall)
    fun _ => ?_
  refine spec_exists fun data => ?_
  refine spec_exists fun pts => ?_
  refine spec_given fun hDecoded => ?_
  refine spec_bind sound_armShutdownTriggers fun _ => ?_
  refine spec_bind (sound_chownDirsForApp rfl rfl)
    fun _ => ?_
  refine spec_bind (keeps_writeEtc rfl _ _ _ _) fun _ => ?_
  refine spec_bind
    (sound_decode Image.Decodes.extraSysctls)
    fun extra => ?_
  refine spec_given fun _ => ?_
  refine spec_bind (keeps_applyHardening rfl extra)
    fun _ => ?_
  refine spec_bind (sound_waitForEntropy rfl turns)
    fun _ => ?_
  refine spec_bind
    (keeps_when fun _ => keeps_exposeSevGuestDevice rfl)
    fun _ => ?_
  refine spec_bind
    (keeps_when fun _ =>
      keeps_configureStaticIpv6 (fun hFirewall => hFirewall)
        _ _ _)
    fun _ => ?_
  refine spec_bind
    (keeps_when fun _ =>
      keeps_waitForNetworkSettle (fun hFirewall => hFirewall)
        turns)
    fun _ => ?_
  refine spec_bind (keeps_prepareAppBinary rfl) fun _ => ?_
  refine spec_bind
    (sound_lockdownFilesystem rfl rfl hDecoded) fun _ => ?_
  refine spec_exists fun l => ?_
  refine spec_given fun hLast => ?_
  rcases hLast with ⟨hSealed, hSame⟩
  have hDecoded :
      Baked.prepareSystemEnv image.constant = .ok l.data := by
    rw [hSame]
    exact hDecoded
  have hComplete :
      Marks.Complete image
        { rootSealed := false
          filtered := image.has .firewall
          handlesSigterm := true
          seeded := true
          ids := ids
          owned := [runDir, varDir] } :=
    ⟨fun hFirewall => hFirewall, rfl, rfl, rfl, hIds⟩
  refine spec_bind
    (sound_spawnApp hSealed hDecoded hComplete)
    fun appPid => ?_
  refine spec_given fun hChild => ?_
  rcases hChild with ⟨child, hChild⟩
  refine spec_bind keeps_spawnWatcher fun _ => ?_
  apply sound_pure
  intro s hStage
  exact ⟨_, sealed_of_stage hStage hSealed hDecoded hComplete
    hChild⟩

end

end Boot

end Guest

end CargoUnikernel
