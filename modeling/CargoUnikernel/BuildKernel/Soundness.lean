import CargoUnikernel.BuildKernel.Script

/-
  What a run of `build_kernel.sh` leaves, over all runs.

  An entry that fits its checksums is one that was put in
  place, so that it holds the image of a compilation and the
  configuration it was compiled with. The image that a run
  leaves comes from there or from a compilation of its own,
  and its configuration was checked either way.

  Main declarations:
    * `Prepared`, `prepared_of_prepare`
    * `Sound`, `sound_step`
    * `directives_took`
    * `nul_accepted`
-/

------------------------------------------------------------
-- What a Plan Says
------------------------------------------------------------

namespace CargoUnikernel

namespace BuildKernel

open Fallible

section

variable (sum : Checksum)

/- An error is never taken for success. -/
theorem status_ne_zero (error : ScriptError) :
    error.status ≠ 0 :=
  Nat.one_ne_zero

/- Without their NULs, the fragments still say the same. -/
def Harmless (inputs : Inputs) : Prop :=
  ∀ paths, fragmentPaths inputs = .ok paths →
    NulHarmless inputs.files paths

/- How a plan comes from the inputs. -/
structure Prepared (inputs : Inputs) (plan : Plan) : Prop where
  harmless : Harmless inputs
  arguments :
    parseArguments inputs.arguments = .ok plan.configOnly
  version : isVersion plan.version = true
  sha256 :
    plan.sha256 =
      (inputs.expand "CARGO_UNIKERNEL_KERNEL_SHA256" "").map
        Char.toLower
  length : plan.sha256.length = 64
  fragments :
    ∃ paths, fragmentPaths inputs = .ok paths ∧
      parseFragments inputs.files paths WriteTable.empty =
        .ok plan.directives
  fingerprint :
    plan.fingerprint =
      sum.digest
        (fingerprintInput plan.version plan.sha256
          inputs.provenance plan.directives)

/- What is known of a plan. -/
theorem prepared_of_prepare
    {inputs : Inputs} {plan : Plan}
    (hHarmless : Harmless inputs)
    (hPrepare : prepare sum inputs = .ok plan) :
    Prepared sum inputs plan := by
  unfold prepare at hPrepare
  simp only [bind_eq_ok_iff] at hPrepare
  rcases hPrepare with ⟨_, _, configOnly, hArguments, _,
    hVersion, _, hSha, _, _, _, _, paths, hPaths, t, hParse,
    hPlan⟩
  cases hPlan
  rw [reject_eq_ok_iff, Bool.not_eq_false] at hVersion hSha
  have hTable :
      parseFragments inputs.files paths WriteTable.empty =
        .ok t := by
    cases hResult :
        parseFragments inputs.files paths WriteTable.empty with
    | error error =>
        rw [hResult] at hParse
        cases hParse
    | ok u =>
        rw [hResult] at hParse
        cases hParse
        rfl
  have hLength :
      (inputs.expand "CARGO_UNIKERNEL_KERNEL_SHA256"
        "").length = 64 := by
    unfold isSha256 at hSha
    rw [Bool.and_eq_true, decide_eq_true_eq] at hSha
    exact hSha.1
  exact {
    harmless := hHarmless
    arguments := hArguments
    version := hVersion
    sha256 := rfl
    length := by rw [List.length_map, hLength]
    fragments := ⟨paths, hPaths, hTable⟩
    fingerprint := rfl }

/- A version is one line. -/
theorem newline_not_mem_version
    {version : Text} (hVersion : isVersion version = true) :
    '\n' ∉ version := by
  unfold isVersion at hVersion
  rw [Bool.and_eq_true, List.all_eq_true] at hVersion
  have hJoin :
      Text.join '.' (Text.split '.' version) = version :=
    List.intercalate_splitOn '.'
  intro hMem
  rw [← hJoin, Text.mem_join_iff (by decide)] at hMem
  rcases hMem with ⟨part, hPart, hNewline⟩
  have hNumber := hVersion.2 part hPart
  unfold isNumber at hNumber
  rw [Bool.and_eq_true, List.all_eq_true] at hNumber
  exact absurd (hNumber.2 _ hNewline) (by decide)

/- The kernel is part of the fingerprint. -/
theorem sha256_of_fingerprint
    {inputs others : Inputs} {plan other : Plan}
    (hPlan : Prepared sum inputs plan)
    (hOther : Prepared sum others other)
    (hSame : plan.fingerprint = other.fingerprint) :
    plan.sha256 = other.sha256 := by
  rw [hPlan.fingerprint, hOther.fingerprint] at hSame
  have hInput := sum.injective hSame
  unfold fingerprintInput at hInput
  have hSplit :=
    Text.splitOnce_append
      (newline_not_mem_version hPlan.version)
      (plan.sha256 ++ '\n' :: (inputs.provenance ++
        Text.unlines (plan.directives.entries.map fun write =>
          assigned write.1 write.2.text)))
  rw [hInput, Text.splitOnce_append
    (newline_not_mem_version hOther.version)] at hSplit
  rw [Option.some.injEq, Prod.mk.injEq] at hSplit
  exact (List.append_inj hSplit.2
    (hOther.length.trans hPlan.length.symm)).1.symm

end

------------------------------------------------------------
-- The Invariant
------------------------------------------------------------

section Invariant

variable (sum : Checksum)
variable (unpack : Text → Option (List Text))

/- The Kconfig files are those of the kernel that is pinned. -/
def Pinned (plan : Plan) (kconfigFiles : List Text) : Prop :=
  ∃ tarball, sum.digest tarball = plan.sha256 ∧
    unpack tarball = some kconfigFiles

/- A compilation of that kernel that was run. -/
def Genuine
    (w : World) (plan : Plan) (c : Compilation) : Prop :=
  c ∈ w.compilations ∧ Pinned sum unpack plan c.kconfigFiles

/- Its configuration passes the check of a plan. -/
def Verified (plan : Plan) (c : Compilation) : Prop :=
  verifyConfig plan.directives c.config
    (kconfigSymbols c.kconfigFiles) = []

/- The image in the tree is that of such a compilation. -/
def Leaves
    (w : World) (plan : Plan) (c : Compilation) : Prop :=
  Genuine sum unpack w plan c ∧ Verified plan c ∧
    w.tree.bzImage = some c.image

/- The checksum file was written for a compilation. -/
def Published (w : World) (put : Text × Text) : Prop :=
  ∃ inputs plan c,
    Prepared sum inputs plan ∧ plan.fingerprint = put.1 ∧
      Genuine sum unpack w plan c ∧
      captured (checksums sum c.image c.config
        (kconfigSymbols c.kconfigFiles)) = put.2

/- An entry that fits its checksums was put in place. -/
structure CacheSound (w : World) : Prop where
  entries :
    ∀ fingerprint entry text,
      w.entries fingerprint = some entry →
        fitting sum entry = some text →
        (fingerprint, text) ∈ w.written
  written :
    ∀ put ∈ w.written, Published sum unpack w put

/- The tree is what a compilation read and made. -/
structure Built
    (w : World) (plan : Plan) (c : Compilation) : Prop where
  genuine : Genuine sum unpack w plan c
  config : w.tree.config = some c.config
  symbols :
    w.tree.symbols = some (kconfigSymbols c.kconfigFiles)
  image : w.tree.bzImage = some c.image

/- The tree is unpacked and its symbols are indexed. -/
def Indexed (w : World) (plan : Plan) : Prop :=
  Pinned sum unpack plan w.tree.kconfigFiles ∧
    w.tree.symbols = some (kconfigSymbols w.tree.kconfigFiles)

/- A compilation that was checked, and the stage so far. -/
def Staged
    (w : World) (plan : Plan)
    (files : Compilation → Entry) : Prop :=
  ∃ c, Built sum unpack w plan c ∧ Verified plan c ∧
    w.stage = files c

/- What holds when a run comes to a command. -/
def AtCommand (w : World) (plan : Plan) : Command → Prop
| .lookup | .removeEntry | .fetch | .checkTarball => True
| .restoreImage =>
    ∃ c entry, Genuine sum unpack w plan c ∧
      Verified plan c ∧
      w.entries plan.fingerprint = some entry ∧
      entry.bzImage = some c.image
| .restoreConfig => ∃ c, Leaves sum unpack w plan c
| .extract =>
    ∃ tarball, w.tarballs plan.version = some tarball ∧
      sum.digest tarball = plan.sha256
| .indexSymbols => Pinned sum unpack plan w.tree.kconfigFiles
| .configure _ | .verify | .compile =>
    Indexed sum unpack w plan
| .reverify => ∃ c, Built sum unpack w plan c
| .stageImage =>
    ∃ c, Built sum unpack w plan c ∧ Verified plan c
| .stageConfig =>
    Staged sum unpack w plan fun c =>
      { bzImage := some c.image }
| .stageSymbols =>
    Staged sum unpack w plan fun c =>
      { bzImage := some c.image, config := some c.config }
| .stageSums =>
    Staged sum unpack w plan fun c =>
      { bzImage := some c.image
        config := some c.config
        symbols := some (kconfigSymbols c.kconfigFiles) }
| .publish =>
    Staged sum unpack w plan fun c =>
      { bzImage := some c.image
        config := some c.config
        symbols := some (kconfigSymbols c.kconfigFiles)
        sums := some (checksums sum c.image c.config
          (kconfigSymbols c.kconfigFiles)) }
| .report =>
    plan.configOnly = false → ∃ c, Leaves sum unpack w plan c

/- What holds of the cache at each point of a run. -/
def AtPhase (w : World) : Prop :=
  match w.phase with
  | .idle => True
  | .started inputs => Harmless inputs
  | .running inputs plan command =>
      Prepared sum inputs plan ∧
        AtCommand sum unpack w plan command
  | .exited inputs status =>
      status = 0 →
        ∃ plan, Prepared sum inputs plan ∧
          (plan.configOnly = false →
            ∃ c, Leaves sum unpack w plan c)

/- The invariant of all that is reachable. -/
structure Sound (w : World) : Prop where
  cache : CacheSound sum unpack w
  phase : AtPhase sum unpack w

variable {sum unpack}

/- What was compiled stays compiled. -/
theorem Genuine.mono
    {w u : World} {plan : Plan} {c : Compilation}
    (hGenuine : Genuine sum unpack w plan c)
    (hSub : w.compilations ⊆ u.compilations) :
    Genuine sum unpack u plan c :=
  ⟨hSub hGenuine.1, hGenuine.2⟩

/- What was compiled stays compiled. -/
theorem Published.mono
    {w u : World} {put : Text × Text}
    (hPublished : Published sum unpack w put)
    (hSub : w.compilations ⊆ u.compilations) :
    Published sum unpack u put := by
  rcases hPublished with
    ⟨inputs, plan, c, hPlan, hFingerprint, hGenuine, hText⟩
  exact ⟨inputs, plan, c, hPlan, hFingerprint,
    hGenuine.mono hSub, hText⟩

/- A step that leaves the cache as it is. -/
theorem CacheSound.of_same
    {w u : World} (hSound : CacheSound sum unpack w)
    (hEntries : u.entries = w.entries)
    (hWritten : u.written = w.written)
    (hSub : w.compilations ⊆ u.compilations) :
    CacheSound sum unpack u where
  entries := by
    rw [hEntries, hWritten]
    exact hSound.entries
  written := by
    intro put hPut
    rw [hWritten] at hPut
    exact (hSound.written put hPut).mono hSub

/- One entry changes, and no text fits it but a written one. -/
theorem CacheSound.setEntry
    {w : World} (hSound : CacheSound sum unpack w)
    {fingerprint : Text} {changed : Option Entry}
    (hChanged :
      ∀ entry text, changed = some entry →
        fitting sum entry = some text →
        (fingerprint, text) ∈ w.written) :
    CacheSound sum unpack (w.setEntry fingerprint changed) where
  entries := by
    intro other entry text hEntry hFits
    change Function.update w.entries fingerprint changed other =
      some entry at hEntry
    by_cases hSame : other = fingerprint
    · rw [hSame, Function.update_self] at hEntry
      rw [hSame]
      exact hChanged entry text hEntry hFits
    · rw [Function.update_of_ne hSame] at hEntry
      exact hSound.entries other entry text hEntry hFits
  written := by
    intro put hPut
    exact (hSound.written put hPut).mono
      (List.Subset.refl w.compilations)

/- What is left of an entry fits only if all of it is. -/
theorem fitting_of_isRemainder
    {before : Option Entry} {after : Entry} {text : Text}
    (hLeft : isRemainder before (some after) = true)
    (hFits : fitting sum after = some text) :
    ∃ entry, before = some entry ∧
      fitting sum entry = some text := by
  cases before with
  | none => cases hLeft
  | some entry =>
      refine ⟨entry, rfl, ?_⟩
      obtain ⟨image, config, symbols, sums, hImage, hConfig,
        hSymbols, hSums, hSame, hText⟩ :=
        fitting_eq_some_iff.1 hFits
      unfold isRemainder at hLeft
      simp only [Bool.and_eq_true, Bool.or_eq_true,
        decide_eq_true_eq, hImage, hConfig, hSymbols, hSums,
        reduceCtorEq, false_or] at hLeft
      rcases hLeft with ⟨⟨⟨hI, hC⟩, hS⟩, hU⟩
      exact fitting_eq_some_iff.2 ⟨image, config, symbols, sums,
        hI.symm, hC.symm, hS.symm, hU.symm, hSame, hText⟩

/-
  An entry that is hit has the image of a compilation of the
  pinned kernel, whose configuration was checked just now.
-/
theorem CacheSound.genuine_of_hit
    {w : World} (hSound : CacheSound sum unpack w)
    {inputs : Inputs} {plan : Plan} {entry : Entry}
    (hPlan : Prepared sum inputs plan)
    (hEntry : w.entries plan.fingerprint = some entry)
    (hHit : isHit sum plan entry = true) :
    ∃ c, Genuine sum unpack w plan c ∧ Verified plan c ∧
      entry.bzImage = some c.image := by
  unfold isHit at hHit
  split at hHit
  · rename_i config symbols hConfig hSymbols
    rw [Bool.and_eq_true, decide_eq_true_eq] at hHit
    obtain ⟨text, hFits⟩ := Option.isSome_iff_exists.1 hHit.1
    obtain ⟨others, other, c, hOther, hFingerprint, hGenuine,
      hWritten⟩ :=
      hSound.written _
        (hSound.entries _ entry text hEntry hFits)
    obtain ⟨image, config', symbols', sums, hImage, hConfig',
      hSymbols', _, hSame, _⟩ := fitting_eq_some_iff.1 hFits
    rw [hConfig, Option.some.injEq] at hConfig'
    rw [hSymbols, Option.some.injEq] at hSymbols'
    obtain ⟨hI, hC, hS⟩ :=
      checksums_inj sum (hSame.trans hWritten.symm)
    have hSha :=
      sha256_of_fingerprint sum hOther hPlan hFingerprint
    refine ⟨c, ⟨hGenuine.1, ?_⟩, ?_, ?_⟩
    · rcases hGenuine.2 with ⟨tarball, hDigest, hUnpack⟩
      exact ⟨tarball, hDigest.trans hSha, hUnpack⟩
    · unfold Verified
      rw [← hC, ← hS, ← hConfig', ← hSymbols']
      exact hHit.2
    · rw [hImage, hI]
  · cases hHit

------------------------------------------------------------
-- Commands Keep the Invariant
------------------------------------------------------------

/- Neither the tree nor the compilation is touched. -/
theorem Built.of_same
    {w u : World} {plan : Plan} {c : Compilation}
    (hBuilt : Built sum unpack w plan c)
    (hTree : u.tree = w.tree)
    (hSub : w.compilations ⊆ u.compilations) :
    Built sum unpack u plan c where
  genuine := hBuilt.genuine.mono hSub
  config := by rw [hTree, hBuilt.config]
  symbols := by rw [hTree, hBuilt.symbols]
  image := by rw [hTree, hBuilt.image]

/- The next command does not change what is staged. -/
theorem Staged.goTo
    {w : World} {inputs : Inputs} {plan : Plan}
    {files : Compilation → Entry} {next : Command}
    (hStaged : Staged sum unpack w plan files) :
    Staged sum unpack (w.goTo inputs plan next) plan
      files := by
  rcases hStaged with ⟨c, hBuilt, hVerified, hStage⟩
  exact ⟨c, hBuilt.of_same rfl (List.Subset.refl _),
    hVerified, hStage⟩

/- Nor what is known at a command. -/
theorem AtCommand.goTo
    {w : World} {inputs : Inputs} {plan : Plan}
    {command next : Command}
    (hAt : AtCommand sum unpack w plan command) :
    AtCommand sum unpack (w.goTo inputs plan next) plan
      command := by
  cases command with
  | reverify =>
      rcases hAt with ⟨c, hBuilt⟩
      exact ⟨c, hBuilt.of_same rfl (List.Subset.refl _)⟩
  | stageImage =>
      rcases hAt with ⟨c, hBuilt, hVerified⟩
      exact ⟨c, hBuilt.of_same rfl (List.Subset.refl _),
        hVerified⟩
  | stageConfig => exact Staged.goTo hAt
  | stageSymbols => exact Staged.goTo hAt
  | stageSums => exact Staged.goTo hAt
  | publish => exact Staged.goTo hAt
  | _ => exact hAt

/- The run goes on where it may. -/
theorem Sound.goTo
    {w : World} {inputs : Inputs} {plan : Plan}
    {next : Command}
    (hCache : CacheSound sum unpack w)
    (hPlan : Prepared sum inputs plan)
    (hAt : AtCommand sum unpack w plan next) :
    Sound sum unpack (w.goTo inputs plan next) where
  cache := hCache.of_same rfl rfl (List.Subset.refl _)
  phase := ⟨hPlan, hAt.goTo⟩

/- The run may always fail. -/
theorem Sound.failed
    {w : World} {inputs : Inputs} {status : Nat}
    (hCache : CacheSound sum unpack w) (hStatus : status ≠ 0) :
    Sound sum unpack (w.exit inputs status) where
  cache := hCache.of_same rfl rfl (List.Subset.refl _)
  phase := fun hZero => absurd hZero hStatus

section Commands

variable {w u : World} {inputs : Inputs} {plan : Plan}

/- The check of the tree, with what follows when it passes. -/
theorem verifyTree_cases
    {after : World → World}
    (hVerify : verifyTree w inputs plan after = some u) :
    u = w.exit inputs 1 ∨
      ∃ config symbols, w.tree.config = some config ∧
        w.tree.symbols = some symbols ∧
        verifyConfig plan.directives config symbols = [] ∧
        u = after w := by
  unfold verifyTree at hVerify
  simp only [bind, Option.bind_eq_some_iff] at hVerify
  rcases hVerify with
    ⟨config, hConfig, symbols, hSymbols, hResult⟩
  split at hResult
  · rename_i hNone
    rw [Option.some.injEq] at hResult
    exact .inr ⟨config, symbols, hConfig, hSymbols, hNone,
      hResult.symm⟩
  · rw [Option.some.injEq] at hResult
    exact .inl hResult.symm

/- Each command keeps the invariant: the lookup. -/
theorem complete_lookup_sound
    (hCache : CacheSound sum unpack w)
    (hPlan : Prepared sum inputs plan)
    (hStep :
      complete sum unpack w inputs plan .lookup = some u) :
    Sound sum unpack u := by
  unfold complete at hStep
  dsimp only at hStep
  split at hStep
  · rename_i entry hEntry
    split at hStep
    · split at hStep
      · rename_i hHit
        rw [Option.some.injEq] at hStep
        rw [← hStep]
        obtain ⟨c, hGenuine, hVerified, hImage⟩ :=
          hCache.genuine_of_hit hPlan hEntry hHit
        apply Sound.goTo hCache hPlan
        exact ⟨c, entry, hGenuine, hVerified, hEntry, hImage⟩
      · rw [Option.some.injEq] at hStep
        rw [← hStep]
        exact Sound.goTo hCache hPlan trivial
    · rw [Option.some.injEq] at hStep
      rw [← hStep]
      exact Sound.goTo hCache hPlan trivial
  · rw [Option.some.injEq] at hStep
    rw [← hStep]
    exact Sound.goTo hCache hPlan trivial

/- The command before the check is over, in either mode. -/
theorem complete_verify_sound
    (hCache : CacheSound sum unpack w)
    (hPlan : Prepared sum inputs plan)
    (hIndexed : Indexed sum unpack w plan)
    (hStep :
      complete sum unpack w inputs plan .verify = some u) :
    Sound sum unpack u := by
  have hVerify :
      verifyTree w inputs plan
          (fun u =>
            if plan.configOnly then
              u.goTo inputs plan .report
            else
              u.goTo inputs plan .compile) = some u :=
    hStep
  rcases verifyTree_cases hVerify with hFailed | hPassed
  · rw [hFailed]
    exact Sound.failed hCache Nat.one_ne_zero
  · rcases hPassed with ⟨config, symbols, _, _, _, hAfter⟩
    rw [hAfter]
    split
    · rename_i hOnly
      apply Sound.goTo hCache hPlan
      intro hBuild
      rw [hOnly] at hBuild
      cases hBuild
    · exact Sound.goTo hCache hPlan hIndexed

/- And the check of what was compiled. -/
theorem complete_reverify_sound
    (hCache : CacheSound sum unpack w)
    (hPlan : Prepared sum inputs plan)
    {c : Compilation} (hBuilt : Built sum unpack w plan c)
    (hStep :
      complete sum unpack w inputs plan .reverify = some u) :
    Sound sum unpack u := by
  have hVerify :
      verifyTree w inputs plan
          (fun u => u.goTo inputs plan .stageImage) = some u :=
    hStep
  rcases verifyTree_cases hVerify with hFailed | hPassed
  · rw [hFailed]
    exact Sound.failed hCache Nat.one_ne_zero
  · rcases hPassed with
      ⟨config, symbols, hConfig, hSymbols, hNone, hAfter⟩
    rw [hBuilt.config, Option.some.injEq] at hConfig
    rw [hBuilt.symbols, Option.some.injEq] at hSymbols
    rw [hAfter]
    apply Sound.goTo hCache hPlan
    refine ⟨c, hBuilt, ?_⟩
    unfold Verified
    rw [hConfig, hSymbols]
    exact hNone

/- The stage is moved into place, or into what is there. -/
theorem complete_publish_sound
    (hCache : CacheSound sum unpack w)
    (hPlan : Prepared sum inputs plan)
    {c : Compilation} (hBuilt : Built sum unpack w plan c)
    (hVerified : Verified plan c)
    (hStage : w.stage =
      { bzImage := some c.image
        config := some c.config
        symbols := some (kconfigSymbols c.kconfigFiles)
        sums := some (checksums sum c.image c.config
          (kconfigSymbols c.kconfigFiles)) })
    (hStep :
      complete sum unpack w inputs plan .publish = some u) :
    Sound sum unpack u := by
  have hSums :
      w.stage.sums = some (checksums sum c.image c.config
        (kconfigSymbols c.kconfigFiles)) := by
    rw [hStage]
  change (w.stage.sums.bind fun sums => some _) = some u
    at hStep
  rw [hSums, Option.bind_some, Option.some.injEq] at hStep
  rw [← hStep]
  apply Sound.goTo _ hPlan
  · intro _
    exact ⟨c, hBuilt.genuine, hVerified, hBuilt.image⟩
  · refine ⟨?_, ?_⟩
    · intro other entry text hEntry hFits
      by_cases hSame : other = plan.fingerprint
      · change Function.update w.entries plan.fingerprint _
          other = some entry at hEntry
        rw [hSame, Function.update_self,
          Option.some.injEq] at hEntry
        rw [hSame]
        cases hOld : w.entries plan.fingerprint with
        | none =>
            rw [hOld, Option.getD_none, hStage] at hEntry
            rw [← hEntry, fitting_eq_some_iff] at hFits
            rcases hFits with ⟨_, _, _, sums, _, _, _, hPut,
              _, hText⟩
            cases hPut
            rw [← hText]
            exact List.mem_cons_self
        | some old =>
            rw [hOld, Option.getD_some] at hEntry
            rw [← hEntry] at hFits
            exact List.mem_cons_of_mem _
              (hCache.entries _ old text hOld hFits)
      · change Function.update w.entries plan.fingerprint _
          other = some entry at hEntry
        rw [Function.update_of_ne hSame] at hEntry
        exact List.mem_cons_of_mem _
          (hCache.entries other entry text hEntry hFits)
    · intro put hPut
      rcases List.mem_cons.1 hPut with rfl | hOld
      · exact ⟨inputs, plan, c, hPlan, rfl, hBuilt.genuine, rfl⟩
      · exact (hCache.written put hOld).mono
          (List.Subset.refl _)

/- A command that ends well keeps the invariant. -/
theorem complete_sound
    (hCache : CacheSound sum unpack w)
    (hPlan : Prepared sum inputs plan)
    {command : Command}
    (hAt : AtCommand sum unpack w plan command)
    (hStep :
      complete sum unpack w inputs plan command = some u) :
    Sound sum unpack u := by
  have hTouched :
      ∀ tree stage,
        CacheSound sum unpack
          { w with tree := tree, stage := stage } := by
    intro tree stage
    exact hCache.of_same rfl rfl (List.Subset.refl _)
  cases command with
  | lookup => exact complete_lookup_sound hCache hPlan hStep
  | restoreImage =>
      rcases hAt with
        ⟨c, entry, hGenuine, hVerified, hEntry, hImage⟩
      unfold complete at hStep
      simp only [hEntry, hImage, bind,
        Option.bind_some, Option.some.injEq] at hStep
      rw [← hStep]
      apply Sound.goTo (hTouched _ _) hPlan
      exact ⟨c, hGenuine, hVerified, rfl⟩
  | restoreConfig =>
      rcases hAt with ⟨c, hGenuine, hVerified, hImage⟩
      unfold complete at hStep
      simp only [bind, Option.bind_eq_some_iff,
        Option.some.injEq] at hStep
      rcases hStep with ⟨_, _, _, _, hStep⟩
      rw [← hStep]
      apply Sound.goTo (hTouched _ _) hPlan
      intro _
      exact ⟨c, hGenuine, hVerified, hImage⟩
  | removeEntry =>
      unfold complete at hStep
      simp only [Option.some.injEq] at hStep
      rw [← hStep]
      apply Sound.goTo _ hPlan
      · trivial
      · apply hCache.setEntry
        intro entry text hEntry
        cases hEntry
  | fetch =>
      unfold complete at hStep
      dsimp only at hStep
      split at hStep
      · rw [Option.some.injEq] at hStep
        rw [← hStep]
        exact Sound.goTo hCache hPlan trivial
      · cases hStep
  | checkTarball =>
      unfold complete at hStep
      simp only [bind, Option.bind_eq_some_iff] at hStep
      rcases hStep with ⟨tarball, hTarball, hStep⟩
      split at hStep
      · rename_i hDigest
        rw [Option.some.injEq] at hStep
        rw [← hStep]
        apply Sound.goTo hCache hPlan
        exact ⟨tarball, hTarball, hDigest⟩
      · rw [Option.some.injEq] at hStep
        rw [← hStep]
        apply Sound.failed _ Nat.one_ne_zero
        exact hCache.of_same rfl rfl (List.Subset.refl _)
  | extract =>
      rcases hAt with ⟨tarball, hTarball, hDigest⟩
      unfold complete at hStep
      simp only [hTarball, bind, Option.bind_some,
        Option.bind_eq_some_iff, Option.some.injEq] at hStep
      rcases hStep with ⟨files, hUnpack, hStep⟩
      rw [← hStep]
      apply Sound.goTo (hTouched _ _) hPlan
      exact ⟨tarball, hDigest, hUnpack⟩
  | indexSymbols =>
      unfold complete at hStep
      simp only [Option.some.injEq] at hStep
      rw [← hStep]
      exact Sound.goTo (hTouched _ _) hPlan ⟨hAt, rfl⟩
  | configure rest =>
      cases rest with
      | nil =>
          unfold complete at hStep
          simp only [Option.some.injEq] at hStep
          rw [← hStep]
          exact Sound.goTo hCache hPlan hAt
      | cons first rest => cases hStep
  | verify =>
      exact complete_verify_sound hCache hPlan hAt hStep
  | compile => cases hStep
  | reverify =>
      rcases hAt with ⟨c, hBuilt⟩
      exact complete_reverify_sound hCache hPlan hBuilt hStep
  | stageImage =>
      rcases hAt with ⟨c, hBuilt, hVerified⟩
      unfold complete at hStep
      simp only [hBuilt.image, bind,
        Option.bind_some, Option.some.injEq] at hStep
      rw [← hStep]
      apply Sound.goTo (hTouched _ _) hPlan
      exact ⟨c, hBuilt.of_same rfl (List.Subset.refl _),
        hVerified, rfl⟩
  | stageConfig =>
      rcases hAt with ⟨c, hBuilt, hVerified, hStage⟩
      unfold complete at hStep
      simp only [hBuilt.config, hStage, bind,
        Option.bind_some, Option.some.injEq] at hStep
      rw [← hStep]
      apply Sound.goTo (hTouched _ _) hPlan
      exact ⟨c, hBuilt.of_same rfl (List.Subset.refl _),
        hVerified, rfl⟩
  | stageSymbols =>
      rcases hAt with ⟨c, hBuilt, hVerified, hStage⟩
      unfold complete at hStep
      simp only [hBuilt.symbols, hStage, bind,
        Option.bind_some, Option.some.injEq] at hStep
      rw [← hStep]
      apply Sound.goTo (hTouched _ _) hPlan
      exact ⟨c, hBuilt.of_same rfl (List.Subset.refl _),
        hVerified, rfl⟩
  | stageSums =>
      rcases hAt with ⟨c, hBuilt, hVerified, hStage⟩
      unfold complete at hStep
      simp only [hStage, bind,
        Option.bind_some, Option.some.injEq] at hStep
      rw [← hStep]
      apply Sound.goTo (hTouched _ _) hPlan
      exact ⟨c, hBuilt.of_same rfl (List.Subset.refl _),
        hVerified, rfl⟩
  | publish =>
      rcases hAt with ⟨c, hBuilt, hVerified, hStage⟩
      exact complete_publish_sound hCache hPlan hBuilt
        hVerified hStage hStep
  | report =>
      unfold complete at hStep
      simp only [Option.some.injEq] at hStep
      rw [← hStep]
      refine ⟨?_, ?_⟩
      · exact hCache.of_same rfl rfl (List.Subset.refl _)
      · intro _
        exact ⟨plan, hPlan, hAt⟩

/- So does an answer, whatever it is, -/
theorem answer_sound
    (hCache : CacheSound sum unpack w)
    (hPlan : Prepared sum inputs plan)
    {command : Command} {text : Text}
    (hAt : AtCommand sum unpack w plan command)
    (hStep : answer w inputs plan text command = some u) :
    Sound sum unpack u := by
  unfold answer at hStep
  split at hStep
  · split at hStep
    · cases hStep
    · rw [Option.some.injEq] at hStep
      rw [← hStep]
      apply Sound.goTo _ hPlan
      · trivial
      · exact hCache.of_same rfl rfl (List.Subset.refl _)
  · rw [Option.some.injEq] at hStep
    rw [← hStep]
    apply Sound.goTo _ hPlan
    · exact hAt
    · exact hCache.of_same rfl rfl (List.Subset.refl _)
  · cases hStep

/- and a compilation, which is then one that was run. -/
theorem compileWith_sound
    (hCache : CacheSound sum unpack w)
    (hPlan : Prepared sum inputs plan)
    {command : Command} {config image : Text}
    (hAt : AtCommand sum unpack w plan command)
    (hStep :
      compileWith w inputs plan config image command =
        some u) :
    Sound sum unpack u := by
  unfold compileWith at hStep
  split at hStep
  · rw [Option.some.injEq] at hStep
    rw [← hStep]
    rcases hAt with ⟨hPinned, hSymbols⟩
    apply Sound.goTo _ hPlan
    · exact ⟨⟨w.tree.kconfigFiles, config, image⟩,
        ⟨List.mem_cons_self, hPinned⟩, rfl, hSymbols, rfl⟩
    · exact hCache.of_same rfl rfl (List.subset_cons_self _ _)
  · cases hStep

/- What is left of the cache when a command does not end. -/
theorem interrupt_sound
    (hCache : CacheSound sum unpack w)
    {command : Command} {tree : Tree} {left : Option Entry}
    (hStep : interrupt w plan tree left command = some u) :
    CacheSound sum unpack u := by
  unfold interrupt at hStep
  split at hStep
  · split at hStep
    · rename_i hLeft
      rw [Option.some.injEq] at hStep
      rw [← hStep]
      have hSet :
          CacheSound sum unpack
            (w.setEntry plan.fingerprint left) := by
        apply hCache.setEntry
        intro entry text hEntry hFits
        rw [hEntry] at hLeft
        obtain ⟨before, hBefore, hFitsBefore⟩ :=
          fitting_of_isRemainder hLeft hFits
        exact hCache.entries _ before text hBefore hFitsBefore
      exact hSet.of_same rfl rfl (List.Subset.refl _)
    · cases hStep
  · rw [Option.some.injEq] at hStep
    rw [← hStep]
    exact hCache.of_same rfl rfl (List.Subset.refl _)

end Commands

------------------------------------------------------------
-- Runs Keep the Invariant
------------------------------------------------------------

variable {w u : World}

/- Between runs, only what a run left in the tree counts. -/
theorem AtPhase.of_inactive
    (hAt : AtPhase sum unpack w)
    (hInactive : isActive w.phase ≠ true)
    (hPhase : u.phase = w.phase) (hTree : u.tree = w.tree)
    (hSub : w.compilations ⊆ u.compilations) :
    AtPhase sum unpack u := by
  unfold AtPhase at hAt ⊢
  rw [hPhase]
  cases hState : w.phase with
  | idle => trivial
  | started inputs =>
      rw [hState] at hAt
      exact hAt
  | running inputs plan command =>
      rw [hState] at hInactive
      exact absurd rfl hInactive
  | exited inputs status =>
      rw [hState] at hAt
      intro hZero
      rcases hAt hZero with ⟨plan, hPlan, hLeaves⟩
      refine ⟨plan, hPlan, ?_⟩
      intro hBuild
      rcases hLeaves hBuild with
        ⟨c, hGenuine, hVerified, hImage⟩
      refine ⟨c, hGenuine.mono hSub, hVerified, ?_⟩
      rw [hTree]
      exact hImage

/- A run that begins has fragments whose NULs do no harm. -/
def BeginsHarmless (_ : World) : Event → Prop
| .begin inputs => Harmless inputs
| _ => True

/- Only an entry whose checksums were written may appear. -/
theorem corrupts_sound
    {fingerprint : Text} {entry : Option Entry}
    (hSound : Sound sum unpack w)
    (hStep :
      step sum unpack w (.corrupts fingerprint entry) =
        some u) :
    Sound sum unpack u := by
  unfold step at hStep
  dsimp only at hStep
  split at hStep
  · cases hStep
  · rename_i hInactive
    have hSet :
        (∀ changed text, entry = some changed →
          fitting sum changed = some text →
          (fingerprint, text) ∈ w.written) →
        some (w.setEntry fingerprint entry) = some u →
        Sound sum unpack u := by
      intro hChanged hSame
      rw [Option.some.injEq] at hSame
      rw [← hSame]
      refine ⟨hSound.cache.setEntry hChanged, ?_⟩
      exact hSound.phase.of_inactive hInactive rfl rfl
        (List.Subset.refl _)
    split at hStep
    · rename_i hNone
      apply hSet _ hStep
      intro changed text hEntry hFits
      rw [hEntry, Option.bind_some, hFits] at hNone
      cases hNone
    · rename_i text hSome
      split at hStep
      · rename_i hWritten
        apply hSet _ hStep
        intro changed other hEntry hFits
        rw [hEntry, Option.bind_some, hFits,
          Option.some.injEq] at hSome
        rw [hSome]
        exact hWritten
      · cases hStep

/- So whatever completes keeps it. -/
theorem completes_sound
    (hSound : Sound sum unpack w)
    (hStep : step sum unpack w .completes = some u) :
    Sound sum unpack u := by
  have hPhase := hSound.phase
  unfold step at hStep
  dsimp only at hStep
  unfold AtPhase at hPhase
  cases hState : w.phase with
  | idle => simp [hState] at hStep
  | exited inputs status => simp [hState] at hStep
  | started inputs =>
      rw [hState] at hPhase
      simp only [hState] at hStep
      split at hStep
      · rename_i plan hPrepare
        rw [Option.some.injEq] at hStep
        rw [← hStep]
        exact Sound.goTo hSound.cache
          (prepared_of_prepare sum hPhase hPrepare) trivial
      · rename_i error _
        rw [Option.some.injEq] at hStep
        rw [← hStep]
        exact Sound.failed hSound.cache (status_ne_zero error)
  | running inputs plan command =>
      rw [hState] at hPhase
      simp only [hState] at hStep
      exact complete_sound hSound.cache hPhase.1 hPhase.2 hStep

/- A command that fails leaves only its tree behind. -/
theorem fails_sound
    {status : Nat} {tree : Tree} {left : Option Entry}
    (hSound : Sound sum unpack w)
    (hStep :
      step sum unpack w (.fails status tree left) = some u) :
    Sound sum unpack u := by
  unfold step at hStep
  dsimp only at hStep
  cases hState : w.phase with
  | idle => simp [hState] at hStep
  | exited inputs status => simp [hState] at hStep
  | started inputs =>
      simp only [hState] at hStep
      split at hStep
      · cases hStep
      · rename_i hStatus
        rw [Option.some.injEq] at hStep
        rw [← hStep]
        exact Sound.failed hSound.cache hStatus
  | running inputs plan command =>
      simp only [hState] at hStep
      split at hStep
      · cases hStep
      · rename_i hStatus
        rw [Option.map_eq_some_iff] at hStep
        rcases hStep with ⟨v, hInterrupt, hExit⟩
        rw [← hExit]
        exact Sound.failed
          (interrupt_sound hSound.cache hInterrupt) hStatus

/- So does a run that is killed. -/
theorem killed_sound
    {tree : Tree} {left : Option Entry}
    (hSound : Sound sum unpack w)
    (hStep :
      step sum unpack w (.killed tree left) = some u) :
    Sound sum unpack u := by
  unfold step at hStep
  dsimp only at hStep
  cases hState : w.phase with
  | idle => simp [hState] at hStep
  | exited inputs status => simp [hState] at hStep
  | started inputs =>
      simp only [hState, Option.some.injEq] at hStep
      rw [← hStep]
      refine ⟨?_, trivial⟩
      exact hSound.cache.of_same rfl rfl (List.Subset.refl _)
  | running inputs plan command =>
      simp only [hState, Option.map_eq_some_iff] at hStep
      rcases hStep with ⟨v, hInterrupt, hIdle⟩
      rw [← hIdle]
      refine ⟨?_, trivial⟩
      exact
        (interrupt_sound hSound.cache hInterrupt).of_same
          rfl rfl (List.Subset.refl _)

/- Every event keeps the invariant. -/
theorem sound_step
    {event : Event} (hSound : Sound sum unpack w)
    (hHarmless : BeginsHarmless w event)
    (hStep : step sum unpack w event = some u) :
    Sound sum unpack u := by
  have hCache := hSound.cache
  have hPhase := hSound.phase
  cases event with
  | begin inputs =>
      unfold step at hStep
      dsimp only at hStep
      split at hStep
      · cases hStep
      · rw [Option.some.injEq] at hStep
        rw [← hStep]
        refine ⟨?_, hHarmless⟩
        exact hCache.of_same rfl rfl (List.Subset.refl _)
  | corrupts fingerprint entry =>
      exact corrupts_sound hSound hStep
  | replacesTarball version tarball =>
      unfold step at hStep
      dsimp only at hStep
      split at hStep
      · cases hStep
      · rename_i hInactive
        rw [Option.some.injEq] at hStep
        rw [← hStep]
        refine ⟨?_, ?_⟩
        · exact hCache.of_same rfl rfl (List.Subset.refl _)
        · exact hPhase.of_inactive hInactive rfl rfl
            (List.Subset.refl _)
  | completes => exact completes_sound hSound hStep
  | answers text =>
      unfold step at hStep
      dsimp only at hStep
      unfold AtPhase at hPhase
      cases hState : w.phase with
      | running inputs plan command =>
          rw [hState] at hPhase
          simp only [hState] at hStep
          exact answer_sound hCache hPhase.1 hPhase.2 hStep
      | _ => simp [hState] at hStep
  | compiles config image =>
      unfold step at hStep
      dsimp only at hStep
      unfold AtPhase at hPhase
      cases hState : w.phase with
      | running inputs plan command =>
          rw [hState] at hPhase
          simp only [hState] at hStep
          exact compileWith_sound hCache hPhase.1 hPhase.2 hStep
      | _ => simp [hState] at hStep
  | fails status tree left => exact fails_sound hSound hStep
  | killed tree left => exact killed_sound hSound hStep

/- The invariant holds in every state that is reached. -/
theorem sound_of_reachableUnder
    (hReach :
      (system sum unpack).ReachableUnder BeginsHarmless w) :
    Sound sum unpack w := by
  apply hReach.invariant (P := fun w => Sound sum unpack w)
  · rintro w ⟨hIdle, hEntries, hCompilations, hWritten⟩
    refine ⟨⟨?_, ?_⟩, ?_⟩
    · intro fingerprint entry text hEntry
      rw [hEntries] at hEntry
      cases hEntry
    · intro put hPut
      rw [hWritten] at hPut
      cases hPut
    · unfold AtPhase
      rw [hIdle]
      trivial
  · intro w event u hSound hHarmless hStep
    exact sound_step hSound hHarmless hStep

end Invariant

------------------------------------------------------------
-- Directives Took
------------------------------------------------------------

section Directives

variable (sum : Checksum)
variable (unpack : Text → Option (List Text))

/-
  A build that has exited with success left the image of a
  compilation of the pinned kernel. Its configuration has
  what the last line with each key asks for, and the kernel
  declares the key.
-/
def Took (w : World) : Prop :=
  ∀ inputs, w.phase = .exited inputs 0 →
    parseArguments inputs.arguments = .ok false →
    ∃ paths c, fragmentPaths inputs = .ok paths ∧
      c ∈ w.compilations ∧ w.tree.bzImage = some c.image ∧
      (∃ tarball, unpack tarball = some c.kconfigFiles ∧
        sum.digest tarball =
          (inputs.expand "CARGO_UNIKERNEL_KERNEL_SHA256"
            "").map Char.toLower) ∧
      ∀ key directive,
        LastWrite key directive (writes inputs.files paths) →
          Satisfies c.config key directive ∧
            Declares c.kconfigFiles key

/-
  A run whose fragments have a line that is no directive
  exits with a status that is not zero, and whatever happens
  to it, the cache is left as it is.
-/
def Rejects (w : World) : Prop :=
  ∀ inputs paths line, w.phase = .started inputs →
    fragmentPaths inputs = .ok paths →
    line ∈ fragmentLines inputs.files paths →
    Malformed line →
    (∃ status, status ≠ 0 ∧
      step sum unpack w .completes =
        some (w.exit inputs status)) ∧
    ∀ event u, step sum unpack w event = some u →
      u.entries = w.entries ∧
        (u.phase = .idle ∨ ∃ status, status ≠ 0 ∧
          u.phase = .exited inputs status)

variable {sum unpack}

/- The invariant says that directives took. -/
theorem Sound.took
    {w : World} (hSound : Sound sum unpack w) :
    Took sum unpack w := by
  intro inputs hExited hBuild
  have hPhase := hSound.phase
  unfold AtPhase at hPhase
  rw [hExited] at hPhase
  rcases hPhase rfl with ⟨plan, hPlan, hLeaves⟩
  have hOnly : plan.configOnly = false := by
    have hArguments := hPlan.arguments
    rw [hBuild] at hArguments
    exact (Except.ok.inj hArguments).symm
  rcases hLeaves hOnly with
    ⟨c, ⟨hRan, tarball, hDigest, hUnpack⟩, hVerified, hImage⟩
  rcases hPlan.fragments with ⟨paths, hPaths, hParse⟩
  have hNul := hPlan.harmless paths hPaths
  refine ⟨paths, c, hPaths, hRan, hImage,
    ⟨tarball, hUnpack, hDigest.trans hPlan.sha256⟩, ?_⟩
  intro key directive hLast
  exact verifyConfig_sound hParse hVerified
    ((value_of_parseFragments hParse hNul).2 hLast)

/- No plan comes of a line that is no directive. -/
theorem prepare_of_malformed
    {inputs : Inputs} {paths : List Text} {line : Text}
    (hHarmless : Harmless inputs)
    (hPaths : fragmentPaths inputs = .ok paths)
    (hLine : line ∈ fragmentLines inputs.files paths)
    (hMalformed : Malformed line) :
    ∃ error, prepare sum inputs = .error error := by
  cases hPrepare : prepare sum inputs with
  | error error => exact ⟨error, rfl⟩
  | ok plan =>
      rcases (prepared_of_prepare sum hHarmless
        hPrepare).fragments with ⟨others, hOthers, hParse⟩
      rw [hPaths, Except.ok.injEq] at hOthers
      obtain ⟨error, hError⟩ :=
        parseFragments_of_malformed (hHarmless paths hPaths)
          hLine hMalformed
      rw [hOthers, hParse] at hError
      cases hError

/- And that bad requests were refused. -/
theorem Sound.rejects
    {w : World} (hSound : Sound sum unpack w) :
    Rejects sum unpack w := by
  intro inputs paths line hStarted hPaths hLine hMalformed
  have hPhase := hSound.phase
  unfold AtPhase at hPhase
  rw [hStarted] at hPhase
  obtain ⟨error, hError⟩ :=
    @prepare_of_malformed sum _ _ _ hPhase hPaths hLine
      hMalformed
  have hCompletes :
      step sum unpack w .completes =
        some (w.exit inputs error.status) := by
    unfold step
    simp only [hStarted, hError]
  refine ⟨⟨_, status_ne_zero error, hCompletes⟩, ?_⟩
  intro event u hStep
  cases event with
  | completes =>
      rw [hCompletes, Option.some.injEq] at hStep
      rw [← hStep]
      exact ⟨rfl, .inr ⟨_, status_ne_zero error, rfl⟩⟩
  | fails status tree left =>
      unfold step at hStep
      simp only [hStarted] at hStep
      split at hStep
      · cases hStep
      · rename_i hStatus
        rw [Option.some.injEq] at hStep
        rw [← hStep]
        exact ⟨rfl, .inr ⟨status, hStatus, rfl⟩⟩
  | killed tree left =>
      unfold step at hStep
      simp only [hStarted, Option.some.injEq] at hStep
      rw [← hStep]
      exact ⟨rfl, .inl rfl⟩
  | _ => simp [step, hStarted, isActive] at hStep

end Directives

------------------------------------------------------------
-- Two Runs
------------------------------------------------------------

/- A stand-in for the digest of the texts but for one. -/
def spell (c : Char) : Text :=
  List.replicate c.toNat 'a' ++ ['b']

/- Texts are told apart by their spelling. -/
theorem spell_inj
    {s t : Text} (hSame : s.flatMap spell = t.flatMap spell) :
    s = t := by
  induction s generalizing t with
  | nil =>
      cases t with
      | nil => rfl
      | cons c t => simp [spell] at hSame
  | cons c s ih =>
      cases t with
      | nil => simp [spell] at hSame
      | cons d t =>
          have hFree : ∀ n, 'b' ∉ List.replicate n 'a' := by
            intro n hMem
            exact absurd (List.eq_of_mem_replicate hMem)
              (by decide)
          have hText :
              ∀ (e : Char) (u : Text),
                (e :: u).flatMap spell =
                  List.replicate e.toNat 'a' ++
                    'b' :: u.flatMap spell := by
            simp [spell]
          have hSplit :=
            Text.splitOnce_append (hFree c.toNat)
              (s.flatMap spell)
          rw [← hText, hSame, hText,
            Text.splitOnce_append (hFree d.toNat),
            Option.some.injEq, Prod.mk.injEq] at hSplit
          have hLength :=
            congrArg List.length hSplit.1
          simp only [List.length_replicate] at hLength
          rw [ih hSplit.2.symm, Char.toNat_inj.1 hLength]

/- The digest the default kernel is pinned to. -/
def tarballDigest : Text :=
  ("caf90169eefa5f807d577486b9f795ab" ++
    "86ae2983c5c20806cff959117e90af18").toList

/- A digest that spells every text but one. -/
theorem isHexDigit_of_mem_spelled
    {write : Char → Text} {s : Text} {c : Char}
    (hWrite : ∀ d, ∀ e ∈ write d, isHexDigit e = true)
    (hMem :
      c ∈
        if s = "linux".toList then
          tarballDigest
        else
          '0' :: s.flatMap write) :
    isHexDigit c = true := by
  split at hMem
  · have hAll :
        tarballDigest.all isHexDigit = true := by
      decide
    exact List.all_eq_true.1 hAll c hMem
  · rcases List.mem_cons.1 hMem with rfl | hSpelled
    · rfl
    · rcases List.mem_flatMap.1 hSpelled with ⟨d, _, hDigit⟩
      exact hWrite d c hDigit

/- The one tarball is told apart from them. -/
theorem eq_of_spelled
    {write : Char → Text} {s t : Text}
    (hWrite :
      s.flatMap write = t.flatMap write → s = t)
    (hSame :
      (if s = "linux".toList then
          tarballDigest
        else
          '0' :: s.flatMap write) =
        if t = "linux".toList then
          tarballDigest
        else
          '0' :: t.flatMap write) :
    s = t := by
  by_cases hS : s = "linux".toList
  · by_cases hT : t = "linux".toList
    · rw [hS, hT]
    · rw [if_pos hS, if_neg hT] at hSame
      cases hSame
  · by_cases hT : t = "linux".toList
    · rw [if_neg hS, if_pos hT] at hSame
      cases hSame
    · rw [if_neg hS, if_neg hT, List.cons.injEq] at hSame
      exact hWrite hSame.2

/-
  The one tarball has its digest, other texts are spelled.
-/
def plainDigest (s : Text) : Text :=
  if s = "linux".toList then
    tarballDigest
  else
    '0' :: s.flatMap spell

/- A checksum that has no collisions. -/
def plainChecksum : Checksum where
  digest := plainDigest
  hex := by
    intro s c hMem
    apply isHexDigit_of_mem_spelled _ hMem
    intro d e hLetter
    unfold spell at hLetter
    rcases List.mem_append.1 hLetter with hA | hB
    · rw [List.eq_of_mem_replicate hA]
      rfl
    · rw [List.mem_singleton.1 hB]
      rfl
  injective := by
    intro s t hSame
    exact eq_of_spelled spell_inj hSame

/- There is one tarball, with one option in it. -/
def plainUnpack (tarball : Text) : Option (List Text) :=
  if tarball = "linux".toList then
    some ["config KVM_GUEST\n".toList]
  else
    none

/- Where the host puts the extra fragment. -/
def extraPath : Text :=
  "/build-meta/generated/extra-kconfig.config".toList

/- A build with one fragment that is not empty. -/
def inputsWith (extra : Text) : Inputs where
  arguments := []
  environment := fun name =>
    if name = "CARGO_UNIKERNEL_KERNEL_VERSION".toList then
      some "6.18.33".toList
    else if name = "CARGO_UNIKERNEL_KERNEL_SHA256".toList then
      some tarballDigest
    else if
      name = "CARGO_UNIKERNEL_EXTRA_KCONFIG_FILE".toList
    then
      some extraPath
    else
      none
  scriptDir := "/assets/kernel".toList
  files := fun path =>
    if path = extraPath then some extra else some []
  provenance := []

/- An empty cache, with the tarball downloaded. -/
def newWorld : World where
  phase := .idle
  tarballs := fun _ => some "linux".toList
  entries := fun _ => none
  tree := {}
  stage := {}
  compilations := []
  written := []

/- The configuration that comes out of it. -/
def plainConfig : Text :=
  "CONFIG_KVM_GUEST=y\n".toList

/- Everything that follows the start of a build. -/
def buildEvents : List Event :=
  List.replicate 6 .completes ++
    List.replicate 4 (.answers plainConfig) ++
    [.completes, .completes,
      .compiles plainConfig "bzImage".toList] ++
    List.replicate 7 .completes

/- A build that turns that option on. -/
def plainInputs : Inputs :=
  inputsWith "CONFIG_KVM_GUEST=enable\n".toList

/- The line has a NUL in the middle of its key. -/
def nulInputs : Inputs :=
  inputsWith "CONFIG_KVM\x00_GUEST=enable\n".toList

/- The script, run with these tools. -/
def systemOfPlain : Transition.System World Event :=
  system plainChecksum plainUnpack

/- Nothing is there at the beginning. -/
theorem isNew_newWorld : systemOfPlain.init newWorld :=
  ⟨rfl, fun _ => rfl, rfl, rfl⟩

/- A run has ended with status zero. -/
def hasSucceeded (w : World) : Bool :=
  match w.phase with
  | .exited _ status => status = 0
  | _ => false

/- A run that ends well. -/
theorem build_succeeds :
    (systemOfPlain.run newWorld
      (.begin plainInputs :: buildEvents)).any
        hasSucceeded = true := by
  decide

/- Nothing else is in the environment. -/
theorem plainInputs_harmless : Harmless plainInputs := by
  intro paths hPaths
  have hSome :
      fragmentPaths plainInputs =
        .ok (((bundledFragments plainInputs
          "casual.config").map fun name =>
            "/assets/kernel".toList ++ "/kconfig/".toList ++
              name.toList) ++ [extraPath]) := rfl
  rw [hSome, Except.ok.injEq] at hPaths
  rw [← hPaths]
  apply nulHarmless_of_not_mem
  decide

/-
  In every run in which no NUL in a fragment changes what
  its lines say, the directives took.
-/
theorem directives_took
    {sum : Checksum} {unpack : Text → Option (List Text)}
    {w : World}
    (hReach :
      (system sum unpack).ReachableUnder BeginsHarmless w) :
    Took sum unpack w ∧ Rejects sum unpack w := by
  have hSound := sound_of_reachableUnder hReach
  exact ⟨hSound.took, hSound.rejects⟩

/- A run to a success, and what is known then. -/
theorem directives_took_of_build :
    ∃ w, hasSucceeded w = true ∧
      Took plainChecksum plainUnpack w ∧
      Rejects plainChecksum plainUnpack w := by
  rcases (Option.any_eq_true _ _).1 build_succeeds with
    ⟨w, hRun, hExited⟩
  have hReach :
      systemOfPlain.ReachableUnder BeginsHarmless w := by
    apply Transition.System.ReachableUnder.run_of_mem _
      (.start isNew_newWorld) hRun
    intro event hEvent v
    rcases List.mem_cons.1 hEvent with rfl | hLater
    · exact plainInputs_harmless
    · simp only [buildEvents, List.mem_append,
        List.mem_replicate, List.mem_cons, List.not_mem_nil,
        or_false] at hLater
      rcases hLater with ((⟨_, rfl⟩ | ⟨_, rfl⟩) | hEnd) |
        ⟨_, rfl⟩
      · trivial
      · trivial
      · rcases hEnd with rfl | rfl | rfl
        · trivial
        · trivial
        · trivial
      · trivial
  exact ⟨w, hExited, directives_took hReach⟩

/- A run that is started with the line with a NUL. -/
def startedWithNul : World :=
  { newWorld with phase := .started nulInputs }

/-
  The line is not `KEY=directive`, but the shell reads it
  without the NUL: the build goes through, and its image is
  put in the cache.
-/
theorem nul_accepted :
    systemOfPlain.Reachable startedWithNul ∧
      ¬ Rejects plainChecksum plainUnpack startedWithNul ∧
      (systemOfPlain.run startedWithNul buildEvents).any
        (fun w => hasSucceeded w && w.written.length = 1) =
          true := by
  refine ⟨?_, ?_, by decide⟩
  · apply Transition.System.ReachableUnder.next
      (.start isNew_newWorld) trivial
    · exact (rfl : systemOfPlain.step newWorld
        (.begin nulInputs) = some startedWithNul)
  · intro hRejects
    have hMalformed :
        Malformed "CONFIG_KVM\x00_GUEST=enable".toList := by
      have hSaid :
          said "CONFIG_KVM\x00_GUEST=enable".toList = none := by
        decide
      refine ⟨by decide, ?_⟩
      intro key directive hSays
      rw [said_eq_some_iff.2 hSays] at hSaid
      cases hSaid
    obtain ⟨⟨status, _, hStep⟩, _⟩ :=
      hRejects nulInputs _ _ rfl rfl (by decide)
        hMalformed
    cases hStep

end BuildKernel

end CargoUnikernel
