import CargoUnikernel.Library.ShellCommands
import CargoUnikernel.Pipeline.Build
import CargoUnikernel.Pipeline.ScriptText

/-
  Reading the lines of the build script.

  Every stage starts and ends where a command can start, with
  no quotes open, and no command is named by a value. What is
  written without quotes is of the script's own making: the
  names of variables and features, and a number.

  Main declarations:
    * `moves_writeExport`, `isPlain_exportName`,
      `isPlain_featureNames`
    * `AppOf`, `appOf_of_acquire`, `WithoutCommand`
    * `moves_scriptStages`
-/

------------------------------------------------------------
-- Plain Text
------------------------------------------------------------

namespace CargoUnikernel

namespace Pipeline

namespace ScriptText

open Schema Guest.BuildScript Shell Fallible

/- A line of the script is read as a command. -/
theorem moves_writeExport
    {name : String} (hPlain : IsPlain name.toList)
    (value : Text) :
    Moves .command (writeExport name value) .command := by
  have hAround :
      Moves .command
        (concat ["export "] ++
          .literal (String.ofList name.toList) ::
            concat ["=", quoted value, "\n"])
        .command := by
    apply moves_around hPlain
    · repeat constructor
    · repeat constructor
    · decide
    · intro word
      rfl
  rw [String.ofList_toList] at hAround
  exact hAround

/- The names of all variables for the kernel's build. -/
def kernelEnvNames : List String :=
  ["CARGO_UNIKERNEL_PROFILE",
    "CARGO_UNIKERNEL_KERNEL_VERSION",
    "CARGO_UNIKERNEL_KERNEL_SHA256",
    "CARGO_UNIKERNEL_NET_IPV4",
    "CARGO_UNIKERNEL_NET_IPV6",
    "CARGO_UNIKERNEL_KHARD_LEGACY_SUBSYSTEMS",
    "CARGO_UNIKERNEL_KHARD_DEBUG_INTERFACES",
    "CARGO_UNIKERNEL_KHARD_SELF_PROTECTION",
    "CARGO_UNIKERNEL_KHARD_EXPLOIT_MITIGATIONS",
    "CARGO_UNIKERNEL_KHARD_SECCOMP",
    "CARGO_UNIKERNEL_KHARD_FIPS",
    "CARGO_UNIKERNEL_STORAGE_PERSISTENT",
    "CARGO_UNIKERNEL_FIREWALL"]

/- The names mean nothing to the shell. -/
theorem isPlain_of_mem_kernelEnvNames :
    ∀ name ∈ kernelEnvNames, IsPlain name.toList := by
  unfold kernelEnvNames
  simp only [List.forall_mem_cons]
  refine ⟨?_, ?_, ?_, ?_, ?_, ?_, ?_, ?_, ?_, ?_, ?_, ?_, ?_,
    fun _ hMem => absurd hMem List.not_mem_nil⟩
  all_goals exact isPlain_ofList rfl

/- A checked config has a checksum for its kernel. -/
theorem map_fst_kernelEnv (valid : ValidConfig) :
    (kernelEnv valid.config).map Prod.fst =
      kernelEnvNames := by
  have hKernel :=
    ((Config.validate_eq_ok_iff valid.config).1
      valid.valid).2.2.1
  unfold Config.validateKernel at hKernel
  rw [reject_eq_ok_iff] at hKernel
  rcases Option.ne_none_iff_exists'.1 hKernel with
    ⟨sha256, hSha256⟩
  unfold kernelEnv
  rw [hSha256]
  rfl

/- So do all lines that export. -/
theorem moves_kernelExports (valid : ValidConfig) :
    Moves .command (kernelExports valid.config) .command := by
  apply moves_flatMap
  intro entry hMem
  apply moves_writeExport
  apply isPlain_of_mem_kernelEnvNames
  rw [← map_fst_kernelEnv valid]
  exact List.mem_map_of_mem hMem

/- The names of the constants are plain. -/
theorem isPlain_exportName (name : Constant) :
    IsPlain (exportName name).toList := by
  unfold exportName
  rw [String.toList_append]
  apply isPlain_append
  · exact isPlain_ofList rfl
  · have hSuffix : IsPlain name.suffix.toList := by
      cases name with
      | _ => exact isPlain_ofList rfl
    exact hSuffix.2

theorem moves_writeExports (config : Config) :
    Moves .command (writeExports config) .command := by
  apply moves_flatMap
  intro entry _
  exact moves_writeExport (isPlain_exportName entry.1) entry.2

/- So are those of the features. -/
theorem isPlain_featureName (feature : Feature) :
    IsPlain (featureName feature).toList := by
  cases feature with
  | _ => exact isPlain_ofList rfl

theorem isPlain_featureNames
    {config : Config} (hSome : featureNames config ≠ []) :
    IsPlain (featureNames config) := by
  refine ⟨hSome, ?_⟩
  intro c hMem
  by_cases hComma : c = ','
  · rw [hComma]
    decide
  · unfold featureNames at hMem
    rw [Text.mem_join_iff hComma] at hMem
    rcases hMem with ⟨name, hName, hChar⟩
    rcases List.mem_map.1 hName with ⟨feature, _, rfl⟩
    exact (isPlain_featureName feature).2 c hChar

/- And the numbers. -/
theorem isPlain_display (n : Nat) :
    IsPlain (Numeral.display n) := by
  constructor
  · exact Nat.toDigits_ne_nil
  · intro c hMem
    exact isPlain_of_isDigit
      (Numeral.isDigit_of_mem_display hMem)

------------------------------------------------------------
-- Stages
------------------------------------------------------------

/- Each stage begins and ends where a command may. -/
theorem moves_scriptKernelBuild (valid : ValidConfig) :
    Moves .command (scriptKernelBuild valid.config)
      .command := by
  apply moves_concat
  simp only [List.forall_mem_cons]
  refine ⟨moves_kernelExports valid, ?_, ?_,
    fun _ hMem => absurd hMem List.not_mem_nil⟩
  · unfold extraKconfigExport
    split
    · apply moves_of_readSpelled
      · repeat constructor
      · decide
    · exact moves_nil .command
  · apply moves_of_readSpelled
    · repeat constructor
    · decide

/- The package is built by plain commands. -/
theorem moves_rustBuild
    (source : AppSource) (package : Text) :
    Moves .command (rustBuild source package) .command := by
  apply moves_concat
  simp only [List.forall_mem_cons]
  refine ⟨?_, ?_, ?_,
    fun _ hMem => absurd hMem List.not_mem_nil⟩
  · apply moves_of_readSpelled
    · repeat constructor
    · decide
  · unfold cargoBuildLine featuresFlag
    split
    · apply moves_of_readSpelled
      · repeat constructor
      · decide
    · apply moves_of_readSpelled
      · repeat constructor
      · decide
  · apply moves_of_readSpelled
    · repeat constructor
    · decide

/- The app was found as the config's mode says. -/
def AppOf (config : Config) : AcquiredApp → Prop
| .binary _ => config.app.mode = .binary
| .localSource _ => config.app.mode = .source

/- What was found is an app of the config. -/
theorem appOf_of_acquire
    {ι : Type} [Linked ι] {i : ι} {config : Config}
    {s : Files ι} {app : AcquiredApp}
    (hAcquire : acquire i config s = .ok app) :
    AppOf config app := by
  unfold acquire at hAcquire
  cases hMode : config.app.mode with
  | binary =>
      rw [hMode] at hAcquire
      dsimp only at hAcquire
      unfold acquireBinary at hAcquire
      split at hAcquire
      · cases hAcquire
      · split at hAcquire
        · cases hAcquire
        · rw [unit_bind_eq_ok_iff, bind_eq_ok_iff] at hAcquire
          rcases hAcquire with ⟨_, relative, _, hFound⟩
          cases hFound
          exact hMode
  | source =>
      rw [hMode] at hAcquire
      dsimp only at hAcquire
      unfold acquireSource at hAcquire
      split at hAcquire
      · cases hAcquire
      · split at hAcquire
        · cases hAcquire
        · unfold acquirePackage at hAcquire
          rw [unit_bind_eq_ok_iff, bind_eq_ok_iff] at hAcquire
          rcases hAcquire with ⟨_, relative, _, hFound⟩
          rw [unit_bind_eq_ok_iff] at hFound
          cases hFound.2
          exact hMode

/- The app is not built by a command of the config. -/
def WithoutCommand (config : Config) : Prop :=
  config.app.mode = .binary ∨
    ∃ source,
      config.app.source = some source ∧
        source.toolchain = .rust

/- Without a command of the config's own. -/
theorem moves_scriptAppBuild
    {config : Config} {app : AcquiredApp}
    (hApp : AppOf config app)
    (hWithout : WithoutCommand config) :
    ∃ fragment,
      scriptAppBuild config app = .ok fragment ∧
        Moves .command fragment .command := by
  have hSource :
      ∃ fragment,
        scriptAppSource config app = .ok fragment ∧
          Moves .command fragment .command := by
    cases app with
    | binary path =>
        refine ⟨_, rfl, ?_⟩
        apply moves_of_readSpelled
        · repeat constructor
        · decide
    | localSource package =>
        rcases hWithout with
          hBinary | ⟨source, hSource, hRust⟩
        · have hMode : config.app.mode = .source := hApp
          rw [hBinary] at hMode
          cases hMode
        · unfold scriptAppSource
          rw [hSource]
          exact ⟨_, scriptBuildAt_of_rust hRust _,
            moves_rustBuild source (inContainer package)⟩
  rcases hSource with ⟨source, hSource, hMoves⟩
  unfold scriptAppBuild
  rw [hSource]
  refine ⟨_, rfl, ?_⟩
  apply moves_concat
  simp only [List.forall_mem_cons]
  refine ⟨hMoves, ?_,
    fun _ hMem => absurd hMem List.not_mem_nil⟩
  apply moves_of_readSpelled
  · repeat constructor
  · decide

/- The names of features are written without quotes. -/
theorem moves_scriptGuestInitBuild (config : Config) :
    Moves .command (scriptGuestInitBuild config)
      .command := by
  apply moves_concat
  simp only [List.forall_mem_cons]
  refine ⟨?_, ?_, moves_writeExports config, ?_,
    fun _ hMem => absurd hMem List.not_mem_nil⟩
  · apply moves_of_readSpelled
    · repeat constructor
    · decide
  · apply moves_of_readSpelled
    · repeat constructor
    · decide
  · unfold cargoBuildInit initFeaturesFlag
    split
    case isTrue =>
        apply moves_of_readSpelled
        · repeat constructor
        · decide
    case isFalse hSome =>
        apply @moves_around .command .command
          (concat
            ["cargo build --locked --release ",
              "--target x86_64-unknown-linux-musl ",
              "--manifest-path /assets-guest/Cargo.toml ",
              "--features "])
          (concat ["\n\n"]) _ _ _
          (isPlain_featureNames hSome)
        · repeat constructor
        · repeat constructor
        · decide
        · intro word
          rfl

/- The images, whatever the formats are. -/
theorem moves_scriptRootfsAndImages (config : Config) :
    Moves .command (scriptRootfsAndImages config)
      .command := by
  apply moves_concat
  simp only [List.forall_mem_cons]
  refine ⟨?_, ?_, ?_, ?_, ?_,
    fun _ hMem => absurd hMem List.not_mem_nil⟩
  · unfold freshRootfs ifPersistent
    split
    · apply moves_of_readSpelled
      · repeat constructor
      · decide
    · apply moves_of_readSpelled
      · repeat constructor
      · decide
  · apply moves_of_readSpelled
    · repeat constructor
    · decide
  · unfold rootfsModes ifPersistent
    split
    · apply moves_of_readSpelled
      · repeat constructor
      · decide
    · apply moves_of_readSpelled
      · repeat constructor
      · decide
  · apply moves_of_readSpelled
    · repeat constructor
    · decide
  · apply moves_flatMap
    intro format _
    cases format with
    | cpio =>
        apply moves_of_readSpelled
        · repeat constructor
        · decide
    | uki =>
        apply moves_of_readSpelled
        · repeat constructor
        · decide
    | binary =>
        apply moves_of_readSpelled
        · repeat constructor
        · decide

/- The number of processors is written without quotes. -/
theorem moves_sevSnpMeasure
    (config : Config) (sev : SevSnp) :
    Moves .command (sevSnpMeasure config sev) .command := by
  have hVcpus :
      Moves .command (measureVcpus sev) .argument := by
    apply @moves_around .command .argument
      (concat
        ["python3 /build/sev-snp-measure/sev-snp-measure.py ",
          "--mode snp --vcpus="])
      (concat [" "]) _ _ _ (isPlain_display sev.vcpus.toNat)
    · repeat constructor
    · repeat constructor
    · decide
    · intro word
      rfl
  apply hVcpus.append
  unfold measureInputs kernelArgs
  split
  · apply moves_of_readSpelled
    · repeat constructor
    · decide
  · apply moves_of_readSpelled
    · repeat constructor
    · decide

/- The measurement, if there is one. -/
theorem moves_scriptSevSnpMeasurement (config : Config) :
    Moves .command (scriptSevSnpMeasurement config)
      .command := by
  unfold scriptSevSnpMeasurement
  split
  · exact moves_nil .command
  · split
    · exact moves_nil .command
    case h_2 sev _ =>
        apply moves_concat
        simp only [List.forall_mem_cons]
        refine ⟨?_, ?_, moves_sevSnpMeasure config sev, ?_,
          fun _ hMem => absurd hMem List.not_mem_nil⟩
        · apply moves_of_readSpelled
          · repeat constructor
          · decide
        · apply moves_of_readSpelled
          · repeat constructor
          · decide
        · apply moves_of_readSpelled
          · repeat constructor
          · decide

/- Every stage starts and ends where a command can start. -/
theorem moves_scriptStages
    {valid : ValidConfig} {app : AcquiredApp}
    (hApp : AppOf valid.config app)
    (hWithout : WithoutCommand valid.config) :
    ∃ stages,
      scriptStages valid.config app = .ok stages ∧
        ∀ stage ∈ stages, Moves .command stage .command := by
  obtain ⟨appBuild, hBuild, hMoves⟩ :=
    moves_scriptAppBuild hApp hWithout
  unfold scriptStages
  rw [hBuild]
  refine ⟨_, rfl, ?_⟩
  simp only [List.forall_mem_cons]
  refine ⟨?_, moves_scriptKernelBuild valid, hMoves,
    moves_scriptGuestInitBuild valid.config,
    moves_scriptRootfsAndImages valid.config,
    moves_scriptSevSnpMeasurement valid.config, ?_,
    fun _ hMem => absurd hMem List.not_mem_nil⟩
  · apply moves_of_readSpelled
    · repeat constructor
    · decide
  · apply moves_of_readSpelled
    · repeat constructor
    · decide

end ScriptText

end Pipeline

end CargoUnikernel
