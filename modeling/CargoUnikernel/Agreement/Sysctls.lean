import CargoUnikernel.Agreement.Constants
import CargoUnikernel.Agreement.Directives
import CargoUnikernel.Guest.Hardening

/-
  The sysctls a project adds, checked twice.

  The host checks each key when it validates a config, the
  guest before it writes. The checks are the same, so of a
  valid config every pair is written, and of any list only
  what is confined to `/proc/sys`.

  Main declarations:
    * `validateExtraSysctlPaths_eq_ok_iff`
    * `sysctl_writes_confined`
-/

------------------------------------------------------------
-- The Two Checks
------------------------------------------------------------

namespace CargoUnikernel

namespace Agreement

open Schema Pipeline Fallible
open Guest.Baked Guest.BuildScript Guest.Hardening
open Guest.Landlock (locate)

/- The host accepts what the guest accepts. -/
theorem validateExtraSysctlPaths_eq_ok_iff (config : Config) :
    config.validateExtraSysctlPaths = .ok () ↔
      ∀ key ∈ config.hardening.extraSysctls.keys,
        isSysctlPath key = true := by
  unfold Config.validateExtraSysctlPaths
  rw [forM_eq_ok_iff]
  apply forall₂_congr
  intro key _
  rw [reject_eq_ok_iff, isSysctlPath_iff, not_or, not_not,
    List.isPrefixOf_iff_prefix]

/- So every pair of a valid config is one to write. -/
theorem accepted_extraSysctls (valid : ValidConfig) :
    accepted valid.config.hardening.extraSysctls.entries =
      valid.config.hardening.extraSysctls.entries := by
  have hParts :=
    (Config.validate_eq_ok_iff valid.config).1 valid.valid
  have hKeys :=
    (validateExtraSysctlPaths_eq_ok_iff valid.config).1
      hParts.2.2.2.2.1
  apply List.filter_eq_self.2
  intro pair hMem
  exact hKeys pair.1 (List.mem_map_of_mem hMem)

------------------------------------------------------------
-- What Is Written at Boot
------------------------------------------------------------

/-
  Of any list, the pairs that lead to `/proc/sys` or beneath
  are written in their order, and the others only warned of;
  and what the host lets through is among the former. All
  the pairs of a valid config are written, and the constant
  they are baked into parses back to them, where it reaches
  the init as the host wrote it.
-/
theorem sysctl_writes_confined :
    (∀ (World : Type) (fsWrite : FsWrite World)
        (extra : List (Text × Text)) (s : State World),
      (applyExtra fsWrite extra s).written =
          s.written ++
            extra.filter (fun pair => isSysctlPath pair.1) ∧
        (applyExtra fsWrite extra s).world =
          (extra.filter fun pair =>
              isSysctlPath pair.1).foldl
            (fun world pair =>
              (fsWrite world pair.1 pair.2).2)
            s.world ∧
        ∀ pair ∈ extra,
          ¬isSysctlPath pair.1 →
            .refusingToWrite pair.1 ∈
              (applyExtra fsWrite extra s).warnings) ∧
    (∀ path : Text,
      isSysctlPath path = true →
        ["proc".toList, "sys".toList] <+: locate path) ∧
    (∀ config : Config,
      config.validateExtraSysctlPaths = .ok () →
        ∀ key ∈ config.hardening.extraSysctls.keys,
          isSysctlPath key = true) ∧
    ∀ (valid : ValidConfig) (World : Type)
        (fsWrite : FsWrite World) (s : State World),
      (applyExtra fsWrite
            valid.config.hardening.extraSysctls.entries
            s).written =
          s.written ++
            valid.config.hardening.extraSysctls.entries ∧
        (Intact valid.config →
          ∃ value,
            compiled
                (main (received (appEnvExports valid.config)))
                .extraSysctls =
              some value ∧
            parsePairs value "[hardening].extra_sysctls" =
              .ok
                valid.config.hardening.extraSysctls.entries) := by
  refine ⟨?_, ?_, ?_, ?_⟩
  · intro World fsWrite extra s
    refine
      ⟨applyExtra_written extra s, applyExtra_world extra s,
        ?_⟩
    intro pair hMem hPath
    exact warned_of_not_sysctlPath s hMem hPath
  · intro path hPath
    exact sysctlRoot_prefix_locate hPath
  · intro config hValid
    exact (validateExtraSysctlPaths_eq_ok_iff config).1 hValid
  · intro valid World fsWrite s
    refine ⟨?_, ?_⟩
    · rw [applyExtra_written, accepted_extraSysctls]
    · intro hIntact
      exact
        ⟨_, compiled_appEnvExports hIntact .extraSysctls,
          validSysctls valid⟩

end Agreement

end CargoUnikernel
