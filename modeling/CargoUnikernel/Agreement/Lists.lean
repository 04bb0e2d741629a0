import CargoUnikernel.Agreement.Constants
import CargoUnikernel.Guest.EtcFiles

/-
  What the host's check of lists is worth to the guest that
  decodes them.

  A list passes when no entry has the separator in it. The
  decoders drop entries that are empty, which the check
  lets through: exactly the lists without one come back.

  Main declarations:
    * `entries_encodePathList_iff`
    * `ListsArrive`, `NoEmptyEntry`
    * `lists_arrive_iff_noEmptyEntry`
-/

------------------------------------------------------------
-- One List
------------------------------------------------------------

namespace CargoUnikernel

namespace Agreement

open Schema Pipeline Fallible
open Guest.BuildScript Guest.Baked Guest.EtcFiles

/- Entries that would be taken apart are refused. -/
theorem validateListEntries_eq_ok_iff
    (table : String) (list : List Text) :
    forM list (Config.validateListEntry table) = .ok () ↔
      ∀ entry ∈ list, ';' ∉ entry := by
  unfold Config.validateListEntry
  simp only [forM_eq_ok_iff, reject_eq_ok_iff]

/- A list is decoded as it was unless an entry is empty. -/
theorem entries_encodePathList_iff
    {list : List Text}
    (hFree : ∀ entry ∈ list, ';' ∉ entry) :
    Text.entries ';' (encodePathList list) = list ↔
      [] ∉ list := by
  unfold encodePathList
  rw [Text.entries_join hFree, List.filter_eq_self]
  constructor
  · intro hAll hMem
    have hNil := hAll [] hMem
    simp at hNil
  · intro hNone entry hMem
    rw [decide_eq_true_eq]
    intro hNil
    rw [hNil] at hMem
    exact hNone hMem

------------------------------------------------------------
-- The Lists of a Config
------------------------------------------------------------

/- What the guest decodes of what the host exports. -/
structure ListsArrive (config : Config) : Prop where
  read :
    config.app.runtime.landlock.enabled = true →
      parsePathList
          (constant (appEnvExports config) .landlockRo) =
        config.app.runtime.landlock.extraReadPaths
  readWrite :
    config.app.runtime.landlock.enabled = true →
      parsePathList
          (constant (appEnvExports config) .landlockRw) =
        config.app.runtime.landlock.extraReadWritePaths
  nameservers :
    servers (constant (appEnvExports config) .nameservers) =
      config.network.nameservers

/- No exported list has an entry that is empty. -/
structure NoEmptyEntry (config : Config) : Prop where
  read :
    config.app.runtime.landlock.enabled = true →
      [] ∉ config.app.runtime.landlock.extraReadPaths
  readWrite :
    config.app.runtime.landlock.enabled = true →
      [] ∉ config.app.runtime.landlock.extraReadWritePaths
  nameservers : [] ∉ config.network.nameservers

/- So it is for each of the lists. -/
theorem validateListEncoding_eq_ok_iff (config : Config) :
    config.validateListEncoding = .ok () ↔
      (∀ entry ∈ config.app.runtime.landlock.extraReadPaths,
          ';' ∉ entry) ∧
        (∀ entry ∈
            config.app.runtime.landlock.extraReadWritePaths,
          ';' ∉ entry) ∧
        ∀ entry ∈ config.network.nameservers,
          ';' ∉ entry := by
  unfold Config.validateListEncoding
  simp only [unit_bind_eq_ok_iff,
    validateListEntries_eq_ok_iff]

/- The paths arrive where Landlock is on to need them. -/
theorem parsePathList_landlock_iff
    {enabled : Bool} {paths : List Text}
    (hFree : ∀ entry ∈ paths, ';' ∉ entry) :
    (enabled = true →
        parsePathList
            (if enabled then encodePathList paths else []) =
          paths) ↔
      (enabled = true → [] ∉ paths) := by
  apply forall_congr'
  intro hEnabled
  rw [if_pos hEnabled]
  exact entries_encodePathList_iff hFree

/-
  Of a list that is accepted, and of the lists of a config
  that is, the guest has every entry in order exactly when
  none is empty.
-/
theorem lists_arrive_iff_noEmptyEntry
    (table : String) (list : List Text) (config : Config) :
    (forM list (Config.validateListEntry table) = .ok () →
        ((parsePathList (encodePathList list) = list ∧
            servers (encodePathList list) = list) ↔
          [] ∉ list)) ∧
      (config.validateListEncoding = .ok () →
        (ListsArrive config ↔ NoEmptyEntry config)) := by
  constructor
  · intro hAccepted
    rw [validateListEntries_eq_ok_iff] at hAccepted
    unfold parsePathList servers
    rw [and_self]
    exact entries_encodePathList_iff hAccepted
  · intro hAccepted
    rw [validateListEncoding_eq_ok_iff] at hAccepted
    rcases hAccepted with ⟨hRead, hReadWrite, hServers⟩
    have hReadIff :=
      @parsePathList_landlock_iff
        config.app.runtime.landlock.enabled _ hRead
    have hReadWriteIff :=
      @parsePathList_landlock_iff
        config.app.runtime.landlock.enabled _ hReadWrite
    have hServersIff := entries_encodePathList_iff hServers
    constructor
    · intro hArrive
      constructor
      · apply hReadIff.1
        intro hEnabled
        have hPaths := hArrive.read hEnabled
        rwa [constant_appEnvExports] at hPaths
      · apply hReadWriteIff.1
        intro hEnabled
        have hPaths := hArrive.readWrite hEnabled
        rwa [constant_appEnvExports] at hPaths
      · apply hServersIff.1
        have hNames := hArrive.nameservers
        rwa [constant_appEnvExports] at hNames
    · intro hNone
      constructor
      · intro hEnabled
        rw [constant_appEnvExports]
        exact hReadIff.2 hNone.read hEnabled
      · intro hEnabled
        rw [constant_appEnvExports]
        exact hReadWriteIff.2 hNone.readWrite hEnabled
      · rw [constant_appEnvExports]
        exact hServersIff.2 hNone.nameservers

/- Two nameservers, as the guest's tests have them. -/
def twoServers : List Text :=
  ["9.9.9.9".toList, "149.112.112.112".toList]

/- Two entries are two servers. -/
theorem two_servers_arrive :
    servers (encodePathList twoServers) = twoServers := by
  have hBoth :=
    (lists_arrive_iff_noEmptyEntry "network.nameservers"
      twoServers (casualConfigWithFormats [.cpio])).1 rfl
  exact (hBoth.2 (by decide)).2

/- An empty nameserver beside another. -/
def holedServers : List Text :=
  [[], "9.9.9.9".toList]

/- It is accepted, and the guest has one of two. -/
theorem empty_nameserver_dropped :
    forM holedServers
          (Config.validateListEntry "network.nameservers") =
        .ok () ∧
      servers (encodePathList holedServers) ≠
        holedServers := by
  constructor
  · rfl
  · decide

end Agreement

end CargoUnikernel
