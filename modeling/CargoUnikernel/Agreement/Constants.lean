import CargoUnikernel.Guest.Baked
import CargoUnikernel.Pipeline.GuestInitScript

/-
  Whether a guest can read the constants it was built with.

  What a valid config exports is read back by the guest as
  it was configured, with two exceptions: the guest refuses
  a user or group id of all ones, and a limit in MiB whose
  bytes do not fit 64 bits. The host checks neither.

  Main declarations:
    * `parsePairs_encodeKvPairs`, `parseRules_bakedRules`
    * `decodedOf`, `decodeConstants_eq`
    * `Readable`, `decodes_iff_readable`
    * `unreadable_configs`
-/

------------------------------------------------------------
-- Reading Back
------------------------------------------------------------

namespace CargoUnikernel

namespace Agreement

open Schema Pipeline Fallible
open Guest.BuildScript Guest.Baked Guest.Firewall

/- A number is read back as it was printed. -/
theorem baked_display
    {bits n : Nat} (hBound : n < 2 ^ bits) (what : Constant) :
    baked bits (Numeral.display n) what = .ok n := by
  unfold baked
  rw [Numeral.parse_display hBound]

/- A number of MiB is read back, or its bytes are too many. -/
theorem limitMbBytes_display
    (mb : UInt64) (what : Constant) :
    limitMbBytes (Numeral.display mb.toNat) what =
      if mb.toNat * mib < 2 ^ 64 then
        .ok (mb.toNat * mib)
      else
        .error (.tooLarge what) := by
  unfold limitMbBytes
  rw [baked_display mb.toNat_lt, ok_bind]

/- So the data have the size that was configured. -/
theorem tmpfsData_display
    {constant : Constant → Text} {what : Constant}
    (mb : UInt64)
    (hConstant : constant what = Numeral.display mb.toNat)
    (rest : String) :
    tmpfsData constant what rest =
      .ok
        ("size=".toList ++ Numeral.display mb.toNat ++
          "m,".toList ++ rest.toList) := by
  unfold tmpfsData
  rw [hConstant, baked_display mb.toNat_lt, ok_bind]

/- Pairs without separators of their own are read back. -/
theorem parsePairs_encodeKvPairs
    {pairs : BTreeMap Text Text}
    (hPairs : ∀ pair ∈ pairs.entries, Config.IsKvPair pair)
    (what : String) :
    parsePairs (encodeKvPairs pairs) what =
      .ok pairs.entries := by
  have hFree :
      ∀ part ∈ pairs.entries.map encodeKvPair,
        ';' ∉ part := by
    intro part hPart
    rcases List.mem_map.1 hPart with ⟨pair, hMem, rfl⟩
    have hPair := hPairs pair hMem
    simp [encodeKvPair, hPair.1, hPair.2.2]
  have hNonempty :
      ((pairs.entries.map encodeKvPair).filter
          fun part => part ≠ []) =
        pairs.entries.map encodeKvPair := by
    rw [List.filter_eq_self]
    intro part hPart
    rcases List.mem_map.1 hPart with ⟨pair, _, rfl⟩
    simp [encodeKvPair]
  unfold parsePairs encodeKvPairs
  rw [Text.entries_join hFree, hNonempty, mapM_eq_ok_iff,
    List.forall₂_map_left_iff, List.forall₂_same]
  intro pair hMem
  unfold parsePair encodeKvPair
  rw [Text.splitOnce_append (hPairs pair hMem).2.1]

/- The rule an entry stands for. -/
def inboundRule (entry : InboundPorts) : Rule :=
  let ends := (Config.portsOf entry.ports).getD (0, 0)
  { protocol :=
      if entry.proto = "tcp".toList then
        ipprotoTcp
      else
        ipprotoUdp
    firstPort := UInt16.ofNat ends.1
    lastPort := UInt16.ofNat ends.2 }

/- The protocol has no separator of an entry in it. -/
theorem not_mem_proto
    {entry : InboundPorts} (hEntry : Config.IsInbound entry) :
    ':' ∉ entry.proto ∧ ';' ∉ entry.proto := by
  rcases hEntry.1 with hProto | hProto
  · rw [hProto]
    decide
  · rw [hProto]
    decide

/- The host lets through what the guest knows. -/
theorem protocol_of_isInbound
    {entry : InboundPorts} (hEntry : Config.IsInbound entry) :
    protocol? entry.proto =
      some (inboundRule entry).protocol := by
  unfold protocol? inboundRule
  split
  case isTrue => rfl
  case isFalse hTcp =>
      rw [if_pos (hEntry.1.resolve_left hTcp)]

/- An entry is read back as its rule. -/
theorem rule_encodeInbound
    {entry : InboundPorts} (hEntry : Config.IsInbound entry) :
    rule? (encodeInbound entry) =
      some (inboundRule entry) := by
  rcases hEntry.2 with
    ⟨first, last, hPorts, hPositive, hOrder⟩
  rcases Config.parse_of_portsOf hPorts with
    ⟨hFirst, hLast⟩
  have hUsable : ¬ (first = 0 ∨ last < first) := by
    omega
  have hFirstPort :
      (inboundRule entry).firstPort = UInt16.ofNat first := by
    simp only [inboundRule, hPorts, Option.getD_some]
  have hLastPort :
      (inboundRule entry).lastPort = UInt16.ofNat last := by
    simp only [inboundRule, hPorts, Option.getD_some]
  unfold rule? encodeInbound
  rw [Text.splitOnce_append (not_mem_proto hEntry).1]
  simp only [Option.bind_eq_bind, Option.bind_some,
    protocol_of_isInbound hEntry, hFirst, hLast, hUsable,
    if_false, ← hFirstPort, ← hLastPort]

/- The rules of a valid config are read back in order. -/
theorem parseRules_bakedRules
    {config : Config}
    (hInbound :
      ∀ entry ∈ config.network.firewall.inbound,
        Config.IsInbound entry) :
    parseRules (bakedRules config) =
      .ok (config.network.firewall.inbound.map inboundRule) := by
  have hFree :
      ∀ part ∈
          config.network.firewall.inbound.map encodeInbound,
        ';' ∉ part := by
    intro part hPart
    rcases List.mem_map.1 hPart with ⟨entry, hMem, rfl⟩
    have hEntry := hInbound entry hMem
    rcases hEntry.2 with ⟨first, last, hPorts, _⟩
    have hSemicolon : ';' ∉ entry.ports := by
      intro hChar
      exact absurd (Config.mem_of_portsOf hPorts hChar)
        (by decide)
    simp [encodeInbound, (not_mem_proto hEntry).2, hSemicolon]
  have hNonempty :
      ((config.network.firewall.inbound.map
          encodeInbound).filter fun part => part ≠ []) =
        config.network.firewall.inbound.map
          encodeInbound := by
    rw [List.filter_eq_self]
    intro part hPart
    rcases List.mem_map.1 hPart with ⟨entry, _, rfl⟩
    simp [encodeInbound]
  unfold parseRules bakedRules
  rw [Text.entries_join hFree, hNonempty, mapM_eq_ok_iff,
    List.forall₂_map_left_iff, List.forall₂_map_right_iff,
    List.forall₂_same]
  intro entry hMem
  unfold parseRule
  rw [rule_encodeInbound (hInbound entry hMem)]

------------------------------------------------------------
-- What the Guest Refuses
------------------------------------------------------------

/- A size in MiB whose bytes fit 64 bits. -/
def FitsBytes (mb : UInt64) : Prop :=
  mb.toNat * mib < 2 ^ 64

/- What the guest asks for beyond what the host checks. -/
structure Readable (config : Config) : Prop where
  uid : config.app.runtime.uid ≠ 0xffffffff
  gid : config.app.runtime.gid ≠ 0xffffffff
  maxLockedMemory :
    FitsBytes config.app.runtime.limits.maxLockedMemoryMb
  maxMemory : FitsBytes config.app.runtime.limits.maxMemoryMb

/- The ids, as the guest reads them. -/
def idsOf (config : Config) : Nat × Nat :=
  (config.app.runtime.uid.toNat, config.app.runtime.gid.toNat)

/- The limits, in bytes where the guest wants bytes. -/
def limitsOf (config : Config) : ResourceLimits :=
  let limits := config.app.runtime.limits
  { nofile := limits.maxOpenFiles.toNat
    nproc := limits.maxProcesses.toNat
    memlockBytes := limits.maxLockedMemoryMb.toNat * mib
    addressSpaceBytes := limits.maxMemoryMb.toNat * mib }

/- The id that is all ones means no change to the kernel. -/
theorem validateAppIds_eq_ok_iff
    {uid gid : UInt32} (hUid : uid ≠ 0) (hGid : gid ≠ 0) :
    validateAppIds uid.toNat gid.toNat = .ok () ↔
      uid ≠ 0xffffffff ∧ gid ≠ 0xffffffff := by
  have hNat :
      ∀ id : UInt32, id ≠ 0 →
        (¬ (id.toNat = 0 ∨ id.toNat = 2 ^ 32 - 1) ↔
          id ≠ 0xffffffff) := by
    intro id hId
    have hZero : id.toNat ≠ 0 :=
      fun hZero => hId (UInt32.toNat_inj.1 hZero)
    rw [not_or, and_iff_right hZero, not_iff_not,
      ← UInt32.toNat_inj]
    rfl
  unfold validateAppIds
  rw [reject_eq_ok_iff, not_or, hNat uid hUid, hNat gid hGid]

/- The guest refuses that id, the host does not. -/
theorem appIds_eq_ok_iff
    {config : Config}
    (hUid : config.app.runtime.uid ≠ 0)
    (hGid : config.app.runtime.gid ≠ 0)
    (ids : Nat × Nat) :
    appIds (bakedValue config) = .ok ids ↔
      (config.app.runtime.uid ≠ 0xffffffff ∧
          config.app.runtime.gid ≠ 0xffffffff) ∧
        ids = idsOf config := by
  have hUidText :
      bakedValue config .appUid =
        Numeral.display config.app.runtime.uid.toNat := rfl
  have hGidText :
      bakedValue config .appGid =
        Numeral.display config.app.runtime.gid.toNat := rfl
  unfold appIds
  rw [hUidText, hGidText,
    baked_display config.app.runtime.uid.toNat_lt, ok_bind,
    baked_display config.app.runtime.gid.toNat_lt, ok_bind,
    unit_bind_eq_ok_iff, validateAppIds_eq_ok_iff hUid hGid,
    Except.ok.injEq]
  apply and_congr_right'
  exact eq_comm

/- Two of the limits are turned into bytes. -/
theorem resourceLimits_eq_ok_iff
    (config : Config) (limits : ResourceLimits) :
    resourceLimits (bakedValue config) = .ok limits ↔
      (FitsBytes
            config.app.runtime.limits.maxLockedMemoryMb ∧
          FitsBytes config.app.runtime.limits.maxMemoryMb) ∧
        limits = limitsOf config := by
  let limited := config.app.runtime.limits
  have hNofile :
      bakedValue config .limitNofile =
        Numeral.display limited.maxOpenFiles.toNat := rfl
  have hNproc :
      bakedValue config .limitNproc =
        Numeral.display limited.maxProcesses.toNat := rfl
  have hLockedMb :
      bakedValue config .limitMemlockMb =
        Numeral.display limited.maxLockedMemoryMb.toNat := rfl
  have hMemoryMb :
      bakedValue config .limitAsMb =
        Numeral.display limited.maxMemoryMb.toNat := rfl
  unfold resourceLimits FitsBytes
  rw [hNofile, hNproc, hLockedMb, hMemoryMb,
    baked_display limited.maxOpenFiles.toNat_lt, ok_bind,
    baked_display limited.maxProcesses.toNat_lt, ok_bind,
    limitMbBytes_display, limitMbBytes_display]
  split
  case isTrue hLocked =>
      rw [ok_bind]
      split
      case isTrue hMemory =>
          rw [ok_bind, Except.ok.injEq]
          exact eq_comm.trans (and_iff_right
            ⟨hLocked, hMemory⟩).symm
      case isFalse hMemory =>
          rw [error_bind]
          constructor
          · intro hOk
            cases hOk
          · rintro ⟨⟨_, hFits⟩, _⟩
            exact absurd hFits hMemory
  case isFalse hLocked =>
      rw [error_bind]
      constructor
      · intro hOk
        cases hOk
      · rintro ⟨⟨hFits, _⟩, _⟩
        exact absurd hFits hLocked

------------------------------------------------------------
-- The Whole Boot
------------------------------------------------------------

/- What a guest reads, if it reads all of it. -/
def decodedOf (config : Config) : Decoded :=
  let tmpfs := config.storage.tmpfs
  let size := fun (mb : UInt64) (rest : String) =>
    "size=".toList ++ Numeral.display mb.toNat ++
      "m,".toList ++ rest.toList
  { rules :=
      if firewallEnabled config then
        config.network.firewall.inbound.map inboundRule
      else
        []
    mounts :=
      { tmp := size tmpfs.tmpMb "mode=1777"
        run := size tmpfs.runMb "mode=0755"
        shm := size tmpfs.shmMb "mode=1777"
        varTmp := size tmpfs.varTmpMb "mode=1777" }
    sysctls := config.hardening.extraSysctls.entries
    child :=
      { limits := limitsOf config
        ids := idsOf config
        env := config.app.runtime.env.entries } }

section

variable (valid : ValidConfig)

/- The pairs come back as they were. -/
theorem validEnv :
    parsePairs (bakedValue valid.config .appEnv)
        "[app.runtime].env" =
      .ok valid.config.app.runtime.env.entries := by
  have hParts :=
    (Config.validate_eq_ok_iff valid.config).1 valid.valid
  have hPairs := (Config.validateKvEncoding_eq_ok_iff _).1
    hParts.2.2.2.1
  exact parsePairs_encodeKvPairs hPairs.1 _

/- So do these. -/
theorem validSysctls :
    parsePairs (bakedValue valid.config .extraSysctls)
        "[hardening].extra_sysctls" =
      .ok valid.config.hardening.extraSysctls.entries := by
  have hParts :=
    (Config.validate_eq_ok_iff valid.config).1 valid.valid
  have hPairs := (Config.validateKvEncoding_eq_ok_iff _).1
    hParts.2.2.2.1
  exact parsePairs_encodeKvPairs hPairs.2 _

/- The rules, in a guest that has the firewall. -/
theorem validRules :
    firewallRules (firewallEnabled valid.config)
        (bakedValue valid.config) =
      .ok (decodedOf valid.config).rules := by
  have hParts :=
    (Config.validate_eq_ok_iff valid.config).1 valid.valid
  unfold firewallRules decodedOf
  cases hEnabled : firewallEnabled valid.config with
  | false => rfl
  | true =>
      have hFirewall := hEnabled
      rw [firewallEnabled, Bool.and_eq_true] at hFirewall
      have hInbound := Config.validateFirewall_eq_ok
        hParts.2.2.2.2.2.2.2.1 hFirewall.1
      have hText :
          bakedValue valid.config .firewallRules =
            bakedRules valid.config := by
        unfold bakedValue
        rw [hEnabled]
        rfl
      rw [hText]
      exact parseRules_bakedRules hInbound

/- Sizes of mounts are always read back. -/
theorem prepareSystemEnv_eq (config : Config) :
    prepareSystemEnv (bakedValue config) =
      .ok (decodedOf config).mounts := by
  unfold prepareSystemEnv
  rw [tmpfsData_display config.storage.tmpfs.tmpMb rfl,
    ok_bind,
    tmpfsData_display config.storage.tmpfs.runMb rfl,
    ok_bind,
    tmpfsData_display config.storage.tmpfs.shmMb rfl,
    ok_bind,
    tmpfsData_display config.storage.tmpfs.varTmpMb rfl,
    ok_bind]
  rfl

/- The data are decoded twice, and alike. -/
theorem lockdownFilesystem_eq (config : Config) :
    lockdownFilesystem (bakedValue config) =
      .ok
        ((decodedOf config).mounts.tmp,
          (decodedOf config).mounts.run) := by
  unfold lockdownFilesystem
  rw [tmpfsData_display config.storage.tmpfs.tmpMb rfl,
    ok_bind,
    tmpfsData_display config.storage.tmpfs.runMb rfl,
    ok_bind]
  rfl

/- Only the ids and the limits can end the boot. -/
theorem decodeConstants_eq_ok_iff (decoded : Decoded) :
    decodeConstants (firewallEnabled valid.config)
        (bakedValue valid.config) =
      .ok decoded ↔
      Readable valid.config ∧
        decoded = decodedOf valid.config := by
  have hParts :=
    (Config.validate_eq_ok_iff valid.config).1 valid.valid
  rcases Config.validateApp_eq_ok hParts.2.2.2.2.2.2.2.2.1 with
    ⟨hUid, hGid⟩
  have hIds := appIds_eq_ok_iff hUid hGid
  have hLimits := resourceLimits_eq_ok_iff valid.config
  constructor
  · intro hDecode
    unfold decodeConstants at hDecode
    rw [bind_eq_ok_iff] at hDecode
    rcases hDecode with ⟨ids, hAppIds, hDecode⟩
    rw [validRules, ok_bind, prepareSystemEnv_eq, ok_bind,
      validSysctls, ok_bind, lockdownFilesystem_eq, ok_bind,
      bind_eq_ok_iff] at hDecode
    rcases hDecode with ⟨child, hSpawn, hDecode⟩
    unfold spawnApp at hSpawn
    rw [bind_eq_ok_iff] at hSpawn
    rcases hSpawn with ⟨limits, hResource, hSpawn⟩
    rw [hAppIds, ok_bind, validEnv, ok_bind] at hSpawn
    rcases (hIds ids).1 hAppIds with ⟨⟨hUserId, hGroupId⟩, hId⟩
    rcases (hLimits limits).1 hResource with
      ⟨⟨hLocked, hMemory⟩, hLimit⟩
    refine ⟨⟨hUserId, hGroupId, hLocked, hMemory⟩, ?_⟩
    cases hSpawn
    cases hDecode
    rw [hId, hLimit]
    rfl
  · rintro ⟨hReadable, rfl⟩
    have hAppIds := (hIds (idsOf valid.config)).2
      ⟨⟨hReadable.uid, hReadable.gid⟩, rfl⟩
    have hResource := (hLimits (limitsOf valid.config)).2
      ⟨⟨hReadable.maxLockedMemory, hReadable.maxMemory⟩, rfl⟩
    unfold decodeConstants spawnApp
    rw [hAppIds, ok_bind, validRules, ok_bind,
      prepareSystemEnv_eq, ok_bind, validSysctls, ok_bind,
      lockdownFilesystem_eq, ok_bind, hResource, ok_bind,
      ok_bind, validEnv, ok_bind, ok_bind]
    rfl

/-
  A guest decodes all it was built with, from exactly the
  valid configs whose ids are not all ones and whose memory
  limits fit 64 bits in bytes.
-/
theorem decodes_iff_readable :
    (∃ decoded,
        decodeConstants
            (.firewall ∈ initFeatures valid.config)
            (constant (appEnvExports valid.config)) =
          .ok decoded) ↔
      Readable valid.config := by
  have hConstants :
      constant (appEnvExports valid.config) =
        bakedValue valid.config :=
    funext (constant_appEnvExports valid.config)
  have hFeature :
      decide (.firewall ∈ initFeatures valid.config) =
        firewallEnabled valid.config := by
    rw [Bool.eq_iff_iff, decide_eq_true_iff,
      firewall_mem_initFeatures_iff]
  rw [hConstants, hFeature]
  constructor
  · rintro ⟨decoded, hDecode⟩
    exact ((decodeConstants_eq_ok_iff valid decoded).1
      hDecode).1
  · intro hReadable
    exact ⟨_, (decodeConstants_eq_ok_iff valid _).2
      ⟨hReadable, rfl⟩⟩

end

/- A config for the app with the given user and limit. -/
def runtimeConfig (uid : UInt32) (maxMemoryMb : UInt64) :
    Config :=
  let config := casualConfigWithFormats [.cpio]
  { config with
    app :=
      { config.app with
        runtime :=
          { uid := uid
            limits := { maxMemoryMb := maxMemoryMb } } } }

/- Two valid configs whose guests wipe themselves at boot. -/
theorem unreadable_configs :
    (runtimeConfig 4294967295 0).validate = .ok () ∧
      decodeConstants
          (.firewall ∈ initFeatures (runtimeConfig 4294967295 0))
          (constant
            (appEnvExports (runtimeConfig 4294967295 0))) =
        .error .badAppIds ∧
      (runtimeConfig 65534 17592186044416).validate = .ok () ∧
      decodeConstants
          (.firewall ∈
            initFeatures (runtimeConfig 65534 17592186044416))
          (constant
            (appEnvExports
              (runtimeConfig 65534 17592186044416))) =
        .error (.tooLarge .limitAsMb) := by
  refine ⟨by rfl, by decide, by rfl, by decide⟩

end Agreement

end CargoUnikernel
