import CargoUnikernel.Pipeline.GuestInitScript

/-
  What cargo reads of the guest's build script.

  The host's checks keep `;` and `=` out of what it encodes,
  but cargo takes the script's output line by line. A valid
  config yields the directives that are meant exactly where
  no text of it that is exported has a newline.

  Main declarations:
    * `NewlineFree`
    * `newlineFree_iff`
    * `directives_intact_iff`
    * `newline_injects_directive`
    * `Intact`, `compiled_appEnvExports`
-/

------------------------------------------------------------
-- Newlines in What Is Exported
------------------------------------------------------------

namespace CargoUnikernel

namespace Agreement

open Schema Pipeline Guest.BuildScript

/- No key and no value of the pairs has a newline. -/
def PairsNewlineFree (pairs : BTreeMap Text Text) : Prop :=
  ∀ pair ∈ pairs.entries, '\n' ∉ pair.1 ∧ '\n' ∉ pair.2

/- No entry of the list has a newline. -/
def EntriesNewlineFree (entries : List Text) : Prop :=
  ∀ entry ∈ entries, '\n' ∉ entry

/-
  No newline in any text the guest is built with, apart from
  addresses and ports, which cannot have one.
-/
structure NewlineFree (config : Config) : Prop where
  env : PairsNewlineFree config.app.runtime.env
  extraSysctls :
    PairsNewlineFree config.hardening.extraSysctls
  nameservers : EntriesNewlineFree config.network.nameservers
  search :
    ∀ search, config.network.search = some search →
      '\n' ∉ search
  interface :
    ∀ staticV6 interface,
      config.network.ipv6Static = some staticV6 →
        staticV6.interface = some interface →
        '\n' ∉ interface
  landlockRead :
    config.app.runtime.landlock.enabled = true →
      EntriesNewlineFree
        config.app.runtime.landlock.extraReadPaths
  landlockReadWrite :
    config.app.runtime.landlock.enabled = true →
      EntriesNewlineFree
        config.app.runtime.landlock.extraReadWritePaths

/- What is printed from numbers is on one line. -/
theorem newline_not_mem_display (n : Nat) :
    '\n' ∉ Numeral.display n := by
  intro hMem
  exact absurd (Numeral.isDigit_of_mem_display hMem)
    (by decide)

/- So is what is parsed as an address. -/
theorem newline_not_mem_address
    {s : Text} {address : Ipv6Addr}
    (hParse : Ipv6Addr.parse s = some address) :
    '\n' ∉ s := by
  intro hMem
  have hChar := Ipv6Addr.mem_of_parse hParse '\n' hMem
  revert hChar
  unfold IsAddressChar
  decide

/- A list is on one line if its entries are. -/
theorem newline_not_mem_encodePathList_iff
    (entries : List Text) :
    '\n' ∉ encodePathList entries ↔
      EntriesNewlineFree entries := by
  unfold encodePathList EntriesNewlineFree
  rw [Text.mem_join_iff (by decide), not_exists]
  apply forall_congr'
  intro entry
  rw [not_and]

/- And pairs if both halves are. -/
theorem newline_not_mem_encodeKvPairs_iff
    (pairs : BTreeMap Text Text) :
    '\n' ∉ encodeKvPairs pairs ↔ PairsNewlineFree pairs := by
  have hPair :
      ∀ pair, '\n' ∈ encodeKvPair pair ↔
        '\n' ∈ pair.1 ∨ '\n' ∈ pair.2 := by
    intro pair
    simp [encodeKvPair]
  unfold encodeKvPairs PairsNewlineFree
  rw [Text.mem_join_iff (by decide)]
  simp only [List.mem_map, exists_exists_and_eq_and, hPair,
    not_exists, not_and, not_or]

/- An entry that is accepted has no newline. -/
theorem newline_not_mem_inbound
    {entry : InboundPorts} (hEntry : Config.IsInbound entry) :
    '\n' ∉ encodeInbound entry := by
  rcases hEntry with ⟨hProto, first, last, hPorts, _⟩
  have hLine : '\n' ∉ entry.ports := by
    intro hMem
    exact absurd (Config.mem_of_portsOf hPorts hMem)
      (by decide)
  have hName : '\n' ∉ entry.proto := by
    rcases hProto with hProto | hProto
    · rw [hProto]
      decide
    · rw [hProto]
      decide
  simp [encodeInbound, hName, hLine]

------------------------------------------------------------
-- Valid Configs
------------------------------------------------------------

section

variable (valid : ValidConfig)

/- The rules of a valid config have no newline. -/
theorem newline_not_mem_bakedRules
    (hEnabled : firewallEnabled valid.config = true) :
    '\n' ∉ bakedRules valid.config := by
  have hParts :=
    (Config.validate_eq_ok_iff valid.config).1 valid.valid
  rw [firewallEnabled, Bool.and_eq_true] at hEnabled
  have hInbound := Config.validateFirewall_eq_ok
    hParts.2.2.2.2.2.2.2.1 hEnabled.1
  unfold bakedRules
  rw [Text.mem_join_iff (by decide)]
  rintro ⟨part, hPart, hNewline⟩
  rcases List.mem_map.1 hPart with ⟨entry, hMem, rfl⟩
  exact newline_not_mem_inbound (hInbound entry hMem) hNewline

/- So the rules are on one line. -/
theorem newline_not_mem_rules :
    '\n' ∉
      if firewallEnabled valid.config then
        bakedRules valid.config
      else
        [] := by
  split
  case isTrue hEnabled =>
      exact newline_not_mem_bakedRules valid hEnabled
  case isFalse => exact List.not_mem_nil

/- Nor do its static address and gateway. -/
theorem newline_not_mem_ipv6 :
    '\n' ∉ bakedValue valid.config .ipv6Static ∧
      '\n' ∉ bakedValue valid.config .ipv6Gateway := by
  have hParts :=
    (Config.validate_eq_ok_iff valid.config).1 valid.valid
  unfold bakedValue
  cases hStatic : valid.config.network.ipv6Static with
  | none => simp
  | some staticV6 =>
      rcases Config.validateIpv6Static_eq_ok
        hParts.2.2.2.2.2.2.1 hStatic with
        ⟨⟨address, hAddress⟩, hGateway⟩
      constructor
      · have hText := newline_not_mem_address hAddress
        have hPrefix :=
          newline_not_mem_display staticV6.prefixLen.toNat
        simp [encodeIpv6Static, hText, hPrefix]
      · cases hSome : staticV6.gateway with
        | none => simp [hSome]
        | some gateway =>
            rcases hGateway gateway hSome with ⟨_, hParse⟩
            have hText := newline_not_mem_address hParse
            simp [hSome, hText]

/- The text of an optional field has no newline. -/
theorem newline_not_mem_getD_iff (field : Option Text) :
    '\n' ∉ field.getD [] ↔
      ∀ text, field = some text → '\n' ∉ text := by
  cases field with
  | none => simp
  | some text => simp

/- Paths are exported only where Landlock is on. -/
theorem newline_not_mem_landlock_iff
    (config : Config) (paths : List Text) :
    ('\n' ∉
        if config.app.runtime.landlock.enabled then
          encodePathList paths
        else
          []) ↔
      (config.app.runtime.landlock.enabled = true →
        EntriesNewlineFree paths) := by
  split
  case isTrue hEnabled =>
      rw [newline_not_mem_encodePathList_iff]
      exact ⟨fun hFree _ => hFree, fun hFree => hFree hEnabled⟩
  case isFalse hDisabled =>
      exact
        ⟨fun _ hEnabled => absurd hEnabled hDisabled,
          fun _ => List.not_mem_nil⟩

/- The texts of a config are where a newline can come from. -/
theorem newlineFree_iff :
    (∀ name, '\n' ∉ bakedValue valid.config name) ↔
      NewlineFree valid.config := by
  constructor
  · intro hFree
    refine
      { env :=
          (newline_not_mem_encodeKvPairs_iff _).1
            (hFree .appEnv)
        extraSysctls :=
          (newline_not_mem_encodeKvPairs_iff _).1
            (hFree .extraSysctls)
        nameservers :=
          (newline_not_mem_encodePathList_iff _).1
            (hFree .nameservers)
        search :=
          (newline_not_mem_getD_iff _).1 (hFree .dnsSearch)
        interface := ?_
        landlockRead :=
          (newline_not_mem_landlock_iff _ _).1
            (hFree .landlockRo)
        landlockReadWrite :=
          (newline_not_mem_landlock_iff _ _).1
            (hFree .landlockRw) }
    intro staticV6 interface hStatic hInterface
    apply (newline_not_mem_getD_iff _).1 (hFree .ipv6Iface)
    rw [hStatic]
    exact hInterface
  · intro hFree name
    cases name with
    | payloadDir =>
        have hDir : '\n' ∉ "/payload".toList := by decide
        exact hDir
    | appPath =>
        have hPath : '\n' ∉ "/payload/app".toList := by decide
        exact hPath
    | appEnv =>
        exact (newline_not_mem_encodeKvPairs_iff _).2
          hFree.env
    | extraSysctls =>
        exact (newline_not_mem_encodeKvPairs_iff _).2
          hFree.extraSysctls
    | nameservers =>
        exact (newline_not_mem_encodePathList_iff _).2
          hFree.nameservers
    | dnsSearch =>
        exact (newline_not_mem_getD_iff _).2 hFree.search
    | landlockRo =>
        exact (newline_not_mem_landlock_iff _ _).2
          hFree.landlockRead
    | landlockRw =>
        exact (newline_not_mem_landlock_iff _ _).2
          hFree.landlockReadWrite
    | ipv6Static => exact (newline_not_mem_ipv6 valid).1
    | ipv6Gateway => exact (newline_not_mem_ipv6 valid).2
    | ipv6Iface =>
        apply (newline_not_mem_getD_iff _).2
        intro text hText
        rw [Option.bind_eq_some_iff] at hText
        rcases hText with ⟨staticV6, hStatic, hInterface⟩
        exact hFree.interface staticV6 text hStatic hInterface
    | firewallRules => exact newline_not_mem_rules valid
    | _ => exact newline_not_mem_display _

/-
  Cargo reads the intended directives, each with the full
  exported value, from exactly the valid configs that have
  no newline in an exported text.
-/
theorem directives_intact_iff :
    Text.lines (main (appEnvExports valid.config)) =
        directives (appEnvExports valid.config) ↔
      NewlineFree valid.config := by
  rw [lines_main_iff, ← newlineFree_iff]
  apply forall_congr'
  intro name
  rw [constant_appEnvExports]

end

/- A value that goes on with a directive of its own. -/
def injectingConfig : Config :=
  let config := casualConfigWithFormats [.cpio]
  let value :=
    ("1\ncargo:rustc-env=CARGO_UNIKERNEL_APP_PATH=" ++
      "/bin/sh").toList
  { config with
    app :=
      { config.app with
        runtime := { env := .single "A".toList value } } }

/-
  The config is valid, and cargo reads a directive for the
  path of the app that the script was not meant to print.
-/
theorem newline_injects_directive :
    injectingConfig.validate = .ok () ∧
      Text.lines (main (appEnvExports injectingConfig)) ≠
        directives (appEnvExports injectingConfig) ∧
      rustcEnv .appPath "/bin/sh".toList ∈
        Text.lines (main (appEnvExports injectingConfig)) := by
  refine ⟨by rfl, by decide, by decide⟩

------------------------------------------------------------
-- What the Guest Is Compiled With
------------------------------------------------------------

/-
  The values of a config have no NUL, which a shell leaves
  out of its script. They are on one line each, and the white
  space that cargo drops at the end of a line is not theirs.
-/
structure Intact (config : Config) : Prop where
  nuls : ∀ name, '\x00' ∉ bakedValue config name
  newlines : NewlineFree config
  ends : ∀ name, Text.EndsSolid (bakedValue config name)

/- It is enough to look at each of the values. -/
theorem intact_of_all
    {valid : ValidConfig}
    (hAll :
      (passthroughs.all fun entry =>
        '\x00' ∉ bakedValue valid.config entry.1 ∧
          '\n' ∉ bakedValue valid.config entry.1 ∧
          Text.EndsSolid (bakedValue valid.config entry.1)) =
        true) :
    Intact valid.config := by
  have hEach (name : Constant) :
      '\x00' ∉ bakedValue valid.config name ∧
        '\n' ∉ bakedValue valid.config name ∧
        Text.EndsSolid (bakedValue valid.config name) := by
    have hEntry :=
      List.all_eq_true.1 hAll _ (mem_passthroughs name)
    exact of_decide_eq_true hEntry
  constructor
  · exact fun name => (hEach name).1
  · rw [← newlineFree_iff]
    exact fun name => (hEach name).2.1
  · exact fun name => (hEach name).2.2

/- Then they are what the guest is compiled with. -/
theorem compiled_appEnvExports
    {valid : ValidConfig} (hIntact : Intact valid.config)
    (name : Constant) :
    compiled (main (received (appEnvExports valid.config)))
        name =
      some (bakedValue valid.config name) := by
  have hSame (other : Constant) :
      constant (received (appEnvExports valid.config))
          other =
        bakedValue valid.config other := by
    rw [constant_received, constant_appEnvExports]
    rw [constant_appEnvExports]
    exact hIntact.nuls other
  rw [compiled_main, hSame]
  · intro other
    rw [hSame]
    exact (newlineFree_iff valid).2 hIntact.newlines other
  · intro other
    rw [hSame]
    exact hIntact.ends other

end Agreement

end CargoUnikernel
