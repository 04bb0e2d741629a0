import CargoUnikernel.Agreement.Constants
import CargoUnikernel.Guest.Network

/-
  Whether the guest takes a static IPv6 address for routable
  that the host accepted as routable.

  The address and the length of its prefix arrive as they
  were configured. The host leaves out link-local addresses
  but not site-local ones, which the guest leaves out too:
  on all others the two agree.

  Main declarations:
    * `StaticV6Agrees`, `IsSiteLocal`
    * `parseStaticV6_encodeIpv6Static`
    * `static_v6_agrees_iff`
-/

------------------------------------------------------------
-- The Exported Text
------------------------------------------------------------

namespace CargoUnikernel

namespace Agreement

open Schema Pipeline Fallible
open Guest.BuildScript Guest.Network

/- What the check of a static address has made sure of. -/
structure Accepted (staticV6 : Ipv6Static) (address : Ipv6Addr) :
    Prop where
  parsed : Ipv6Addr.parse staticV6.address = some address
  reachable : Config.isUnreachable address = false
  positive : staticV6.prefixLen ≠ 0
  atMost : ¬ staticV6.prefixLen > 128

/- What the host lets through is accepted here. -/
theorem accepted_of_validate
    {config : Config} {staticV6 : Ipv6Static}
    (hValid : config.validateIpv6Static = .ok ())
    (hStatic : config.network.ipv6Static = some staticV6) :
    ∃ address, Accepted staticV6 address := by
  unfold Config.validateIpv6Static at hValid
  rw [hStatic] at hValid
  simp only [unit_bind_eq_ok_iff] at hValid
  rcases hValid with ⟨_, hAddress, hPrefix, _⟩
  rw [reject_eq_ok_iff, not_or] at hPrefix
  cases hParse : Ipv6Addr.parse staticV6.address with
  | none =>
      rw [Config.validateIpv6Address, hParse] at hAddress
      cases hAddress
  | some address =>
      rw [Config.validateIpv6Address, hParse] at hAddress
      simp only [reject_eq_ok_iff] at hAddress
      exact ⟨address, hParse, by simpa using hAddress,
        hPrefix.1, hPrefix.2⟩

/- No address is written with a slash in it. -/
theorem slash_not_mem_address
    {s : Text} {address : Ipv6Addr}
    (hParse : Ipv6Addr.parse s = some address) :
    '/' ∉ s := by
  intro hMem
  have hChar := Ipv6Addr.mem_of_parse hParse '/' hMem
  revert hChar
  unfold IsAddressChar
  decide

/- The guest reads the address and the prefix as they were. -/
theorem parseStaticV6_encodeIpv6Static
    {staticV6 : Ipv6Static} {address : Ipv6Addr}
    (hAccepted : Accepted staticV6 address) :
    parseStaticV6 (encodeIpv6Static staticV6) =
      some (address, staticV6.prefixLen.toNat) := by
  have hSplit :
      Text.splitOnce '/' (encodeIpv6Static staticV6) =
        some
          (staticV6.address,
            Numeral.display staticV6.prefixLen.toNat) :=
    Text.splitOnce_append
      (slash_not_mem_address hAccepted.parsed) _
  have hPrefix :
      Numeral.parse (2 ^ 8)
          (Numeral.display staticV6.prefixLen.toNat) =
        some staticV6.prefixLen.toNat :=
    Numeral.parse_display staticV6.prefixLen.toNat_lt
  have hRange :
      ¬ (staticV6.prefixLen.toNat = 0 ∨
        staticV6.prefixLen.toNat > 128) := by
    rw [not_or]
    constructor
    · intro hZero
      exact hAccepted.positive (UInt8.toNat_inj.1 hZero)
    · exact hAccepted.atMost
  unfold parseStaticV6
  simp only [hSplit, hAccepted.parsed, hPrefix, bind,
    Option.bind_some, if_neg hRange]

------------------------------------------------------------
-- Routable on Both Sides
------------------------------------------------------------

/- The deprecated `fec0::/10`. -/
def IsSiteLocal (address : Ipv6Addr) : Prop :=
  address.firstSegment &&& 0xffc0 = 0xfec0

/- What the host lets through and the guest does not. -/
theorem isGlobalUnicastV6_iff
    {address : Ipv6Addr}
    (hReachable : Config.isUnreachable address = false) :
    isGlobalUnicastV6 address = true ↔
      ¬ IsSiteLocal address := by
  unfold Config.isUnreachable at hReachable
  simp only [Bool.or_eq_false_iff] at hReachable
  rcases hReachable with
    ⟨⟨⟨hLoopback, hMulticast⟩, hUnspecified⟩, hLinkLocal⟩
  unfold isGlobalUnicastV6 IsSiteLocal
  rw [hLoopback, hMulticast, hUnspecified]
  simp only [bne, hLinkLocal, Bool.not_false,
    Bool.true_and, Bool.and_true]
  simp

/- The guest has the address, and takes it for routable. -/
def StaticV6Agrees (config : Config) (staticV6 : Ipv6Static) :
    Prop :=
  ∃ address,
    Ipv6Addr.parse staticV6.address = some address ∧
      parseStaticV6
          (constant (appEnvExports config) .ipv6Static) =
        some (address, staticV6.prefixLen.toNat) ∧
      isGlobalUnicastV6 address = true

/-
  An accepted address always arrives, and the guest takes it
  for routable exactly when it is not site-local.
-/
theorem static_v6_agrees_iff
    {config : Config} {staticV6 : Ipv6Static}
    (hValid : config.validateIpv6Static = .ok ())
    (hStatic : config.network.ipv6Static = some staticV6) :
    ∃ address,
      Ipv6Addr.parse staticV6.address = some address ∧
        parseStaticV6
            (constant (appEnvExports config) .ipv6Static) =
          some (address, staticV6.prefixLen.toNat) ∧
        (StaticV6Agrees config staticV6 ↔
          ¬ IsSiteLocal address) := by
  rcases accepted_of_validate hValid hStatic with
    ⟨address, hAccepted⟩
  have hConstant :
      constant (appEnvExports config) .ipv6Static =
        encodeIpv6Static staticV6 := by
    rw [constant_appEnvExports]
    unfold bakedValue
    rw [hStatic]
    rfl
  have hArrives :=
    parseStaticV6_encodeIpv6Static hAccepted
  have hGlobal := isGlobalUnicastV6_iff hAccepted.reachable
  refine ⟨address, hAccepted.parsed, ?_, ?_⟩
  · rw [hConstant]
    exact hArrives
  · constructor
    · rintro ⟨other, hParse, _, hUnicast⟩
      rw [hAccepted.parsed] at hParse
      rw [← Option.some.inj hParse] at hUnicast
      exact hGlobal.1 hUnicast
    · intro hNotSite
      refine ⟨address, hAccepted.parsed, ?_,
        hGlobal.2 hNotSite⟩
      rw [hConstant]
      exact hArrives

/- A config with an address and no other choice made. -/
def staticConfig (address : Text) : Config :=
  { casualConfigWithFormats [.cpio] with
    network :=
      { mode := .ipv6
        ipv6Static := some { address := address } } }

/- A documentation address arrives and is routable. -/
theorem documentation_address_agrees :
    StaticV6Agrees (staticConfig "2001:db8::1".toList)
      { address := "2001:db8::1".toList } := by
  have hValid :
      (staticConfig "2001:db8::1".toList).validateIpv6Static =
        .ok () := by
    decide
  rcases static_v6_agrees_iff hValid rfl with
    ⟨address, hParse, _, hAgrees⟩
  apply hAgrees.2
  have hAddress :
      ∀ address,
        Ipv6Addr.parse "2001:db8::1".toList = some address →
          ¬ IsSiteLocal address := by
    intro other hOther
    have hFirst :
        (Ipv6Addr.parse "2001:db8::1".toList).map
            (fun address => address.firstSegment &&& 0xffc0) =
          some 0x2000 := by
      decide
    rw [hOther, Option.map_some, Option.some.injEq] at hFirst
    unfold IsSiteLocal
    rw [hFirst]
    decide
  exact hAddress address hParse

/- A site-local address is accepted and not routable. -/
theorem site_local_address_accepted :
    (staticConfig "fec0::1".toList).validateIpv6Static =
        .ok () ∧
      ¬ StaticV6Agrees (staticConfig "fec0::1".toList)
        { address := "fec0::1".toList } := by
  constructor
  · decide
  · rintro ⟨address, hParse, _, hUnicast⟩
    have hNone :
        (Ipv6Addr.parse "fec0::1".toList).map
            isGlobalUnicastV6 =
          some false := by
      decide
    change
      Ipv6Addr.parse "fec0::1".toList = some address at hParse
    rw [hParse, Option.map_some, hUnicast] at hNone
    cases hNone

end Agreement

end CargoUnikernel
