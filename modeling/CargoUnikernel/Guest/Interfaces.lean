import CargoUnikernel.Guest.Network
import CargoUnikernel.Library.Bytes
import CargoUnikernel.Library.Utf8

/-
  What the guest tells the kernel of its interfaces, and
  what it reads back.

  The structures of the ioctls are byte strings, and the
  kernel reads their fields by offset. The addresses of an
  interface come from a table of the kernel, column by
  column.

  Main declarations:
    * `ifreqFor`, `setUnion`, `in6IfReq`, `in6RtMsg`
    * `ifrName`, `AddressRequest.read`, `RouteRequest.read`
    * `interfaceIpv6Addrs`, `RendersInet6`
    * `interfaceIpv6Addrs_of_renders`
-/

------------------------------------------------------------
-- Requests
------------------------------------------------------------

namespace CargoUnikernel

namespace Guest

namespace Interfaces

open Network (Word Rows)
open Schema (Ipv6Addr)

/- The sizes of an `ifreq` and of its name. -/
def ifrNameSize : Nat := 16
def ifReqSize : Nat := 40

/- Where the union begins. -/
def ifrUnion : Nat := 16

/- No more than 15 bytes of a name, and zeros after them. -/
def ifreqFor (name : Text) : List UInt8 :=
  let bytes := Utf8.encode name
  let len := min bytes.length 15
  bytes.take len ++ List.replicate (ifReqSize - len) 0

/- Bytes put in place of those at the start of the union. -/
def setUnion
    (value : List UInt8) (ifr : List UInt8) : List UInt8 :=
  ifr.take ifrUnion ++ value ++
    ifr.drop (ifrUnion + value.length)

/- Some bytes of the union. -/
def readUnion
    (offset count : Nat) (ifr : List UInt8) : List UInt8 :=
  (ifr.drop (ifrUnion + offset)).take count

/- The flags of an interface. -/
def iffUp : Nat := 0x1
def iffRunning : Nat := 0x40

/- `ifr_flags`. -/
def ifrFlags (ifr : List UInt8) : Nat :=
  Bytes.toNatLe (readUnion 0 2 ifr)

/- The flags are the first two bytes of the union. -/
def setFlags (flags : Nat) (ifr : List UInt8) : List UInt8 :=
  setUnion (Bytes.ofNatLe 2 flags) ifr

/- `ifr_ifindex`, as it is handed on. -/
def ifrIfindex (ifr : List UInt8) : List UInt8 :=
  readUnion 0 4 ifr

/- The family of an IPv4 address. -/
def afInet : Nat := 2

/- `struct sockaddr_in` without a port. -/
def sockaddrIn (octets : List UInt8) : List UInt8 :=
  Bytes.ofNatLe 2 afInet ++ [0, 0] ++ octets ++
    List.replicate 8 0

------------------------------------------------------------
-- IPv6 Requests
------------------------------------------------------------

/- The sixteen bytes, in network order. -/
def octets (address : Ipv6Addr) : List UInt8 :=
  address.segments.toList.flatMap fun segment =>
    Bytes.ofNatBe 2 segment.toNat

/- `struct in6_ifreq`: an address, its prefix, an index. -/
def in6IfReq
    (address : Ipv6Addr) (prefixLen : Nat)
    (ifindex : List UInt8) : List UInt8 :=
  [octets address, Bytes.ofNatLe 4 prefixLen,
    ifindex].flatten

/- More than what the kernel's own routes have. -/
def staticRouteMetric : Nat := 2048
def rtfUp : Nat := 0x0001
def rtfGateway : Nat := 0x0002

/-
  `struct in6_rtmsg` of a default route: `dst`, `src`,
  `gateway`, the type, both lengths, the metric, padding,
  the info, the flags and the index.
-/
def in6RtMsg
    (gateway : Ipv6Addr) (ifindex : List UInt8) :
    List UInt8 :=
  [List.replicate 16 0, List.replicate 16 0, octets gateway,
    Bytes.ofNatLe 4 0, Bytes.ofNatLe 2 0, Bytes.ofNatLe 2 0,
    Bytes.ofNatLe 4 staticRouteMetric, Bytes.ofNatLe 4 0,
    Bytes.ofNatLe 8 0,
    Bytes.ofNatLe 4 (rtfUp ||| rtfGateway),
    ifindex].flatten

------------------------------------------------------------
-- What the Kernel Reads
------------------------------------------------------------

/- So many bytes from an offset on. -/
def field (offset count : Nat) (bytes : List UInt8) :
    List UInt8 :=
  (bytes.drop offset).take count

/- The name ends at the first zero. -/
def ifrName (ifr : List UInt8) : List UInt8 :=
  (field 0 ifrNameSize ifr).takeWhile (· ≠ 0)

/- An `in6_ifreq`, taken apart. -/
structure AddressRequest where
  addr : List UInt8
  prefixLen : Nat
  ifindex : List UInt8
deriving DecidableEq

/- An `in6_rtmsg`, taken apart. -/
structure RouteRequest where
  dst : List UInt8
  dstLen : Nat
  gateway : List UInt8
  metric : Nat
  flags : Nat
  ifindex : List UInt8
deriving DecidableEq

/- By the offsets of `linux/ipv6.h`. -/
def AddressRequest.read (arg : List UInt8) : AddressRequest where
  addr := field 0 16 arg
  prefixLen := Bytes.toNatLe (field 16 4 arg)
  ifindex := field 20 4 arg

/- By the offsets of `linux/ipv6_route.h`. -/
def RouteRequest.read (arg : List UInt8) : RouteRequest where
  dst := field 0 16 arg
  dstLen := Bytes.toNatLe (field 52 2 arg)
  gateway := field 32 16 arg
  metric := Bytes.toNatLe (field 56 4 arg)
  flags := Bytes.toNatLe (field 72 4 arg)
  ifindex := field 76 4 arg

/- What stands between bytes of known length. -/
theorem field_between
    {front value back : List UInt8} {offset count : Nat}
    (hOffset : front.length = offset)
    (hCount : value.length = count) :
    field offset count (front ++ (value ++ back)) = value := by
  unfold field
  rw [← hOffset, ← hCount, List.drop_left, List.take_left]

/- One of the parts that the bytes are made of. -/
theorem field_flatten
    {parts : List (List UInt8)} {value : List UInt8}
    {i offset count : Nat}
    (hAt : parts[i]? = some value)
    (hOffset : (parts.take i).flatten.length = offset)
    (hCount : value.length = count) :
    field offset count parts.flatten = value := by
  rcases List.getElem?_eq_some_iff.1 hAt with ⟨hIndex, hValue⟩
  have hParts :
      parts.flatten =
        (parts.take i).flatten ++
          (value ++ (parts.drop (i + 1)).flatten) := by
    conv_lhs =>
      rw [← List.take_append_drop i parts,
        List.drop_eq_getElem_cons hIndex, hValue]
    rw [List.flatten_append, List.flatten_cons]
  rw [hParts]
  exact field_between hOffset hCount

@[simp] theorem length_octets (address : Ipv6Addr) :
    (octets address).length = 16 := by
  unfold octets
  rw [List.length_flatMap]
  simp

/- A request has the size that the kernel reads. -/
theorem length_ifreqFor (name : Text) :
    (ifreqFor name).length = ifReqSize := by
  unfold ifreqFor ifReqSize
  simp only [List.length_append, List.length_take,
    List.length_replicate]
  omega

theorem takeWhile_replicate_zero (count : Nat) :
    (List.replicate count (0 : UInt8)).takeWhile (· ≠ 0) =
      [] := by
  cases count with
  | zero => rfl
  | succ count => rfl

/- The kernel finds the first 15 bytes of the name. -/
theorem ifrName_ifreqFor
    {name : Text} (hNul : '\x00' ∉ name) :
    ifrName (ifreqFor name) = (Utf8.encode name).take 15 := by
  have hZero :
      ∀ byte ∈ (Utf8.encode name).take 15,
        decide (byte ≠ 0) = true := by
    intro byte hMem
    rw [decide_eq_true_eq]
    rintro rfl
    have hInside := List.mem_of_mem_take hMem
    exact hNul (Utf8.mem_encode (by decide) hInside)
  have hField :
      field 0 ifrNameSize (ifreqFor name) =
        (Utf8.encode name).take 15 ++
          List.replicate
            (16 - min (Utf8.encode name).length 15) 0 := by
    have hTake :
        (Utf8.encode name).take
            (min (Utf8.encode name).length 15) =
          (Utf8.encode name).take 15 := by
      rw [List.take_eq_take_iff]
      omega
    unfold field ifreqFor ifrNameSize ifReqSize
    dsimp only
    rw [hTake, List.drop_zero, List.take_append,
      List.take_replicate, List.take_take, List.length_take]
    congr 2
    omega
  unfold ifrName
  rw [hField, List.takeWhile_append_of_pos hZero,
    takeWhile_replicate_zero, List.append_nil]

/- What is put into the union leaves the name as it is. -/
theorem ifrName_setUnion
    {value ifr : List UInt8}
    (hLength : ifrUnion ≤ ifr.length) :
    ifrName (setUnion value ifr) = ifrName ifr := by
  have hFront : (ifr.take ifrUnion).length = ifrUnion := by
    rw [List.length_take, Nat.min_eq_left hLength]
  have hField :
      field 0 ifrNameSize (setUnion value ifr) =
        ifr.take ifrUnion := by
    unfold setUnion
    rw [List.append_assoc]
    exact @field_between [] _ _ _ _ rfl hFront
  unfold ifrName
  rw [hField]
  rfl

/- The flags are read back as they were set. -/
theorem ifrFlags_setFlags
    {flags : Nat} {ifr : List UInt8}
    (hLength : ifrUnion ≤ ifr.length)
    (hFlags : flags < 2 ^ 16) :
    ifrFlags (setFlags flags ifr) = flags := by
  have hFront : (ifr.take ifrUnion).length = ifrUnion := by
    rw [List.length_take, Nat.min_eq_left hLength]
  have hField :
      readUnion 0 2 (setFlags flags ifr) =
        Bytes.ofNatLe 2 flags := by
    unfold setFlags setUnion
    rw [List.append_assoc]
    exact field_between hFront (Bytes.length_ofNatLe 2 flags)
  unfold ifrFlags
  rw [hField]
  exact Bytes.toNatLe_ofNatLe hFlags

/- The kernel finds the address, its prefix and the index. -/
theorem read_in6IfReq
    (address : Ipv6Addr) {prefixLen : Nat}
    {ifindex : List UInt8}
    (hPrefix : prefixLen < 2 ^ 32)
    (hIndex : ifindex.length = 4) :
    AddressRequest.read (in6IfReq address prefixLen ifindex) =
      { addr := octets address
        prefixLen := prefixLen
        ifindex := ifindex } := by
  unfold AddressRequest.read in6IfReq
  congr 1
  · exact field_flatten (i := 0) rfl rfl (by simp)
  · rw [field_flatten (i := 1) rfl (by simp) (by simp)]
    exact Bytes.toNatLe_ofNatLe hPrefix
  · exact field_flatten (i := 2) rfl (by simp) hIndex

/- The kernel finds the default route through the gateway. -/
theorem read_in6RtMsg
    (gateway : Ipv6Addr) {ifindex : List UInt8}
    (hIndex : ifindex.length = 4) :
    RouteRequest.read (in6RtMsg gateway ifindex) =
      { dst := List.replicate 16 0
        dstLen := 0
        gateway := octets gateway
        metric := staticRouteMetric
        flags := rtfUp ||| rtfGateway
        ifindex := ifindex } := by
  have hDst :
      field 0 16 (in6RtMsg gateway ifindex) =
        List.replicate 16 0 :=
    field_flatten (i := 0) rfl rfl (by simp)
  have hDstLen :
      field 52 2 (in6RtMsg gateway ifindex) =
        Bytes.ofNatLe 2 0 :=
    field_flatten (i := 4) rfl (by simp) (by simp)
  have hGateway :
      field 32 16 (in6RtMsg gateway ifindex) =
        octets gateway :=
    field_flatten (i := 2) rfl (by simp) (by simp)
  have hMetric :
      field 56 4 (in6RtMsg gateway ifindex) =
        Bytes.ofNatLe 4 staticRouteMetric :=
    field_flatten (i := 6) rfl (by simp) (by simp)
  have hFlags :
      field 72 4 (in6RtMsg gateway ifindex) =
        Bytes.ofNatLe 4 (rtfUp ||| rtfGateway) :=
    field_flatten (i := 9) rfl (by simp) (by simp)
  have hLast :
      field 76 4 (in6RtMsg gateway ifindex) = ifindex :=
    field_flatten (i := 10) rfl (by simp) hIndex
  unfold RouteRequest.read
  rw [hDst, hDstLen, hGateway, hMetric, hFlags, hLast,
    Bytes.toNatLe_ofNatLe (by decide),
    Bytes.toNatLe_ofNatLe (by decide),
    Bytes.toNatLe_ofNatLe (by decide)]

------------------------------------------------------------
-- Reading Addresses Back
------------------------------------------------------------

/- Two characters at a time, and what is left. -/
def pairs : Text → List Text
| [] => []
| [c] => [[c]]
| c :: d :: rest => [c, d] :: pairs rest

/- Two hexadecimal digits. -/
def addressByte (chunk : Text) : Option UInt8 :=
  (Hex.parse (2 ^ 8) chunk).map UInt8.ofNat

/- Two bytes a segment, the higher one first. -/
def ofOctets (bytes : List UInt8) : Ipv6Addr where
  segments :=
    Vector.ofFn fun i =>
      UInt16.ofNat (Bytes.toNatBe (field (2 * i) 2 bytes))

/- The first column and the sixth. -/
def interfaceIpv6Line
    (name line : Text) : Option Ipv6Addr := do
  let addrHex := Network.next (Text.words line)
  let devName := Network.nth 4 addrHex.2
  let addr ← addrHex.1
  let device ← devName.1
  if device ≠ name ∨ (Utf8.encode addr).length ≠ 32 then
    none
  else
    let bytes ← (pairs addr).mapM addressByte
    some (ofOctets bytes)

/- The addresses that the table has for one interface. -/
def interfaceIpv6Addrs
    (name content : Text) : List Ipv6Addr :=
  (Text.recordsCr content).filterMap (interfaceIpv6Line name)

/- An address as `/proc/net/if_inet6` has it. -/
structure InetAddr where
  address : Ipv6Addr
  ifindex : UInt32
  prefixLen : UInt8
  scopeId : UInt8
  flags : UInt32
  device : Word

/- `%pi6`, byte by byte. -/
def hexOctets (address : Ipv6Addr) : Text :=
  (octets address).flatMap fun byte =>
    Hex.display false 2 byte.toNat

/- `%pi6` and `%02x`, and the name last. -/
def InetAddr.columns (entry : InetAddr) : List Text :=
  [hexOctets entry.address,
    Hex.display false 2 entry.ifindex.toNat,
    Hex.display false 2 entry.prefixLen.toNat,
    Hex.display false 2 entry.scopeId.toNat,
    Hex.display false 2 entry.flags.toNat,
    entry.device.val]

/- A line for each address. -/
def RendersInet6
    (table : List InetAddr) (text : Text) : Prop :=
  ∃ lines,
    Rows InetAddr.columns table lines ∧
      text = Text.unlines lines

/- A byte is two digits. -/
theorem display_two
    (upper : Bool) {n : Nat} (hByte : n < 2 ^ 8) :
    Hex.display upper 2 n =
      [Hex.digitChar upper (n / 16),
        Hex.digitChar upper (n % 16)] := by
  unfold Hex.display
  by_cases hSmall : n < 16
  · rw [Hex.digits, dif_pos hSmall,
      Nat.div_eq_of_lt hSmall, Nat.mod_eq_of_lt hSmall]
    cases upper with
    | false => rfl
    | true => rfl
  · rw [Hex.digits, dif_neg hSmall, Hex.digits,
      dif_pos (by omega)]
    rfl

/- A digit is one byte. -/
theorem length_encode_digit
    (upper : Bool) {d : Nat} (hDigit : d < 16) :
    (String.utf8EncodeChar
      (Hex.digitChar upper d)).length = 1 := by
  have hAll :
      ∀ upper : Bool, ∀ d : Fin 16,
        (String.utf8EncodeChar
          (Hex.digitChar upper d)).length = 1 := by
    decide
  exact hAll upper ⟨d, hDigit⟩

/- The digits are taken apart again, two by two. -/
theorem pairs_flatMap_display (bytes : List UInt8) :
    pairs
        (bytes.flatMap fun byte =>
          Hex.display false 2 byte.toNat) =
      bytes.map fun byte =>
        Hex.display false 2 byte.toNat := by
  induction bytes with
  | nil => rfl
  | cons byte bytes ih =>
      rw [List.flatMap_cons, List.map_cons, ← ih,
        display_two false byte.toNat_lt]
      rfl

/- So many digits are twice as many bytes. -/
theorem length_encode_flatMap_display (bytes : List UInt8) :
    (Utf8.encode
        (bytes.flatMap fun byte =>
          Hex.display false 2 byte.toNat)).length =
      2 * bytes.length := by
  induction bytes with
  | nil => rfl
  | cons byte bytes ih =>
      have hHigh := length_encode_digit false
        (show byte.toNat / 16 < 16 by
          have hByte := byte.toNat_lt
          omega)
      have hLow := length_encode_digit false
        (show byte.toNat % 16 < 16 by omega)
      rw [List.flatMap_cons, Utf8.encode_append,
        List.length_append, ih,
        display_two false byte.toNat_lt, Utf8.encode_cons,
        Utf8.encode_cons, Utf8.encode_nil, List.append_nil,
        List.length_append, hHigh, hLow, List.length_cons]
      omega

/- Each pair of digits is its byte. -/
theorem mapM_addressByte (bytes : List UInt8) :
    (bytes.map fun byte =>
        Hex.display false 2 byte.toNat).mapM addressByte =
      some bytes := by
  induction bytes with
  | nil => rfl
  | cons byte bytes ih =>
      have hByte :
          addressByte (Hex.display false 2 byte.toNat) =
            some byte := by
        unfold addressByte
        rw [Hex.parse_display false 2 byte.toNat_lt]
        simp
      rw [List.map_cons, List.mapM_cons, hByte, ih]
      rfl

/- The bytes of an address make it up again. -/
theorem ofOctets_octets (address : Ipv6Addr) :
    ofOctets (octets address) = address := by
  have hSegments :
      (ofOctets (octets address)).segments =
        address.segments := by
    apply Vector.ext
    intro i hIndex
    have hField :
        field (2 * i) 2 (octets address) =
          Bytes.ofNatBe 2 address.segments[i].toNat := by
      unfold octets
      rw [List.flatMap_def]
      refine field_flatten (i := i) ?_ ?_ (by simp)
      · simp [hIndex]
      · rw [List.length_flatten]
        have hAll :
            ((address.segments.toList.map fun segment =>
                Bytes.ofNatBe 2 segment.toNat).take i).map
              List.length =
              List.replicate i 2 := by
          apply List.eq_replicate_iff.2
          constructor
          · simp
            omega
          · intro count hMem
            simp only [List.mem_map] at hMem
            rcases hMem with ⟨part, hPart, rfl⟩
            have hFull := List.mem_of_mem_take hPart
            rcases List.mem_map.1 hFull with ⟨segment, _, rfl⟩
            simp
        rw [hAll, List.sum_replicate_nat]
        omega
    unfold ofOctets
    simp only [Vector.getElem_ofFn]
    rw [hField, Bytes.toNatBe_ofNatBe (UInt16.toNat_lt _)]
    simp
  exact congrArg Ipv6Addr.mk hSegments

/- A carriage return does not matter. -/
theorem interfaceIpv6Line_dropReturn (name line : Text) :
    interfaceIpv6Line name (Text.dropReturn line) =
      interfaceIpv6Line name line := by
  unfold interfaceIpv6Line
  rw [Text.words_dropReturn]

/- A line has an address for the interface it names. -/
theorem interfaceIpv6Line_of_separated
    (name : Text) {entry : InetAddr} {line : Text}
    (hLine : Text.Separated entry.columns line) :
    interfaceIpv6Line name line =
      if entry.device.val = name then
        some entry.address
      else
        none := by
  have hLength :
      (Utf8.encode (hexOctets entry.address)).length = 32 := by
    unfold hexOctets
    rw [length_encode_flatMap_display, length_octets]
  have hBytes :
      (pairs (hexOctets entry.address)).mapM addressByte =
        some (octets entry.address) := by
    unfold hexOctets
    rw [pairs_flatMap_display, mapM_addressByte]
  unfold interfaceIpv6Line
  rw [Text.words_of_separated hLine]
  unfold InetAddr.columns Network.next Network.nth
  dsimp only [List.head?_cons, List.tail_cons]
  by_cases hName : entry.device.val = name
  · simp [hName, hLength, hBytes, ofOctets_octets]
  · simp [hName]

/- No column of the table has white space in it. -/
theorem solid_hexOctets (address : Ipv6Addr) :
    Text.Solid (hexOctets address) := by
  unfold hexOctets
  constructor
  · intro hNil
    have hLength :=
      length_encode_flatMap_display (octets address)
    rw [hNil, length_octets] at hLength
    cases hLength
  · intro c hMem
    rcases List.mem_flatMap.1 hMem with ⟨byte, _, hDigit⟩
    exact (Hex.solid_display false 2 byte.toNat).2 c hDigit

theorem solid_inetColumns (entry : InetAddr) :
    ∀ column ∈ entry.columns, Text.Solid column := by
  unfold InetAddr.columns
  simp only [List.forall_mem_cons]
  refine ⟨solid_hexOctets entry.address, ?_, ?_, ?_, ?_,
    entry.device.property, ?_⟩
  · exact Hex.solid_display false 2 _
  · exact Hex.solid_display false 2 _
  · exact Hex.solid_display false 2 _
  · exact Hex.solid_display false 2 _
  · intro column hMem
    simp at hMem

/- Every table can be rendered, with single spaces. -/
theorem rendersInet6_unwords (table : List InetAddr) :
    RendersInet6 table
      (Text.unlines
        (table.map fun entry =>
          Text.unwords entry.columns)) := by
  refine ⟨_, ⟨?_, ?_⟩, rfl⟩
  · rw [List.forall₂_map_right_iff, List.forall₂_same]
    intro entry _
    exact Text.separated_unwords (solid_inetColumns entry)
  · intro line hMem
    rcases List.mem_map.1 hMem with ⟨entry, _, rfl⟩
    exact Text.newline_not_mem_unwords (solid_inetColumns entry)

/-
  Of every table that the kernel prints, the addresses of
  the interface are read back, in their order, and none of
  another interface.
-/
theorem interfaceIpv6Addrs_of_renders
    (name : Text) {table : List InetAddr} {text : Text}
    (hText : RendersInet6 table text) :
    interfaceIpv6Addrs name text =
      (table.filter fun entry =>
        entry.device.val = name).map InetAddr.address := by
  rcases hText with ⟨lines, hRows, rfl⟩
  unfold interfaceIpv6Addrs
  rw [Text.recordsCr_unlines hRows.2, List.filterMap_map]
  have hLines := hRows.1
  clear hRows
  induction hLines with
  | nil => rfl
  | @cons entry line table lines hRow _ ih =>
      have hHere := interfaceIpv6Line_of_separated name hRow
      rw [List.filterMap_cons, Function.comp_apply,
        interfaceIpv6Line_dropReturn, hHere, ih]
      by_cases hName : entry.device.val = name
      · simp [hName]
      · simp [hName]

theorem solid_lo : Text.Solid "lo".toList :=
  Text.solid_of_all (by decide) (by decide)

theorem solid_eth0 : Text.Solid "eth0".toList :=
  Text.solid_of_all (by decide) (by decide)

/- The loopback of a guest, and its link-local address. -/
def linkTable : List InetAddr :=
  [{ address := ⟨#v[0, 0, 0, 0, 0, 0, 0, 1]⟩
     ifindex := 1
     prefixLen := 128
     scopeId := 0x10
     flags := 0x80
     device := ⟨"lo".toList, solid_lo⟩ },
    { address :=
        ⟨#v[0xfe80, 0, 0, 0, 0x5054, 0xff, 0xfe12, 0x3456]⟩
      ifindex := 2
      prefixLen := 64
      scopeId := 0x20
      flags := 0x80
      device := ⟨"eth0".toList, solid_eth0⟩ }]

/- The address of one interface among several. -/
theorem link_address_read_back :
    interfaceIpv6Addrs "eth0".toList
        (Text.unlines
          (linkTable.map fun entry =>
            Text.unwords entry.columns)) =
      [⟨#v[0xfe80, 0, 0, 0, 0x5054, 0xff, 0xfe12,
        0x3456]⟩] := by
  rw [interfaceIpv6Addrs_of_renders _
    (rendersInet6_unwords linkTable)]
  decide

end Interfaces

end Guest

end CargoUnikernel
