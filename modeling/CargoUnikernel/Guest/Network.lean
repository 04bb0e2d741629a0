import CargoUnikernel.Library.Hex
import CargoUnikernel.Library.Numeral
import CargoUnikernel.Schema.Ipv6
import Mathlib.Data.List.Forall2

/-
  What the guest reads of its network: the static IPv6
  address it was built with, and whether the kernel's
  routing tables have a default route.

  Both tables are read column by column with one iterator
  over the words of a line. Over every table the kernel can
  print, the answer is that of the routes in it.

  Main declarations:
    * `parseStaticV6`, `isGlobalUnicastV6`
    * `routeV4HasDefault`, `routeV6HasDefault`
    * `RouteV4`, `RouteV6`, `RendersV4`, `RendersV6`
    * `default_route_detected`
-/

------------------------------------------------------------
-- Static IPv6
------------------------------------------------------------

namespace CargoUnikernel

namespace Guest

namespace Network

open Schema (Ipv6Addr)

/- An address and the length of its prefix. -/
def parseStaticV6 (raw : Text) : Option (Ipv6Addr × Nat) := do
  let halves ← Text.splitOnce '/' raw
  let address ← Ipv6Addr.parse halves.1
  let prefixLen ← Numeral.parse (2 ^ 8) halves.2
  if prefixLen = 0 ∨ prefixLen > 128 then
    none
  else
    some (address, prefixLen)

/- Routable off the link. -/
def isGlobalUnicastV6 (address : Ipv6Addr) : Bool :=
  address.firstSegment &&& 0xffc0 != 0xfe80 &&
    address.firstSegment &&& 0xffc0 != 0xfec0 &&
    !address.isLoopback && !address.isMulticast &&
    !address.isUnspecified

------------------------------------------------------------
-- Routing Tables
------------------------------------------------------------

/- The flags of a route. -/
def rtfUp : Nat := 0x1
def rtfReject : Nat := 0x200

/- The next item of an iterator, and the iterator after it. -/
def next (fields : List Text) : Option Text × List Text :=
  (fields.head?, fields.tail)

/- The same after skipping so many. -/
def nth (count : Nat) (fields : List Text) :
    Option Text × List Text :=
  (fields[count]?, fields.drop (count + 1))

/- Up and not there to reject. -/
def isUsable (flags : Nat) : Bool :=
  flags &&& (rtfUp ||| rtfReject) == rtfUp

/- Flags that are hexadecimal and of a route in use. -/
def usableFlags (flags : Option Text) : Bool :=
  (flags.bind (Hex.parse (2 ^ 32))).any isUsable

/- All zeros, as an address of this width is written. -/
def zeros (width : Nat) : Text :=
  List.replicate width '0'

/- The interface, then the destination, later the mask. -/
def routeV4Line (line : Text) : Bool :=
  let fields := (next (Text.words line)).2
  let destination := next fields
  if destination.1 ≠ some (zeros 8) then
    false
  else
    let flags := nth 1 destination.2
    usableFlags flags.1 && (nth 3 flags.2).1 == some (zeros 8)

/- Some line after the header is a default route. -/
def routeV4HasDefault (routes : Text) : Bool :=
  ((Text.recordsCr routes).drop 1).any routeV4Line

/- The destination and its prefix are all zeros. -/
def routeV6Line (line : Text) : Bool :=
  let destination := next (Text.words line)
  let prefixLen := next destination.2
  if destination.1 ≠ some (zeros 32) ∨
      prefixLen.1 ≠ some (zeros 2) then
    false
  else
    usableFlags (nth 6 prefixLen.2).1

/- Some line is a default route; there is no header. -/
def routeV6HasDefault (routes : Text) : Bool :=
  (Text.recordsCr routes).any routeV6Line

------------------------------------------------------------
-- The Columns That Are Read
------------------------------------------------------------

/- The column is a number, and its flags are right. -/
theorem usableFlags_iff (flags : Option Text) :
    usableFlags flags = true ↔
      ∃ value,
        flags.bind (Hex.parse (2 ^ 32)) = some value ∧
          isUsable value = true := by
  unfold usableFlags
  rw [Option.any_eq_true]

/- The second, the fourth and the eighth column. -/
theorem routeV4Line_iff (line : Text) :
    routeV4Line line = true ↔
      (Text.words line)[1]? = some (zeros 8) ∧
        usableFlags (Text.words line)[3]? = true ∧
        (Text.words line)[7]? = some (zeros 8) := by
  unfold routeV4Line
  simp only [next, nth, List.head?_tail, List.getElem?_drop,
    List.getElem?_tail]
  by_cases hDestination :
      (Text.words line)[1]? = some (zeros 8)
  · rw [if_neg (not_not.2 hDestination), Bool.and_eq_true,
      beq_iff_eq]
    simp [hDestination]
  · rw [if_pos hDestination]
    simp [hDestination]

/- The first, the second and the ninth column. -/
theorem routeV6Line_iff (line : Text) :
    routeV6Line line = true ↔
      (Text.words line)[0]? = some (zeros 32) ∧
        (Text.words line)[1]? = some (zeros 2) ∧
        usableFlags (Text.words line)[8]? = true := by
  unfold routeV6Line
  simp only [next, nth, List.getElem?_tail,
    List.head?_eq_getElem?]
  by_cases hRoute :
      (Text.words line)[0]? = some (zeros 32) ∧
        (Text.words line)[1]? = some (zeros 2)
  · rw [if_neg (by simp [hRoute.1, hRoute.2])]
    simp [hRoute.1, hRoute.2]
  · rw [if_pos (by rwa [← not_and_or])]
    constructor
    · intro hFalse
      cases hFalse
    · intro hAll
      exact absurd ⟨hAll.1, hAll.2.1⟩ hRoute

/- The mask of two flags is one of them alone. -/
theorem isUsable_iff (flags : Nat) :
    isUsable flags = true ↔
      flags.testBit 0 = true ∧ flags.testBit 9 = false := by
  have hUp : flags &&& rtfUp = flags % 2 :=
    Nat.and_one_is_mod flags
  have hReject :
      flags &&& rtfReject = flags / 512 % 2 * 512 := by
    have hQuotient : (flags &&& rtfReject) / 2 ^ 9 =
        flags / 2 ^ 9 % 2 := by
      rw [Nat.and_div_two_pow]
      exact Nat.and_one_is_mod _
    have hRemainder : (flags &&& rtfReject) % 2 ^ 9 = 0 := by
      rw [Nat.and_mod_two_pow]
      exact Nat.and_zero _
    omega
  unfold isUsable
  rw [Nat.and_or_distrib_left, hUp, hReject, beq_iff_eq,
    Nat.testBit_eq_decide_div_mod_eq,
    Nat.testBit_eq_decide_div_mod_eq]
  have hLow := Nat.mod_two_eq_zero_or_one flags
  have hHigh := Nat.mod_two_eq_zero_or_one (flags / 512)
  rcases hLow with hLow | hLow
  · rcases hHigh with hHigh | hHigh
    · simp [hLow, hHigh, rtfUp]
    · simp [hLow, hHigh, rtfUp]
  · rcases hHigh with hHigh | hHigh
    · simp [hLow, hHigh, rtfUp]
    · simp [hLow, hHigh, rtfUp]

------------------------------------------------------------
-- The Kernel's Tables
------------------------------------------------------------

/- What can stand in a column. -/
abbrev Word := { word : Text // Text.Solid word }

/- A route as `/proc/net/route` has it. -/
structure RouteV4 where
  iface : Word
  destination : UInt32
  gateway : UInt32
  flags : UInt32
  refCnt : Word
  use : Word
  metric : Word
  mask : UInt32
  more : List Word

/- A route as `/proc/net/ipv6_route` has it. -/
structure RouteV6 where
  destination : BitVec 128
  prefixLen : UInt8
  source : BitVec 128
  sourcePrefixLen : UInt8
  nextHop : BitVec 128
  metric : UInt32
  refCnt : UInt32
  use : UInt32
  flags : UInt32
  device : Word

/- `%08X` for addresses and `%04X` for the flags. -/
def RouteV4.columns (route : RouteV4) : List Text :=
  [route.iface.val,
    Hex.display true 8 route.destination.toNat,
    Hex.display true 8 route.gateway.toNat,
    Hex.display true 4 route.flags.toNat,
    route.refCnt.val, route.use.val, route.metric.val,
    Hex.display true 8 route.mask.toNat] ++
  route.more.map Subtype.val

/- `%pi6`, `%02x` and `%08x`. -/
def RouteV6.columns (route : RouteV6) : List Text :=
  [Hex.display false 32 route.destination.toNat,
    Hex.display false 2 route.prefixLen.toNat,
    Hex.display false 32 route.source.toNat,
    Hex.display false 2 route.sourcePrefixLen.toNat,
    Hex.display false 32 route.nextHop.toNat,
    Hex.display false 8 route.metric.toNat,
    Hex.display false 8 route.refCnt.toNat,
    Hex.display false 8 route.use.toNat,
    Hex.display false 8 route.flags.toNat,
    route.device.val]

/- Up, by its flags, and not a route that rejects. -/
def Usable (flags : UInt32) : Prop :=
  flags.toNat.testBit 0 = true ∧ flags.toNat.testBit 9 = false

/- It leads anywhere, and it is in use. -/
def RouteV4.IsDefault (route : RouteV4) : Prop :=
  route.destination = 0 ∧ route.mask = 0 ∧ Usable route.flags

/- It leads anywhere, and it is in use. -/
def RouteV6.IsDefault (route : RouteV6) : Prop :=
  route.destination = 0 ∧ route.prefixLen = 0 ∧
    Usable route.flags

/- A line for each route, its columns separated. -/
def Rows
    {α : Type} (columns : α → List Text)
    (routes : List α) (lines : List Text) : Prop :=
  List.Forall₂
      (fun route line => Text.Separated (columns route) line)
      routes lines ∧
    ∀ line ∈ lines, '\n' ∉ line

/- A header first, then a line for each route. -/
def RendersV4 (routes : List RouteV4) (text : Text) : Prop :=
  ∃ header lines,
    '\n' ∉ header ∧ Rows RouteV4.columns routes lines ∧
      text = Text.unlines (header :: lines)

/- A line for every route, in their order. -/
def RendersV6 (routes : List RouteV6) (text : Text) : Prop :=
  ∃ lines,
    Rows RouteV6.columns routes lines ∧
      text = Text.unlines lines

/- The flags as the kernel writes them. -/
theorem usableFlags_display
    (upper : Bool) (width : Nat) (flags : UInt32) :
    usableFlags (some (Hex.display upper width flags.toNat)) =
        true ↔
      Usable flags := by
  rw [usableFlags_iff, Option.bind_some,
    Hex.parse_display upper width flags.toNat_lt]
  unfold Usable
  rw [← isUsable_iff]
  simp

/- Only zero is all zeros. -/
theorem display_eq_zeros_iff
    (upper : Bool) {width n : Nat} (hWidth : 0 < width) :
    some (Hex.display upper width n) = some (zeros width) ↔
      n = 0 := by
  unfold zeros
  rw [← Hex.display_zero upper hWidth, Option.some.injEq,
    Hex.display_inj]

/- A line is found to be a default route when it is one. -/
theorem routeV4Line_of_separated
    {route : RouteV4} {line : Text}
    (hLine : Text.Separated route.columns line) :
    routeV4Line line = true ↔ route.IsDefault := by
  rw [routeV4Line_iff, Text.words_of_separated hLine]
  unfold RouteV4.columns RouteV4.IsDefault
  simp only [List.cons_append, List.nil_append,
    List.getElem?_cons_zero, List.getElem?_cons_succ]
  rw [display_eq_zeros_iff true (by omega),
    display_eq_zeros_iff true (by omega),
    usableFlags_display, ← UInt32.toNat_inj,
    ← UInt32.toNat_inj]
  simp only [UInt32.toNat_zero]
  constructor
  · rintro ⟨hDestination, hFlags, hMask⟩
    exact ⟨hDestination, hMask, hFlags⟩
  · rintro ⟨hDestination, hMask, hFlags⟩
    exact ⟨hDestination, hFlags, hMask⟩

/- A line is read as the route it was written for. -/
theorem routeV6Line_of_separated
    {route : RouteV6} {line : Text}
    (hLine : Text.Separated route.columns line) :
    routeV6Line line = true ↔ route.IsDefault := by
  rw [routeV6Line_iff, Text.words_of_separated hLine]
  unfold RouteV6.columns RouteV6.IsDefault
  simp only [List.getElem?_cons_zero,
    List.getElem?_cons_succ]
  rw [display_eq_zeros_iff false (by omega),
    display_eq_zeros_iff false (by omega),
    usableFlags_display, ← UInt8.toNat_inj,
    BitVec.toNat_eq]
  rfl

/- The return at the end of a line makes no difference. -/
theorem routeV4Line_dropReturn (line : Text) :
    routeV4Line (Text.dropReturn line) = routeV4Line line := by
  unfold routeV4Line
  rw [Text.words_dropReturn]

/- A carriage return does not matter. -/
theorem routeV6Line_dropReturn (line : Text) :
    routeV6Line (Text.dropReturn line) = routeV6Line line := by
  unfold routeV6Line
  rw [Text.words_dropReturn]

/- A line is accepted when a route is a default route. -/
theorem any_iff_of_rows
    {α : Type} {columns : α → List Text} {routes : List α}
    {lines : List Text}
    {accepts : Text → Bool} {IsDefault : α → Prop}
    (hRows : Rows columns routes lines)
    (hReturn :
      ∀ line, accepts (Text.dropReturn line) = accepts line)
    (hAccepts :
      ∀ route line, Text.Separated (columns route) line →
        (accepts line = true ↔ IsDefault route)) :
    (lines.map Text.dropReturn).any accepts = true ↔
      ∃ route ∈ routes, IsDefault route := by
  rw [List.any_map, List.any_eq_true]
  simp only [Function.comp_apply, hReturn]
  have hLines := hRows.1
  clear hRows
  induction hLines with
  | nil => simp
  | @cons route line routes lines hRow _ ih =>
      have hHere := hAccepts route line hRow
      simp only [List.mem_cons, exists_eq_or_imp, hHere, ih]

/- A table is read as the routes it was written for. -/
theorem routeV4HasDefault_of_renders
    {routes : List RouteV4} {text : Text}
    (hText : RendersV4 routes text) :
    routeV4HasDefault text = true ↔
      ∃ route ∈ routes, route.IsDefault := by
  rcases hText with ⟨header, lines, hHeader, hRows, rfl⟩
  have hFree : ∀ line ∈ header :: lines, '\n' ∉ line := by
    intro line hMem
    rcases List.mem_cons.1 hMem with rfl | hMem
    · exact hHeader
    · exact hRows.2 line hMem
  unfold routeV4HasDefault
  rw [Text.recordsCr_unlines hFree, List.map_cons,
    List.drop_one, List.tail_cons]
  apply any_iff_of_rows hRows
  · exact routeV4Line_dropReturn
  · intro route line hLine
    exact routeV4Line_of_separated hLine

theorem routeV6HasDefault_of_renders
    {routes : List RouteV6} {text : Text}
    (hText : RendersV6 routes text) :
    routeV6HasDefault text = true ↔
      ∃ route ∈ routes, route.IsDefault := by
  rcases hText with ⟨lines, hRows, rfl⟩
  unfold routeV6HasDefault
  rw [Text.recordsCr_unlines hRows.2]
  apply any_iff_of_rows hRows
  · exact routeV6Line_dropReturn
  · intro route line hLine
    exact routeV6Line_of_separated hLine

------------------------------------------------------------
-- Any Text
------------------------------------------------------------

/- Enough columns, and flags that read as hexadecimal. -/
def HasFlags (index count : Nat) (line : Text) : Prop :=
  count ≤ (Text.words line).length ∧
    ∃ word flags,
      (Text.words line)[index]? = some word ∧
        Hex.parse (2 ^ 32) word = some flags

/- Flags that are usable were there to be read. -/
theorem exists_flags_of_usable
    {column : Option Text}
    (hUsable : usableFlags column = true) :
    ∃ word flags,
      column = some word ∧
        Hex.parse (2 ^ 32) word = some flags := by
  rcases (usableFlags_iff column).1 hUsable with
    ⟨flags, hFlags, _⟩
  rcases Option.bind_eq_some_iff.1 hFlags with
    ⟨word, hWord, hParse⟩
  exact ⟨word, flags, hWord, hParse⟩

/- A column that is there has others before it. -/
theorem length_of_getElem?
    {words : List Text} {index : Nat} {word : Text}
    (hWord : words[index]? = some word) :
    index + 1 ≤ words.length := by
  rcases List.getElem?_eq_some_iff.1 hWord with ⟨hIndex, _⟩
  exact hIndex

/- So a line that counts has its columns. -/
theorem hasFlags_of_routeV4Line
    {line : Text} (hLine : routeV4Line line = true) :
    HasFlags 3 8 line := by
  rcases (routeV4Line_iff line).1 hLine with
    ⟨_, hFlags, hMask⟩
  exact ⟨length_of_getElem? hMask,
    exists_flags_of_usable hFlags⟩

theorem hasFlags_of_routeV6Line
    {line : Text} (hLine : routeV6Line line = true) :
    HasFlags 8 9 line := by
  rcases (routeV6Line_iff line).1 hLine with ⟨_, _, hFlags⟩
  have hSome := exists_flags_of_usable hFlags
  rcases hSome with ⟨word, flags, hWord, hParse⟩
  exact ⟨length_of_getElem? hWord, word, flags, hWord,
    hParse⟩

/-
  On every table the answer is that of its routes, and on
  any text it takes a line with enough columns and flags
  that are hexadecimal to find a default route.
-/
theorem default_route_detected :
    (∀ routes text, RendersV4 routes text →
      (routeV4HasDefault text = true ↔
        ∃ route ∈ routes, route.IsDefault)) ∧
      (∀ routes text, RendersV6 routes text →
        (routeV6HasDefault text = true ↔
          ∃ route ∈ routes, route.IsDefault)) ∧
      (∀ text, routeV4HasDefault text = true →
        ∃ line ∈ (Text.recordsCr text).drop 1,
          HasFlags 3 8 line ∧ routeV4Line line = true) ∧
      ∀ text, routeV6HasDefault text = true →
        ∃ line ∈ Text.recordsCr text,
          HasFlags 8 9 line ∧ routeV6Line line = true := by
  refine ⟨?_, ?_, ?_, ?_⟩
  · intro routes text hText
    exact routeV4HasDefault_of_renders hText
  · intro routes text hText
    exact routeV6HasDefault_of_renders hText
  · intro text hDefault
    rcases List.any_eq_true.1 hDefault with
      ⟨line, hMem, hLine⟩
    exact ⟨line, hMem, hasFlags_of_routeV4Line hLine, hLine⟩
  · intro text hDefault
    rcases List.any_eq_true.1 hDefault with
      ⟨line, hMem, hLine⟩
    exact ⟨line, hMem, hasFlags_of_routeV6Line hLine, hLine⟩

------------------------------------------------------------
-- Tables and Lines
------------------------------------------------------------

/- No column has white space in it. -/
theorem RouteV4.solid_columns (route : RouteV4) :
    ∀ column ∈ route.columns, Text.Solid column := by
  have hMore :
      ∀ column ∈ route.more.map Subtype.val,
        Text.Solid column := by
    intro column hMem
    rcases List.mem_map.1 hMem with ⟨word, _, rfl⟩
    exact word.property
  unfold RouteV4.columns
  simp only [List.forall_mem_append, List.forall_mem_cons]
  refine ⟨⟨route.iface.property, ?_, ?_, ?_,
    route.refCnt.property, route.use.property,
    route.metric.property, ?_, ?_⟩, hMore⟩
  · exact Hex.solid_display true 8 _
  · exact Hex.solid_display true 8 _
  · exact Hex.solid_display true 4 _
  · exact Hex.solid_display true 8 _
  · intro column hMem
    simp at hMem

/- The line that names the columns. -/
def headerV4 : Text :=
  "Iface Destination Gateway Flags RefCnt Use Metric Mask".toList

/- A table of routes, with single spaces. -/
def renderV4 (routes : List RouteV4) : Text :=
  Text.unlines
    (headerV4 ::
      routes.map fun route => Text.unwords route.columns)

/- The table is one that the kernel could write. -/
theorem rendersV4_renderV4 (routes : List RouteV4) :
    RendersV4 routes (renderV4 routes) := by
  refine ⟨headerV4, _, by decide, ⟨?_, ?_⟩, rfl⟩
  · rw [List.forall₂_map_right_iff, List.forall₂_same]
    intro route _
    exact Text.separated_unwords route.solid_columns
  · intro line hMem
    rcases List.mem_map.1 hMem with ⟨route, _, rfl⟩
    exact Text.newline_not_mem_unwords route.solid_columns

/- No column has white space in it. -/
theorem RouteV6.solid_columns (route : RouteV6) :
    ∀ column ∈ route.columns, Text.Solid column := by
  unfold RouteV6.columns
  simp only [List.forall_mem_cons]
  refine ⟨?_, ?_, ?_, ?_, ?_, ?_, ?_, ?_, ?_,
    route.device.property, fun _ hMem => by cases hMem⟩
  · exact Hex.solid_display false 32 _
  · exact Hex.solid_display false 2 _
  · exact Hex.solid_display false 32 _
  · exact Hex.solid_display false 2 _
  · exact Hex.solid_display false 32 _
  · exact Hex.solid_display false 8 _
  · exact Hex.solid_display false 8 _
  · exact Hex.solid_display false 8 _
  · exact Hex.solid_display false 8 _

/- There is no header in this one. -/
def renderV6 (routes : List RouteV6) : Text :=
  Text.unlines
    (routes.map fun route => Text.unwords route.columns)

/- The table is one that the kernel could write. -/
theorem rendersV6_renderV6 (routes : List RouteV6) :
    RendersV6 routes (renderV6 routes) := by
  refine ⟨_, ⟨?_, ?_⟩, rfl⟩
  · rw [List.forall₂_map_right_iff, List.forall₂_same]
    intro route _
    exact Text.separated_unwords route.solid_columns
  · intro line hMem
    rcases List.mem_map.1 hMem with ⟨route, _, rfl⟩
    exact Text.newline_not_mem_unwords route.solid_columns

/- Two words that a table has. -/
def zeroWord : Word :=
  ⟨['0'], Text.solid_of_all (by simp) (by decide)⟩

def eth0Word : Word :=
  ⟨"eth0".toList, Text.solid_of_all (by decide) (by decide)⟩

/- A default route over a gateway, as a guest has it. -/
def gatewayRoute : RouteV4 where
  iface := eth0Word
  destination := 0
  gateway := 0x0102030a
  flags := 0x0003
  refCnt := zeroWord
  use := zeroWord
  metric := zeroWord
  mask := 0
  more := []

/- The network of the interface, and a route that rejects. -/
def localRoutes : List RouteV4 :=
  [{ gatewayRoute with
      destination := 0x0002030a
      gateway := 0
      flags := 0x0001
      mask := 0x00ffffff },
    { gatewayRoute with flags := 0x0201 }]

/- A default route by a router on the link. -/
def gatewayRouteV6 : RouteV6 where
  destination := 0
  prefixLen := 0
  source := 0
  sourcePrefixLen := 0
  nextHop := 0xfe800000000000000000000000000001
  metric := 1024
  refCnt := 1
  use := 0
  flags := 0x0003
  device := eth0Word

/- The link itself, and a route that rejects. -/
def localRoutesV6 : List RouteV6 :=
  [{ gatewayRouteV6 with
      destination := 0xfe800000000000000000000000000000
      prefixLen := 64
      nextHop := 0
      flags := 0x0001 },
    { gatewayRouteV6 with flags := 0x00200200 }]

/- Of several routes of each family, the last one counts. -/
theorem gateway_routes_detected :
    routeV4HasDefault (renderV4 localRoutes) = false ∧
      routeV4HasDefault
          (renderV4 (localRoutes ++ [gatewayRoute])) =
        true ∧
      routeV6HasDefault (renderV6 localRoutesV6) = false ∧
      routeV6HasDefault
          (renderV6 (localRoutesV6 ++ [gatewayRouteV6])) =
        true := by
  have hTable (routes : List RouteV4) :=
    default_route_detected.1 routes _
      (rendersV4_renderV4 routes)
  have hTableV6 (routes : List RouteV6) :=
    default_route_detected.2.1 routes _
      (rendersV6_renderV6 routes)
  refine ⟨?_, ?_, ?_, ?_⟩
  · rw [Bool.eq_false_iff, Ne, hTable]
    unfold RouteV4.IsDefault Usable
    decide
  · rw [hTable]
    unfold RouteV4.IsDefault Usable
    decide
  · rw [Bool.eq_false_iff, Ne, hTableV6]
    unfold RouteV6.IsDefault Usable
    decide
  · rw [hTableV6]
    unfold RouteV6.IsDefault Usable
    decide

/- Nine of ten columns: the device is missing. -/
def nineColumns : List Text :=
  [zeros 32, zeros 2, zeros 32, zeros 2, zeros 32, zeros 8,
    zeros 8, zeros 8, "00000003".toList]

/- Flags with a plus sign before their only digit. -/
def signedFlags : List Text :=
  ["eth0".toList, zeros 8, zeros 8, "+3".toList, ['0'], ['0'],
    ['0'], zeros 8]

/- Both are taken for default routes. -/
theorem short_and_signed_lines_accepted :
    (Text.words (Text.unwords nineColumns)).length < 10 ∧
      routeV6HasDefault
          (Text.unlines [Text.unwords nineColumns]) =
        true ∧
      routeV4HasDefault
          (Text.unlines [headerV4, Text.unwords signedFlags]) =
        true := by
  decide

end Network

end Guest

end CargoUnikernel
