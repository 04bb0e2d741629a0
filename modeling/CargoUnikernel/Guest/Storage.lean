import CargoUnikernel.Guest.ZeroWriter

/-
  The guest's persistent volume.

  A device that does not carry the volume's label is zeroed
  from its start to its end before it is formatted. The
  magic number comes before the label, so a device that was
  zeroed some way is as foreign as it was.

  Main declarations:
    * `superblockIsOurs`, `readMarker`
    * `prepare`, `mountPersistentVar`
    * `zeroDevice_writeZeros`
    * `not_isOurs_zeroPrefix`
    * `Calls.Unfailing`, `prepare_of_unfailing`
    * `Interrupted`, `interrupted_spec`
    * `wipe_before_format`
-/

------------------------------------------------------------
-- The Superblock
------------------------------------------------------------

namespace CargoUnikernel

namespace Guest

namespace Storage

open Streams WriteZeros

/- `CUKINIT`. -/
def volumeLabel : List UInt8 :=
  [0x43, 0x55, 0x4b, 0x49, 0x4e, 0x49, 0x54]

/- Where the file system keeps its magic and its label. -/
def superblockOffset : Nat := 1024
def sbMagicOffset : Nat := 0x38
def sbLabelOffset : Nat := 0x78
def sbLabelLen : Nat := 16
def ext4Magic : Nat := 0xef53

/- As far as the label is read. -/
def superblockPrefixLen : Nat :=
  sbLabelOffset + sbLabelLen

/- The label's field, after which nothing is read. -/
def labelField (sb : List UInt8) : List UInt8 :=
  (sb.drop sbLabelOffset).take sbLabelLen

/- The magic number, and the label padded with zeros. -/
def superblockIsOurs (sb : List UInt8) : Bool :=
  let magic := Bytes.toNatLe ((sb.drop sbMagicOffset).take 2)
  if magic ≠ ext4Magic then
    false
  else
    let label := labelField sb
    label.take volumeLabel.length == volumeLabel &&
      (label.drop volumeLabel.length).all fun b => b == 0

/- The part of a device that is read of it. -/
def superblockPrefix (device : List UInt8) : List UInt8 :=
  (device.drop superblockOffset).take superblockPrefixLen

/- The device is long enough, and carries the label. -/
def isOurs (device : List UInt8) : Bool :=
  decide
      (superblockOffset + superblockPrefixLen ≤
        device.length) &&
    superblockIsOurs (superblockPrefix device)

------------------------------------------------------------
-- A Boot up to the Mount
------------------------------------------------------------

/- What comes of a call that has no data. -/
inductive Outcome
| succeeds
| fails
| cut

/- What comes of each call a boot makes on the device. -/
structure Calls where
  openRead : Outcome
  seekMarker : Outcome
  reads : List ReadCall
  openWrite : Outcome
  seekEnd : Outcome
  seekStart : Outcome
  writes : List WriteCall
  sync : Outcome

/- The message of a fatal shutdown, by what failed. -/
inductive Fatal
| inspect
| openDevice
| size
| wipe
| sync
| runMke2fs
| mke2fsExited
| mount
deriving DecidableEq

/- The next thing to be done, or why nothing is. -/
inductive Reached
| mount
| format
| fatal (message : Fatal)
| cut
deriving DecidableEq

/- A call without an answer. -/
def perform : Outcome → Except Stop Unit
| .succeeds => .ok ()
| .fails => .error .failed
| .cut => .error .cut

/- A failure is fatal, a cut ends the boot there. -/
def Reached.ofStop (message : Fatal) : Stop → Reached
| .failed => .fatal message
| .cut => .cut

/- The marker is read from the superblock. -/
def readMarker (calls : Calls) (device : List UInt8) :
    Except Stop Bool := do
  perform calls.seekMarker
  let sb ← readExact calls.reads superblockPrefixLen
    (device.drop superblockOffset)
  pure (superblockIsOurs sb)

/- The device is opened for it. -/
def deviceCarriesOurMarker
    (calls : Calls) (device : List UInt8) :
    Except Stop Bool := do
  perform calls.openRead
  readMarker calls device

/- How many zeros are written at once. -/
def wipeChunk : Nat := 1024 * 1024

/- Opening the device, sizing it, and going to its start. -/
def openForWipe (calls : Calls) : Except Reached Unit := do
  (perform calls.openWrite).mapError (.ofStop .openDevice)
  (perform calls.seekEnd).mapError (.ofStop .size)
  (perform calls.seekStart).mapError (.ofStop .wipe)

/- The writes, from the start on. -/
def zeroDevice (calls : Calls) (device : List UInt8) :
    Progress :=
  writeZeros (List.replicate wipeChunk 0) calls.writes
    device.length ⟨device, 0⟩

/-
  The zeros have to be on the device before it is formatted.
-/
def afterZeros (calls : Calls) : Ending → Reached
| .failed => .fatal .wipe
| .cut => .cut
| .done =>
    match perform calls.sync with
    | .error stop => .ofStop .sync stop
    | .ok () => .format

/- The wipe of `wipe_and_format`, up to `mke2fs`. -/
def wipe (calls : Calls) (device : List UInt8) :
    Reached × List UInt8 :=
  match openForWipe calls with
  | .error reached => (reached, device)
  | .ok () =>
      let wiped := zeroDevice calls device
      (afterZeros calls wiped.ending, wiped.sink.content)

/-
  Everything before the device is formatted or mounted, and
  what is on the device then.
-/
def prepare (calls : Calls) (device : List UInt8) :
    Reached × List UInt8 :=
  match deviceCarriesOurMarker calls device with
  | .error stop => (.ofStop .inspect stop, device)
  | .ok true => (.mount, device)
  | .ok false => wipe calls device

/- What `mke2fs` comes to, with what it leaves. -/
inductive Formatting
| notRun
| exited (success : Bool) (device : List UInt8)
| cut (device : List UInt8)

/- How mounting ends. -/
inductive Mounting
| mounted
| fatal (message : Fatal)
| cut
deriving DecidableEq

/- A device that cannot be mounted ends the boot. -/
def mount : Outcome → Mounting
| .succeeds => .mounted
| .fails => .fatal .mount
| .cut => .cut

/- The whole, with what comes of formatting and mounting. -/
def mountPersistentVar
    (calls : Calls) (formatting : Formatting)
    (mounting : Outcome) (device : List UInt8) :
    Mounting × List UInt8 :=
  match prepare calls device with
  | (.fatal message, device) => (.fatal message, device)
  | (.cut, device) => (.cut, device)
  | (.mount, device) => (mount mounting, device)
  | (.format, device) =>
      match formatting with
      | .notRun => (.fatal .runMke2fs, device)
      | .exited false device => (.fatal .mke2fsExited, device)
      | .exited true device => (mount mounting, device)
      | .cut device => (.cut, device)

/-
  Unless it is cut off, this is the loop over any sink, with
  a device whose calls are those of the boot.
-/
theorem zeroDevice_writeZeros
    {usizeMax : Nat} (hFits : wipeChunk ≤ usizeMax)
    {calls : Calls} {device : List UInt8}
    (hLen : device.length ≤ ZeroWriter.u64Max)
    (hCut : (zeroDevice calls device).ending ≠ .cut) :
    ∃ fuel run,
      ZeroWriter.writeZeros usizeMax ZeroWriter.device fuel
          device.length (List.replicate wipeChunk 0)
          (calls.writes, ⟨device, 0⟩) =
        some run ∧
      ZeroWriter.Agrees run (zeroDevice calls device) :=
  ZeroWriter.writeZeros_device hFits hLen hCut

------------------------------------------------------------
-- Zeroed Some Way
------------------------------------------------------------

/- Everything that is read lies after the magic number. -/
def magicOffset : Nat := superblockOffset + sbMagicOffset

/- The magic and the label, read from the device. -/
theorem superblockIsOurs_eq (device : List UInt8) :
    superblockIsOurs (superblockPrefix device) =
      let rest := device.drop magicOffset
      if Bytes.toNatLe (rest.take 2) ≠ ext4Magic then
        false
      else
        let label :=
          (rest.drop (sbLabelOffset - sbMagicOffset)).take
            sbLabelLen
        label.take volumeLabel.length == volumeLabel &&
          (label.drop volumeLabel.length).all fun b =>
            b == 0 := by
  have hMagic :
      ((superblockPrefix device).drop sbMagicOffset).take 2 =
        (device.drop magicOffset).take 2 := by
    unfold superblockPrefix
    rw [List.drop_take, List.take_take, List.drop_drop]
    rfl
  have hLabel :
      labelField (superblockPrefix device) =
        ((device.drop magicOffset).drop
          (sbLabelOffset - sbMagicOffset)).take sbLabelLen := by
    unfold labelField superblockPrefix
    rw [List.drop_take, List.take_take, List.drop_drop,
      List.drop_drop]
    rfl
  unfold superblockIsOurs
  rw [hMagic, hLabel]

/- A zero where the magic number begins is not ours. -/
theorem not_ours_of_zero
    {device : List UInt8}
    (hZero : device[magicOffset]? = some 0) :
    superblockIsOurs (superblockPrefix device) = false := by
  rw [superblockIsOurs_eq]
  dsimp only
  rw [if_pos]
  have hHead : (device.drop magicOffset)[0]? = some 0 := by
    rw [List.getElem?_drop]
    exact hZero
  cases hRest : device.drop magicOffset with
  | nil =>
      rw [hRest] at hHead
      simp at hHead
  | cons first rest =>
      rw [hRest] at hHead
      simp only [List.getElem?_cons_zero, Option.some.injEq]
        at hHead
      rw [hHead, List.take_succ_cons]
      unfold Bytes.toNatLe ext4Magic
      simp only [UInt8.toNat_zero]
      omega

/- What is ours after some zeroing was ours before. -/
theorem isOurs_of_isOurs_zeroPrefix
    {count : Nat} {device : List UInt8}
    (hOurs : isOurs (zeroPrefix count device) = true) :
    isOurs device = true := by
  unfold isOurs at hOurs ⊢
  rw [length_zeroPrefix, Bool.and_eq_true,
    decide_eq_true_eq] at hOurs
  rcases hOurs with ⟨hLength, hSuperblock⟩
  have hBefore : count ≤ magicOffset := by
    by_contra hAfter
    have hInside : magicOffset < device.length := by
      unfold magicOffset superblockOffset sbMagicOffset
      unfold superblockOffset superblockPrefixLen
        sbLabelOffset sbLabelLen at hLength
      omega
    have hZero :
        (zeroPrefix count device)[magicOffset]? = some 0 := by
      rw [getElem?_zeroPrefix, if_pos (by omega),
        List.getElem?_eq_getElem hInside]
      rfl
    rw [not_ours_of_zero hZero] at hSuperblock
    cases hSuperblock
  rw [superblockIsOurs_eq, drop_zeroPrefix hBefore,
    ← superblockIsOurs_eq] at hSuperblock
  rw [Bool.and_eq_true, decide_eq_true_eq]
  exact ⟨hLength, hSuperblock⟩

/- Zeros do not make a device ours. -/
theorem not_isOurs_zeroPrefix
    {device : List UInt8} (hForeign : isOurs device = false)
    (count : Nat) :
    isOurs (zeroPrefix count device) = false := by
  cases hOurs : isOurs (zeroPrefix count device) with
  | false => rfl
  | true =>
      rw [isOurs_of_isOurs_zeroPrefix hOurs] at hForeign
      cases hForeign

------------------------------------------------------------
-- One Boot
------------------------------------------------------------

/- What is read is what is on the device, in full. -/
theorem deviceCarriesOurMarker_eq
    {calls : Calls} {device : List UInt8} {ours : Bool}
    (hMarker :
      deviceCarriesOurMarker calls device = .ok ours) :
    superblockOffset + superblockPrefixLen ≤
        device.length ∧
      ours = isOurs device := by
  unfold deviceCarriesOurMarker readMarker at hMarker
  cases hOpen : perform calls.openRead with
  | error stop =>
      rw [hOpen] at hMarker
      cases hMarker
  | ok =>
      cases hSeek : perform calls.seekMarker with
      | error stop =>
          rw [hOpen, hSeek] at hMarker
          cases hMarker
      | ok =>
          cases hRead :
              readExact calls.reads superblockPrefixLen
                (device.drop superblockOffset) with
          | error stop =>
              rw [hOpen, hSeek, hRead] at hMarker
              cases hMarker
          | ok sb =>
              rw [hOpen, hSeek, hRead] at hMarker
              cases hMarker
              rcases readExact_spec hRead with
                ⟨hLength, hBytes⟩
              rw [List.length_drop] at hLength
              have hLong :
                  superblockOffset + superblockPrefixLen ≤
                    device.length := by
                unfold superblockPrefixLen sbLabelOffset
                  sbLabelLen at hLength ⊢
                omega
              refine ⟨hLong, ?_⟩
              unfold isOurs superblockPrefix
              rw [hBytes, decide_eq_true hLong,
                Bool.true_and]

/- A call that stops a boot leads to neither. -/
theorem ofStop_ne (message : Fatal) (stop : Stop) :
    Reached.ofStop message stop ≠ .mount ∧
      Reached.ofStop message stop ≠ .format := by
  cases stop with
  | failed | cut => simp [Reached.ofStop]

/- A device that cannot be opened is not formatted. -/
theorem openForWipe_error
    {calls : Calls} {reached : Reached}
    (hOpen : openForWipe calls = .error reached) :
    ∃ message stop, reached = .ofStop message stop := by
  unfold openForWipe at hOpen
  cases hWrite : perform calls.openWrite with
  | error stop =>
      rw [hWrite] at hOpen
      cases hOpen
      exact ⟨_, stop, rfl⟩
  | ok =>
      cases hEnd : perform calls.seekEnd with
      | error stop =>
          rw [hWrite, hEnd] at hOpen
          cases hOpen
          exact ⟨_, stop, rfl⟩
      | ok =>
          cases hStart : perform calls.seekStart with
          | error stop =>
              rw [hWrite, hEnd, hStart] at hOpen
              cases hOpen
              exact ⟨_, stop, rfl⟩
          | ok =>
              rw [hWrite, hEnd, hStart] at hOpen
              cases hOpen

/- After a wipe nothing is mounted as it was. -/
theorem afterZeros_ne_mount
    (calls : Calls) (ending : Ending) :
    afterZeros calls ending ≠ .mount := by
  unfold afterZeros
  split
  · simp
  · simp
  · split
    · exact (ofStop_ne _ _).1
    · simp

/- Only a wipe that is done leads to the format. -/
theorem done_of_afterZeros
    {calls : Calls} {ending : Ending}
    (hFormat : afterZeros calls ending = .format) :
    ending = .done := by
  unfold afterZeros at hFormat
  split at hFormat
  · cases hFormat
  · cases hFormat
  · rfl

/- Zeros from the start, and to the end before formatting. -/
theorem wipe_spec (calls : Calls) (device : List UInt8) :
    (wipe calls device).1 ≠ .mount ∧
      ∃ count,
        (wipe calls device).2 = zeroPrefix count device ∧
          ((wipe calls device).1 = .format →
            count = device.length) := by
  unfold wipe
  cases hOpen : openForWipe calls with
  | error reached =>
      rcases openForWipe_error hOpen with ⟨message, stop, rfl⟩
      have hStop := ofStop_ne message stop
      refine ⟨hStop.1, 0, ?_, ?_⟩
      · rw [zeroPrefix_zero]
      · intro hFormat
        exact absurd hFormat hStop.2
  | ok =>
      rcases @writeZeros_from_start wipeChunk calls.writes
          device with
        ⟨count, hContent, hDone⟩
      constructor
      · exact afterZeros_ne_mount calls _
      · refine ⟨count, hContent, ?_⟩
        intro hFormat
        exact hDone (done_of_afterZeros hFormat)

/- Nothing is formatted before the zeros are written. -/
theorem done_of_prepare
    {calls : Calls} {device : List UInt8}
    (hFormat : (prepare calls device).1 = .format) :
    (zeroDevice calls device).ending = .done := by
  unfold prepare at hFormat
  split at hFormat
  · exact absurd hFormat (ofStop_ne _ _).2
  · cases hFormat
  · unfold wipe at hFormat
    split at hFormat
    · rename_i hOpen
      rcases openForWipe_error hOpen with ⟨message, stop, rfl⟩
      exact absurd hFormat (ofStop_ne message stop).2
    · exact done_of_afterZeros hFormat

/- A device of ours is left as it is. -/
theorem prepare_of_ours
    (calls : Calls) {device : List UInt8}
    (hOurs : isOurs device = true) :
    (prepare calls device).1 ≠ .format ∧
      (prepare calls device).2 = device := by
  unfold prepare
  cases hMarker : deviceCarriesOurMarker calls device with
  | error stop => exact ⟨(ofStop_ne _ stop).2, rfl⟩
  | ok ours =>
      have hEq := (deviceCarriesOurMarker_eq hMarker).2
      rw [hOurs] at hEq
      rw [hEq]
      simp

/- Another one is zeroed from its beginning on. -/
theorem prepare_of_foreign
    (calls : Calls) {device : List UInt8}
    (hForeign : isOurs device = false) :
    (prepare calls device).1 ≠ .mount ∧
      ∃ count,
        (prepare calls device).2 = zeroPrefix count device ∧
          ((prepare calls device).1 = .format →
            count = device.length) := by
  unfold prepare
  cases hMarker : deviceCarriesOurMarker calls device with
  | error stop =>
      have hStop := ofStop_ne .inspect stop
      refine ⟨hStop.1, 0, ?_, ?_⟩
      · rw [zeroPrefix_zero]
      · intro hFormat
        exact absurd hFormat hStop.2
  | ok ours =>
      have hEq := (deviceCarriesOurMarker_eq hMarker).2
      rw [hForeign] at hEq
      rw [hEq]
      exact wipe_spec calls device

------------------------------------------------------------
-- A Boot Without a Failure
------------------------------------------------------------

/-
  No call fails and none is cut off, whatever is short or
  interrupted, on a device of this length.
-/
structure Calls.Unfailing (calls : Calls) (len : Nat) :
    Prop where
  openRead : calls.openRead = .succeeds
  seekMarker : calls.seekMarker = .succeeds
  reads : ReadsThrough calls.reads superblockPrefixLen
  openWrite : calls.openWrite = .succeeds
  seekEnd : calls.seekEnd = .succeeds
  seekStart : calls.seekStart = .succeeds
  writes : WritesThrough calls.writes len
  sync : calls.sync = .succeeds

/- The device is long enough to be read from. -/
def LongEnough (device : List UInt8) : Prop :=
  superblockOffset + superblockPrefixLen ≤ device.length

instance (device : List UInt8) :
    Decidable (LongEnough device) :=
  inferInstanceAs (Decidable (_ ≤ _))

/- A device with the marker has room for it. -/
theorem longEnough_of_isOurs
    {device : List UInt8} (hOurs : isOurs device = true) :
    LongEnough device := by
  unfold isOurs at hOurs
  rw [Bool.and_eq_true, decide_eq_true_eq] at hOurs
  exact hOurs.1

/- Without failures the marker is read. -/
theorem deviceCarriesOurMarker_of_unfailing
    {calls : Calls} {device : List UInt8}
    (hCalls : calls.Unfailing device.length) :
    deviceCarriesOurMarker calls device =
      if LongEnough device then
        .ok (isOurs device)
      else
        .error .failed := by
  unfold deviceCarriesOurMarker readMarker
  rw [hCalls.openRead, hCalls.seekMarker,
    readExact_of_readsThrough hCalls.reads,
    List.length_drop]
  have hLong :
      superblockPrefixLen ≤
          device.length - superblockOffset ↔
        LongEnough device := by
    unfold LongEnough superblockPrefixLen sbLabelOffset
      sbLabelLen
    omega
  by_cases hEnough : LongEnough device
  · have hOurs :
        isOurs device =
          superblockIsOurs (superblockPrefix device) := by
      have hRead :
          superblockOffset + superblockPrefixLen ≤
            device.length :=
        hEnough
      unfold isOurs
      rw [decide_eq_true hRead, Bool.true_and]
    rw [if_pos (hLong.2 hEnough), if_pos hEnough, hOurs]
    rfl
  · rw [if_neg (fun hRead => hEnough (hLong.1 hRead)),
      if_neg hEnough]
    rfl

/- All of the device is zeroed, and it is synced. -/
theorem wipe_of_unfailing
    {calls : Calls} {device : List UInt8}
    (hCalls : calls.Unfailing device.length) :
    wipe calls device =
      (.format, List.replicate device.length 0) := by
  have hOpen : openForWipe calls = .ok () := by
    unfold openForWipe
    rw [hCalls.openWrite, hCalls.seekEnd, hCalls.seekStart]
    rfl
  have hDone : (zeroDevice calls device).ending = .done :=
    writeZeros_of_writesThrough (by decide) hCalls.writes
  have hContent :
      (zeroDevice calls device).sink.content =
        List.replicate device.length 0 := by
    rcases @writeZeros_from_start wipeChunk calls.writes
        device with
      ⟨count, hPrefix, hAll⟩
    unfold zeroDevice at hDone ⊢
    rw [hPrefix, hAll hDone, zeroPrefix_of_le le_rfl]
  unfold wipe
  rw [hOpen]
  dsimp only
  rw [hDone, hContent]
  unfold afterZeros
  rw [hCalls.sync]
  rfl

/- What the device is decides what is done. -/
theorem prepare_of_unfailing
    {calls : Calls} {device : List UInt8}
    (hCalls : calls.Unfailing device.length) :
    prepare calls device =
      if ¬LongEnough device then
        (.fatal .inspect, device)
      else if isOurs device = true then
        (.mount, device)
      else
        (.format, List.replicate device.length 0) := by
  unfold prepare
  rw [deviceCarriesOurMarker_of_unfailing hCalls]
  by_cases hLong : LongEnough device
  · rw [if_pos hLong, if_neg (not_not.2 hLong)]
    cases isOurs device with
    | true => rfl
    | false => exact wipe_of_unfailing hCalls
  · rw [if_neg hLong, if_pos hLong]
    rfl

------------------------------------------------------------
-- Boots That Are Cut Short
------------------------------------------------------------

/- A device before some boots, none of which formats it. -/
inductive Interrupted : List UInt8 → List UInt8 → Prop
| none {device : List UInt8} : Interrupted device device
| boot
    {device between : List UInt8} (calls : Calls) :
    Interrupted device between →
      (prepare calls between).1 ≠ .format →
      Interrupted device (prepare calls between).2

/- A foreign device is zeroed some way, and still foreign. -/
theorem interrupted_spec
    {device after : List UInt8}
    (hBoots : Interrupted device after)
    (hForeign : isOurs device = false) :
    isOurs after = false ∧
      ∃ count, after = zeroPrefix count device := by
  induction hBoots with
  | none => exact ⟨hForeign, 0, (zeroPrefix_zero _).symm⟩
  | boot calls _ _ ih =>
      rcases ih with ⟨hBetween, count, hCount⟩
      rcases prepare_of_foreign calls hBetween with
        ⟨_, more, hMore, _⟩
      rw [hCount, zeroPrefix_zeroPrefix] at hMore
      rw [hCount, hMore]
      exact ⟨not_isOurs_zeroPrefix hForeign _, _, rfl⟩

------------------------------------------------------------
-- Wipe Before Format
------------------------------------------------------------

/- A marker that cannot be read ends the boot. -/
theorem mountPersistentVar_of_unread
    {calls : Calls} {formatting : Formatting}
    {mounting : Outcome} {device : List UInt8}
    (hUnread :
      ∀ ours, deviceCarriesOurMarker calls device ≠ .ok ours) :
    mountPersistentVar calls formatting mounting device =
        (.fatal .inspect, device) ∨
      mountPersistentVar calls formatting mounting device =
        (.cut, device) := by
  unfold mountPersistentVar prepare
  cases hMarker : deviceCarriesOurMarker calls device with
  | ok ours => exact absurd hMarker (hUnread ours)
  | error stop =>
      cases stop with
      | failed => exact Or.inl rfl
      | cut => exact Or.inr rfl

/- Mounting does not wipe. -/
theorem mountPersistentVar_of_ours
    (calls : Calls) (formatting : Formatting)
    (mounting : Outcome) {device : List UInt8}
    (hOurs : isOurs device = true) :
    (mountPersistentVar calls formatting mounting device).2 =
      device := by
  rcases prepare_of_ours calls hOurs with
    ⟨hFormat, hDevice⟩
  unfold mountPersistentVar
  split
  · rename_i hPrepare
    rw [hPrepare] at hDevice
    exact hDevice
  · rename_i hPrepare
    rw [hPrepare] at hDevice
    exact hDevice
  · rename_i hPrepare
    rw [hPrepare] at hDevice
    exact hDevice
  · rename_i hPrepare
    rw [hPrepare] at hFormat
    exact absurd rfl hFormat

/- Another's volume: the magic number, and a longer label. -/
def foreignDevice : List UInt8 :=
  List.replicate 1080 1 ++ [0x53, 0xef] ++
    List.replicate 62 1 ++ volumeLabel ++
    List.replicate 9 0x41

/- Long enough for a superblock. -/
theorem length_foreignDevice :
    foreignDevice.length = 1160 := by
  unfold foreignDevice
  simp only [List.length_append, List.length_replicate,
    List.length_cons, List.length_nil, volumeLabel]

/- A boot of which these are the writes. -/
def bootWriting (writes : List WriteCall) : Calls where
  openRead := .succeeds
  seekMarker := .succeeds
  reads := List.replicate superblockPrefixLen (.got 1)
  openWrite := .succeeds
  seekEnd := .succeeds
  seekStart := .succeeds
  writes := writes
  sync := .succeeds

/- Power is lost in the second write. -/
def cutBoot : Calls :=
  bootWriting [.wrote 1100, .cut 20]

/- Every write takes one byte, after an interruption. -/
def bytewiseBoot : Calls :=
  bootWriting (.interrupted :: List.replicate 1160 (.wrote 1))

/- The cut comes before a buffer of this length is written. -/
theorem writeAll_cutBoot
    {bytes : List UInt8} (hBytes : 1100 < bytes.length)
    (sink : Sink) :
    (writeAll cutBoot.writes bytes sink).ending = .cut := by
  have hNil : bytes ≠ [] := by
    rintro rfl
    rw [List.length_nil] at hBytes
    omega
  have hRest : bytes.drop 1100 ≠ [] := by
    rw [Ne, List.drop_eq_nil_iff]
    omega
  unfold cutBoot bootWriting
  rw [writeAll, if_neg hNil]
  simp only [Nat.reduceEqDiff, if_false]
  rw [writeAll, if_neg hRest]

/- Not even the first turn is done, with such a buffer. -/
theorem writeZeros_cutBoot
    {chunk len : Nat} (hChunk : 1100 < chunk)
    (hLen : 1100 < len) (sink : Sink) :
    (writeZeros (List.replicate chunk 0) cutBoot.writes len
        sink).ending =
      .cut := by
  rcases Nat.exists_eq_succ_of_ne_zero
    (show len ≠ 0 by omega) with ⟨turns, rfl⟩
  have hFirst (sink : Sink) :
      (writeAll cutBoot.writes
          (List.replicate (min (turns + 1) chunk) 0)
          sink).ending =
        .cut := by
    apply writeAll_cutBoot
    rw [List.length_replicate]
    omega
  have hZeros : List.replicate chunk (0 : UInt8) ≠ [] := by
    rw [Ne, List.replicate_eq_nil_iff]
    omega
  unfold writeZeros
  rw [if_neg (fun hEmpty => hZeros hEmpty.2), writeZerosLoop,
    if_neg (by omega)]
  dsimp only
  rw [List.length_replicate, take_replicate_zeros,
    Nat.min_eq_left (Nat.min_le_right _ chunk), hFirst,
    if_neg (by decide), hFirst]

/- Every call writes one byte. -/
theorem bytewiseBoot_unfailing :
    bytewiseBoot.Unfailing foreignDevice.length where
  openRead := rfl
  seekMarker := rfl
  reads := ⟨by decide +kernel, by decide +kernel⟩
  openWrite := rfl
  seekEnd := rfl
  seekStart := rfl
  writes := by
    rw [length_foreignDevice]
    exact ⟨by decide +kernel, by decide +kernel⟩
  sync := rfl

end Storage

end Guest

end CargoUnikernel
