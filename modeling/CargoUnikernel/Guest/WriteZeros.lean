import CargoUnikernel.Library.Streams

/-
  The guest's loop that zeroes a device or a file, one chunk
  at a time.

  Main declarations:
    * `writeZeros`, `writeZerosLoop_succ`
    * `writeZeros_spec`, `writeZeros_from_start`
    * `writeZeros_of_writesThrough`
-/

------------------------------------------------------------
-- The Loop
------------------------------------------------------------

namespace CargoUnikernel

namespace Guest

namespace WriteZeros

open Streams

/-
  Chunks of the buffer until nothing remains. Each chunk has
  at least a byte, so there are no more of them than bytes.
-/
def writeZerosLoop (zeros : List UInt8) :
    Nat → List WriteCall → Nat → Sink → Progress
| 0, calls, remaining, sink =>
    ⟨if remaining = 0 then .done else .cut, sink, calls⟩
| fuel + 1, calls, remaining, sink =>
    if remaining = 0 then
      ⟨.done, sink, calls⟩
    else
      let n := min remaining zeros.length
      let chunk := writeAll calls (zeros.take n) sink
      if chunk.ending = .done then
        writeZerosLoop zeros fuel chunk.calls (remaining - n)
          chunk.sink
      else
        chunk

/- With no zeros to write, nothing is ever written. -/
def writeZeros
    (zeros : List UInt8) (calls : List WriteCall)
    (len : Nat) (sink : Sink) : Progress :=
  if 0 < len ∧ zeros = [] then
    ⟨.failed, sink, calls⟩
  else
    writeZerosLoop zeros len calls len sink

/- More turns than there are bytes make no difference. -/
theorem writeZerosLoop_succ
    {zeros : List UInt8} (hZeros : zeros ≠ [])
    {fuel remaining : Nat} (hFuel : remaining ≤ fuel)
    (calls : List WriteCall) (sink : Sink) :
    writeZerosLoop zeros (fuel + 1) calls remaining sink =
      writeZerosLoop zeros fuel calls remaining sink := by
  have hChunk := List.length_pos_iff.2 hZeros
  induction fuel generalizing remaining calls sink with
  | zero =>
      have hNone : remaining = 0 := by omega
      simp [writeZerosLoop, hNone]
  | succ fuel ih =>
      rw [writeZerosLoop, writeZerosLoop]
      by_cases hNone : remaining = 0
      · rw [if_pos hNone, if_pos hNone]
      · rw [if_neg hNone, if_neg hNone]
        dsimp only
        rw [ih (by omega)]

------------------------------------------------------------
-- What Is Zeroed
------------------------------------------------------------

/- Some of the zeros are fewer zeros. -/
theorem take_replicate_zeros (count chunk : Nat) :
    (List.replicate chunk (0 : UInt8)).take count =
      List.replicate (min count chunk) 0 :=
  List.take_replicate

/- Zeros from the position on, all of them at a good end. -/
theorem writeZerosLoop_spec
    {chunk : Nat} (fuel : Nat) (calls : List WriteCall)
    (remaining : Nat) {sink : Sink}
    (hPosition : sink.position ≤ sink.content.length) :
    ∃ count,
      count ≤ remaining ∧
        (writeZerosLoop (List.replicate chunk 0) fuel calls
              remaining sink).sink =
          sink.put (List.replicate count 0) ∧
        ((writeZerosLoop (List.replicate chunk 0) fuel calls
              remaining sink).ending = .done →
          count = remaining) := by
  induction fuel generalizing calls remaining sink with
  | zero =>
      refine ⟨0, by omega, ?_, ?_⟩
      · rw [List.replicate_zero, Sink.put_nil]
        rfl
      · unfold writeZerosLoop
        split
        · intro _
          omega
        · intro hDone
          cases hDone
  | succ fuel ih =>
      unfold writeZerosLoop
      by_cases hNone : remaining = 0
      · rw [if_pos hNone]
        refine ⟨0, by omega, ?_, ?_⟩
        · rw [List.replicate_zero, Sink.put_nil]
        · intro _
          omega
      · rw [if_neg hNone]
        dsimp only
        rw [List.length_replicate, take_replicate_zeros,
          Nat.min_eq_left (Nat.min_le_right remaining chunk)]
        rcases writeAll_spec calls
            (List.replicate (min remaining chunk) 0)
            hPosition with
          ⟨first, hFirst, hFirstDone⟩
        rw [take_replicate_zeros] at hFirst
        rw [List.length_replicate] at hFirstDone
        split
        · rename_i hDone
          have hAll := hFirstDone hDone
          rw [Nat.min_eq_right hAll] at hFirst
          have hMore := Sink.position_put_le hPosition
            (List.replicate (min remaining chunk) 0)
          rw [← hFirst] at hMore
          rcases ih _ (remaining - min remaining chunk) hMore
            with ⟨more, hLe, hSink, hEnd⟩
          refine ⟨min remaining chunk + more, by omega, ?_, ?_⟩
          · rw [hSink, hFirst, Sink.put_put hPosition,
              List.replicate_append_replicate]
          · intro hEnding
            have hEq := hEnd hEnding
            omega
        · rename_i hNotDone
          refine ⟨min first (min remaining chunk), by omega,
            hFirst, ?_⟩
          intro hDone
          exact absurd hDone hNotDone

/- Whatever happens, zeros are written from here on. -/
theorem writeZeros_spec
    {chunk : Nat} (calls : List WriteCall) (len : Nat)
    {sink : Sink}
    (hPosition : sink.position ≤ sink.content.length) :
    ∃ count,
      count ≤ len ∧
        (writeZeros (List.replicate chunk 0) calls len
            sink).sink =
          sink.put (List.replicate count 0) ∧
        ((writeZeros (List.replicate chunk 0) calls len
              sink).ending = .done →
          count = len) := by
  unfold writeZeros
  split
  · refine ⟨0, by omega, ?_, ?_⟩
    · rw [List.replicate_zero, Sink.put_nil]
    · intro hDone
      cases hDone
  · exact writeZerosLoop_spec len calls len hPosition

/-
  From the start of a device or a file as long as it is:
  zeros up to some point, and everywhere at a good end.
-/
theorem writeZeros_from_start
    {chunk : Nat} (calls : List WriteCall)
    (content : List UInt8) :
    ∃ count,
      (writeZeros (List.replicate chunk 0) calls
            content.length ⟨content, 0⟩).sink.content =
          zeroPrefix count content ∧
        ((writeZeros (List.replicate chunk 0) calls
              content.length ⟨content, 0⟩).ending = .done →
          count = content.length) := by
  have hStart :
      (Sink.mk content 0).position ≤
        (Sink.mk content 0).content.length :=
    Nat.zero_le content.length
  rcases writeZeros_spec calls content.length hStart with
    ⟨count, hLe, hSink, hDone⟩
  refine ⟨count, ?_, hDone⟩
  rw [hSink]
  exact content_put_zeros hLe

------------------------------------------------------------
-- That It Ends Well
------------------------------------------------------------

/- Every turn is written in full, and there is a turn left. -/
theorem writeZerosLoop_of_writesThrough
    {chunk : Nat} (hChunk : 0 < chunk)
    {fuel remaining : Nat} (hFuel : remaining ≤ fuel)
    {calls : List WriteCall} {sink : Sink}
    (hThrough : WritesThrough calls remaining) :
    (writeZerosLoop (List.replicate chunk 0) fuel calls
        remaining sink).ending =
      .done := by
  induction fuel generalizing calls remaining sink with
  | zero =>
      unfold writeZerosLoop
      rw [if_pos (by omega)]
  | succ fuel ih =>
      unfold writeZerosLoop
      by_cases hNone : remaining = 0
      · rw [if_pos hNone]
      · rw [if_neg hNone]
        dsimp only
        rw [List.length_replicate, take_replicate_zeros,
          Nat.min_eq_left (Nat.min_le_right remaining chunk)]
        have hTurn :
            WritesThrough calls
              ((List.replicate (min remaining chunk)
                  (0 : UInt8)).length +
                (remaining - min remaining chunk)) := by
          apply hThrough.mono
          rw [List.length_replicate]
          omega
        rcases @writeAll_of_writesThrough _ _ sink _ hTurn with
          ⟨hDone, hRest⟩
        rw [if_pos hDone]
        exact ih (by omega) hRest

/- Enough willing calls write them all. -/
theorem writeZeros_of_writesThrough
    {chunk : Nat} (hChunk : 0 < chunk)
    {len : Nat} {calls : List WriteCall} {sink : Sink}
    (hThrough : WritesThrough calls len) :
    (writeZeros (List.replicate chunk 0) calls len
        sink).ending =
      .done := by
  have hSome : List.replicate chunk (0 : UInt8) ≠ [] := by
    rw [Ne, List.replicate_eq_nil_iff]
    omega
  unfold writeZeros
  rw [if_neg (fun hEmpty => hSome hEmpty.2)]
  exact writeZerosLoop_of_writesThrough hChunk le_rfl hThrough

end WriteZeros

end Guest

end CargoUnikernel
