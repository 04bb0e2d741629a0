import CargoUnikernel.Library.Writers
import CargoUnikernel.Guest.WriteZeros

/-
  The loop that zeroes, over any sink and with the conversions
  between the two integer types as they are made.

  A size has some largest value, whatever the platform. Every
  buffer fits it, and then a turn takes the bytes that remain
  or the whole buffer, whichever is less.

  Main declarations:
    * `writeZeros`, `writeZeros_made`
    * `writeZerosLoop_spec`, `exists_writeZerosLoop`
    * `write_zeros_exact`, `writeZeros_device`
-/

------------------------------------------------------------
-- The Loop
------------------------------------------------------------

namespace CargoUnikernel

namespace Guest

namespace ZeroWriter

open Writers

/- `u64::MAX`. -/
def u64Max : Nat :=
  2 ^ 64 - 1

/- `usize::try_from(remaining).unwrap_or(usize::MAX).min(..)`. -/
def turnSize (usizeMax : Nat) (zeros : List UInt8)
    (remaining : Nat) : Nat :=
  min (if remaining ≤ usizeMax then remaining else usizeMax)
    zeros.length

/- `zeros.get(..n).unwrap_or(zeros)`. -/
def turnBytes (zeros : List UInt8) (n : Nat) : List UInt8 :=
  if n ≤ zeros.length then zeros.take n else zeros

/- `remaining.saturating_sub(u64::try_from(n)...)`. -/
def turnLeft (remaining n : Nat) : Nat :=
  remaining - (if n ≤ u64Max then n else remaining)

section

variable {State : Type}
variable (usizeMax : Nat) (writer : Writer State)

/- Turns until nothing remains, or one of them fails. -/
def writeZerosLoop (zeros : List UInt8) :
    Nat → Nat → State → Option (Run State)
| 0, remaining, s =>
    if remaining = 0 then some ⟨true, s, []⟩ else none
| fuel + 1, remaining, s =>
    if remaining = 0 then
      some ⟨true, s, []⟩
    else
      let n := turnSize usizeMax zeros remaining
      match writeAll writer fuel (turnBytes zeros n) s with
      | none => none
      | some turn =>
          if turn.done then
            (writeZerosLoop zeros fuel (turnLeft remaining n)
                turn.state).map
              (Run.after turn.attempts)
          else
            some turn

/- With no zeros to write, the loop is not entered. -/
def writeZeros
    (fuel : Nat) (len : Nat) (zeros : List UInt8)
    (s : State) : Option (Run State) :=
  if 0 < len ∧ zeros = [] then
    some ⟨false, s, []⟩
  else
    writeZerosLoop usizeMax writer zeros fuel len s

end

------------------------------------------------------------
-- The Writes of a Run
------------------------------------------------------------

section

variable {State : Type} {writer : Writer State}
variable {usizeMax : Nat} {zeros : List UInt8}

/- The writes of a turn, and then those of the turns after. -/
theorem writeZerosLoop_made
    {fuel remaining : Nat} {s : State} {run : Run State}
    (hRun :
      writeZerosLoop usizeMax writer zeros fuel remaining s =
        some run) :
    Made writer s run.attempts run.state := by
  induction fuel generalizing remaining s run with
  | zero =>
      unfold writeZerosLoop at hRun
      split at hRun
      · rcases Option.some.inj hRun with rfl
        exact .none
      · cases hRun
  | succ fuel ih =>
      unfold writeZerosLoop at hRun
      split at hRun
      · rcases Option.some.inj hRun with rfl
        exact .none
      · dsimp only at hRun
        split at hRun
        · cases hRun
        · rename_i turn hTurn
          have hFirst := writeAll_made hTurn
          split at hRun
          · rcases Option.map_eq_some_iff.1 hRun with
              ⟨rest, hLoop, rfl⟩
            exact hFirst.append (ih hLoop)
          · rcases Option.some.inj hRun with rfl
            exact hFirst

/- Whatever the buffer is, the attempts are its writes. -/
theorem writeZeros_made
    {fuel len : Nat} {s : State} {run : Run State}
    (hRun :
      writeZeros usizeMax writer fuel len zeros s =
        some run) :
    Made writer s run.attempts run.state := by
  unfold writeZeros at hRun
  split at hRun
  · rcases Option.some.inj hRun with rfl
    exact .none
  · exact writeZerosLoop_made hRun

end

------------------------------------------------------------
-- One Turn
------------------------------------------------------------

section

variable {usizeMax : Nat} {zeros : List UInt8}

/- The conversions of a turn change nothing. -/
theorem turnSize_eq
    (hFits : zeros.length ≤ usizeMax) (remaining : Nat) :
    turnSize usizeMax zeros remaining =
      min remaining zeros.length := by
  unfold turnSize
  split
  · rfl
  · omega

/- A turn writes the first of the zeros. -/
theorem turnBytes_eq
    {n : Nat} (hSize : n ≤ zeros.length) :
    turnBytes zeros n = zeros.take n := by
  unfold turnBytes
  rw [if_pos hSize]

/- What is left is a plain difference. -/
theorem turnLeft_eq
    {remaining n : Nat} (hLen : remaining ≤ u64Max)
    (hSize : n ≤ remaining) :
    turnLeft remaining n = remaining - n := by
  unfold turnLeft
  rw [if_pos (hSize.trans hLen)]

end

section

variable {State : Type} {writer : Writer State}
variable {usizeMax chunk : Nat}
variable (hFits : chunk ≤ usizeMax)

/- Nothing is left to write. -/
theorem writeZerosLoop_zero
    (zeros : List UInt8) (fuel : Nat) (s : State) :
    writeZerosLoop usizeMax writer zeros fuel 0 s =
      some ⟨true, s, []⟩ := by
  cases fuel with
  | zero => rw [writeZerosLoop, if_pos rfl]
  | succ fuel => rw [writeZerosLoop, if_pos rfl]

include hFits

/- The conversions make no difference to what a turn does. -/
theorem writeZerosLoop_succ
    {remaining : Nat} (hLen : remaining ≤ u64Max)
    (hSome : remaining ≠ 0) (fuel : Nat) (s : State) :
    writeZerosLoop usizeMax writer (List.replicate chunk 0)
        (fuel + 1) remaining s =
      (writeAll writer fuel
          (List.replicate (min remaining chunk) 0) s).bind
        fun turn =>
          if turn.done then
            (writeZerosLoop usizeMax writer
                (List.replicate chunk 0) fuel
                (remaining - min remaining chunk)
                turn.state).map
              (Run.after turn.attempts)
          else
            some turn := by
  have hSize :
      turnSize usizeMax (List.replicate chunk 0) remaining =
        min remaining chunk := by
    rw [turnSize_eq (by rwa [List.length_replicate]),
      List.length_replicate]
  have hBytes :
      turnBytes (List.replicate chunk (0 : UInt8))
          (min remaining chunk) =
        List.replicate (min remaining chunk) 0 := by
    rw [turnBytes_eq
        (by
          rw [List.length_replicate]
          exact Nat.min_le_right _ _),
      List.take_replicate]
    congr 1
    omega
  rw [writeZerosLoop, if_neg hSome]
  dsimp only
  rw [hSize, hBytes, turnLeft_eq hLen (Nat.min_le_left _ _)]
  cases writeAll writer fuel
      (List.replicate (min remaining chunk) 0) s with
  | none => rfl
  | some turn => rfl

------------------------------------------------------------
-- What Is Zeroed
------------------------------------------------------------

/-
  Each turn writes so many of the zeros that remain, and the
  turns after it write the others.
-/
theorem writeZerosLoop_spec
    {fuel remaining : Nat} (hLen : remaining ≤ u64Max)
    {s : State} {run : Run State}
    (hRun :
      writeZerosLoop usizeMax writer (List.replicate chunk 0)
          fuel remaining s =
        some run) :
    Written (List.replicate remaining 0) run ∧
      ∀ attempt ∈ run.attempts,
        attempt.bytes.length ≤ chunk := by
  induction fuel generalizing remaining s run with
  | zero =>
      unfold writeZerosLoop at hRun
      split at hRun
      · rename_i hZero
        rcases Option.some.inj hRun with rfl
        rw [hZero]
        refine ⟨.of_nil s, ?_⟩
        intro attempt hMem
        cases hMem
      · cases hRun
  | succ fuel ih =>
      by_cases hZero : remaining = 0
      · rw [hZero, writeZerosLoop_zero] at hRun
        rcases Option.some.inj hRun with rfl
        rw [hZero]
        refine ⟨.of_nil s, ?_⟩
        intro attempt hMem
        cases hMem
      · rw [writeZerosLoop_succ hFits hLen hZero] at hRun
        rcases Option.bind_eq_some_iff.1 hRun with
          ⟨turn, hTurn, hRest⟩
        rcases writeAll_written hTurn with ⟨hFirst, hShort⟩
        rw [List.length_replicate] at hShort
        have hSplit :
            List.replicate remaining (0 : UInt8) =
              List.replicate (min remaining chunk) 0 ++
                List.replicate
                  (remaining - min remaining chunk) 0 := by
          rw [List.replicate_append_replicate]
          congr 1
          omega
        split at hRest
        · rename_i hDone
          rcases Option.map_eq_some_iff.1 hRest with
            ⟨rest, hLoop, rfl⟩
          rcases ih (by omega) hLoop with ⟨hMore, hShorter⟩
          rcases hFirst.of_done hDone with ⟨hTaken, hNone⟩
          constructor
          · rw [hSplit, ← hTaken]
            exact hMore.after hNone
          · intro attempt hMem
            rcases List.mem_append.1 hMem with hMem | hMem
            · have hLength := hShort attempt hMem
              omega
            · exact hShorter attempt hMem
        · rename_i hFailed
          rcases Option.some.inj hRest with rfl
          constructor
          · rw [hSplit]
            apply hFirst.append_of_failed
            simpa using hFailed
          · intro attempt hMem
            have hLength := hShort attempt hMem
            omega

/- More fuel does not change a run. -/
theorem writeZerosLoop_mono
    {fuel more : Nat} (hMore : fuel ≤ more)
    {remaining : Nat} (hLen : remaining ≤ u64Max)
    {s : State} {run : Run State}
    (hRun :
      writeZerosLoop usizeMax writer (List.replicate chunk 0)
          fuel remaining s =
        some run) :
    writeZerosLoop usizeMax writer (List.replicate chunk 0)
        more remaining s =
      some run := by
  induction fuel generalizing more remaining s run with
  | zero =>
      unfold writeZerosLoop at hRun
      split at hRun
      · rename_i hZero
        rw [hZero, writeZerosLoop_zero, hRun]
      · cases hRun
  | succ fuel ih =>
      by_cases hZero : remaining = 0
      · rw [hZero, writeZerosLoop_zero] at hRun ⊢
        exact hRun
      · rcases Nat.exists_eq_add_of_le' hMore with ⟨k, rfl⟩
        rw [writeZerosLoop_succ hFits hLen hZero] at hRun
        rw [← Nat.add_assoc,
          writeZerosLoop_succ hFits hLen hZero]
        rcases Option.bind_eq_some_iff.1 hRun with
          ⟨turn, hTurn, hRest⟩
        rw [writeAll_mono (by omega) hTurn, Option.bind_some]
        split at hRest
        · rename_i hDone
          rcases Option.map_eq_some_iff.1 hRest with
            ⟨rest, hLoop, rfl⟩
          rw [if_pos hDone, ih (by omega) (by omega) hLoop,
            Option.map_some]
        · rename_i hFailed
          rw [if_neg hFailed, hRest]

/- Every turn takes something off what remains. -/
theorem exists_writeZerosLoop
    (hResumes : writer.Resumes) (hChunk : 0 < chunk)
    {remaining : Nat} (hLen : remaining ≤ u64Max)
    (s : State) :
    ∃ fuel run,
      writeZerosLoop usizeMax writer (List.replicate chunk 0)
          fuel remaining s =
        some run := by
  induction remaining using Nat.strongRecOn
    generalizing s with
  | ind remaining ih =>
      by_cases hZero : remaining = 0
      · refine ⟨0, ⟨true, s, []⟩, ?_⟩
        rw [hZero, writeZerosLoop_zero]
      · rcases exists_writeAll hResumes
          (List.replicate (min remaining chunk) 0) s with
          ⟨first, turn, hTurn⟩
        by_cases hDone : turn.done = true
        · rcases ih (remaining - min remaining chunk)
            (by omega) (by omega) turn.state with
            ⟨later, rest, hLoop⟩
          refine
            ⟨max first later + 1, rest.after turn.attempts,
              ?_⟩
          rw [writeZerosLoop_succ hFits hLen hZero,
            writeAll_mono (Nat.le_max_left _ _) hTurn,
            Option.bind_some, if_pos hDone,
            writeZerosLoop_mono hFits (Nat.le_max_right _ _)
              (by omega) hLoop,
            Option.map_some]
        · refine ⟨first + 1, turn, ?_⟩
          rw [writeZerosLoop_succ hFits hLen hZero, hTurn,
            Option.bind_some, if_neg hDone]

end

------------------------------------------------------------
-- The Whole Call
------------------------------------------------------------

section

variable {State : Type} {writer : Writer State}

/- An empty buffer zeroes nothing, and no write is tried. -/
theorem writeZeros_nil
    (usizeMax fuel len : Nat) (s : State) :
    writeZeros usizeMax writer fuel len [] s =
      some ⟨decide (len = 0), s, []⟩ := by
  unfold writeZeros
  by_cases hZero : len = 0
  · rw [if_neg (by omega), hZero, writeZerosLoop_zero]
    rfl
  · rw [if_pos ⟨Nat.pos_of_ne_zero hZero, rfl⟩,
      decide_eq_false hZero]

/- With zeros to write, it is the loop. -/
theorem writeZeros_of_pos
    {chunk : Nat} (hChunk : 0 < chunk)
    (usizeMax fuel len : Nat) (s : State) :
    writeZeros usizeMax writer fuel len
        (List.replicate chunk 0) s =
      writeZerosLoop usizeMax writer
        (List.replicate chunk 0) fuel len s := by
  unfold writeZeros
  rw [if_neg]
  intro hEmpty
  rw [List.replicate_eq_nil_iff] at hEmpty
  omega

end

/-
  With any sink and any buffer of zeros: whatever comes back
  has been written in order and in pieces that the buffer
  holds, an error at the last write alone; and something does
  come back where no write is interrupted for ever. Nothing
  at all is written with an empty buffer.
-/
theorem write_zeros_exact
    {State : Type} (writer : Writer State) (s : State)
    {usizeMax chunk len : Nat} (hFits : chunk ≤ usizeMax)
    (hLen : len < 2 ^ 64) :
    (0 < chunk →
      (writer.Resumes →
        ∃ fuel run, ∀ more, fuel ≤ more →
          writeZeros usizeMax writer more len
              (List.replicate chunk 0) s =
            some run) ∧
      ∀ fuel run,
        writeZeros usizeMax writer fuel len
            (List.replicate chunk 0) s =
          some run →
        Made writer s run.attempts run.state ∧
        (∀ attempt ∈ run.attempts,
          attempt.bytes.length ≤ chunk) ∧
        (run.done = true →
          taken run.attempts = List.replicate len 0) ∧
        (run.done = false →
          taken run.attempts <+: List.replicate len 0 ∧
          ∃ earlier last,
            run.attempts = earlier ++ [last] ∧
            last.Fails ∧
            ∀ attempt ∈ earlier, ¬attempt.Fails)) ∧
    ∀ fuel,
      (0 < len ↔
        writeZeros usizeMax writer fuel len [] s =
          some ⟨false, s, []⟩) ∧
      (len = 0 ↔
        writeZeros usizeMax writer fuel len [] s =
          some ⟨true, s, []⟩) := by
  have hMax : len ≤ u64Max := by
    unfold u64Max
    omega
  constructor
  · intro hChunk
    simp only [writeZeros_of_pos hChunk]
    constructor
    · intro hResumes
      rcases exists_writeZerosLoop hFits hResumes hChunk hMax s
        with ⟨fuel, run, hRun⟩
      refine ⟨fuel, run, ?_⟩
      intro more hMore
      exact writeZerosLoop_mono hFits hMore hMax hRun
    · intro fuel run hRun
      rcases writeZerosLoop_spec hFits hMax hRun with
        ⟨hWritten, hShort⟩
      refine ⟨writeZerosLoop_made hRun, hShort, ?_, ?_⟩
      · intro hDone
        exact (hWritten.of_done hDone).1
      · intro hNot
        cases hWritten with
        | done hDone =>
            rw [hDone] at hNot
            cases hNot
        | failed earlier last _ hAttempts hTaken hLast hNone =>
            exact
              ⟨hTaken, earlier, last, hAttempts, hLast, hNone⟩
  · intro fuel
    rw [writeZeros_nil]
    by_cases hZero : len = 0
    · simp [hZero]
    · simp [hZero, Nat.pos_of_ne_zero hZero]

/- Takes one byte at a time, so many times. -/
def bytewise : Writer Nat where
  write s _ :=
    if s = 0 then (.failed 0, 0) else (.wrote 1, s - 1)

/- A writer that accepts one byte at a time goes on. -/
theorem bytewise_resumes : bytewise.Resumes := by
  intro bytes
  constructor
  intro s
  constructor
  intro later hLater
  unfold bytewise at hLater
  dsimp only at hLater
  split at hLater
  · cases hLater
  · cases hLater

/-
  Three zeros through a buffer of two: they come to an end,
  three writes of what is left are made where the sink takes
  three bytes, and only two bytes go where it takes two.
-/
theorem write_zeros_exact_bytewise :
    (∃ fuel run, ∀ more, fuel ≤ more →
      writeZeros u64Max bytewise more 3 [0, 0] 3 =
        some run) ∧
    (∃ run,
      writeZeros u64Max bytewise 4 3 [0, 0] 3 = some run ∧
        run.done = true ∧
        Made bytewise 3 run.attempts 0 ∧
        taken run.attempts = [0, 0, 0]) ∧
    ∃ run,
      writeZeros u64Max bytewise 4 3 [0, 0] 2 = some run ∧
        run.done = false ∧
        Made bytewise 2 run.attempts 0 ∧
        taken run.attempts <+: [0, 0, 0] := by
  have hExact (s : Nat) :=
    (@write_zeros_exact Nat bytewise s u64Max 2 3
        (by decide) (by decide)).1 (by decide)
  refine ⟨(hExact 3).1 bytewise_resumes, ?_, ?_⟩
  · have hRun := (hExact 3).2 4 _ rfl
    exact ⟨_, rfl, rfl, hRun.1, hRun.2.2.1 rfl⟩
  · have hRun := (hExact 2).2 4 _ rfl
    exact ⟨_, rfl, rfl, hRun.1, (hRun.2.2.2 rfl).1⟩

------------------------------------------------------------
-- A Device Whose Calls Are Given
------------------------------------------------------------

open Streams (WriteCall Sink)

/- The calls that are left, and the bytes in place. -/
def device : Writer (List WriteCall × Sink) where
  write s bytes :=
    match s.1 with
    | [] => (.failed 0, s)
    | .wrote count :: calls =>
        (.wrote count, calls, s.2.put (bytes.take count))
    | .interrupted :: calls => (.interrupted, calls, s.2)
    | .failed count :: calls =>
        (.failed count, calls, s.2.put (bytes.take count))
    | .cut count :: _ =>
        (.failed count, [], s.2.put (bytes.take count))

/- The two come to the same end, and leave the same. -/
def Agrees
    (run : Run (List WriteCall × Sink))
    (progress : Streams.Progress) : Prop :=
  run.state = (progress.calls, progress.sink) ∧
    (run.done = true ↔ progress.ending = .done)

/- The device's calls, as a writer of that kind. -/
theorem writeAll_device
    {calls : List WriteCall} {bytes : List UInt8} {sink : Sink}
    (hCut :
      (Streams.writeAll calls bytes sink).ending ≠ .cut) :
    ∃ fuel run,
      writeAll device fuel bytes (calls, sink) = some run ∧
        Agrees run (Streams.writeAll calls bytes sink) := by
  induction calls generalizing bytes sink with
  | nil =>
      unfold Streams.writeAll at hCut ⊢
      by_cases hNil : bytes = []
      · refine ⟨0, _, by rw [hNil, writeAll_nil], rfl, ?_⟩
        rw [if_pos hNil]
        simp
      · rw [if_neg hNil] at hCut
        exact absurd rfl hCut
  | cons call calls ih =>
      unfold Streams.writeAll at hCut ⊢
      by_cases hNil : bytes = []
      · rw [if_pos hNil]
        exact
          ⟨0, _, by rw [hNil, writeAll_nil], rfl, by simp⟩
      · rw [if_neg hNil] at hCut ⊢
        cases call with
        | wrote count =>
            dsimp only at hCut ⊢
            by_cases hZero : count = 0
            · rw [if_pos hZero]
              refine
                ⟨1,
                  ⟨false, (calls, sink), [⟨bytes, .wrote 0⟩]⟩,
                  ?_, rfl, by simp⟩
              rw [writeAll, if_neg hNil]
              simp [device, hZero, Sink.put_nil]
            · rw [if_neg hZero] at hCut ⊢
              rcases ih hCut with ⟨fuel, run, hRun, hSame⟩
              refine
                ⟨fuel + 1, run.after [⟨bytes, .wrote count⟩],
                  ?_, hSame⟩
              have hWrite :
                  device.write (.wrote count :: calls, sink)
                      bytes =
                    (.wrote count, calls,
                      sink.put (bytes.take count)) :=
                rfl
              rw [writeAll, if_neg hNil, hWrite]
              dsimp only
              rw [if_neg hZero, hRun, Option.map_some]
        | interrupted =>
            rcases ih hCut with ⟨fuel, run, hRun, hSame⟩
            refine
              ⟨fuel + 1, run.after [⟨bytes, .interrupted⟩], ?_,
                hSame⟩
            have hWrite :
                device.write (.interrupted :: calls, sink)
                    bytes =
                  (.interrupted, calls, sink) :=
              rfl
            rw [writeAll, if_neg hNil, hWrite]
            dsimp only
            rw [hRun, Option.map_some]
        | failed count =>
            refine
              ⟨1, ⟨false, (calls, _), [⟨bytes, .failed count⟩]⟩,
                ?_, rfl, by simp⟩
            rw [writeAll, if_neg hNil]
            simp [device]
        | cut count => exact absurd rfl hCut

/- Where power stays on, the loop is the one of the device. -/
theorem writeZerosLoop_device
    {usizeMax chunk : Nat} (hFits : chunk ≤ usizeMax)
    {turns len : Nat} (hLen : len ≤ u64Max)
    {calls : List WriteCall} {sink : Sink}
    (hCut :
      (WriteZeros.writeZerosLoop (List.replicate chunk 0) turns
          calls len sink).ending ≠ .cut) :
    ∃ fuel run,
      writeZerosLoop usizeMax device (List.replicate chunk 0)
          fuel len (calls, sink) =
        some run ∧
      Agrees run
        (WriteZeros.writeZerosLoop (List.replicate chunk 0)
          turns calls len sink) := by
  induction turns generalizing len calls sink with
  | zero =>
      unfold WriteZeros.writeZerosLoop at hCut ⊢
      by_cases hZero : len = 0
      · rw [hZero]
        exact ⟨0, _, writeZerosLoop_zero _ 0 _, rfl, by simp⟩
      · rw [if_neg hZero] at hCut
        exact absurd rfl hCut
  | succ turns ih =>
      unfold WriteZeros.writeZerosLoop at hCut ⊢
      by_cases hZero : len = 0
      · rw [if_pos hZero, hZero]
        exact ⟨0, _, writeZerosLoop_zero _ 0 _, rfl, by simp⟩
      · rw [if_neg hZero] at hCut ⊢
        have hLeast :
            min (min len chunk) chunk = min len chunk := by
          omega
        simp only [List.length_replicate,
          List.take_replicate, hLeast] at hCut ⊢
        by_cases hDone :
            (Streams.writeAll calls
                (List.replicate (min len chunk) 0)
                sink).ending =
              .done
        · rw [if_pos hDone] at hCut ⊢
          rcases @writeAll_device calls
              (List.replicate (min len chunk) 0) sink
              (by
                rw [hDone]
                exact Streams.Ending.noConfusion) with
            ⟨first, turn, hTurn, hState, hSame⟩
          rcases ih (by omega) hCut with
            ⟨later, rest, hLoop, hEnd⟩
          refine
            ⟨max first later + 1, rest.after turn.attempts, ?_,
              hEnd⟩
          rw [writeZerosLoop_succ hFits hLen hZero,
            writeAll_mono (Nat.le_max_left _ _) hTurn,
            Option.bind_some, if_pos (hSame.2 hDone), hState,
            writeZerosLoop_mono hFits (Nat.le_max_right _ _)
              (by omega) hLoop,
            Option.map_some]
        · rw [if_neg hDone] at hCut ⊢
          rcases writeAll_device hCut with
            ⟨first, turn, hTurn, hState, hSame⟩
          refine ⟨first + 1, turn, ?_, hState, hSame⟩
          rw [writeZerosLoop_succ hFits hLen hZero, hTurn,
            Option.bind_some, if_neg]
          intro hTurnDone
          exact hDone (hSame.1 hTurnDone)

/- So the two models of the loop agree. -/
theorem writeZeros_device
    {usizeMax chunk : Nat} (hFits : chunk ≤ usizeMax)
    {len : Nat} (hLen : len ≤ u64Max)
    {calls : List WriteCall} {sink : Sink}
    (hCut :
      (WriteZeros.writeZeros (List.replicate chunk 0) calls len
          sink).ending ≠ .cut) :
    ∃ fuel run,
      writeZeros usizeMax device fuel len
          (List.replicate chunk 0) (calls, sink) =
        some run ∧
      Agrees run
        (WriteZeros.writeZeros (List.replicate chunk 0) calls
          len sink) := by
  unfold WriteZeros.writeZeros writeZeros at *
  by_cases hEmpty :
      0 < len ∧ List.replicate chunk (0 : UInt8) = []
  · simp only [if_pos hEmpty]
    exact ⟨0, _, rfl, rfl, by simp⟩
  · simp only [if_neg hEmpty] at hCut ⊢
    exact writeZerosLoop_device hFits hLen hCut

end ZeroWriter

end Guest

end CargoUnikernel
