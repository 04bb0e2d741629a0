import CargoUnikernel.Library.Bytes

/-
  Reading and writing in full, through calls that may be
  short, be interrupted, fail, or be cut off for good.

  What is in place after any number of calls is a prefix of
  what was to be written, and all of it when the writing
  ends well. Zeros written from the start leave zeros up to
  some point and the old bytes after it.

  Main declarations:
    * `Sink`, `Sink.put`, `writeAll`, `writeAll_spec`
    * `readExact`, `readExact_spec`
    * `WritesThrough`, `writeAll_of_writesThrough`
    * `ReadsThrough`, `readExact_of_readsThrough`
    * `zeroPrefix`, `zeroPrefix_zeroPrefix`
-/

------------------------------------------------------------
-- Writing
------------------------------------------------------------

namespace Streams

/- Bytes, and where the next write goes. -/
structure Sink where
  content : List UInt8
  position : Nat

/- Write at the position, over what is there. -/
def Sink.put (sink : Sink) (bytes : List UInt8) : Sink where
  content :=
    sink.content.take sink.position ++ bytes ++
      sink.content.drop (sink.position + bytes.length)
  position := sink.position + bytes.length

/- What comes of one `write`, with what it wrote. -/
inductive WriteCall
| wrote (count : Nat)
| interrupted
| failed (count : Nat)
| cut (count : Nat)

/- All is done, an error is returned, or nothing follows. -/
inductive Ending
| done
| failed
| cut
deriving DecidableEq

/- With the calls that are left. -/
structure Progress where
  ending : Ending
  sink : Sink
  calls : List WriteCall

/- Writes until nothing is left; none at all is an error. -/
def writeAll :
    List WriteCall → List UInt8 → Sink → Progress
| [], bytes, sink =>
    ⟨if bytes = [] then .done else .cut, sink, []⟩
| call :: calls, bytes, sink =>
    if bytes = [] then
      ⟨.done, sink, call :: calls⟩
    else
      match call with
      | .wrote count =>
          if count = 0 then
            ⟨.failed, sink, calls⟩
          else
            writeAll calls (bytes.drop count)
              (sink.put (bytes.take count))
      | .interrupted => writeAll calls bytes sink
      | .failed count =>
          ⟨.failed, sink.put (bytes.take count), calls⟩
      | .cut count =>
          ⟨.cut, sink.put (bytes.take count), []⟩

namespace Sink

theorem put_nil
    {sink : Sink} : sink.put [] = sink := by
  cases sink
  simp [put]

/- Two writes in turn are one. -/
theorem put_put
    {sink : Sink}
    (hPosition : sink.position ≤ sink.content.length)
    (first second : List UInt8) :
    (sink.put first).put second =
      sink.put (first ++ second) := by
  have hLength :
      (sink.content.take sink.position ++ first).length =
        sink.position + first.length := by
    rw [List.length_append, List.length_take,
      Nat.min_eq_left hPosition]
  unfold put
  simp only [List.length_append, Sink.mk.injEq]
  constructor
  · rw [List.take_left' hLength, List.drop_append,
      List.drop_eq_nil_of_le (by omega), hLength,
      List.nil_append, List.drop_drop,
      ← List.append_assoc (List.take _ _)]
    congr 2
    omega
  · omega

theorem position_put_le
    {sink : Sink}
    (hPosition : sink.position ≤ sink.content.length)
    (bytes : List UInt8) :
    (sink.put bytes).position ≤
      (sink.put bytes).content.length := by
  unfold put
  simp only [List.length_append, List.length_take,
    List.length_drop]
  omega

end Sink

/-
  What is written is a prefix, all of it at a good end; and
  of the calls, only those that were made are used up.
-/
theorem writeAll_spec
    (calls : List WriteCall) (bytes : List UInt8)
    {sink : Sink}
    (hPosition : sink.position ≤ sink.content.length) :
    ∃ count,
      (writeAll calls bytes sink).sink =
          sink.put (bytes.take count) ∧
        ((writeAll calls bytes sink).ending = .done →
          bytes.length ≤ count) := by
  induction calls generalizing bytes sink with
  | nil =>
      refine ⟨0, ?_, ?_⟩
      · rw [List.take_zero, Sink.put_nil]
        rfl
      · unfold writeAll
        split
        · rename_i hNil
          intro _
          simp [hNil]
        · intro hDone
          cases hDone
  | cons call calls ih =>
      unfold writeAll
      by_cases hNil : bytes = []
      · rw [if_pos hNil]
        refine ⟨0, ?_, ?_⟩
        · rw [List.take_zero, Sink.put_nil]
        · intro _
          simp [hNil]
      · rw [if_neg hNil]
        cases call with
        | wrote count =>
            dsimp only
            split
            · refine ⟨0, ?_, ?_⟩
              · rw [List.take_zero, Sink.put_nil]
              · intro hDone
                cases hDone
            · rcases ih (bytes.drop count)
                (sink.position_put_le hPosition _) with
                ⟨more, hSink, hDone⟩
              refine ⟨count + more, ?_, ?_⟩
              · rw [hSink, Sink.put_put hPosition,
                  ← List.take_add]
              · intro hEnding
                have hAll := hDone hEnding
                rw [List.length_drop] at hAll
                omega
        | interrupted => exact ih bytes hPosition
        | failed count =>
            refine ⟨count, rfl, ?_⟩
            intro hDone
            cases hDone
        | cut count =>
            refine ⟨count, rfl, ?_⟩
            intro hDone
            cases hDone

------------------------------------------------------------
-- Writing That Goes Well
------------------------------------------------------------

/- Writes something, or is only to be made again. -/
def WriteCall.Willing : WriteCall → Prop
| .wrote count => 0 < count
| .interrupted => True
| .failed _ => False
| .cut _ => False

instance (call : WriteCall) : Decidable call.Willing := by
  unfold WriteCall.Willing
  split <;> infer_instance

/- How many of the calls write something. -/
def writing : List WriteCall → Nat
| [] => 0
| .wrote _ :: calls => writing calls + 1
| _ :: calls => writing calls

/- No call fails, and there are enough for so many bytes. -/
structure WritesThrough
    (calls : List WriteCall) (len : Nat) : Prop where
  willing : ∀ call ∈ calls, call.Willing
  enough : len ≤ writing calls

namespace WritesThrough

theorem tail
    {call : WriteCall} {calls : List WriteCall}
    {len : Nat}
    (hThrough : WritesThrough (call :: calls) len) :
    WritesThrough calls (len - 1) where
  willing := fun other hMem =>
    hThrough.willing other (List.mem_cons_of_mem call hMem)
  enough := by
    have hEnough := hThrough.enough
    cases call <;> unfold writing at hEnough <;> omega

theorem mono
    {calls : List WriteCall} {len less : Nat}
    (hThrough : WritesThrough calls len) (hLess : less ≤ len) :
    WritesThrough calls less :=
  ⟨hThrough.willing, hLess.trans hThrough.enough⟩

end WritesThrough

/-
  All is written, and the calls that are left are enough for
  what is still to come: a call that writes takes one byte or
  more, and the others take nothing away.
-/
theorem writeAll_of_writesThrough
    {calls : List WriteCall} {bytes : List UInt8}
    {sink : Sink} {more : Nat}
    (hThrough : WritesThrough calls (bytes.length + more)) :
    (writeAll calls bytes sink).ending = .done ∧
      WritesThrough (writeAll calls bytes sink).calls
        more := by
  induction calls generalizing bytes sink with
  | nil =>
      have hNone := hThrough.enough
      unfold writing at hNone
      have hNil : bytes = [] :=
        List.eq_nil_of_length_eq_zero (by omega)
      unfold writeAll
      rw [if_pos hNil]
      exact ⟨rfl, hThrough.mono (by omega)⟩
  | cons call calls ih =>
      unfold writeAll
      by_cases hNil : bytes = []
      · rw [if_pos hNil]
        exact ⟨rfl, hThrough.mono (by omega)⟩
      · rw [if_neg hNil]
        have hBytes := List.length_pos_iff.2 hNil
        have hWilling :=
          hThrough.willing call List.mem_cons_self
        cases call with
        | wrote count =>
            have hCount : 0 < count := hWilling
            dsimp only
            rw [if_neg (by omega)]
            apply ih
            apply hThrough.tail.mono
            rw [List.length_drop]
            omega
        | interrupted =>
            exact ih
              ⟨fun other hMem =>
                hThrough.willing other
                  (List.mem_cons_of_mem _ hMem),
                hThrough.enough⟩
        | failed count => exact hWilling.elim
        | cut count => exact hWilling.elim

------------------------------------------------------------
-- Reading
------------------------------------------------------------

/- What comes of one `read`. -/
inductive ReadCall
| got (count : Nat)
| interrupted
| failed
| cut

/- Why there is no result. -/
inductive Stop
| failed
| cut
deriving DecidableEq

/- What one call gets, at most what is asked for and there. -/
def readSize
    (count left : Nat) (available : List UInt8) : Nat :=
  min (min count left) available.length

/- Reads so many bytes; the end before that is an error. -/
def readExact :
    List ReadCall → Nat → List UInt8 →
      Except Stop (List UInt8)
| [], left, _ => if left = 0 then .ok [] else .error .cut
| call :: calls, left, available =>
    if left = 0 then
      .ok []
    else
      match call with
      | .got count =>
          if readSize count left available = 0 then
            .error .failed
          else
            (readExact calls
                (left - readSize count left available)
                (available.drop
                  (readSize count left available))).map
              fun more =>
                available.take (readSize count left available) ++
                  more
      | .interrupted => readExact calls left available
      | .failed => .error .failed
      | .cut => .error .cut

/- What was read in full is there, and is what was read. -/
theorem readExact_spec
    {calls : List ReadCall} {left : Nat}
    {available bytes : List UInt8}
    (hRead : readExact calls left available = .ok bytes) :
    left ≤ available.length ∧ bytes = available.take left := by
  induction calls generalizing left available bytes with
  | nil =>
      unfold readExact at hRead
      split at hRead
      · rename_i hZero
        cases hRead
        simp [hZero]
      · cases hRead
  | cons call calls ih =>
      unfold readExact at hRead
      split at hRead
      · rename_i hZero
        cases hRead
        simp [hZero]
      · cases call with
        | got count =>
            dsimp only at hRead
            split at hRead
            · cases hRead
            · have hSize :
                  readSize count left available ≤ left ∧
                    readSize count left available ≤
                      available.length := by
                unfold readSize
                omega
              cases hMore :
                  readExact calls
                    (left - readSize count left available)
                    (available.drop
                      (readSize count left available)) with
              | error stop =>
                  rw [hMore] at hRead
                  cases hRead
              | ok more =>
                  rw [hMore] at hRead
                  cases hRead
                  rcases ih hMore with ⟨hLeft, hBytes⟩
                  rw [List.length_drop] at hLeft
                  refine ⟨by omega, ?_⟩
                  dsimp only
                  rw [hBytes, ← List.take_add]
                  congr 1
                  omega
        | interrupted => exact ih hRead
        | failed => cases hRead
        | cut => cases hRead

------------------------------------------------------------
-- Reading That Goes Well
------------------------------------------------------------

/- Gets something if there is any, or is to be made again. -/
def ReadCall.Willing : ReadCall → Prop
| .got count => 0 < count
| .interrupted => True
| .failed => False
| .cut => False

instance (call : ReadCall) : Decidable call.Willing := by
  unfold ReadCall.Willing
  split <;> infer_instance

/- How many of the calls get something. -/
def reading : List ReadCall → Nat
| [] => 0
| .got _ :: calls => reading calls + 1
| _ :: calls => reading calls

/- No call fails, and there are enough for so many bytes. -/
structure ReadsThrough
    (calls : List ReadCall) (len : Nat) : Prop where
  willing : ∀ call ∈ calls, call.Willing
  enough : len ≤ reading calls

/- All that was asked for, unless the end comes before. -/
theorem readExact_of_readsThrough
    {calls : List ReadCall} {left : Nat}
    (hThrough : ReadsThrough calls left)
    (available : List UInt8) :
    readExact calls left available =
      if left ≤ available.length then
        .ok (available.take left)
      else
        .error .failed := by
  induction calls generalizing left available with
  | nil =>
      have hNone := hThrough.enough
      unfold reading at hNone
      have hZero : left = 0 := by omega
      unfold readExact
      rw [if_pos hZero, if_pos (by omega), hZero,
        List.take_zero]
  | cons call calls ih =>
      have hMore :
          ∀ other ∈ calls, other.Willing := fun other hMem =>
        hThrough.willing other (List.mem_cons_of_mem call hMem)
      have hEnough := hThrough.enough
      have hWilling :=
        hThrough.willing call List.mem_cons_self
      unfold readExact
      by_cases hZero : left = 0
      · rw [if_pos hZero, if_pos (by omega), hZero,
          List.take_zero]
      · rw [if_neg hZero]
        cases call with
        | got count =>
            have hCount : 0 < count := hWilling
            unfold reading at hEnough
            dsimp only
            by_cases hEnd : available = []
            · subst hEnd
              have hNone : readSize count left [] = 0 := by
                unfold readSize
                rw [List.length_nil, Nat.min_zero]
              rw [if_pos hNone, if_neg]
              rw [List.length_nil]
              omega
            · have hSome := List.length_pos_iff.2 hEnd
              have hSize :
                  0 < readSize count left available ∧
                    readSize count left available ≤ left ∧
                    readSize count left available ≤
                      available.length := by
                unfold readSize
                omega
              generalize
                readSize count left available = size at hSize
              rw [if_neg (by omega),
                ih ⟨hMore, by omega⟩, List.length_drop]
              by_cases hAll : left ≤ available.length
              · rw [if_pos hAll, if_pos (by omega)]
                dsimp only [Except.map]
                rw [← List.take_add]
                congr 2
                omega
              · rw [if_neg hAll, if_neg (by omega)]
                rfl
        | interrupted => exact ih ⟨hMore, hEnough⟩ available
        | failed => exact hWilling.elim
        | cut => exact hWilling.elim

------------------------------------------------------------
-- Zeros from the Start
------------------------------------------------------------

/- The bytes with so many of the first ones zero. -/
def zeroPrefix (count : Nat) (content : List UInt8) :
    List UInt8 :=
  List.replicate (min count content.length) 0 ++
    content.drop count

@[simp] theorem length_zeroPrefix
    (count : Nat) (content : List UInt8) :
    (zeroPrefix count content).length = content.length := by
  unfold zeroPrefix
  rw [List.length_append, List.length_replicate,
    List.length_drop]
  omega

@[simp] theorem zeroPrefix_zero (content : List UInt8) :
    zeroPrefix 0 content = content := by
  simp [zeroPrefix]

theorem zeroPrefix_of_le
    {count : Nat} {content : List UInt8}
    (hAll : content.length ≤ count) :
    zeroPrefix count content =
      List.replicate content.length 0 := by
  unfold zeroPrefix
  rw [Nat.min_eq_right hAll, List.drop_eq_nil_of_le hAll,
    List.append_nil]

theorem getElem?_zeroPrefix
    (count : Nat) (content : List UInt8) (i : Nat) :
    (zeroPrefix count content)[i]? =
      if i < count then
        content[i]?.map fun _ => 0
      else
        content[i]? := by
  unfold zeroPrefix
  rw [List.getElem?_append, List.length_replicate,
    List.getElem?_replicate, List.getElem?_drop]
  by_cases hInside : i < content.length
  · rw [List.getElem?_eq_getElem hInside]
    by_cases hZero : i < count
    · rw [if_pos (by omega), if_pos (by omega), if_pos hZero]
      rfl
    · rw [if_neg (by omega), if_neg hZero,
        ← List.getElem?_eq_getElem hInside]
      congr 1
      omega
  · rw [if_neg (by omega),
      List.getElem?_eq_none (by omega),
      List.getElem?_eq_none (by omega)]
    simp

/- Starting over zeroes as far as the farther of the two. -/
theorem zeroPrefix_zeroPrefix
    (more count : Nat) (content : List UInt8) :
    zeroPrefix more (zeroPrefix count content) =
      zeroPrefix (max more count) content := by
  apply List.ext_getElem?
  intro i
  simp only [getElem?_zeroPrefix]
  by_cases hMore : i < more
  · by_cases hCount : i < count
    · rw [if_pos hMore, if_pos hCount, if_pos (by omega),
        Option.map_map]
      rfl
    · rw [if_pos hMore, if_neg hCount, if_pos (by omega)]
  · by_cases hCount : i < count
    · rw [if_neg hMore, if_pos hCount, if_pos (by omega)]
    · rw [if_neg hMore, if_neg hCount, if_neg (by omega)]

/- What is after the zeros is as it was. -/
theorem drop_zeroPrefix
    {count start : Nat} (hAfter : count ≤ start)
    (content : List UInt8) :
    (zeroPrefix count content).drop start =
      content.drop start := by
  apply List.ext_getElem?
  intro i
  rw [List.getElem?_drop, List.getElem?_drop,
    getElem?_zeroPrefix, if_neg (by omega)]

/- Zeros put at the start leave such a prefix. -/
theorem content_put_zeros
    {count : Nat} {content : List UInt8}
    (hCount : count ≤ content.length) :
    (Sink.put ⟨content, 0⟩ (List.replicate count 0)).content =
      zeroPrefix count content := by
  unfold Sink.put zeroPrefix
  simp only [List.take_zero, List.nil_append,
    List.length_replicate, Nat.zero_add,
    Nat.min_eq_left hCount]

end Streams
