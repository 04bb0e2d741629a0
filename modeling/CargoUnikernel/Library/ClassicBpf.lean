import Mathlib.Tactic.Common
import Mathlib.Data.List.Basic

/-
  Programs of the classic packet filter.

  A program is run on words that it loads by their offset.
  Jumps go forward only, counted from the next instruction,
  so a run is structural on what is left of the program. It
  ends at a return, or falls off the end.

  Main declarations:
    * `SockFilter`, `run`
    * `checked`, `exists_run`
-/

------------------------------------------------------------
-- Instructions
------------------------------------------------------------

namespace ClassicBpf

/- `struct sock_filter`. -/
structure SockFilter where
  code : UInt16
  jt : UInt8
  jf : UInt8
  k : UInt32
deriving DecidableEq

/- The classes, sizes, modes and operators of an opcode. -/
def bpfLd : UInt16 := 0x00
def bpfW : UInt16 := 0x00
def bpfAbs : UInt16 := 0x20
def bpfJmp : UInt16 := 0x05
def bpfJa : UInt16 := 0x00
def bpfJeq : UInt16 := 0x10
def bpfJgt : UInt16 := 0x20
def bpfJge : UInt16 := 0x30
def bpfJset : UInt16 := 0x40
def bpfK : UInt16 := 0x00
def bpfRet : UInt16 := 0x06

/- What an instruction does, with its operand. -/
inductive Insn
| load (offset : UInt32)
| jump (skip : UInt32)
| branch (test : UInt32 → Bool) (jt jf : UInt8)
| ret (value : UInt32)

/- Only what the checker accepts has a meaning here. -/
def SockFilter.decode (insn : SockFilter) : Option Insn :=
  if insn.code = bpfLd ||| bpfW ||| bpfAbs then
    some (.load insn.k)
  else if insn.code = bpfJmp ||| bpfJa then
    some (.jump insn.k)
  else if insn.code = bpfJmp ||| bpfJeq ||| bpfK then
    some (.branch (fun a => a = insn.k) insn.jt insn.jf)
  else if insn.code = bpfJmp ||| bpfJgt ||| bpfK then
    some (.branch (fun a => a > insn.k) insn.jt insn.jf)
  else if insn.code = bpfJmp ||| bpfJge ||| bpfK then
    some (.branch (fun a => a ≥ insn.k) insn.jt insn.jf)
  else if insn.code = bpfJmp ||| bpfJset ||| bpfK then
    some
      (.branch (fun a => a &&& insn.k ≠ 0) insn.jt insn.jf)
  else if insn.code = bpfRet ||| bpfK then
    some (.ret insn.k)
  else
    none

------------------------------------------------------------
-- Runs
------------------------------------------------------------

/-
  With so many instructions to skip first. There is no result
  where it falls off, loads what is not there, or comes to
  what is no instruction.
-/
def run (word : UInt32 → Option UInt32) :
    List SockFilter → Nat → UInt32 → Option UInt32
| [], _, _ => none
| _ :: rest, skip + 1, a => run word rest skip a
| insn :: rest, 0, a =>
    match insn.decode with
    | none => none
    | some (.load offset) =>
        match word offset with
        | none => none
        | some value => run word rest 0 value
    | some (.jump skip) => run word rest skip.toNat a
    | some (.branch test jt jf) =>
        run word rest (if test a then jt else jf).toNat a
    | some (.ret value) => some value

section

variable (word : UInt32 → Option UInt32)
variable (k : UInt32) (jt jf : UInt8)
variable (insn : SockFilter) (rest : List SockFilter)
variable (a : UInt32)

@[simp] theorem decode_load :
    SockFilter.decode
        ⟨bpfLd ||| bpfW ||| bpfAbs, jt, jf, k⟩ =
      some (.load k) :=
  rfl

@[simp] theorem decode_jeq :
    SockFilter.decode
        ⟨bpfJmp ||| bpfJeq ||| bpfK, jt, jf, k⟩ =
      some (.branch (fun a => a = k) jt jf) :=
  rfl

@[simp] theorem decode_jge :
    SockFilter.decode
        ⟨bpfJmp ||| bpfJge ||| bpfK, jt, jf, k⟩ =
      some (.branch (fun a => a ≥ k) jt jf) :=
  rfl

@[simp] theorem decode_ret :
    SockFilter.decode ⟨bpfRet ||| bpfK, jt, jf, k⟩ =
      some (.ret k) :=
  rfl

@[simp] theorem run_skip (skip : Nat) :
    run word (insn :: rest) (skip + 1) a =
      run word rest skip a :=
  rfl

@[simp] theorem run_load :
    run word (⟨bpfLd ||| bpfW ||| bpfAbs, jt, jf, k⟩ :: rest)
        0 a =
      (word k).bind (run word rest 0) := by
  rw [run, decode_load]
  dsimp only
  cases hWord : word k with
  | none => rw [Option.bind_none]
  | some value => rw [Option.bind_some]

@[simp] theorem run_jeq :
    run word (⟨bpfJmp ||| bpfJeq ||| bpfK, jt, jf, k⟩ :: rest)
        0 a =
      run word rest (if a = k then jt else jf).toNat a := by
  rw [run, decode_jeq]
  simp only [decide_eq_true_eq]

@[simp] theorem run_jge :
    run word (⟨bpfJmp ||| bpfJge ||| bpfK, jt, jf, k⟩ :: rest)
        0 a =
      run word rest (if a ≥ k then jt else jf).toNat a := by
  rw [run, decode_jge]
  simp only [decide_eq_true_eq]

@[simp] theorem run_ret :
    run word (⟨bpfRet ||| bpfK, jt, jf, k⟩ :: rest) 0 a =
      some k :=
  rfl

end

/-
  Every load is of a word that is there, every jump leads to
  an instruction, and what does not jump is followed by one.
-/
def checked (word : UInt32 → Bool) :
    List SockFilter → Bool
| [] => true
| insn :: rest =>
    (match insn.decode with
      | none => false
      | some (.load offset) => word offset && !rest.isEmpty
      | some (.jump skip) => skip.toNat < rest.length
      | some (.branch _ jt jf) =>
          jt.toNat < rest.length && jf.toNat < rest.length
      | some (.ret _) => true) &&
      checked word rest

/- A program that passes the check ends at a return. -/
theorem exists_run
    {word : UInt32 → Option UInt32} {there : UInt32 → Bool}
    (hWord : ∀ offset, there offset → (word offset).isSome)
    {program : List SockFilter}
    (hChecked : checked there program = true)
    {skip : Nat} (hSkip : skip < program.length)
    (a : UInt32) :
    ∃ value, run word program skip a = some value := by
  induction program generalizing skip a with
  | nil =>
      rw [List.length_nil] at hSkip
      omega
  | cons insn rest ih =>
      rw [List.length_cons] at hSkip
      unfold checked at hChecked
      rw [Bool.and_eq_true] at hChecked
      rcases hChecked with ⟨hInsn, hRest⟩
      cases skip with
      | succ skip => exact ih hRest (by omega) a
      | zero =>
          unfold run
          cases hDecode : insn.decode with
          | none =>
              rw [hDecode] at hInsn
              cases hInsn
          | some decoded =>
              rw [hDecode] at hInsn
              cases decoded with
              | load offset =>
                  dsimp only at hInsn ⊢
                  rw [Bool.and_eq_true] at hInsn
                  rcases Option.isSome_iff_exists.1
                    (hWord offset hInsn.1) with
                    ⟨value, hValue⟩
                  have hNext : 0 < rest.length := by
                    cases rest with
                    | nil => simp at hInsn
                    | cons next rest => simp
                  rw [hValue]
                  exact ih hRest hNext value
              | jump skip =>
                  exact ih hRest (of_decide_eq_true hInsn) a
              | branch test jt jf =>
                  dsimp only at hInsn ⊢
                  rw [Bool.and_eq_true] at hInsn
                  apply ih hRest
                  split
                  · exact of_decide_eq_true hInsn.1
                  · exact of_decide_eq_true hInsn.2
              | ret value => exact ⟨value, rfl⟩

end ClassicBpf
