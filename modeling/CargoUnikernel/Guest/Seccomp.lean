import CargoUnikernel.Library.ClassicBpf
import CargoUnikernel.Library.Text
import Mathlib.Data.UInt

/-
  The two filters on the app's system calls, stacked.

  The first one kills what does not come by the 64-bit calls,
  the second one kills what is listed. The kernel runs both
  and takes the most restrictive result.

  Main declarations:
    * `archGateProgram`, `run_archGateProgram`
    * `buildBaselineDenylist`, `installBaselineDenylist`
    * `Seccompiler`, `Documented`
    * `stacked_verdict`
-/

------------------------------------------------------------
-- What a Filter Sees
------------------------------------------------------------

namespace CargoUnikernel

namespace Guest

namespace Seccomp

open ClassicBpf

/- `struct seccomp_data`. -/
structure SeccompData where
  nr : UInt32
  arch : UInt32
  instructionPointer : UInt64
  args : Vector UInt64 6

/- The two words of a 64-bit value, the low one first. -/
def halves (value : UInt64) : List UInt32 :=
  [value.toUInt32, (value >>> 32).toUInt32]

namespace SeccompData

/- The sixteen words that a filter can load. -/
def words (data : SeccompData) : List UInt32 :=
  [data.nr, data.arch] ++ halves data.instructionPointer ++
    data.args.toList.flatMap halves

/- The word at an offset, where one starts there. -/
def word (data : SeccompData) (offset : UInt32) :
    Option UInt32 :=
  if offset.toNat % 4 = 0 then
    data.words[offset.toNat / 4]?
  else
    none

end SeccompData

/- An aligned word of the sixteen. -/
def isWord (offset : UInt32) : Bool :=
  offset.toNat % 4 = 0 && offset.toNat / 4 < 16

/- Where the number and the architecture are. -/
def seccompDataNrOffset : UInt32 := 0
def seccompDataArchOffset : UInt32 := 4

/- The architecture, and the bit of its other ABI. -/
def auditArchX8664 : UInt32 := 0xC000003E
def x32SyscallBit : UInt32 := 0x40000000

/- The two answers of a filter. -/
def seccompRetAllow : UInt32 := 0x7fff0000
def seccompRetKillProcess : UInt32 := 0x80000000

------------------------------------------------------------
-- The Gate
------------------------------------------------------------

/- A filter, as the kernel takes it. -/
abbrev Program := List SockFilter

/- Kills what is not native, and allows the rest. -/
def archGateProgram : Program :=
  [{ code := bpfLd ||| bpfW ||| bpfAbs
     jt := 0
     jf := 0
     k := seccompDataArchOffset },
   { code := bpfJmp ||| bpfJeq ||| bpfK
     jt := 0
     jf := 3
     k := auditArchX8664 },
   { code := bpfLd ||| bpfW ||| bpfAbs
     jt := 0
     jf := 0
     k := seccompDataNrOffset },
   { code := bpfJmp ||| bpfJge ||| bpfK
     jt := 1
     jf := 0
     k := x32SyscallBit },
   { code := bpfRet ||| bpfK
     jt := 0
     jf := 0
     k := seccompRetAllow },
   { code := bpfRet ||| bpfK
     jt := 0
     jf := 0
     k := seccompRetKillProcess }]

------------------------------------------------------------
-- The Denylist
------------------------------------------------------------

/- The system calls that the lists name. -/
inductive Syscall
| ptrace
| processVmReadv
| processVmWritev
| initModule
| finitModule
| deleteModule
| kexecLoad
| kexecFileLoad
| mount
| umount2
| pivotRoot
| fsopen
| fsconfig
| fsmount
| moveMount
| openTree
| mountSetattr
| openByHandleAt
| swapon
| swapoff
| reboot
| iopl
| ioperm
| acct
| addKey
| requestKey
| keyctl
| personality
| bpf
| ioUringSetup
| ioUringEnter
| ioUringRegister
| unshare
| setns
| perfEventOpen
| userfaultfd
| kcmp
| movePages
| settimeofday
| clockSettime
| clockAdjtime
| adjtimex
| syslog
| modifyLdt
| uselib
| quotactl
| pidfdGetfd
| processMadvise
| memfdCreate
| memfdSecret
deriving DecidableEq

/- Files in memory could be executed. -/
def writeExecuteSyscalls
    (dangerAllowWriteExecute : Bool) : List Syscall :=
  if dangerAllowWriteExecute then
    []
  else
    [.memfdCreate, .memfdSecret]

/- What no app has a use for. -/
def baselineSyscalls : List Syscall :=
  [.ptrace, .processVmReadv, .processVmWritev, .initModule,
   .finitModule, .deleteModule, .kexecLoad, .kexecFileLoad,
   .mount, .umount2, .pivotRoot, .fsopen, .fsconfig, .fsmount,
   .moveMount, .openTree, .mountSetattr, .openByHandleAt,
   .swapon, .swapoff, .reboot, .iopl, .ioperm, .acct, .addKey,
   .requestKey, .keyctl, .personality, .bpf, .ioUringSetup,
   .ioUringEnter, .ioUringRegister, .unshare, .setns,
   .perfEventOpen, .userfaultfd, .kcmp, .movePages,
   .settimeofday, .clockSettime, .clockAdjtime, .adjtimex,
   .syslog, .modifyLdt, .uselib, .quotactl, .pidfdGetfd,
   .processMadvise]

/- What a filter does to a call. -/
inductive SeccompAction
| allow
| killProcess
deriving DecidableEq

/- As the kernel is told. -/
def SeccompAction.ret : SeccompAction → UInt32
| .allow => seccompRetAllow
| .killProcess => seccompRetKillProcess

/- The only architecture that is built for. -/
inductive TargetArch
| x8664

/-
  The crate that compiles filters: a number with no rules of
  its own matches whatever the arguments are.
-/
structure Seccompiler where
  Rule : Type
  Filter : Type
  new :
    List (Int × List Rule) → SeccompAction → SeccompAction →
      TargetArch → Except Text Filter
  tryFrom : Filter → Except Text Program

/- Why there is no program. -/
inductive Fatal
| buildFilter (error : Text)
| compile (error : Text)

/- Every listed number is killed, by the crate's filter. -/
def buildBaselineDenylist
    (crate : Seccompiler) (libc : Syscall → Int)
    (dangerAllowWriteExecute : Bool) :
    Except Fatal Program :=
  let rules :=
    (baselineSyscalls ++
        writeExecuteSyscalls dangerAllowWriteExecute).map
      fun nr => (libc nr, ([] : List crate.Rule))
  match crate.new rules .allow .killProcess .x8664 with
  | .error e => .error (.buildFilter e)
  | .ok filter =>
      match crate.tryFrom filter with
      | .error e => .error (.compile e)
      | .ok program => .ok program

------------------------------------------------------------
-- The Kernel
------------------------------------------------------------

/- The filters of a process, the newest one first. -/
abbrev Filters := List Program

/- Why the kernel attaches no filter. -/
inductive Errno
| einval

/- A program that does not pass the check is refused. -/
def attach (program : Program) (filters : Filters) :
    Except Errno Filters :=
  if checked isWord program then
    .ok (program :: filters)
  else
    .error .einval

/- The gate is attached first. -/
def installArchGate (filters : Filters) :
    Except Errno Filters :=
  attach archGateProgram filters

/- Then the crate's program. -/
def installBaselineDenylist
    (program : Program) (filters : Filters) :
    Except Errno Filters := do
  let filters ← installArchGate filters
  attach program filters

/- The action, without the data that comes with it. -/
def action (ret : UInt32) : UInt32 :=
  ret &&& 0xffff0000

/- The action as the kernel compares it: less is stricter. -/
def actionOnly (ret : UInt32) : Int :=
  (action ret).toInt32.toInt

/- The answer with the higher precedence. -/
def strictest (ret cur : UInt32) : UInt32 :=
  if actionOnly cur < actionOnly ret then cur else ret

/- All of them are run, and the strictest result is kept. -/
def runFiltersFrom (data : SeccompData) :
    UInt32 → Filters → Option UInt32
| ret, [] => some ret
| ret, program :: older =>
    match run data.word program 0 0 with
    | none => none
    | some cur =>
        runFiltersFrom data (strictest ret cur) older

/- All filters run, and the strictest answer counts. -/
def runFilters
    (filters : Filters) (data : SeccompData) :
    Option UInt32 :=
  runFiltersFrom data seccompRetAllow filters

------------------------------------------------------------
-- Each Filter Alone
------------------------------------------------------------

namespace SeccompData

@[simp] theorem length_words (data : SeccompData) :
    data.words.length = 16 := by
  rcases data with ⟨nr, arch, instructionPointer, args⟩
  simp [words, halves]

/- What the checker lets through can be loaded. -/
theorem word_isSome
    (data : SeccompData) {offset : UInt32}
    (hWord : isWord offset = true) :
    (data.word offset).isSome = true := by
  unfold isWord at hWord
  simp only [Bool.and_eq_true, decide_eq_true_eq] at hWord
  unfold word
  rw [if_pos hWord.1, List.getElem?_eq_getElem
    (by rw [length_words]; exact hWord.2)]
  rfl

@[simp] theorem word_nrOffset (data : SeccompData) :
    data.word seccompDataNrOffset = some data.nr :=
  rfl

@[simp] theorem word_archOffset (data : SeccompData) :
    data.word seccompDataArchOffset = some data.arch :=
  rfl

end SeccompData

/- A program that is attached comes to a result. -/
theorem exists_run_of_checked
    {program : Program}
    (hChecked : checked isWord program = true)
    (hSome : program ≠ []) (data : SeccompData) :
    ∃ ret, run data.word program 0 0 = some ret := by
  apply exists_run _ hChecked
  · exact List.length_pos_iff.2 hSome
  · intro offset hOffset
    exact data.word_isSome hOffset

/- The gate passes the checker. -/
theorem checked_archGateProgram :
    checked isWord archGateProgram = true := by
  decide

/- The calls that the gate lets through. -/
def IsNative (data : SeccompData) : Prop :=
  data.arch = auditArchX8664 ∧ data.nr < x32SyscallBit

instance (data : SeccompData) : Decidable (IsNative data) :=
  inferInstanceAs (Decidable (_ ∧ _))

/- What the gate answers, by the architecture. -/
theorem run_archGateProgram (data : SeccompData) :
    run data.word archGateProgram 0 0 =
      some
        (if IsNative data then
          seccompRetAllow
        else
          seccompRetKillProcess) := by
  have hLoads :
      run data.word archGateProgram 0 0 =
        if data.arch = auditArchX8664 then
          if data.nr ≥ x32SyscallBit then
            some seccompRetKillProcess
          else
            some seccompRetAllow
        else
          some seccompRetKillProcess := by
    unfold archGateProgram
    rw [run_load, SeccompData.word_archOffset,
      Option.bind_some, run_jeq]
    by_cases hArch : data.arch = auditArchX8664
    · rw [if_pos hArch, if_pos hArch]
      apply (run_load ..).trans
      rw [SeccompData.word_nrOffset, Option.bind_some,
        run_jge]
      by_cases hX32 : data.nr ≥ x32SyscallBit
      · rw [if_pos hX32, if_pos hX32]
        rfl
      · rw [if_neg hX32, if_neg hX32]
        rfl
    · rw [if_neg hArch, if_neg hArch]
      rfl
  rw [hLoads]
  by_cases hArch : data.arch = auditArchX8664
  · by_cases hX32 : data.nr < x32SyscallBit
    · have hNative : IsNative data := ⟨hArch, hX32⟩
      rw [if_pos hArch, if_neg (UInt32.not_le.2 hX32),
        if_pos hNative]
    · have hNative : ¬IsNative data := fun h => hX32 h.2
      rw [if_pos hArch, if_pos (UInt32.not_lt.1 hX32),
        if_neg hNative]
  · have hNative : ¬IsNative data := fun h => hArch h.1
    rw [if_neg hArch, if_neg hNative]

------------------------------------------------------------
-- Both Filters
------------------------------------------------------------

/- The calls whose number is among those. -/
def Listed (numbers : List Int) (data : SeccompData) : Prop :=
  (data.nr.toNat : Int) ∈ numbers

instance (numbers : List Int) (data : SeccompData) :
    Decidable (Listed numbers data) :=
  inferInstanceAs (Decidable (_ ∈ _))

/-
  What the crate promises: a program that the kernel takes,
  which on `x86_64` kills exactly the numbers it was given.
-/
structure Documented (crate : Seccompiler) : Prop where
  checked :
    ∀ rules filter program,
      crate.new rules .allow .killProcess .x8664 =
        .ok filter →
      crate.tryFrom filter = .ok program →
      checked isWord program = true ∧ program ≠ []
  listed :
    ∀ rules filter program,
      crate.new rules .allow .killProcess .x8664 =
        .ok filter →
      crate.tryFrom filter = .ok program →
      (∀ rule ∈ rules, rule.2 = []) →
      ∀ data : SeccompData,
        data.arch = auditArchX8664 →
        run data.word program 0 0 =
          some
            (if Listed (rules.map Prod.fst) data then
              SeccompAction.killProcess.ret
            else
              SeccompAction.allow.ret)

/- The numbers that are killed. -/
def deniedNumbers
    (libc : Syscall → Int) (dangerAllowWriteExecute : Bool) :
    List Int :=
  (baselineSyscalls ++
    writeExecuteSyscalls dangerAllowWriteExecute).map libc

/- The crate's program, as it is documented. -/
theorem buildBaselineDenylist_spec
    {crate : Seccompiler} (hCrate : Documented crate)
    {libc : Syscall → Int} {dangerAllowWriteExecute : Bool}
    {program : Program}
    (hBuild :
      buildBaselineDenylist crate libc
          dangerAllowWriteExecute =
        .ok program) :
    (checked isWord program = true ∧ program ≠ []) ∧
      ∀ data : SeccompData,
        data.arch = auditArchX8664 →
        run data.word program 0 0 =
          some
            (if
                Listed
                  (deniedNumbers libc
                    dangerAllowWriteExecute)
                  data then
              seccompRetKillProcess
            else
              seccompRetAllow) := by
  unfold buildBaselineDenylist at hBuild
  dsimp only at hBuild
  split at hBuild
  · cases hBuild
  · rename_i filter hNew
    split at hBuild
    · cases hBuild
    · rename_i compiled hCompile
      rcases Except.ok.inj hBuild with rfl
      refine ⟨hCrate.checked _ _ _ hNew hCompile, ?_⟩
      intro data hArch
      have hRun :=
        hCrate.listed _ _ _ hNew hCompile
          (by
            intro rule hRule
            rcases List.mem_map.1 hRule with ⟨nr, _, rfl⟩
            rfl)
          data hArch
      rw [List.map_map] at hRun
      exact hRun

/- What is kept is as strict as either. -/
theorem actionOnly_strictest (ret cur : UInt32) :
    actionOnly (strictest ret cur) =
      min (actionOnly ret) (actionOnly cur) := by
  unfold strictest
  split
  · omega
  · omega

/- Nothing is stricter than killing the process. -/
theorem actionOnly_kill_le (ret : UInt32) :
    actionOnly seccompRetKillProcess ≤ actionOnly ret :=
  (action ret).toInt32.minValue_le_toInt

/- The data of an answer do not matter. -/
theorem action_eq_of_actionOnly
    {ret other : UInt32}
    (hSame : actionOnly ret = actionOnly other) :
    action ret = action other :=
  congrArg Int32.toUInt32 (Int32.toInt.inj hSame)

/- Two filters, each of which comes to a result. -/
theorem runFilters_pair
    {data : SeccompData} {first second : Program}
    {gate deny : UInt32}
    (hGate : run data.word first 0 0 = some gate)
    (hDeny : run data.word second 0 0 = some deny) :
    ∃ verdict,
      runFilters [second, first] data = some verdict ∧
        actionOnly verdict =
          min (min (actionOnly seccompRetAllow)
              (actionOnly deny))
            (actionOnly gate) := by
  refine
    ⟨strictest (strictest seccompRetAllow deny) gate, ?_, ?_⟩
  · unfold runFilters runFiltersFrom
    rw [hDeny]
    dsimp only
    unfold runFiltersFrom
    rw [hGate]
    rfl
  · rw [actionOnly_strictest, actionOnly_strictest]

/- Killed by one of the two is killed. -/
theorem action_kill_of_min
    {verdict gate deny : UInt32}
    (hVerdict :
      actionOnly verdict =
        min (min (actionOnly seccompRetAllow)
            (actionOnly deny))
          (actionOnly gate))
    (hKill :
      gate = seccompRetKillProcess ∨
        deny = seccompRetKillProcess) :
    action verdict = seccompRetKillProcess := by
  have hLeast := actionOnly_kill_le verdict
  have hSame :
      actionOnly verdict =
        actionOnly seccompRetKillProcess := by
    rcases hKill with rfl | rfl
    · omega
    · omega
  exact action_eq_of_actionOnly hSame

/- The kernel takes what passes the checker. -/
theorem attach_of_checked
    {program : Program}
    (hChecked : checked isWord program = true)
    (filters : Filters) :
    attach program filters = .ok (program :: filters) :=
  if_pos hChecked

/- Both programs are attached, the crate's on top. -/
theorem install_eq
    {program : Program}
    (hChecked : checked isWord program = true) :
    installBaselineDenylist program [] =
      .ok [program, archGateProgram] := by
  unfold installBaselineDenylist installArchGate
  rw [attach_of_checked checked_archGateProgram]
  exact attach_of_checked hChecked _

/-
  Both filters go in, and of all the calls there are, they let
  through the ones of the 64-bit interface that are not listed
  and kill the process at any other.
-/
theorem stacked_verdict
    {crate : Seccompiler} (hCrate : Documented crate)
    (libc : Syscall → Int) (dangerAllowWriteExecute : Bool)
    {program : Program}
    (hBuild :
      buildBaselineDenylist crate libc
          dangerAllowWriteExecute =
        .ok program)
    (data : SeccompData) :
    ∃ gate filters verdict,
      run data.word archGateProgram 0 0 = some gate ∧
        installBaselineDenylist program [] = .ok filters ∧
        runFilters filters data = some verdict ∧
        (action verdict = seccompRetAllow ↔
          data.arch = auditArchX8664 ∧
            data.nr < 0x40000000 ∧
            ∀ nr ∈
                baselineSyscalls ++
                  writeExecuteSyscalls
                    dangerAllowWriteExecute,
              libc nr ≠ data.nr.toNat) ∧
        (action verdict ≠ seccompRetAllow →
          action verdict = seccompRetKillProcess) := by
  rcases buildBaselineDenylist_spec hCrate hBuild with
    ⟨⟨hChecked, hSome⟩, hListed⟩
  rcases exists_run_of_checked hChecked hSome data with
    ⟨deny, hDeny⟩
  have hGate := run_archGateProgram data
  rcases runFilters_pair hGate hDeny with
    ⟨verdict, hRun, hLeast⟩
  refine
    ⟨_, _, verdict, hGate, install_eq hChecked, hRun, ?_⟩
  have hKilled :
      (IsNative data →
        Listed (deniedNumbers libc dangerAllowWriteExecute)
          data) →
        action verdict = seccompRetKillProcess := by
    intro hBad
    apply action_kill_of_min hLeast
    by_cases hNative : IsNative data
    · right
      have hHere := hListed data hNative.1
      rw [hDeny, if_pos (hBad hNative)] at hHere
      exact Option.some.inj hHere
    · left
      rw [if_neg hNative]
  have hAllowed :
      IsNative data →
        ¬Listed (deniedNumbers libc dangerAllowWriteExecute)
          data →
        action verdict = seccompRetAllow := by
    intro hNative hFree
    have hHere := hListed data hNative.1
    rw [hDeny, if_neg hFree] at hHere
    rw [if_pos hNative, Option.some.inj hHere, Int.min_self,
      Int.min_self] at hLeast
    exact action_eq_of_actionOnly hLeast
  have hFree :
      ¬Listed (deniedNumbers libc dangerAllowWriteExecute)
          data ↔
        ∀ nr ∈
            baselineSyscalls ++
              writeExecuteSyscalls dangerAllowWriteExecute,
          libc nr ≠ data.nr.toNat := by
    unfold Listed deniedNumbers
    rw [List.mem_map]
    push Not
    exact Iff.rfl
  have hOther : seccompRetKillProcess ≠ seccompRetAllow := by
    decide
  rw [← hFree]
  constructor
  · constructor
    · intro hAllow
      by_contra hBad
      apply hOther
      rw [← hAllow, hKilled]
      intro hNative
      by_contra hNot
      exact hBad ⟨hNative.1, hNative.2, hNot⟩
    · intro hGood
      exact hAllowed ⟨hGood.1, hGood.2.1⟩ hGood.2.2
  · intro hNot
    apply hKilled
    intro hNative
    by_contra hUnlisted
    exact hNot (hAllowed hNative hUnlisted)

------------------------------------------------------------
-- A Crate That Keeps Its Promise
------------------------------------------------------------

/- The numbers on `x86_64`. -/
def x8664Number : Syscall → Int
| .ptrace => 101
| .processVmReadv => 310
| .processVmWritev => 311
| .initModule => 175
| .finitModule => 313
| .deleteModule => 176
| .kexecLoad => 246
| .kexecFileLoad => 320
| .mount => 165
| .umount2 => 166
| .pivotRoot => 155
| .fsopen => 430
| .fsconfig => 431
| .fsmount => 432
| .moveMount => 429
| .openTree => 428
| .mountSetattr => 442
| .openByHandleAt => 304
| .swapon => 167
| .swapoff => 168
| .reboot => 169
| .iopl => 172
| .ioperm => 173
| .acct => 163
| .addKey => 248
| .requestKey => 249
| .keyctl => 250
| .personality => 135
| .bpf => 321
| .ioUringSetup => 425
| .ioUringEnter => 426
| .ioUringRegister => 427
| .unshare => 272
| .setns => 308
| .perfEventOpen => 298
| .userfaultfd => 323
| .kcmp => 312
| .movePages => 279
| .settimeofday => 164
| .clockSettime => 227
| .clockAdjtime => 305
| .adjtimex => 159
| .syslog => 103
| .modifyLdt => 154
| .uselib => 134
| .quotactl => 179
| .pidfdGetfd => 438
| .processMadvise => 440
| .memfdCreate => 319
| .memfdSecret => 447
/- One test for each number, and the other action at last. -/
def listedTests : List Int → Program
| [] => [⟨bpfRet ||| bpfK, 0, 0, seccompRetAllow⟩]
| nr :: numbers =>
    ⟨bpfJmp ||| bpfJeq ||| bpfK, 0, 1,
      UInt32.ofNat nr.toNat⟩ ::
      ⟨bpfRet ||| bpfK, 0, 0, seccompRetKillProcess⟩ ::
        listedTests numbers

/- A program that kills the listed calls. -/
def listedProgram (numbers : List Int) : Program :=
  ⟨bpfLd ||| bpfW ||| bpfAbs, 0, 0,
      seccompDataArchOffset⟩ ::
    ⟨bpfJmp ||| bpfJeq ||| bpfK, 1, 0, auditArchX8664⟩ ::
      ⟨bpfRet ||| bpfK, 0, 0, seccompRetKillProcess⟩ ::
        ⟨bpfLd ||| bpfW ||| bpfAbs, 0, 0,
            seccompDataNrOffset⟩ ::
          listedTests numbers

/- A crate that compiles lists of numbers. -/
def plainCrate : Seccompiler where
  Rule := Unit
  Filter := List Int
  new rules mismatchAction matchAction _ :=
    let numbers := rules.map Prod.fst
    if mismatchAction = .allow ∧ matchAction = .killProcess ∧
        numbers.all fun nr => 0 ≤ nr ∧ nr < 2 ^ 32 then
      .ok numbers
    else
      .error "unsupported".toList
  tryFrom numbers := .ok (listedProgram numbers)

/- Two instructions for each number, and the last. -/
theorem length_listedTests (numbers : List Int) :
    (listedTests numbers).length = 2 * numbers.length + 1 := by
  induction numbers with
  | nil => rfl
  | cons nr numbers ih =>
      unfold listedTests
      simp only [List.length_cons, ih]
      omega

/- Every jump stays in the program. -/
theorem checked_listedTests (numbers : List Int) :
    checked isWord (listedTests numbers) = true := by
  induction numbers with
  | nil => rfl
  | cons nr numbers ih =>
      have hLength := length_listedTests numbers
      unfold listedTests checked
      rw [decode_jeq]
      unfold checked
      rw [decode_ret, ih]
      simp [hLength]

/- By induction on the numbers. -/
theorem run_listedTests
    {numbers : List Int}
    (hRange : ∀ nr ∈ numbers, 0 ≤ nr ∧ nr < 2 ^ 32)
    (data : SeccompData) :
    run data.word (listedTests numbers) 0 data.nr =
      some
        (if Listed numbers data then
          seccompRetKillProcess
        else
          seccompRetAllow) := by
  induction numbers with
  | nil => rfl
  | cons nr numbers ih =>
      have hMore := ih fun other hMem =>
        hRange other (List.mem_cons_of_mem nr hMem)
      have hNr := hRange nr List.mem_cons_self
      have hSame :
          data.nr = UInt32.ofNat nr.toNat ↔
            (data.nr.toNat : Int) = nr := by
        rw [← UInt32.toNat_inj, UInt32.toNat_ofNat',
          Nat.mod_eq_of_lt (by omega)]
        omega
      unfold listedTests
      rw [run_jeq]
      by_cases hHere : data.nr = UInt32.ofNat nr.toNat
      · have hListed : Listed (nr :: numbers) data := by
          unfold Listed
          rw [hSame.1 hHere]
          exact List.mem_cons_self
        rw [if_pos hHere, if_pos hListed]
        rfl
      · have hListed :
            Listed (nr :: numbers) data ↔
              Listed numbers data := by
          unfold Listed
          rw [List.mem_cons]
          apply or_iff_right
          intro hEq
          exact hHere (hSame.2 hEq)
        rw [if_neg hHere]
        apply (run_skip ..).trans
        rw [hMore]
        simp only [hListed]

/- Native calls are judged by their number. -/
theorem run_listedProgram
    {numbers : List Int}
    (hRange : ∀ nr ∈ numbers, 0 ≤ nr ∧ nr < 2 ^ 32)
    {data : SeccompData} (hArch : data.arch = auditArchX8664) :
    run data.word (listedProgram numbers) 0 0 =
      some
        (if Listed numbers data then
          seccompRetKillProcess
        else
          seccompRetAllow) := by
  unfold listedProgram
  rw [run_load, SeccompData.word_archOffset, Option.bind_some,
    run_jeq, if_pos hArch]
  apply (run_skip ..).trans
  apply (run_load ..).trans
  rw [SeccompData.word_nrOffset, Option.bind_some,
    run_listedTests hRange]

/- The whole program passes the checker. -/
theorem checked_listedProgram (numbers : List Int) :
    checked isWord (listedProgram numbers) = true := by
  have hTests := checked_listedTests numbers
  have hLength := length_listedTests numbers
  have hNext : (listedTests numbers).isEmpty = false := by
    rw [List.isEmpty_eq_false_iff, ← List.length_pos_iff]
    omega
  unfold listedProgram
  rw [checked, decode_load, checked, decode_jeq, checked,
    decode_ret, checked, decode_load, hTests]
  simp [hNext, isWord, seccompDataArchOffset,
    seccompDataNrOffset]

/- The crate does what the documentation says. -/
theorem plainCrate_documented : Documented plainCrate := by
  constructor
  · intro rules filter program hNew hCompile
    rcases Except.ok.inj hCompile with rfl
    exact ⟨checked_listedProgram filter, List.cons_ne_nil _ _⟩
  · intro rules filter program hNew hCompile _ data hArch
    rcases Except.ok.inj hCompile with rfl
    unfold plainCrate at hNew
    dsimp only at hNew
    split at hNew
    · rename_i hGood
      rcases Except.ok.inj hNew with rfl
      apply run_listedProgram _ hArch
      intro nr hMem
      exact of_decide_eq_true
        (List.all_eq_true.1 hGood.2.2 nr hMem)
    · cases hNew

/- `read`, `ptrace` and `ptrace` as an x32 call. -/
def callsAndActions : List (UInt32 × UInt32) :=
  [(0, seccompRetAllow), (101, seccompRetKillProcess),
    (0x40000065, seccompRetKillProcess)]

/- Only the first of them is let through. -/
theorem stacked_verdict_ptrace :
    ∃ program,
      buildBaselineDenylist plainCrate x8664Number false =
          .ok program ∧
        ∀ call ∈ callsAndActions,
          ∃ gate filters verdict,
            run
                (SeccompData.word
                  ⟨call.1, auditArchX8664, 0,
                    .replicate 6 0⟩)
                archGateProgram 0 0 =
              some gate ∧
            installBaselineDenylist program [] =
              .ok filters ∧
            runFilters filters
                ⟨call.1, auditArchX8664, 0,
                  .replicate 6 0⟩ =
              some verdict ∧
            action verdict = call.2 := by
  have hBuild :
      buildBaselineDenylist plainCrate x8664Number false =
        .ok
          (listedProgram (deniedNumbers x8664Number false)) := by
    rfl
  refine ⟨_, hBuild, ?_⟩
  intro call hMem
  rcases
    stacked_verdict plainCrate_documented x8664Number false
      hBuild ⟨call.1, auditArchX8664, 0, .replicate 6 0⟩ with
    ⟨gate, filters, verdict, hGate, hInstall, hRun, hAllow,
      hKill⟩
  refine ⟨gate, filters, verdict, hGate, hInstall, hRun, ?_⟩
  simp only [callsAndActions, List.mem_cons,
    List.not_mem_nil, or_false] at hMem
  rcases hMem with rfl | rfl | rfl
  · apply hAllow.2
    decide
  · apply hKill
    intro hAllowed
    rcases hAllow.1 hAllowed with ⟨_, _, hFree⟩
    exact hFree .ptrace (by decide) rfl
  · apply hKill
    intro hAllowed
    rcases hAllow.1 hAllowed with ⟨_, hNative, _⟩
    exact absurd hNative (by decide)

end Seccomp

end Guest

end CargoUnikernel
