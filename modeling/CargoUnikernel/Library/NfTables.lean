import CargoUnikernel.Library.Netlink
import Mathlib.Tactic.Common

/-
  What the kernel makes of an nf_tables batch.

  A batch creates tables and chains and appends rules. A
  rule is a list of expressions over 16-byte registers:
  each loads a register, tests one, or sets the verdict,
  and a test that fails abandons the rule. Only what a
  stateless filter on the local-in hook needs is decoded;
  anything else is refused.

  Main declarations:
    * `Expr`, `Packet`, `Expr.eval`, `Chain.verdict`
    * `decodeExpr`, `Ruleset.apply`, `commit`
    * `Decides` and its rules
    * `runRules_cons`
-/

------------------------------------------------------------
-- Packets and Registers
------------------------------------------------------------

namespace NfTables

open Netlink

/- An interface name: shorter than `IFNAMSIZ`, with no NUL. -/
structure IfName where
  bytes : List UInt8
  short : bytes.length < 16
  noNul : 0 ∉ bytes

/-
  What the expressions can see of a packet. The transport
  header is what a load may read: nothing of it where the
  packet is a later fragment or is cut short.
-/
structure Packet where
  iifname : IfName
  ctState : UInt32
  nfproto : UInt8
  l4proto : UInt8
  transport : List UInt8

/- What becomes of a packet. -/
inductive Verdict
| drop
| accept
deriving DecidableEq

/- Sixteen bytes each; a shorter store leaves the rest. -/
abbrev Registers := UInt32 → List UInt8

/- What is stored comes first, and the rest stays. -/
def Registers.store
    (regs : Registers) (reg : UInt32) (bytes : List UInt8) :
    Registers :=
  Function.update regs reg
    (bytes ++ (regs reg).drop bytes.length)

/- What is stored can be read, up to its length. -/
theorem Registers.take_store
    (regs : Registers) (reg : UInt32)
    {bytes : List UInt8} {n : Nat}
    (hLength : n ≤ bytes.length) :
    (regs.store reg bytes reg).take n = bytes.take n := by
  simp [store, List.take_append_of_le_length hLength]

------------------------------------------------------------
-- Expressions
------------------------------------------------------------

/- What can be asked of a packet besides its bytes. -/
inductive MetaKey
| iifname
| nfproto
| l4proto
deriving DecidableEq

/- How a register is compared. -/
inductive CmpOp
| eq
| neq
deriving DecidableEq

/- The expressions a stateless filter is made of. -/
inductive Expr
| metaLoad (key : MetaKey) (dreg : UInt32)
| ctState (dreg : UInt32)
| payload (dreg : UInt32) (offset length : Nat)
| cmp (op : CmpOp) (sreg : UInt32) (value : List UInt8)
| range (sreg : UInt32) (first last : List UInt8)
| bitwise
    (sreg dreg : UInt32) (length : Nat)
    (mask xor : List UInt8)
| immediate (verdict : Verdict)
deriving DecidableEq

/- Zero-filled to whole 32-bit words. -/
def fillWords (bytes : List UInt8) : List UInt8 :=
  bytes ++ padding bytes.length

/- An interface name fills its field with NULs. -/
def Packet.metaValue (packet : Packet) :
    MetaKey → List UInt8
| .iifname =>
    packet.iifname.bytes ++
      List.replicate (16 - packet.iifname.bytes.length) 0
| .nfproto => fillWords [packet.nfproto]
| .l4proto => fillWords [packet.l4proto]

/- The bytes of a transport header, if they are all there. -/
def Packet.load
    (packet : Packet) (offset length : Nat) :
    Option (List UInt8) :=
  if offset + length ≤ packet.transport.length then
    some ((packet.transport.drop offset).take length)
  else
    none

/- Whether the order of two strings passes the test. -/
def CmpOp.holds : CmpOp → Ordering → Bool
| .eq, order => order == .eq
| .neq, order => order != .eq

theorem Packet.length_of_load
    {packet : Packet} {offset length : Nat}
    {bytes : List UInt8}
    (hLoad : packet.load offset length = some bytes) :
    bytes.length = length := by
  unfold load at hLoad
  split at hLoad
  · cases hLoad
    simp only [List.length_take, List.length_drop]
    omega
  · cases hLoad

/- What one expression leads to. -/
inductive Outcome
| next (regs : Registers)
| abandon
| done (verdict : Verdict)

/- What an expression makes of the registers. -/
def Expr.eval
    (packet : Packet) (regs : Registers) : Expr → Outcome
| .metaLoad key dreg =>
    .next (regs.store dreg (packet.metaValue key))
| .ctState dreg =>
    .next
      (regs.store dreg
        (Bytes.ofNatLe 4 packet.ctState.toNat))
| .payload dreg offset length =>
    match packet.load offset length with
    | some bytes => .next (regs.store dreg (fillWords bytes))
    | none => .abandon
| .cmp op sreg value =>
    if
      op.holds
        (Bytes.memcmp ((regs sreg).take value.length) value)
    then
      .next regs
    else
      .abandon
| .range sreg first last =>
    if Bytes.memcmp ((regs sreg).take first.length) first ≠
          .lt ∧
        Bytes.memcmp ((regs sreg).take last.length) last ≠
          .gt then
      .next regs
    else
      .abandon
| .bitwise sreg dreg length mask xor =>
    .next
      (regs.store dreg
        (List.zipWith (· ^^^ ·)
          (List.zipWith (· &&& ·)
            ((regs sreg).take length) mask)
          xor))
| .immediate verdict => .done verdict

------------------------------------------------------------
-- Rules and Chains
------------------------------------------------------------

/- The registers a rule leaves, and its verdict if any. -/
def runRule
    (packet : Packet) (regs : Registers) :
    List Expr → Registers × Option Verdict
| [] => (regs, none)
| expr :: exprs =>
    match expr.eval packet regs with
    | .next regs => runRule packet regs exprs
    | .abandon => (regs, none)
    | .done verdict => (regs, some verdict)

/- The first verdict wins; registers outlive a rule. -/
def runRules
    (packet : Packet) (policy : Verdict) (regs : Registers) :
    List (List Expr) → Verdict
| [] => policy
| rule :: rules =>
    match runRule packet regs rule with
    | (_, some verdict) => verdict
    | (regs, none) => runRules packet policy regs rules

/- A base chain. -/
structure Chain where
  hook : UInt32
  priority : UInt32
  policy : Verdict
  rules : List (List Expr)
deriving DecidableEq

/- The registers a packet finds are not initialised. -/
def Chain.verdict
    (chain : Chain) (packet : Packet) (regs : Registers) :
    Verdict :=
  runRules packet chain.policy regs chain.rules

------------------------------------------------------------
-- Decoding Expressions
------------------------------------------------------------

/- The bytes of an ASCII name. -/
def ascii (name : String) : List UInt8 :=
  name.toList.map fun char => UInt8.ofNat char.toNat

/- A string attribute without its NUL. -/
def cString (payload : List UInt8) : List UInt8 :=
  payload.takeWhile fun byte => byte != 0

/- Of several attributes of one type the last counts. -/
def leaf? (type : UInt16) : List Attr → Option (List UInt8)
| [] => none
| attr :: attrs =>
    (leaf? type attrs).or
      (match attr with
      | .leaf other payload =>
          if other = type then some payload else none
      | .nest _ _ => none)

/- The attributes within, by the type of the nest. -/
def nest? (type : UInt16) : List Attr → Option (List Attr)
| [] => none
| attr :: attrs =>
    (nest? type attrs).or
      (match attr with
      | .leaf _ _ => none
      | .nest other children =>
          if other = type then some children else none)

/- A big-endian 32-bit scalar. -/
def scalar? (type : UInt16) (attrs : List Attr) :
    Option UInt32 :=
  (leaf? type attrs).bind fun payload =>
    if payload.length = 4 then
      some (UInt32.ofNat (Bytes.toNatBe payload))
    else
      none

/- One of the four 16-byte registers. -/
def register? (type : UInt16) (attrs : List Attr) :
    Option UInt32 :=
  (scalar? type attrs).bind fun reg =>
    if 1 ≤ reg ∧ reg ≤ 4 then some reg else none

/- The value (type 1) nested under a data attribute. -/
def value? (type : UInt16) (attrs : List Attr) :
    Option (List UInt8) :=
  (nest? type attrs).bind fun data =>
    (leaf? 1 data).bind fun value =>
      if 0 < value.length ∧ value.length ≤ 16 then
        some value
      else
        none

/- The numbers that the kernel knows the keys by. -/
def metaKey? : UInt32 → Option MetaKey
| 6 => some .iifname
| 15 => some .nfproto
| 16 => some .l4proto
| _ => none

/- The numbers of the operators. -/
def cmpOp? : UInt32 → Option CmpOp
| 0 => some .eq
| 1 => some .neq
| _ => none

/- The numbers of the verdicts. -/
def verdict? : UInt32 → Option Verdict
| 0 => some .drop
| 1 => some .accept
| _ => none

/- `meta`: the register is 1, the key 2. -/
def decodeMeta (data : List Attr) : Option Expr := do
  let dreg ← register? 1 data
  let key ← (scalar? 2 data).bind metaKey?
  some (.metaLoad key dreg)

/- `ct`: the register is 1, the key 2, and key 0 the state. -/
def decodeCt (data : List Attr) : Option Expr := do
  let dreg ← register? 1 data
  let key ← scalar? 2 data
  if key = 0 then some (.ctState dreg) else none

/-
  `payload`: the register is 1, the base 2, the offset 3 and
  the length 4; base 2 is the transport header.
-/
def decodePayload (data : List Attr) : Option Expr := do
  let dreg ← register? 1 data
  let base ← scalar? 2 data
  let offset ← scalar? 3 data
  let length ← scalar? 4 data
  if base = 2 ∧ 0 < length ∧ length ≤ 16 then
    some (.payload dreg offset.toNat length.toNat)
  else
    none

/- `cmp`: the register is 1, the operator 2, the value 3. -/
def decodeCmp (data : List Attr) : Option Expr := do
  let sreg ← register? 1 data
  let op ← (scalar? 2 data).bind cmpOp?
  let value ← value? 3 data
  some (.cmp op sreg value)

/-
  `range`: the register is 1, the operator 2, and the ends
  3 and 4; operator 0 is the inclusive test.
-/
def decodeRange (data : List Attr) : Option Expr := do
  let sreg ← register? 1 data
  let op ← scalar? 2 data
  let first ← value? 3 data
  let last ← value? 4 data
  if op = 0 ∧ first.length = last.length then
    some (.range sreg first last)
  else
    none

/-
  `bitwise`: the registers are 1 and 2, the length 3, the
  mask 4 and the value to be added 5.
-/
def decodeBitwise (data : List Attr) : Option Expr := do
  let sreg ← register? 1 data
  let dreg ← register? 2 data
  let length ← scalar? 3 data
  let mask ← value? 4 data
  let xor ← value? 5 data
  if mask.length = length.toNat ∧ xor.length = length.toNat
  then
    some (.bitwise sreg dreg length.toNat mask xor)
  else
    none

/-
  `immediate`: the register is 1, which has to be the
  verdict register 0, and the data 2 holds a verdict 2 with
  its code 1.
-/
def decodeImmediate (data : List Attr) : Option Expr := do
  let dreg ← scalar? 1 data
  let inner ← (nest? 2 data).bind (nest? 2)
  let verdict ← (scalar? 1 inner).bind verdict?
  if dreg = 0 then some (.immediate verdict) else none

/- An expression: its name is 1, its data 2. -/
def decodeExpr (attrs : List Attr) : Option Expr := do
  let kind ← (leaf? 1 attrs).map cString
  let data ← nest? 2 attrs
  if kind = ascii "meta" then
    decodeMeta data
  else if kind = ascii "ct" then
    decodeCt data
  else if kind = ascii "payload" then
    decodePayload data
  else if kind = ascii "cmp" then
    decodeCmp data
  else if kind = ascii "range" then
    decodeRange data
  else if kind = ascii "bitwise" then
    decodeBitwise data
  else if kind = ascii "immediate" then
    decodeImmediate data
  else
    none

/- A list of expressions: each a nested element of type 1. -/
def decodeExprs : List Attr → Option (List Expr)
| [] => some []
| .nest 1 attrs :: elems => do
    let expr ← decodeExpr attrs
    let exprs ← decodeExprs elems
    some (expr :: exprs)
| _ :: _ => none

------------------------------------------------------------
-- Committing a Batch
------------------------------------------------------------

/- A chain's name is its own within its table. -/
structure ChainId where
  family : UInt8
  table : List UInt8
  chain : List UInt8
deriving DecidableEq

/- The tables and the chains that there are. -/
structure Ruleset where
  tables : List (UInt8 × List UInt8)
  chains : List (ChainId × Chain)
deriving DecidableEq

/- What a batch begins with. -/
def Ruleset.empty : Ruleset where
  tables := []
  chains := []

/- The table's name is 1. -/
def newTable
    (ruleset : Ruleset) (message : Message) :
    Option Ruleset := do
  let name ← (leaf? 1 message.attrs).map cString
  if (message.family, name) ∈ ruleset.tables then
    none
  else
    some
      { ruleset with
        tables := ruleset.tables ++ [(message.family, name)] }

/-
  The table's name is 1, the chain's 3, the hook 4 with its
  number 1 and priority 2, the policy 5 and the type 7.
-/
def newChain
    (ruleset : Ruleset) (message : Message) :
    Option Ruleset := do
  let table ← (leaf? 1 message.attrs).map cString
  let name ← (leaf? 3 message.attrs).map cString
  let hook ← nest? 4 message.attrs
  let number ← scalar? 1 hook
  let priority ← scalar? 2 hook
  let policy ← (scalar? 5 message.attrs).bind verdict?
  let type ← (leaf? 7 message.attrs).map cString
  let id : ChainId := ⟨message.family, table, name⟩
  if type = ascii "filter" ∧
      (message.family, table) ∈ ruleset.tables ∧
      id ∉ ruleset.chains.map Prod.fst then
    some
      { ruleset with
        chains := ruleset.chains ++
          [(id, ⟨number, priority, policy, []⟩)] }
  else
    none

/- `NLM_F_APPEND`; without it a rule goes to the head. -/
def appendFlag : UInt16 := 0x800

/- A rule at the end, or at the beginning. -/
def Chain.add
    (chain : Chain) (append : Bool) (rule : List Expr) :
    Chain :=
  { chain with
    rules :=
      if append then
        chain.rules ++ [rule]
      else
        rule :: chain.rules }

/- The table's name is 1, the chain's 2, the expressions 4. -/
def newRule
    (ruleset : Ruleset) (message : Message) :
    Option Ruleset := do
  let table ← (leaf? 1 message.attrs).map cString
  let name ← (leaf? 2 message.attrs).map cString
  let exprs ← (nest? 4 message.attrs).bind decodeExprs
  let id : ChainId := ⟨message.family, table, name⟩
  if id ∈ ruleset.chains.map Prod.fst then
    some
      { ruleset with
        chains := ruleset.chains.map fun entry =>
          if entry.1 = id then
            (id,
              entry.2.add
                (message.flags &&& appendFlag != 0) exprs)
          else
            entry }
  else
    none

/- One message of the nf_tables subsystem, which is 10. -/
def Ruleset.apply
    (ruleset : Ruleset) (message : Message) :
    Option Ruleset :=
  if message.type = 0xa00 then
    newTable ruleset message
  else if message.type = 0xa03 then
    newChain ruleset message
  else if message.type = 0xa06 then
    newRule ruleset message
  else
    none

/- The messages up to the end of the batch, which is 17. -/
def applyAll (ruleset : Ruleset) :
    List Message → Option Ruleset
| [] => none
| message :: messages =>
    if message.type = 17 then
      some ruleset
    else
      (ruleset.apply message).bind fun next =>
        applyAll next messages

/- A batch for the subsystem; its begin marker is 16. -/
def commit : List Message → Option Ruleset
| [] => none
| message :: messages =>
    if message.type = 16 ∧ message.resId = 10 then
      applyAll Ruleset.empty messages
    else
      none

------------------------------------------------------------
-- Reasoning about Rules
------------------------------------------------------------

/-
  Whatever the registers hold, the rule gives the verdict
  where the condition holds and none where it does not.
-/
def Decides
    (packet : Packet) (rule : List Expr)
    (condition : Prop) (verdict : Verdict) : Prop :=
  ∀ regs,
    (condition →
        (runRule packet regs rule).2 = some verdict) ∧
      (¬ condition → (runRule packet regs rule).2 = none)

variable {packet : Packet} {rule : List Expr}
variable {condition : Prop} {verdict : Verdict}

theorem Decides.congr
    {c : Prop}
    (hRule : Decides packet rule condition verdict)
    (hIff : condition ↔ c) :
    Decides packet rule c verdict := by
  rw [← hIff]
  exact hRule

theorem decides_immediate
    (packet : Packet) (verdict : Verdict) :
    Decides packet [.immediate verdict] True verdict :=
  fun _ => ⟨fun _ => rfl, fun hFalse => absurd trivial hFalse⟩

/-
  Loading a field of the packet and comparing what fits of
  it with a value.
-/
theorem Decides.metaCmp
    (hRule : Decides packet rule condition verdict)
    (key : MetaKey) (op : CmpOp) (value : List UInt8)
    (hLength :
      value.length ≤ (packet.metaValue key).length) :
    Decides packet
      (.metaLoad key 1 :: .cmp op 1 value :: rule)
      (op.holds
          (Bytes.memcmp
            ((packet.metaValue key).take value.length)
            value) ∧
        condition)
      verdict := by
  intro regs
  have hRead := regs.take_store 1 hLength
  simp only [runRule, Expr.eval, hRead]
  by_cases hHolds :
      op.holds
        (Bytes.memcmp
          ((packet.metaValue key).take value.length)
          value) = true
  · simpa only [hHolds, if_true, true_and] using hRule _
  · simp [hHolds]

/- Masking the connection's state and testing for zero. -/
theorem Decides.ctMask
    (hRule : Decides packet rule condition verdict)
    {mask xor zero : List UInt8}
    (hMask : mask.length = 4) (hXor : xor.length = 4)
    (hZero : zero.length = 4) :
    Decides packet
      (.ctState 1 :: .bitwise 1 1 4 mask xor ::
        .cmp .neq 1 zero :: rule)
      (List.zipWith (· ^^^ ·)
            (List.zipWith (· &&& ·)
              (Bytes.ofNatLe 4 packet.ctState.toNat) mask)
            xor ≠
          zero ∧
        condition)
      verdict := by
  intro regs
  have hState :
      (regs.store 1 (Bytes.ofNatLe 4 packet.ctState.toNat)
          1).take 4 =
        Bytes.ofNatLe 4 packet.ctState.toNat := by
    rw [regs.take_store 1 (by simp)]
    exact List.take_of_length_le (by simp)
  have hLength :
      (List.zipWith (· ^^^ ·)
        (List.zipWith (· &&& ·)
          (Bytes.ofNatLe 4 packet.ctState.toNat) mask)
        xor).length = 4 := by
    simp [hMask, hXor]
  simp only [runRule, Expr.eval, hState]
  rw [Registers.take_store _ 1 (by rw [hLength, hZero]),
    List.take_of_length_le (by rw [hLength, hZero])]
  have hCompare := Bytes.memcmp_eq_eq_iff
    (hLength.trans hZero.symm)
  simp only [CmpOp.holds, bne_iff_ne, ne_eq, hCompare]
  by_cases hSame :
      List.zipWith (· ^^^ ·)
          (List.zipWith (· &&& ·)
            (Bytes.ofNatLe 4 packet.ctState.toNat) mask)
          xor =
        zero
  · simp [hSame]
  · simpa only [hSame, not_false_iff, if_true, true_and]
      using hRule _

/- The masked state is zero where no bit of it is set. -/
theorem masked_ne_zero_iff (state mask : UInt32) :
    List.zipWith (· ^^^ ·)
          (List.zipWith (· &&& ·)
            (Bytes.ofNatLe 4 state.toNat)
            (Bytes.ofNatLe 4 mask.toNat))
          (Bytes.ofNatLe 4 0) ≠
        Bytes.ofNatLe 4 0 ↔
      state &&& mask ≠ 0 := by
  have hBound := (state &&& mask).toNat_lt
  rw [Bytes.zipWith_and_ofNatLe, Bytes.zipWith_xor_ofNatLe,
    Nat.xor_zero, ← UInt32.toNat_and, ne_eq,
    Bytes.ofNatLe_inj (by omega) (by decide), ne_eq,
    ← UInt32.toNat_inj]
  rfl

/- Loading transport bytes and comparing all of them. -/
theorem Decides.payloadCmp
    (hRule : Decides packet rule condition verdict)
    (offset : Nat) (value : List UInt8) :
    Decides packet
      (.payload 1 offset value.length ::
        .cmp .eq 1 value :: rule)
      (packet.load offset value.length = some value ∧
        condition)
      verdict := by
  intro regs
  cases hLoad : packet.load offset value.length with
  | none => simp [runRule, Expr.eval, hLoad]
  | some bytes =>
      have hLength := Packet.length_of_load hLoad
      have hRead :
          (regs.store 1 (fillWords bytes) 1).take
              value.length = bytes := by
        rw [regs.take_store 1 (by simp [fillWords, hLength]),
          fillWords, List.take_left' hLength]
      have hCompare := Bytes.memcmp_eq_eq_iff hLength
      simp only [runRule, Expr.eval, hLoad, hRead,
        CmpOp.holds, beq_iff_eq, hCompare, Option.some.injEq]
      by_cases hSame : bytes = value
      · simpa only [hSame, if_true, true_and] using hRule _
      · simp [hSame]

/- Loading transport bytes and testing them for a range. -/
theorem Decides.payloadRange
    (hRule : Decides packet rule condition verdict)
    (offset : Nat) (first last : List UInt8)
    (hEnds : first.length = last.length) :
    Decides packet
      (.payload 1 offset first.length ::
        .range 1 first last :: rule)
      ((∃ bytes,
          packet.load offset first.length = some bytes ∧
            Bytes.toNatBe first ≤ Bytes.toNatBe bytes ∧
            Bytes.toNatBe bytes ≤ Bytes.toNatBe last) ∧
        condition)
      verdict := by
  intro regs
  cases hLoad : packet.load offset first.length with
  | none => simp [runRule, Expr.eval, hLoad]
  | some bytes =>
      have hLength := Packet.length_of_load hLoad
      have hRead :
          (regs.store 1 (fillWords bytes) 1).take
              first.length = bytes := by
        rw [regs.take_store 1 (by simp [fillWords, hLength]),
          fillWords, List.take_left' hLength]
      have hFirst := Bytes.memcmp_eq_compare hLength
      have hLast := Bytes.memcmp_eq_compare
        (hLength.trans hEnds)
      simp only [runRule, Expr.eval, hLoad, ← hEnds, hRead,
        hFirst, hLast, ne_eq, Nat.compare_eq_lt,
        Nat.compare_eq_gt, Nat.not_lt, Option.some.injEq,
        exists_eq_left']
      by_cases hWithin :
          Bytes.toNatBe first ≤ Bytes.toNatBe bytes ∧
            Bytes.toNatBe bytes ≤ Bytes.toNatBe last
      · simpa only [hWithin, and_self, if_true, true_and]
          using hRule _
      · simp [hWithin]

/-
  A list of conditions with verdicts accepts where the
  first condition that holds says so, and otherwise where
  the policy does.
-/
def Accepts (policy : Verdict) :
    List (Prop × Verdict) → Prop
| [] => policy = .accept
| (condition, verdict) :: rest =>
    condition ∧ verdict = .accept ∨
      ¬ condition ∧ Accepts policy rest

/- Rules that decide conditions run as those conditions. -/
theorem runRules_eq_accept_iff
    {policy : Verdict} {rules : List (List Expr)}
    {decisions : List (Prop × Verdict)}
    (hDecide :
      List.Forall₂
        (fun rule decision =>
          Decides packet rule decision.1 decision.2)
        rules decisions)
    (regs : Registers) :
    runRules packet policy regs rules = .accept ↔
      Accepts policy decisions := by
  induction hDecide generalizing regs with
  | nil => rfl
  | @cons rule decision rules decisions hRule _ ih =>
      rcases decision with ⟨condition, verdict⟩
      cases hRun : runRule packet regs rule with
      | mk after result =>
          rcases hRule regs with ⟨hHolds, hFails⟩
          rw [hRun] at hHolds hFails
          by_cases hCondition : condition
          · have hResult : result = some verdict :=
              hHolds hCondition
            simp [runRules, hRun, hResult, Accepts,
              hCondition]
          · have hResult : result = none := hFails hCondition
            simp [runRules, hRun, hResult, Accepts,
              hCondition, ih]

/- Accepting conditions in a row are a disjunction. -/
theorem accepts_append
    (policy : Verdict) (conditions : List Prop)
    (rest : List (Prop × Verdict)) :
    Accepts policy
        (conditions.map (fun c => (c, .accept)) ++ rest) ↔
      (∃ c ∈ conditions, c) ∨ Accepts policy rest := by
  induction conditions with
  | nil => simp
  | cons condition conditions ih =>
      have hCases :
          (∃ c ∈ condition :: conditions, c) ↔
            condition ∨ ∃ c ∈ conditions, c := by
        simp only [List.mem_cons, or_and_right, exists_or,
          exists_eq_left]
      simp only [List.map_cons, List.cons_append, Accepts,
        ih, hCases, and_true]
      by_cases hHere : condition
      · simp only [hHere, true_or]
      · simp only [hHere, not_false_iff, true_and, false_or]

end NfTables
