import CargoUnikernel.Guest.Firewall.NlBuf
import CargoUnikernel.Library.NfTables
import Mathlib.Tactic.Common

/-
  The batch `build_batch` sends to the kernel.

  Each builder is the source's, writing to the buffer; next
  to it stands the attribute tree it writes. The batch is
  the encoding of a list of numbered messages.

  Main declarations:
    * `Rule`, `buildBatch`
    * `batchMessages`
    * `buildBatch_eq_ok`
-/

------------------------------------------------------------
-- Constants
------------------------------------------------------------

namespace CargoUnikernel

namespace Guest

namespace Firewall

open Netlink

open NfTables (ascii)

/- `linux/netlink.h`. -/
def nlmFRequest : UInt16 := 0x0001
def nlmFAck : UInt16 := 0x0004
def nlmFExcl : UInt16 := 0x0200
def nlmFCreate : UInt16 := 0x0400
def nlmFAppend : UInt16 := 0x0800

/- `linux/netfilter/nfnetlink.h`. -/
def nfnlSubsysNftables : UInt16 := 10
def nfnlMsgBatchBegin : UInt16 := 16
def nfnlMsgBatchEnd : UInt16 := 17

/- `linux/netfilter/nf_tables.h`. -/
def nftMsgNewtable : UInt16 := 0
def nftMsgNewchain : UInt16 := 3
def nftMsgNewrule : UInt16 := 6

def nftaTableName : UInt16 := 1
def nftaChainTable : UInt16 := 1
def nftaChainName : UInt16 := 3
def nftaChainHook : UInt16 := 4
def nftaChainPolicy : UInt16 := 5
def nftaChainType : UInt16 := 7
def nftaHookHooknum : UInt16 := 1
def nftaHookPriority : UInt16 := 2
def nftaRuleTable : UInt16 := 1
def nftaRuleChain : UInt16 := 2
def nftaRuleExpressions : UInt16 := 4
def nftaListElem : UInt16 := 1
def nftaExprName : UInt16 := 1
def nftaExprData : UInt16 := 2
def nftaDataValue : UInt16 := 1
def nftaDataVerdict : UInt16 := 2
def nftaVerdictCode : UInt16 := 1
def nftaImmediateDreg : UInt16 := 1
def nftaImmediateData : UInt16 := 2
def nftaCmpSreg : UInt16 := 1
def nftaCmpOp : UInt16 := 2
def nftaCmpData : UInt16 := 3
def nftaRangeSreg : UInt16 := 1
def nftaRangeOp : UInt16 := 2
def nftaRangeFromData : UInt16 := 3
def nftaRangeToData : UInt16 := 4
def nftaPayloadDreg : UInt16 := 1
def nftaPayloadBase : UInt16 := 2
def nftaPayloadOffset : UInt16 := 3
def nftaPayloadLen : UInt16 := 4
def nftaMetaDreg : UInt16 := 1
def nftaMetaKey : UInt16 := 2
def nftaCtDreg : UInt16 := 1
def nftaCtKey : UInt16 := 2
def nftaBitwiseSreg : UInt16 := 1
def nftaBitwiseDreg : UInt16 := 2
def nftaBitwiseLen : UInt16 := 3
def nftaBitwiseMask : UInt16 := 4
def nftaBitwiseXor : UInt16 := 5

def nftRegVerdict : UInt32 := 0
def nftReg1 : UInt32 := 1
def nftCmpEq : UInt32 := 0
def nftCmpNeq : UInt32 := 1
def nftRangeEq : UInt32 := 0
def nftPayloadTransportHeader : UInt32 := 2
def nftMetaIifname : UInt32 := 6
def nftMetaNfproto : UInt32 := 15
def nftMetaL4proto : UInt32 := 16
def nftCtState : UInt32 := 0

def nfDrop : UInt32 := 0
def nfAccept : UInt32 := 1

/- The `net-ipv6` feature decides the family of the table. -/
def tableFamily (netIpv6 : Bool) : UInt8 :=
  if netIpv6 then 1 else 2

def nfprotoIpv4 : UInt8 := 2
def nfprotoIpv6 : UInt8 := 10
def nfInetLocalIn : UInt32 := 1
def filterPriority : UInt32 := 0

def ctStateInvalid : UInt32 := 0x01
def ctStateEstablished : UInt32 := 0x02
def ctStateRelated : UInt32 := 0x04

def ipprotoIcmp : UInt8 := 1
def ipprotoTcp : UInt8 := 6
def ipprotoUdp : UInt8 := 17
def ipprotoIcmpv6 : UInt8 := 58

def ifnamsiz : Nat := 16

def tableName : List UInt8 := ascii "cargo-unikernel"
def chainName : List UInt8 := ascii "input"

def icmpv6AllowedTypes : List UInt8 :=
  [2, 130, 133, 134, 135, 136]

def icmpv4DestUnreach : UInt8 := 3

/- A protocol and an inclusive port range. -/
structure Rule where
  protocol : UInt8
  firstPort : UInt16
  lastPort : UInt16
deriving DecidableEq

------------------------------------------------------------
-- Expressions
------------------------------------------------------------

/- A scalar attribute, as `put_be32` writes it. -/
def be32 (attrType : UInt16) (value : UInt32) : Attr :=
  .leaf attrType (Bytes.ofNatBe 4 value.toNat)

/- A string attribute, as `put_str` writes it. -/
def str (attrType : UInt16) (value : List UInt8) : Attr :=
  .leaf attrType (value ++ [0])

/- A value nested under a data attribute. -/
def dataValue (attrType : UInt16) (value : List UInt8) :
    Attr :=
  .nest attrType [.leaf nftaDataValue value]

/- The tree of one expression. -/
def exprAttr (name : List UInt8) (data : List Attr) : Attr :=
  .nest nftaListElem
    [str nftaExprName name, .nest nftaExprData data]

namespace NlBuf

@[simp] theorem emit_be32
    (buf : NlBuf) (attrType : UInt16) (value : UInt32) :
    buf.emit (be32 attrType value) =
      buf.putBe32 attrType value := by
  simp [be32, putBe32]

@[simp] theorem emit_str
    (buf : NlBuf) (attrType : UInt16) (value : List UInt8) :
    buf.emit (str attrType value) =
      buf.putStr attrType value := by
  simp [str, putStr]

/- A value under a data attribute. -/
def putValue
    (buf : NlBuf)
    (attrType : UInt16) (value : List UInt8) :
    NlBuf :=
  buf.nested attrType fun b => b.putAttr nftaDataValue value

@[simp] theorem emit_dataValue
    (buf : NlBuf) (attrType : UInt16) (value : List UInt8) :
    buf.emit (dataValue attrType value) =
      buf.putValue attrType value := by
  simp [dataValue, putValue]

/- One element of a rule's list of expressions. -/
def expr
    (buf : NlBuf)
    (name : List UInt8) (data : NlBuf → NlBuf) :
    NlBuf :=
  buf.nested nftaListElem fun b =>
    (b.putStr nftaExprName name).nested nftaExprData data

/- An expression is emitted as its tree. -/
theorem emit_exprAttr
    (buf : NlBuf) (name : List UInt8) (data : List Attr) :
    buf.emit (exprAttr name data) =
      buf.expr name fun b => b.emitAll data := by
  simp [exprAttr, expr]

/- A field of the packet's own into the first register. -/
def metaLoad (buf : NlBuf) (key : UInt32) : NlBuf :=
  buf.expr (ascii "meta") fun b =>
    (b.putBe32 nftaMetaKey key).putBe32 nftaMetaDreg nftReg1

/- The connection's state into the first register. -/
def ctStateLoad (buf : NlBuf) : NlBuf :=
  buf.expr (ascii "ct") fun b =>
    (b.putBe32 nftaCtKey nftCtState).putBe32 nftaCtDreg
      nftReg1

/- Bytes of the transport header into the first register. -/
def payloadLoad (buf : NlBuf) (offset len : UInt32) : NlBuf :=
  buf.expr (ascii "payload") fun b =>
    (((b.putBe32 nftaPayloadDreg nftReg1).putBe32
      nftaPayloadBase nftPayloadTransportHeader).putBe32
      nftaPayloadOffset offset).putBe32 nftaPayloadLen len

/- The first register is compared with a value. -/
def cmp
    (buf : NlBuf) (op : UInt32) (value : List UInt8) :
    NlBuf :=
  buf.expr (ascii "cmp") fun b =>
    ((b.putBe32 nftaCmpSreg nftReg1).putBe32
      nftaCmpOp op).putValue nftaCmpData value

/- The first register is between two values. -/
def range
    (buf : NlBuf) (first last : List UInt8) : NlBuf :=
  buf.expr (ascii "range") fun b =>
    (((b.putBe32 nftaRangeSreg nftReg1).putBe32
      nftaRangeOp nftRangeEq).putValue
      nftaRangeFromData first).putValue nftaRangeToData last

/- The first register keeps the bits of the mask. -/
def bitwiseMask (buf : NlBuf) (mask : UInt32) : NlBuf :=
  buf.expr (ascii "bitwise") fun b =>
    ((((b.putBe32 nftaBitwiseSreg nftReg1).putBe32
      nftaBitwiseDreg nftReg1).putBe32
      nftaBitwiseLen 4).putValue
      nftaBitwiseMask (Bytes.ofNatLe 4 mask.toNat)).putValue
      nftaBitwiseXor (Bytes.ofNatLe 4 0)

/- The verdict, where the rule has come this far. -/
def verdict (buf : NlBuf) (code : UInt32) : NlBuf :=
  buf.expr (ascii "immediate") fun b =>
    (b.putBe32 nftaImmediateDreg nftRegVerdict).nested
      nftaImmediateData fun d =>
        d.nested nftaDataVerdict fun v =>
          v.putBe32 nftaVerdictCode code

end NlBuf

/- The trees the builders write. -/
def metaAttr (key : UInt32) : Attr :=
  exprAttr (ascii "meta")
    [be32 nftaMetaKey key, be32 nftaMetaDreg nftReg1]

/- The same expressions as trees of attributes. -/
def ctStateAttr : Attr :=
  exprAttr (ascii "ct")
    [be32 nftaCtKey nftCtState, be32 nftaCtDreg nftReg1]

/- Bytes of the packet's header, into the register. -/
def payloadAttr (offset len : UInt32) : Attr :=
  exprAttr (ascii "payload")
    [be32 nftaPayloadDreg nftReg1,
      be32 nftaPayloadBase nftPayloadTransportHeader,
      be32 nftaPayloadOffset offset,
      be32 nftaPayloadLen len]

/- The register is compared. -/
def cmpAttr (op : UInt32) (value : List UInt8) : Attr :=
  exprAttr (ascii "cmp")
    [be32 nftaCmpSreg nftReg1, be32 nftaCmpOp op,
      dataValue nftaCmpData value]

/- The register lies in a range. -/
def rangeAttr (first last : List UInt8) : Attr :=
  exprAttr (ascii "range")
    [be32 nftaRangeSreg nftReg1, be32 nftaRangeOp nftRangeEq,
      dataValue nftaRangeFromData first,
      dataValue nftaRangeToData last]

/- The register is masked. -/
def bitwiseAttr (mask : UInt32) : Attr :=
  exprAttr (ascii "bitwise")
    [be32 nftaBitwiseSreg nftReg1,
      be32 nftaBitwiseDreg nftReg1, be32 nftaBitwiseLen 4,
      dataValue nftaBitwiseMask
        (Bytes.ofNatLe 4 mask.toNat),
      dataValue nftaBitwiseXor (Bytes.ofNatLe 4 0)]

/- The verdict of a rule, or of a chain. -/
def verdictAttr (code : UInt32) : Attr :=
  exprAttr (ascii "immediate")
    [be32 nftaImmediateDreg nftRegVerdict,
      .nest nftaImmediateData
        [.nest nftaDataVerdict [be32 nftaVerdictCode code]]]

namespace NlBuf

variable (buf : NlBuf)

/- So is each of the expressions. -/
theorem metaLoad_eq (key : UInt32) :
    buf.metaLoad key = buf.emit (metaAttr key) := by
  simp [metaLoad, metaAttr, emit_exprAttr]

theorem ctStateLoad_eq :
    buf.ctStateLoad = buf.emit ctStateAttr := by
  simp [ctStateLoad, ctStateAttr, emit_exprAttr]

theorem payloadLoad_eq (offset len : UInt32) :
    buf.payloadLoad offset len =
      buf.emit (payloadAttr offset len) := by
  simp [payloadLoad, payloadAttr, emit_exprAttr]

theorem cmp_eq (op : UInt32) (value : List UInt8) :
    buf.cmp op value = buf.emit (cmpAttr op value) := by
  simp [cmp, cmpAttr, emit_exprAttr]

theorem range_eq (first last : List UInt8) :
    buf.range first last =
      buf.emit (rangeAttr first last) := by
  simp [range, rangeAttr, emit_exprAttr]

theorem bitwiseMask_eq (mask : UInt32) :
    buf.bitwiseMask mask = buf.emit (bitwiseAttr mask) := by
  simp [bitwiseMask, bitwiseAttr, emit_exprAttr]

theorem verdict_eq (code : UInt32) :
    buf.verdict code = buf.emit (verdictAttr code) := by
  simp [verdict, verdictAttr, emit_exprAttr]

end NlBuf

------------------------------------------------------------
-- Messages
------------------------------------------------------------

/- A message type of the nf_tables subsystem. -/
def nftMsg (msg : UInt16) : UInt16 :=
  nfnlSubsysNftables <<< 8 ||| msg

namespace NlBuf

/- `NlBuf::rule`: a new rule, appended. -/
def rule
    (buf : NlBuf) (netIpv6 : Bool) (seq : UInt32)
    (expressions : NlBuf → NlBuf) :
    NlBuf :=
  buf.message (nftMsg nftMsgNewrule)
    (nlmFRequest ||| nlmFAck ||| nlmFCreate ||| nlmFAppend)
    seq fun b =>
      (((b.putNfgenmsg (tableFamily netIpv6) 0).putStr
        nftaRuleTable tableName).putStr
        nftaRuleChain chainName).nested
        nftaRuleExpressions expressions

end NlBuf

/- The guard every port rule opens with. -/
def l4protoIs (buf : NlBuf) (protocol : UInt8) : NlBuf :=
  (buf.metaLoad nftMetaL4proto).cmp nftCmpEq [protocol]

/- The packet is of one address family. -/
def nfprotoIs (buf : NlBuf) (family : UInt8) : NlBuf :=
  (buf.metaLoad nftMetaNfproto).cmp nftCmpEq [family]

/- The marker the batch begins with. -/
def beginBatch (seq : UInt32) (buf : NlBuf) : NlBuf :=
  buf.message nfnlMsgBatchBegin nlmFRequest seq fun b =>
    b.putNfgenmsg 0 nfnlSubsysNftables

/- `add table inet cargo-unikernel`. -/
def addTable
    (netIpv6 : Bool) (seq : UInt32) (buf : NlBuf) : NlBuf :=
  buf.message (nftMsg nftMsgNewtable)
    (nlmFRequest ||| nlmFAck ||| nlmFCreate ||| nlmFExcl)
    seq fun b =>
      (b.putNfgenmsg (tableFamily netIpv6) 0).putStr
        nftaTableName tableName

/- `type filter hook input priority filter; policy drop;`. -/
def addChain
    (netIpv6 : Bool) (seq : UInt32) (buf : NlBuf) : NlBuf :=
  buf.message (nftMsg nftMsgNewchain)
    (nlmFRequest ||| nlmFAck ||| nlmFCreate ||| nlmFExcl)
    seq fun b =>
      (((((b.putNfgenmsg (tableFamily netIpv6) 0).putStr
        nftaChainTable tableName).putStr
        nftaChainName chainName).nested
        nftaChainHook fun h =>
          (h.putBe32 nftaHookHooknum nfInetLocalIn).putBe32
            nftaHookPriority filterPriority).putBe32
        nftaChainPolicy nfDrop).putStr
        nftaChainType (ascii "filter")

/- `lo`, NUL-padded to the size of an interface name. -/
def loName : List UInt8 :=
  ascii "lo" ++ List.replicate (ifnamsiz - 2) 0

/- `iifname "lo" accept`. -/
def acceptLoopback
    (netIpv6 : Bool) (seq : UInt32) (buf : NlBuf) : NlBuf :=
  buf.rule netIpv6 seq fun b =>
    ((b.metaLoad nftMetaIifname).cmp
      nftCmpEq loName).verdict nfAccept

/- A test of the connection's state for any of some bits. -/
def ctStateRule
    (mask code : UInt32)
    (netIpv6 : Bool) (seq : UInt32) (buf : NlBuf) : NlBuf :=
  buf.rule netIpv6 seq fun b =>
    ((b.ctStateLoad.bitwiseMask mask).cmp
      nftCmpNeq (Bytes.ofNatLe 4 0)).verdict code

/- `ct state established,related accept`. -/
def acceptEstablished :
    Bool → UInt32 → NlBuf → NlBuf :=
  ctStateRule (ctStateEstablished ||| ctStateRelated) nfAccept

/- `ct state invalid drop`. -/
def dropInvalid : Bool → UInt32 → NlBuf → NlBuf :=
  ctStateRule ctStateInvalid nfDrop

/- An ICMP message of one family, protocol and type. -/
def icmpRule
    (family protocol icmpType : UInt8)
    (netIpv6 : Bool) (seq : UInt32) (buf : NlBuf) : NlBuf :=
  buf.rule netIpv6 seq fun b =>
    (((l4protoIs (nfprotoIs b family) protocol).payloadLoad
      0 1).cmp nftCmpEq [icmpType]).verdict nfAccept

/- `meta nfproto ipv6 icmpv6 type <t> accept`. -/
def acceptIcmpv6 (icmpType : UInt8) :
    Bool → UInt32 → NlBuf → NlBuf :=
  icmpRule nfprotoIpv6 ipprotoIcmpv6 icmpType

/- `meta nfproto ipv4 icmp type destination-unreachable`. -/
def acceptDestUnreach : Bool → UInt32 → NlBuf → NlBuf :=
  icmpRule nfprotoIpv4 ipprotoIcmp icmpv4DestUnreach

/- The destination port, in network order. -/
def portTest (rule : Rule) (buf : NlBuf) : NlBuf :=
  if rule.firstPort = rule.lastPort then
    buf.cmp nftCmpEq (Bytes.ofNatBe 2 rule.firstPort.toNat)
  else
    buf.range (Bytes.ofNatBe 2 rule.firstPort.toNat)
      (Bytes.ofNatBe 2 rule.lastPort.toNat)

/- A configured port rule. -/
def acceptPorts
    (rule : Rule)
    (netIpv6 : Bool) (seq : UInt32) (buf : NlBuf) : NlBuf :=
  buf.rule netIpv6 seq fun b =>
    (portTest rule
      ((l4protoIs b rule.protocol).payloadLoad 2 2)).verdict
      nfAccept

/- The marker the batch ends with. -/
def endBatch (seq : UInt32) (buf : NlBuf) : NlBuf :=
  buf.message nfnlMsgBatchEnd nlmFRequest seq fun b =>
    b.putNfgenmsg 0 nfnlSubsysNftables

/- The bytes, and how many messages ask for an answer. -/
structure Batch where
  bytes : List UInt8
  ackable : Nat

/- One sequence number a message, saturating. -/
def tick (seq : UInt32) : UInt32 :=
  if seq.toNat + 1 < 2 ^ 32 then seq + 1 else seq

/- A buffer and the last sequence number given out. -/
abbrev BatchState := NlBuf × UInt32

/- Emit one message under the next sequence number. -/
def BatchState.add
    (state : BatchState)
    (message : UInt32 → NlBuf → NlBuf) :
    BatchState :=
  (message (tick state.2) state.1, tick state.2)

/- The whole ruleset as one batch. -/
def buildBatch (netIpv6 : Bool) (rules : List Rule) :
    Except String Batch := do
  let state : BatchState := (NlBuf.empty, 0)
  let state := state.add beginBatch
  let state := state.add (addTable netIpv6)
  let state := state.add (addChain netIpv6)
  let state := state.add (acceptLoopback netIpv6)
  let state := state.add (acceptEstablished netIpv6)
  let state := state.add (dropInvalid netIpv6)
  let state := icmpv6AllowedTypes.foldl
    (fun state icmpType =>
      state.add (acceptIcmpv6 icmpType netIpv6)) state
  let state := state.add (acceptDestUnreach netIpv6)
  let state := rules.foldl
    (fun state rule => state.add (acceptPorts rule netIpv6))
    state
  let state := state.add endBatch
  let bytes ← state.1.finish
  return { bytes := bytes, ackable := state.2.toNat - 2 }

------------------------------------------------------------
-- The Messages of the Batch
------------------------------------------------------------

/- A message that has yet to be given its number. -/
structure Draft where
  type : UInt16
  flags : UInt16
  family : UInt8
  resId : UInt16
  attrs : List Attr

/- The message of a draft, once it has a number. -/
def Draft.message (draft : Draft) (seq : UInt32) : Message where
  type := draft.type
  flags := draft.flags
  seq := seq
  family := draft.family
  resId := draft.resId
  attrs := draft.attrs

/- Drafts numbered from the number after `seq` on. -/
def numbered (seq : UInt32) : List Draft → List Message
| [] => []
| draft :: drafts =>
    draft.message (tick seq) :: numbered (tick seq) drafts

/- The last number given out. -/
def lastSeq (seq : UInt32) : List Draft → UInt32
| [] => seq
| _ :: drafts => lastSeq (tick seq) drafts

/- The messages that enclose a batch. -/
def markerDraft (type : UInt16) : Draft where
  type := type
  flags := nlmFRequest
  family := 0
  resId := nfnlSubsysNftables
  attrs := []

/- The message that makes the table. -/
def tableDraft (netIpv6 : Bool) : Draft where
  type := nftMsg nftMsgNewtable
  flags := nlmFRequest ||| nlmFAck ||| nlmFCreate ||| nlmFExcl
  family := tableFamily netIpv6
  resId := 0
  attrs := [str nftaTableName tableName]

/- The message that makes the chain. -/
def chainDraft (netIpv6 : Bool) : Draft where
  type := nftMsg nftMsgNewchain
  flags := nlmFRequest ||| nlmFAck ||| nlmFCreate ||| nlmFExcl
  family := tableFamily netIpv6
  resId := 0
  attrs :=
    [str nftaChainTable tableName,
      str nftaChainName chainName,
      .nest nftaChainHook
        [be32 nftaHookHooknum nfInetLocalIn,
          be32 nftaHookPriority filterPriority],
      be32 nftaChainPolicy nfDrop,
      str nftaChainType (ascii "filter")]

/- A message that appends a rule. -/
def ruleDraft (netIpv6 : Bool) (exprs : List Attr) : Draft where
  type := nftMsg nftMsgNewrule
  flags :=
    nlmFRequest ||| nlmFAck ||| nlmFCreate ||| nlmFAppend
  family := tableFamily netIpv6
  resId := 0
  attrs :=
    [str nftaRuleTable tableName,
      str nftaRuleChain chainName,
      .nest nftaRuleExpressions exprs]

/- The rules as lists of expressions. -/
def loopbackExprs : List Attr :=
  [metaAttr nftMetaIifname, cmpAttr nftCmpEq loName,
    verdictAttr nfAccept]

/- Packets of a connection in one of these states. -/
def ctStateExprs (mask code : UInt32) : List Attr :=
  [ctStateAttr, bitwiseAttr mask,
    cmpAttr nftCmpNeq (Bytes.ofNatLe 4 0), verdictAttr code]

/- ICMP messages of one type. -/
def icmpExprs (family protocol icmpType : UInt8) : List Attr :=
  [metaAttr nftMetaNfproto, cmpAttr nftCmpEq [family],
    metaAttr nftMetaL4proto, cmpAttr nftCmpEq [protocol],
    payloadAttr 0 1, cmpAttr nftCmpEq [icmpType],
    verdictAttr nfAccept]

/- One port is compared, several are a range. -/
def portTestAttr (rule : Rule) : Attr :=
  if rule.firstPort = rule.lastPort then
    cmpAttr nftCmpEq (Bytes.ofNatBe 2 rule.firstPort.toNat)
  else
    rangeAttr (Bytes.ofNatBe 2 rule.firstPort.toNat)
      (Bytes.ofNatBe 2 rule.lastPort.toNat)

/- The rule for a configured port. -/
def portExprs (rule : Rule) : List Attr :=
  [metaAttr nftMetaL4proto,
    cmpAttr nftCmpEq [rule.protocol], payloadAttr 2 2,
    portTestAttr rule, verdictAttr nfAccept]

/- The rules that do not depend on the configuration. -/
def fixedExprs : List (List Attr) :=
  [loopbackExprs,
    ctStateExprs (ctStateEstablished ||| ctStateRelated)
      nfAccept,
    ctStateExprs ctStateInvalid nfDrop] ++
  icmpv6AllowedTypes.map
    (icmpExprs nfprotoIpv6 ipprotoIcmpv6) ++
  [icmpExprs nfprotoIpv4 ipprotoIcmp icmpv4DestUnreach]

/- Everything the batch asks for, in order. -/
def batchDrafts (netIpv6 : Bool) (rules : List Rule) :
    List Draft :=
  [markerDraft nfnlMsgBatchBegin, tableDraft netIpv6,
    chainDraft netIpv6] ++
  (fixedExprs ++ rules.map portExprs).map
    (ruleDraft netIpv6) ++
  [markerDraft nfnlMsgBatchEnd]

/- The messages of a batch, numbered. -/
def batchMessages (netIpv6 : Bool) (rules : List Rule) :
    List Message :=
  numbered 0 (batchDrafts netIpv6 rules)

------------------------------------------------------------
-- Sizes
------------------------------------------------------------

section Sizes

variable (attrType : UInt16) (value : List UInt8)

@[simp] theorem length_be32 (n : UInt32) :
    (be32 attrType n).encode.length = 8 := by
  simp [be32, align]

@[simp] theorem length_str :
    (str attrType value).encode.length =
      4 + align (value.length + 1) := by
  simp [str]

@[simp] theorem length_dataValue :
    (dataValue attrType value).encode.length =
      8 + align value.length := by
  simp [dataValue]
  omega

@[simp] theorem fits_be32 (n : UInt32) :
    (be32 attrType n).fits =
      decide (attrType.toNat < 2 ^ 14) := by
  simp [be32]

/- An expression with a short name and not much data. -/
theorem fits_exprAttr
    {name : List UInt8} {data : List Attr}
    (hName : name.length ≤ 16)
    (hData : allFit data = true)
    (hLength : (encodeAll data).length ≤ 128) :
    (exprAttr name data).fits = true := by
  have hAlign := align_lt (name.length + 1)
  simp [exprAttr, str, nftaListElem, nftaExprName,
    nftaExprData, hData]
  omega

@[simp] theorem length_exprAttr
    (name : List UInt8) (data : List Attr) :
    (exprAttr name data).encode.length =
      12 + align (name.length + 1) +
        (encodeAll data).length := by
  simp [exprAttr]
  omega

/- What is put into a register fits. -/
theorem fits_dataValue
    {type : UInt16} (hType : type.toNat < 2 ^ 14)
    (hLength : value.length ≤ 16) :
    (dataValue type value).fits = true := by
  have hAlign := align_lt value.length
  simp [dataValue, nftaDataValue]
  omega

@[simp] theorem fits_metaAttr (key : UInt32) :
    (metaAttr key).fits = true :=
  fits_exprAttr (by decide)
    (by simp [nftaMetaKey, nftaMetaDreg]) (by simp)

@[simp] theorem length_metaAttr (key : UInt32) :
    (metaAttr key).encode.length = 36 := by
  simp [metaAttr, ascii, align]

@[simp] theorem fits_ctStateAttr :
    ctStateAttr.fits = true :=
  fits_exprAttr (by decide)
    (by simp [nftaCtKey, nftaCtDreg]) (by simp)

@[simp] theorem length_ctStateAttr :
    ctStateAttr.encode.length = 32 := by
  simp [ctStateAttr, ascii, align]

@[simp] theorem fits_payloadAttr (offset len : UInt32) :
    (payloadAttr offset len).fits = true :=
  fits_exprAttr (by decide)
    (by
      simp [nftaPayloadDreg, nftaPayloadBase,
        nftaPayloadOffset, nftaPayloadLen])
    (by simp)

@[simp] theorem length_payloadAttr (offset len : UInt32) :
    (payloadAttr offset len).encode.length = 52 := by
  simp [payloadAttr, ascii, align]

/- Values compared with a register are at most its size. -/
theorem fits_cmpAttr
    (op : UInt32) {value : List UInt8}
    (hLength : value.length ≤ 16) :
    (cmpAttr op value).fits = true := by
  have hValue : (dataValue nftaCmpData value).fits = true :=
    fits_dataValue value (by decide) hLength
  have hAlign := align_lt value.length
  refine fits_exprAttr (by decide) ?_ ?_
  · simp [nftaCmpSreg, nftaCmpOp, hValue]
  · simp
    omega

@[simp] theorem length_cmpAttr
    (op : UInt32) (value : List UInt8) :
    (cmpAttr op value).encode.length =
      40 + align value.length := by
  simp [cmpAttr, ascii, align]
  omega

/- So do the two ends of a range. -/
theorem fits_rangeAttr
    {first last : List UInt8}
    (hFirst : first.length ≤ 16) (hLast : last.length ≤ 16) :
    (rangeAttr first last).fits = true := by
  have hFrom :
      (dataValue nftaRangeFromData first).fits = true :=
    fits_dataValue first (by decide) hFirst
  have hTo : (dataValue nftaRangeToData last).fits = true :=
    fits_dataValue last (by decide) hLast
  have hAlignFirst := align_lt first.length
  have hAlignLast := align_lt last.length
  refine fits_exprAttr (by decide) ?_ ?_
  · simp [nftaRangeSreg, nftaRangeOp, hFrom, hTo]
  · simp
    omega

@[simp] theorem length_rangeAttr
    (first last : List UInt8) :
    (rangeAttr first last).encode.length =
      52 + align first.length + align last.length := by
  simp [rangeAttr, ascii, align]
  omega

@[simp] theorem fits_bitwiseAttr (mask : UInt32) :
    (bitwiseAttr mask).fits = true := by
  have hValue :
      ∀ type n, type.toNat < 2 ^ 14 →
        (dataValue type (Bytes.ofNatLe 4 n)).fits = true :=
    fun type n hType =>
      fits_dataValue (Bytes.ofNatLe 4 n) hType (by simp)
  refine fits_exprAttr (by decide) ?_ (by simp [align])
  simp [nftaBitwiseSreg, nftaBitwiseDreg, nftaBitwiseLen,
    hValue _ _ (show nftaBitwiseMask.toNat < 2 ^ 14 by decide),
    hValue _ _ (show nftaBitwiseXor.toNat < 2 ^ 14 by decide)]

@[simp] theorem length_bitwiseAttr (mask : UInt32) :
    (bitwiseAttr mask).encode.length = 68 := by
  simp [bitwiseAttr, ascii, align]

@[simp] theorem fits_verdictAttr (code : UInt32) :
    (verdictAttr code).fits = true := by
  refine fits_exprAttr (by decide) ?_ (by simp)
  simp [nftaImmediateDreg, nftaImmediateData,
    nftaDataVerdict, nftaVerdictCode]

@[simp] theorem length_verdictAttr (code : UInt32) :
    (verdictAttr code).encode.length = 48 := by
  simp [verdictAttr, ascii, align]

/- A rule of a few expressions fits its message. -/
theorem fits_ruleAttrs
    {exprs : List Attr}
    (hExprs : allFit exprs = true)
    (hLength : (encodeAll exprs).length ≤ 1024) :
    allFit
        [str nftaRuleTable tableName,
          str nftaRuleChain chainName,
          .nest nftaRuleExpressions exprs] = true ∧
      (encodeAll
        [str nftaRuleTable tableName,
          str nftaRuleChain chainName,
          .nest nftaRuleExpressions exprs]).length ≤ 2048 := by
  constructor
  · simp [str, tableName, chainName, ascii, nftaRuleTable,
      nftaRuleChain, nftaRuleExpressions, hExprs]
    omega
  · simp [tableName, chainName, ascii, align]
    omega

end Sizes

------------------------------------------------------------
-- The Buffer Holds the Messages
------------------------------------------------------------

/- Whether a draft fits does not depend on its number. -/
def Draft.fits (draft : Draft) : Bool :=
  (draft.message 0).fits

/- The number does not change the length. -/
theorem Draft.fits_message
    (draft : Draft) (seq : UInt32) :
    (draft.message seq).fits = draft.fits := by
  simp only [Draft.fits, Message.fits, Message.length_body,
    Draft.message]

/- Short attributes make a message that fits. -/
theorem Draft.fits_of_attrs
    {draft : Draft}
    (hAttrs : allFit draft.attrs = true)
    (hLength : (encodeAll draft.attrs).length ≤ 2048) :
    draft.fits = true := by
  simp only [Draft.fits, Message.fits, Message.length_body,
    Draft.message, hAttrs, Bool.true_and, decide_eq_true_eq]
  omega

/- On an aligned buffer, what is emitted is the draft. -/
def Emits
    (emit : UInt32 → NlBuf → NlBuf) (draft : Draft) : Prop :=
  draft.fits = true ∧
    ∀ seq (buf : NlBuf), 4 ∣ buf.bytes.length →
      emit seq buf = buf.put (draft.message seq).encode

/- A message emits its draft if its data emits the attributes. -/
theorem emits_message
    (draft : Draft) {data : NlBuf → NlBuf}
    (hAttrs : allFit draft.attrs = true)
    (hLength : (encodeAll draft.attrs).length ≤ 2048)
    (hData :
      ∀ inner : NlBuf,
        data inner =
          (inner.putNfgenmsg draft.family
            draft.resId).emitAll draft.attrs) :
    Emits
      (fun seq buf =>
        buf.message draft.type draft.flags seq data)
      draft := by
  have hFits := Draft.fits_of_attrs hAttrs hLength
  refine ⟨hFits, fun seq buf hAligned => ?_⟩
  exact NlBuf.message_eq_put (draft.message seq) hAligned
    ((draft.fits_message seq).trans hFits)
    fun inner _ => hData inner

/- A rule emits its draft if its closure emits the list. -/
theorem emits_rule
    (netIpv6 : Bool) {exprs : List Attr}
    {expressions : NlBuf → NlBuf}
    (hExprs : allFit exprs = true)
    (hLength : (encodeAll exprs).length ≤ 1024)
    (hEmit :
      ∀ buf, expressions buf = NlBuf.emitAll buf exprs) :
    Emits (fun seq buf => buf.rule netIpv6 seq expressions)
      (ruleDraft netIpv6 exprs) := by
  have hClosure :
      expressions = fun buf => NlBuf.emitAll buf exprs :=
    funext hEmit
  refine emits_message (ruleDraft netIpv6 exprs)
    (fits_ruleAttrs hExprs hLength).1
    (fits_ruleAttrs hExprs hLength).2 fun inner => ?_
  simp only [ruleDraft, hClosure, NlBuf.emitAll_cons,
    NlBuf.emitAll_nil, NlBuf.emit_str, NlBuf.emit_nest]

/- Each function emits the message of its draft. -/
theorem emits_marker (type : UInt16) :
    Emits
      (fun seq buf =>
        buf.message type nlmFRequest seq fun b =>
          b.putNfgenmsg 0 nfnlSubsysNftables)
      (markerDraft type) :=
  emits_message (markerDraft type)
    (by simp [markerDraft]) (by simp [markerDraft])
    fun _ => by simp [markerDraft]

theorem emits_addTable (netIpv6 : Bool) :
    Emits (addTable netIpv6) (tableDraft netIpv6) := by
  refine emits_message (tableDraft netIpv6) ?_ ?_
    fun _ => by simp [tableDraft]
  · simp [tableDraft, str, tableName, ascii, nftaTableName]
  · simp [tableDraft, tableName, ascii, align]

theorem emits_addChain (netIpv6 : Bool) :
    Emits (addChain netIpv6) (chainDraft netIpv6) := by
  refine emits_message (chainDraft netIpv6) ?_ ?_
    fun _ => by simp [chainDraft]
  · simp [chainDraft, str, tableName, chainName, ascii,
      nftaChainTable, nftaChainName, nftaChainHook,
      nftaHookHooknum, nftaHookPriority, nftaChainPolicy,
      nftaChainType]
  · simp [chainDraft, tableName, chainName, ascii, align]

theorem emits_acceptLoopback (netIpv6 : Bool) :
    Emits (acceptLoopback netIpv6)
      (ruleDraft netIpv6 loopbackExprs) := by
  have hName : (cmpAttr nftCmpEq loName).fits = true :=
    fits_cmpAttr _ (by decide)
  refine emits_rule netIpv6 ?_ ?_ fun _ => ?_
  · simp [loopbackExprs, hName]
  · simp [loopbackExprs, loName, ascii, ifnamsiz, align]
  · simp [loopbackExprs, NlBuf.metaLoad_eq, NlBuf.cmp_eq,
      NlBuf.verdict_eq]

/- Both rules on the connection's state. -/
theorem emits_ctStateRule
    (mask code : UInt32) (netIpv6 : Bool) :
    Emits (ctStateRule mask code netIpv6)
      (ruleDraft netIpv6 (ctStateExprs mask code)) := by
  have hZero :
      (cmpAttr nftCmpNeq (Bytes.ofNatLe 4 0)).fits = true :=
    fits_cmpAttr _ (by simp)
  refine emits_rule netIpv6 ?_ ?_ fun _ => ?_
  · simp [ctStateExprs, hZero]
  · simp [ctStateExprs, align]
  · simp [ctStateExprs, NlBuf.ctStateLoad_eq,
      NlBuf.bitwiseMask_eq, NlBuf.cmp_eq, NlBuf.verdict_eq]

/- All rules on messages of ICMP. -/
theorem emits_icmpRule
    (family protocol icmpType : UInt8) (netIpv6 : Bool) :
    Emits (icmpRule family protocol icmpType netIpv6)
      (ruleDraft netIpv6
        (icmpExprs family protocol icmpType)) := by
  have hByte :
      ∀ byte, (cmpAttr nftCmpEq [byte]).fits = true :=
    fun byte => fits_cmpAttr _ (by simp)
  refine emits_rule netIpv6 ?_ ?_ fun _ => ?_
  · simp [icmpExprs, hByte]
  · simp [icmpExprs, align]
  · simp [icmpExprs, nfprotoIs, l4protoIs,
      NlBuf.metaLoad_eq, NlBuf.payloadLoad_eq, NlBuf.cmp_eq,
      NlBuf.verdict_eq]

/- One port or a range of them: the same attribute either way. -/
theorem portTest_eq (rule : Rule) (buf : NlBuf) :
    portTest rule buf = buf.emit (portTestAttr rule) := by
  unfold portTest portTestAttr
  split
  · exact buf.cmp_eq _ _
  · exact buf.range_eq _ _

/- A port or a range, either fits. -/
theorem fits_portTestAttr (rule : Rule) :
    (portTestAttr rule).fits = true ∧
      (portTestAttr rule).encode.length ≤ 64 := by
  unfold portTestAttr
  split
  · exact ⟨fits_cmpAttr _ (by simp), by simp [align]⟩
  · exact
      ⟨fits_rangeAttr (by simp) (by simp), by simp [align]⟩

/- The rule of a configured port. -/
theorem emits_acceptPorts (netIpv6 : Bool) (rule : Rule) :
    Emits (acceptPorts rule netIpv6)
      (ruleDraft netIpv6 (portExprs rule)) := by
  have hProtocol :
      (cmpAttr nftCmpEq [rule.protocol]).fits = true :=
    fits_cmpAttr _ (by simp)
  rcases fits_portTestAttr rule with ⟨hTest, hLength⟩
  refine emits_rule netIpv6 ?_ ?_ fun _ => ?_
  · simp [portExprs, hProtocol, hTest]
  · simp [portExprs, align]
    omega
  · simp [portExprs, l4protoIs, portTest_eq,
      NlBuf.metaLoad_eq, NlBuf.payloadLoad_eq, NlBuf.cmp_eq,
      NlBuf.verdict_eq]

/- Emitting drafts in turn puts their numbered messages. -/
theorem foldl_add_eq
    {emits : List (UInt32 → NlBuf → NlBuf)}
    {drafts : List Draft}
    (hEmits : List.Forall₂ Emits emits drafts)
    (state : BatchState)
    (hAligned : 4 ∣ state.1.bytes.length) :
    emits.foldl BatchState.add state =
      (state.1.put
          (encodeMessages (numbered state.2 drafts)),
        lastSeq state.2 drafts) := by
  induction hEmits generalizing state with
  | nil => simp [numbered, lastSeq]
  | @cons emit draft emits drafts hEmit _ ih =>
      have hState :
          state.add emit =
            (state.1.put
                (draft.message (tick state.2)).encode,
              tick state.2) := by
        simp [BatchState.add, hEmit.2 _ _ hAligned]
      have hNext :
          4 ∣ (state.add emit).1.bytes.length := by
        rw [hState, NlBuf.length_put]
        exact Nat.dvd_add hAligned
          (Message.four_dvd_length_encode _)
      rw [List.foldl_cons, ih _ hNext, hState]
      simp [numbered, lastSeq]

/- The emitters of `build_batch`, with its loops unrolled. -/
def batchEmitters (netIpv6 : Bool) (rules : List Rule) :
    List (UInt32 → NlBuf → NlBuf) :=
  [beginBatch, addTable netIpv6, addChain netIpv6,
    acceptLoopback netIpv6, acceptEstablished netIpv6,
    dropInvalid netIpv6] ++
  icmpv6AllowedTypes.map (fun t => acceptIcmpv6 t netIpv6) ++
  [acceptDestUnreach netIpv6] ++
  rules.map (fun rule => acceptPorts rule netIpv6) ++
  [endBatch]

/- The whole batch, function by function. -/
theorem emits_batchEmitters
    (netIpv6 : Bool) (rules : List Rule) :
    List.Forall₂ Emits (batchEmitters netIpv6 rules)
      (batchDrafts netIpv6 rules) := by
  have hRules :
      ∀ rules : List Rule,
        List.Forall₂ Emits
          (rules.map (fun rule => acceptPorts rule netIpv6) ++
            [endBatch])
          (rules.map
              (fun rule =>
                ruleDraft netIpv6 (portExprs rule)) ++
            [markerDraft nfnlMsgBatchEnd]) := by
    intro rules
    induction rules with
    | nil => exact .cons (emits_marker _) .nil
    | cons rule rules ih =>
        exact .cons (emits_acceptPorts netIpv6 rule) ih
  have hIcmpv6 := fun icmpType =>
    emits_icmpRule nfprotoIpv6 ipprotoIcmpv6 icmpType netIpv6
  simp only [batchEmitters, batchDrafts, fixedExprs,
    icmpv6AllowedTypes, List.map_cons, List.map_nil,
    List.map_map, List.cons_append, List.nil_append]
  exact .cons (emits_marker _)
    (.cons (emits_addTable netIpv6)
    (.cons (emits_addChain netIpv6)
    (.cons (emits_acceptLoopback netIpv6)
    (.cons (emits_ctStateRule _ _ netIpv6)
    (.cons (emits_ctStateRule _ _ netIpv6)
    (.cons (hIcmpv6 2) (.cons (hIcmpv6 130)
    (.cons (hIcmpv6 133) (.cons (hIcmpv6 134)
    (.cons (hIcmpv6 135) (.cons (hIcmpv6 136)
    (.cons (emits_icmpRule _ _ _ netIpv6)
      (hRules rules)))))))))))))

/- The loops of `build_batch` are one fold over its emitters. -/
theorem buildBatch_eq_foldl
    (netIpv6 : Bool) (rules : List Rule) :
    buildBatch netIpv6 rules =
      (let state :=
        (batchEmitters netIpv6 rules).foldl BatchState.add
          (NlBuf.empty, 0)
      state.1.finish.map fun bytes =>
        { bytes := bytes, ackable := state.2.toNat - 2 }) := by
  simp only [buildBatch, batchEmitters, List.foldl_append,
    List.foldl_cons, List.foldl_nil, List.foldl_map]
  rfl

/- The batch is built, and holds the numbered messages. -/
theorem buildBatch_eq_ok
    (netIpv6 : Bool) (rules : List Rule) :
    buildBatch netIpv6 rules =
      .ok
        { bytes :=
            encodeMessages (batchMessages netIpv6 rules)
          ackable :=
            (lastSeq 0 (batchDrafts netIpv6 rules)).toNat -
              2 } := by
  rw [buildBatch_eq_foldl,
    foldl_add_eq (emits_batchEmitters netIpv6 rules) _
      ⟨0, rfl⟩]
  simp [NlBuf.finish, NlBuf.put, NlBuf.empty, Except.map,
    batchMessages]

/- What is emitted fits. -/
theorem fits_of_emits
    {emits : List (UInt32 → NlBuf → NlBuf)}
    {drafts : List Draft}
    (hEmits : List.Forall₂ Emits emits drafts) :
    ∀ draft ∈ drafts, draft.fits = true := by
  induction hEmits with
  | nil => simp
  | cons hEmit _ ih =>
      intro draft hDraft
      rcases List.mem_cons.mp hDraft with rfl | hRest
      · exact hEmit.1
      · exact ih draft hRest

/- Every message of the batch fits, whatever its number. -/
theorem fits_numbered
    {drafts : List Draft}
    (hFits : ∀ draft ∈ drafts, draft.fits = true)
    (seq : UInt32) :
    ∀ message ∈ numbered seq drafts,
      message.fits = true := by
  induction drafts generalizing seq with
  | nil => simp [numbered]
  | cons draft drafts ih =>
      intro message hMessage
      rcases List.mem_cons.mp hMessage with rfl | hRest
      · rw [draft.fits_message]
        exact hFits draft (List.mem_cons_self ..)
      · exact ih
          (fun other hOther =>
            hFits other (List.mem_cons_of_mem _ hOther))
          _ message hRest

/- The kernel reads the messages back. -/
theorem decodeMessages_batch
    (netIpv6 : Bool) (rules : List Rule) :
    decodeMessages
        (encodeMessages (batchMessages netIpv6 rules)) =
      some (batchMessages netIpv6 rules) := by
  refine decodeMessages_encode (fits_numbered ?_ 0)
  exact fits_of_emits (emits_batchEmitters netIpv6 rules)

end Firewall

end Guest

end CargoUnikernel
