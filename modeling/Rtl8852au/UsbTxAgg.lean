import Mathlib.Algebra.Order.BigOperators.Group.List
import Mathlib.Algebra.Order.Ring.Nat
import Rtl8852au.RingsFifo

namespace Rtl8852au.UsbTx
open Nat
open Rings (maxPhlRingEntryNum phlCalcAvailRptr)

abbrev Idx := Fin maxPhlRingEntryNum

instance : NeZero maxPhlRingEntryNum := ⟨by decide⟩

def maxWdLen : Nat := 48
def maxWdBodyLen : Nat := 24
def pktOffsetDummy : Nat := 8
def mgmtTid : Nat := 8
def numPktListPerTxreq : Nat := 8

inductive PacketType where
  | data | mgnt | h2c | ctrl | fwdl
  deriving DecidableEq

structure MetaData where
  type : PacketType
  wdinfoEn : UInt8
  usbPktOfst : UInt8
  macid : Nat
  band : Nat
  wmm : Nat
  halPort : Nat
  tid : Nat
  dmaCh : Nat
  pktlen : Nat

structure PktBuf where
  virAddr : Option Nat
  length : Nat

structure XmitReq where
  mdata : MetaData
  pktList : List PktBuf
  totalLen : Nat
  flagged : mdata.wdinfoEn = 0 ∨ mdata.wdinfoEn = 1
  listed : pktList.length ≤ numPktListPerTxreq
  halfword : ∀ buf ∈ pktList, buf.length < 2 ^ 16
  summed : totalLen = (pktList.map PktBuf.length).sum

structure TxRing where
  tid : Nat
  dmaCh : Nat
  entry : Idx → Option XmitReq
  coreIdx : Idx
  phlIdx : Idx
  phlNextIdx : Idx

structure RingStatus where
  macid : Nat
  band : Nat
  wmm : Nat
  port : Nat
  reqBusy : Idx

structure Bus where
  txBufSize : Nat
  usbBulkoutSize : Nat
  maxBulkoutWdNum : Nat
  bulkoutId : Nat → Nat
  word : txBufSize < 2 ^ 32

def align8 (len : Nat) : Nat := (len+7) / 8*8
def ahead (idx : Idx) (n : Nat) : Idx := ⟨(idx.val+n) % maxPhlRingEntryNum,mod_lt _ (by decide)⟩
def bump (idx : Idx) : Idx := ⟨Rings.bump idx.val,by unfold Rings.bump; have := idx.isLt; split <;> omega⟩

section
variable (bus : Bus)

-- The size of the buffer less the room for a dummy, which wraps for a buffer
-- smaller than that. The sums of lengths do not: 4095 requests of eight halfwords
-- stay below 2 ^ 31.
def Bus.limit : Nat := (bus.txBufSize + 2 ^ 32 - pktOffsetDummy) % 2 ^ 32

def Bus.shiftOffset : Nat := if bus.usbBulkoutSize = 1024 then 10 else if bus.usbBulkoutSize = 512 then 9 else 6

-- What the handler and the plan take the descriptor's length to be, and what it is.
def XmitReq.wdLen (txReq : XmitReq) : Nat := if txReq.mdata.wdinfoEn = 1 then maxWdLen else maxWdBodyLen

def macTxdescLen (info : MetaData) : Nat := 24 + if info.type ≠ .h2c ∧ info.type ≠ .fwdl ∧ info.wdinfoEn ≠ 0 then 24 else 0

def XmitReq.copied (txReq : XmitReq) : Nat := ((txReq.pktList.filter (fun buf => buf.virAddr.isSome)).map PktBuf.length).sum

-- _phl_prepare_tx_usb: whether rtw_hal_fill_wd succeeds is its oracle.
def phlPrepareTxUsb (txReq : XmitReq) (fillWd : Bool) : Bool × Nat :=
  if fillWd then
    (true,macTxdescLen txReq.mdata + (if txReq.mdata.usbPktOfst = 1 then pktOffsetDummy else 0) + txReq.copied)
  else (false,0)

-- The transfers of a bulk in which the descriptors are counted: the count within
-- the present one and its number, both octets.
def trascStep (shift : Nat) (count : Nat × Nat) (txLen : Nat) : Nat × Nat :=
  if count.2 ≠ txLen >>> shift then (0,txLen >>> shift % 256) else ((count.1+1) % 256,count.2)

structure Plan where
  lastIdx : Option Nat
  addDummy : Bool

structure Preprocess where
  cnt : Nat
  txLen : Nat
  packetLen : Nat
  trasc : Nat × Nat
  lastIdx : Option Nat

def Preprocess.start : Preprocess := {cnt:=0,txLen:=0,packetLen:=0,trasc:=(0,0),lastIdx:=none}
def Preprocess.stop (s : Preprocess) : Preprocess := {s with lastIdx:=if s.cnt = 0 then none else some (s.cnt-1)}

-- One round of the plan's loop and whether it goes on.
def planRound (tring : TxRing) (s : Preprocess) : Preprocess × Bool :=
  match tring.entry (ahead tring.phlNextIdx s.cnt) with
  | none => (s.stop,false)
  | some txReq =>
    let packetAlignLen := align8 s.packetLen - s.packetLen
    if align8 (txReq.wdLen+txReq.totalLen) + s.txLen > bus.limit then (s.stop,false)
    else if (s.txLen + txReq.wdLen + packetAlignLen) % bus.usbBulkoutSize = 0 then (s.stop,false)
    else
      let packetLen := txReq.wdLen + txReq.totalLen
      let txLen := s.txLen + packetAlignLen + packetLen
      let trasc := trascStep bus.shiftOffset s.trasc txLen
      let taken := {s with txLen:=txLen, packetLen:=packetLen, trasc:=trasc}
      if trasc.1 ≥ bus.maxBulkoutWdNum then ({taken with lastIdx:=some s.cnt},false)
      else ({taken with cnt:=s.cnt + 1},txReq.mdata.type = .data)

def planLoop (bus : Bus) (tring : TxRing) : Nat → Preprocess → Preprocess
  | 0,s => s
  | rest+1,s => if (planRound bus tring s).2 then planLoop bus tring rest (planRound bus tring s).1 else (planRound bus tring s).1

def usbTxAggPreprocess (tring : TxRing) (reqBusy : Nat) : Plan :=
  let s := planLoop bus tring reqBusy Preprocess.start
  {lastIdx := if s.lastIdx = none ∧ s.txLen ≠ 0 ∧ s.cnt ≤ reqBusy then some (s.cnt-1) else s.lastIdx
   addDummy := decide (s.txLen ≠ 0 ∧ s.txLen % bus.usbBulkoutSize = 0)}

structure Piece where
  slot : Idx
  start : Nat
  len : Nat
  ok : Bool
  deriving DecidableEq

def Piece.stop (piece : Piece) : Nat := piece.start + piece.len

structure Xmit where
  entry : Idx → Option XmitReq
  phlIdx : Idx
  phlNextIdx : Idx
  packetLen : Nat
  txLen : Nat
  txBufData : Nat
  aggCnt : Nat
  trasc : Nat × Nat
  type : PacketType
  pstatus : Bool
  pieces : List Piece

def Plan.dummyAt (plan : Plan) (aggCnt : Nat) : Bool :=
  match plan.lastIdx with
  | none => false
  | some lastIdx => plan.addDummy && aggCnt == lastIdx % 256

def XmitReq.fill (txReq : XmitReq) (ringSts : RingStatus) (tring : TxRing) (dummy : Bool) : XmitReq :=
  {txReq with mdata := {txReq.mdata with
    macid := ringSts.macid, band := ringSts.band, wmm := ringSts.wmm, halPort := ringSts.port
    tid := tring.tid, dmaCh := tring.dmaCh, pktlen := txReq.totalLen % 2 ^ 16
    usbPktOfst := if dummy then 1 else txReq.mdata.usbPktOfst}}

def dummyLen (dummy : Bool) : Nat := if dummy then pktOffsetDummy else 0

-- The pointer and the length move on to the next multiple of eight for DATA only.
def Xmit.align (s : Xmit) : Xmit :=
  if s.type = .data then
    {s with txBufData:=s.txBufData + align8 s.packetLen, txLen:=s.txLen + (align8 s.packetLen - s.packetLen)}
  else s

def Xmit.prepare (s : Xmit) (txReq : XmitReq) (fillWd : Bool) : Xmit :=
  let (pstatus,packetLen) := phlPrepareTxUsb txReq fillWd
  let piece := Piece.mk s.phlNextIdx s.txBufData (if pstatus then packetLen else macTxdescLen txReq.mdata) pstatus
  {s with packetLen := packetLen, txLen := s.txLen + packetLen, phlIdx := s.phlNextIdx, pstatus := pstatus,
          pieces := s.pieces ++ [piece]}

-- What follows the preparation and whether the loop goes on; `reqBusy` is what is
-- left when this request is prepared.
def Xmit.advance (reqBusy : Nat) (s : Xmit) : Xmit × Bool :=
  if s.pstatus then
    let s := {s with aggCnt:=(s.aggCnt+1) % 256}
    if s.type ≠ .data then (s,false)
    else
      let s := {s with trasc:=trascStep bus.shiftOffset s.trasc s.txLen}
      if s.trasc.1 ≥ bus.maxBulkoutWdNum then (s,false)
      else (if reqBusy ≠ 0 then {s with phlNextIdx:=bump s.phlNextIdx} else s,true)
  else (s,false)

def xmitRound (plan : Plan) (ringSts : RingStatus) (tring : TxRing) (fillWd : Nat → Bool)
    (reqBusy : Nat) (s : Xmit) : Xmit × Bool :=
  match s.entry s.phlNextIdx with
  | none => (s,false)
  | some found =>
    let dummy := plan.dummyAt s.aggCnt
    let txReq := found.fill ringSts tring dummy
    let wdLen := txReq.wdLen + dummyLen dummy
    let s := {s with entry:=Function.update s.entry s.phlNextIdx (some txReq), type:=txReq.mdata.type}
    if align8 (wdLen+txReq.totalLen) + s.txLen > bus.limit then (s,false)
    else if s.type = .data ∧ s.txLen ≠ 0 ∧
        (s.txLen + wdLen + align8 s.packetLen - s.packetLen) % bus.usbBulkoutSize = 0 then
      ({s with txBufData:=s.txBufData + align8 s.packetLen},false)
    else (s.align.prepare txReq (fillWd s.pieces.length)).advance bus reqBusy

-- The loop runs on req_busy, which every round that goes on takes down by one.
def xmitLoop (bus : Bus) (plan : Plan) (ringSts : RingStatus) (tring : TxRing) (fillWd : Nat → Bool) : Nat → Xmit → Xmit
  | 0,s => s
  | reqBusy+1,s =>
    let round := xmitRound bus plan ringSts tring fillWd reqBusy s
    if round.2 then xmitLoop bus plan ringSts tring fillWd reqBusy round.1 else round.1

structure TxBufs where
  idleTxbufList : List Nat
  mgmtTxbufList : List Nat
  inFlight : List Nat

def TxBufs.dequeue (bufs : TxBufs) (tid : Nat) : Option Nat × TxBufs :=
  if tid = mgmtTid then (bufs.mgmtTxbufList.head?,{bufs with mgmtTxbufList:=bufs.mgmtTxbufList.tail})
  else (bufs.idleTxbufList.head?,{bufs with idleTxbufList:=bufs.idleTxbufList.tail})

def TxBufs.enqueue (bufs : TxBufs) (tid txBuf : Nat) : TxBufs :=
  if tid = mgmtTid then {bufs with mgmtTxbufList:=bufs.mgmtTxbufList ++ [txBuf]}
  else {bufs with idleTxbufList:=bufs.idleTxbufList ++ [txBuf]}

structure Submission where
  bulkId : Nat
  txLen : Nat
  aggCfg : Option Nat

structure Answers where
  fillWd : Nat → Bool
  usbTx : Bool

structure Handled where
  tring : TxRing
  bufs : TxBufs
  pieces : List Piece
  submission : Option Submission
  sent : Bool

def Xmit.start (tring : TxRing) : Xmit :=
  {entry := tring.entry, phlIdx := tring.phlIdx, phlNextIdx := tring.phlNextIdx, packetLen := 0, txLen := 0
   txBufData := 0, aggCnt := 0, trasc := (0,0), type := .data, pstatus := false, pieces := []}

-- The ring status is released after this in every case, and the status returned is
-- success when the buffer went back to its list.
def phlHandleXmitRingUsb (answers : Answers) (ringSts : RingStatus) (tring : TxRing) (txBuf : Nat)
    (bufs : TxBufs) : Handled :=
  let plan := usbTxAggPreprocess bus tring ringSts.reqBusy
  let s := xmitLoop bus plan ringSts tring answers.fillWd ringSts.reqBusy (Xmit.start tring)
  let sent := s.pstatus && answers.usbTx
  {tring := {tring with entry:=s.entry, phlIdx:=s.phlIdx, phlNextIdx:=s.phlNextIdx}
   bufs := if sent then {bufs with inFlight:=bufs.inFlight ++ [txBuf]} else bufs.enqueue tring.tid txBuf
   pieces := s.pieces
   submission := if s.pstatus then
       some (Submission.mk (bus.bulkoutId tring.dmaCh) s.txLen (if s.type = .data ∧ s.aggCnt > 1 then some s.aggCnt else none))
     else none
   sent := sent}
end

def TxRing.avail (tring : TxRing) : Idx :=
  ⟨phlCalcAvailRptr tring.phlIdx tring.coreIdx maxPhlRingEntryNum,by
    have read := tring.phlIdx.isLt
    have written := tring.coreIdx.isLt
    rw [Rings.phlCalcAvailRptr_exact read written Rings.ring_u16]
    split <;> omega⟩

def TxRing.checked (tring : TxRing) : TxRing :=
  if tring.avail.val = 0 then tring else {tring with phlNextIdx:=bump tring.phlIdx}

theorem ahead_zero (idx : Idx) : ahead idx 0 = idx := Fin.ext (mod_eq_of_lt idx.isLt)

theorem ahead_ahead (idx : Idx) (m n : Nat) : ahead (ahead idx m) n = ahead idx (m+n) := by
  apply Fin.ext
  simp only [ahead,mod_add_mod,add_assoc]

theorem bump_ahead (idx : Idx) : bump idx = ahead idx 1 := by
  apply Fin.ext
  have inside := idx.isLt
  simp only [bump,ahead,Rings.bump]
  split
  · rw [show idx.val + 1 = maxPhlRingEntryNum by omega,mod_self]
  · exact (mod_eq_of_lt (by omega)).symm

theorem ahead_injective {idx : Idx} {m n : Nat} (first : m < maxPhlRingEntryNum) (second : n < maxPhlRingEntryNum)
    (same : ahead idx m = ahead idx n) : m = n := by
  have values := congrArg Fin.val same
  have inside := idx.isLt
  simp only [ahead,maxPhlRingEntryNum] at values first second inside
  omega

@[simp] theorem align8_zero : align8 0 = 0 := by decide
theorem align8_le (len : Nat) : len ≤ align8 len := by unfold align8; omega
theorem align8_lt (len : Nat) : align8 len < len + 8 := by unfold align8; omega
theorem align8_mod (len : Nat) : align8 len % 8 = 0 := mul_mod_left _ _

theorem align8_add (start len : Nat) (aligned : start % 8 = 0) : align8 (start+len) = start + align8 len := by
  unfold align8
  omega

theorem copied_le (txReq : XmitReq) : txReq.copied ≤ txReq.totalLen := by
  rw [txReq.summed]
  exact (List.filter_sublist.map PktBuf.length).sum_le_sum (fun _ _ => zero_le _)

theorem desc_le (txReq : XmitReq) : 24 ≤ macTxdescLen txReq.mdata ∧ macTxdescLen txReq.mdata ≤ txReq.wdLen := by
  unfold macTxdescLen XmitReq.wdLen maxWdLen maxWdBodyLen
  rcases txReq.flagged with off | on
  · simp [off]
  · simp [on]
    split <;> omega

section
variable (txReq : XmitReq) (ringSts : RingStatus) (tring : TxRing) (dummy : Bool)

@[simp] theorem fill_type :
    (txReq.fill ringSts tring dummy).mdata.type = txReq.mdata.type := rfl
@[simp] theorem fill_totalLen :
    (txReq.fill ringSts tring dummy).totalLen = txReq.totalLen := rfl
@[simp] theorem fill_wdLen :
    (txReq.fill ringSts tring dummy).wdLen = txReq.wdLen := rfl
@[simp] theorem fill_desc :
    macTxdescLen (txReq.fill ringSts tring dummy).mdata = macTxdescLen txReq.mdata := rfl
@[simp] theorem fill_copied :
    (txReq.fill ringSts tring dummy).copied = txReq.copied := rfl
@[simp] theorem fill_offset :
    (txReq.fill ringSts tring dummy).mdata.usbPktOfst = 1 ↔ txReq.mdata.usbPktOfst == 1 || dummy := by
  cases dummy <;> simp [XmitReq.fill]
end

def XmitReq.plain (type : PacketType) (len : Nat) (short : len < 2 ^ 16) : XmitReq where
  mdata := ⟨type,0,0,0,0,0,0,0,0,0⟩
  pktList := [⟨some 0,len⟩]
  totalLen := len
  flagged := .inl rfl
  listed := by simp [numPktListPerTxreq]
  halfword := by simpa using short
  summed := by simp

def TxRing.holding (first rest : XmitReq) : TxRing :=
  {tid:=0, dmaCh:=0, entry:=fun idx => some (if idx.val = 1 then first else rest), coreIdx:=2, phlIdx:=0, phlNextIdx:=1}

def Bus.usual : Bus := ⟨20480,512,10,id,by decide⟩

end Rtl8852au.UsbTx
