import Rtl8852au.Words
import Mathlib.Data.Nat.Find

namespace Rtl8852au.C2hParse
open Words Nat Option

def fwcmdHdrLen : Nat := 8
def fwcmdTypeC2h : Nat := 1
def catTest : Nat := 0
def catMac : Nat := 1
def catOutsrc : Nat := 2
def h2cClPs : Nat := 2
def h2cClAddrCamUpdate : Nat := 6
def h2cClMediaRpt : Nat := 8
def h2cFuncP2pAct : Nat := 1
def h2cFuncFwroleMaintain : Nat := 4
def h2cFuncJoininfo : Nat := 0
def h2cFuncAddrcamInfo : Nat := 0
def h2cFuncResetMccGroup : Nat := 4
def h2cFuncMccReqTsf : Nat := 5
def h2cFuncMccSetDuration : Nat := 8
def pktOfldOpAdd : Nat := 0
def pktOfldOpDel : Nat := 1
def pktOfldOpRead : Nat := 2
def p2pMaxNum : Nat := 2
def pktOfldMaxCount : Nat := 256
def macAxBandNum : Nat := 2
def macAxPortNum : Nat := 5
def mccGroupNum : Nat := 4
def eMallocMax : Nat := 23
def eMallocTypeMax : Nat := 3
def isrStatisticMax : Nat := 31
def msg8852aLast : Nat := 53
def maxReadSize : Nat := 1984

def pktOfldHdrSize : Nat := 4
def aoacReportSize : Nat := 144
def flashInfoSize : Nat := 20
def memInfoSize : Nat := 4

inductive MacRet where
  | success
  | noItem
  | bufAlloc
  | procErr
  | cmp
  | fwStatusFail
  | roleAlocFl
  | roleInitFl
  | roleHwUpdFl
  deriving DecidableEq

-- `read` is a stretch of the packet, `length` a length from which the header is
-- taken away, `index` a place in a table of the adapter with the table's size and
-- `wild` a read behind a pointer that does not point into the packet.
inductive Access where
  | read (pos count : Nat)
  | length (total : Nat)
  | index (place size : Nat)
  | wild
  deriving DecidableEq

structure Run where
  ret : MacRet
  accesses : List Access

structure Adapter where
  malloc : Bool
  p2pBusy : Bool
  waitDack : Nat → Bool
  efuseOfldRcvd : Bool
  efuseBuf : Bool
  efuseSize : U32
  aoacRptRcvd : Bool
  fwcmdLbData : Option (Nat → U8)
  readAddr : U32
  reading : Bool
  bufAddr : Bool
  room : Nat → U32
  prints : Nat → Nat → Bool

def getField (val : U32) (sh width : Nat) : Nat := (val.extractLsb' sh width).toNat

section
variable (mem : Nat → U8)

def hdrCat : Nat := getField (dword mem 0) 0 2
def hdrClass : Nat := getField (dword mem 0) 2 6
def hdrFunc : Nat := getField (dword mem 0) 8 8
def hdrDelType : Nat := getField (dword mem 0) 16 4
def hdrTotalLen : Nat := getField (dword mem 4) 0 14
def contentLen : U16 := BitVec.ofNat 16 (hdrTotalLen mem) - BitVec.ofNat 16 fwcmdHdrLen

-- The loops that end at what they read, run for a number of steps.
def scan (head : Nat → List Access) (stop : Nat → Bool) (stride : Nat) : Nat → Nat → List Access
  | 0,_ => []
  | steps+1,pos => head pos ++ if stop pos then [] else scan head stop stride steps (pos+stride)

def text (steps pos : Nat) : List Access := scan (fun pos => [.read pos 1]) (mem · == 0) 1 steps pos
def terminated (len : U32) (pos : Nat) : U8 := if pos = (len-1).toNat then 0 else mem pos

-- The table of log texts; only two of them print a string.
def fwLog8852a : List (Nat × Bool) :=
  (List.range msg8852aLast).map (fun msgno => (msgno,decide (msgno = 2 ∨ msgno = 6))) ++ [(msg8852aLast,false)]

def fwLogScanArray (msgno : U32) : Nat :=
  if msg8852aLast ≤ msgno.toNat then 0 else (fwLog8852a.findIdx? fun row => row.1 = msgno.toNat).getD 0

def fwLogString (idx : Nat) : Bool := (fwLog8852a[idx]?.map (·.2)).getD false

def fwLogMsgno : U32 :=
  ((mem 12).setWidth 32 &&& 0xff) ||| ((mem 13).setWidth 32 &&& 0xff <<< 8) |||
    ((mem 14).setWidth 32 &&& 0xff <<< 16) ||| ((mem 15).setWidth 32 &&& 0xff <<< 24)

def fwLogIsint : Bool := (mem 10 >>> 1).getLsbD 1
def fwLogParanumIdx : Bool := (mem 10 >>> 1).getLsbD 0
def fwLogParaNum : Nat := if fwLogParanumIdx mem then (mem 19).toNat else 0
end

def fwLogIntDump (a : Adapter) (idx paraNum : Nat) : List Access :=
  if a.malloc then
    .index idx fwLog8852a.length ::
      (if paraNum ≤ 16 then (List.range paraNum).map fun i => .read (20 + 4*i) 4 else []) ++
      if fwLogString idx then [.wild] else []
  else []

section
variable (a : Adapter) (mem : Nat → U8)

def fwLogDump (len : U32) (steps : Nat) : List Access :=
  let idx := fwLogScanArray (fwLogMsgno mem)
  (List.range 9).map (fun i => .read (10 + i) 1) ++ (if fwLogParanumIdx mem then [.read 19 1] else []) ++
    if fwLogIsint mem = false ∧ fwLogParaNum mem ≠ 0 ∧ idx ≠ 0 then
      if a.malloc then
        .read (len-1).toNat 1 :: .index idx fwLog8852a.length ::
          if fwLogString idx then text (terminated mem len) steps 20 else []
      else []
    else if idx ≠ 0 then fwLogIntDump a idx (fwLogParaNum mem) else []

def fwLogEncoded (mem : Nat → U8) (len : U32) : Bool :=
  11 ≤ (len - BitVec.ofNat 32 fwcmdHdrLen).toNat && mem 8 == 0xa5 && mem 9 == 0xa5

def c2hFwiCmdLog (len : U32) (steps : Nat) : Run :=
  ⟨.success,.length len.toNat ::
    (if 11 ≤ (len - BitVec.ofNat 32 fwcmdHdrLen).toNat then [.read 8 1,.read 9 1] else []) ++
    if fwLogEncoded mem len then fwLogDump a mem len steps
    else .read (len-1).toNat 1 :: text (terminated mem len) steps 8⟩

def c2hFwiRevAck : Run := ⟨.success,[.read 8 4]⟩

-- Two entries that wait are an error; none is an invalid identifier.
def getWaitDackP2pid (waitDack : Nat → Bool) : Nat → Nat → Option Nat → Option (Option Nat) × List Access
  | 0,_,hit => (some hit,[])
  | n+1,idx,hit =>
    if waitDack idx ∧ hit ≠ none then (none,[.index idx p2pMaxNum])
    else
      let rest := getWaitDackP2pid waitDack n (idx+1) (if waitDack idx then some idx else hit)
      (rest.1,.index idx p2pMaxNum :: rest.2)

def c2hPsDoneAckHdl (a : Adapter) (func h2cReturn : Nat) : Run :=
  if func ≠ h2cFuncP2pAct then ⟨.success,[]⟩
  else if a.p2pBusy = false then ⟨.procErr,[]⟩
  else if h2cReturn ≠ 0 then ⟨.success,[]⟩
  else match getWaitDackP2pid a.waitDack p2pMaxNum 0 none with
    | (none,accesses) => ⟨.procErr,accesses⟩
    | (some none,accesses) => ⟨.success,accesses⟩
    | (some (some p2pid),accesses) => ⟨.success,accesses ++ [.index p2pid p2pMaxNum]⟩

def c2hRoleDoneAckHdl (cls func h2cReturn : Nat) : MacRet :=
  if cls = h2cClMediaRpt ∧ func = h2cFuncFwroleMaintain then if h2cReturn = 0 then .success else .roleAlocFl
  else if cls = h2cClMediaRpt ∧ func = h2cFuncJoininfo then if h2cReturn = 0 then .success else .roleInitFl
  else if cls = h2cClAddrCamUpdate ∧ func = h2cFuncAddrcamInfo then if h2cReturn = 0 then .success else .roleHwUpdFl
  else .success

def c2hFwiDoneAck : Run :=
  let data := dword mem 8
  let cls := getField data 2 6
  let func := getField data 8 8
  let h2cReturn := getField data 16 8
  if getField data 0 2 ≠ catMac then ⟨.success,[.read 8 4]⟩
  else if cls = h2cClPs then
    let run := c2hPsDoneAckHdl a func h2cReturn
    ⟨run.ret,.read 8 4 :: run.accesses⟩
  else ⟨c2hRoleDoneAckHdl cls func h2cReturn,[.read 8 4]⟩

def c2hDumpEfuseHdl (a : Adapter) : Run :=
  if a.efuseOfldRcvd = false then ⟨.procErr,[]⟩
  else if a.efuseBuf = false ∧ a.malloc = false then ⟨.bufAlloc,[]⟩
  else ⟨.success,[.read 8 a.efuseSize.toNat]⟩

def c2hReadRspHdl : Run :=
  let head : List Access := [.read 4 4,.length (hdrTotalLen mem)]
  if a.malloc = false then ⟨.bufAlloc,head⟩ else ⟨.success,head ++ [.read 8 (contentLen mem).toNat]⟩

def pktOfldRspId (mem : Nat → U8) : Nat := getField (dword mem 8) 0 8
def pktOfldRspOp (mem : Nat → U8) : Nat := getField (dword mem 8) 8 3
def pktOfldRspLength (mem : Nat → U8) : Nat := getField (dword mem 8) 16 16

def c2hPktOfldRspHdl : Run :=
  if pktOfldRspLength mem = 0 then ⟨.success,[.read 8 4]⟩
  else if pktOfldRspOp mem = pktOfldOpAdd ∨ pktOfldRspOp mem = pktOfldOpDel then
    ⟨.success,[.read 8 4,.index (pktOfldRspId mem >>> 3) (pktOfldMaxCount >>> 3)]⟩
  else if pktOfldRspOp mem = pktOfldOpRead then
    if a.malloc = false then ⟨.bufAlloc,[.read 8 4]⟩
    else ⟨.success,[.read 8 4,.read (8 + pktOfldHdrSize) (pktOfldRspLength mem)]⟩
  else ⟨.success,[.read 8 4]⟩

def getBpIdx (band port : Nat) : Nat := band*macAxBandNum + port

section
variable (mem : Nat → U8)

-- The handlers that report about a port of a band read three words and look the
-- two up in a table of all ports.
def portRpt : Run :=
  let band := getField (dword mem 8) 0 1
  let port := getField (dword mem 8) 1 3
  let words : List Access := [.read 8 4,.read 12 4,.read 16 4]
  if macAxBandNum ≤ band then ⟨.noItem,words⟩
  else if macAxPortNum ≤ port then ⟨.noItem,words⟩
  else ⟨.success,words ++ [.index (getBpIdx band port) (macAxBandNum*macAxPortNum)]⟩

def c2hTsf32ToglRptHdl : Run := portRpt mem
def c2hPortInitStat : Run := portRpt mem
def c2hPortCfgStat : Run := portRpt mem
def cmdOfldRspResult : Bool := (dword mem 8).getLsbD 0

def c2hCmdOfldRspHdl : Run := ⟨.success,.read 8 4 :: if cmdOfldRspResult mem then [.read 12 4,.read 16 4,.read 20 4] else []⟩

def c2hWowAoacReportHdl (a : Adapter) : Run :=
  if a.aoacRptRcvd = false then ⟨.procErr,[]⟩
  else if a.malloc = false then ⟨.bufAlloc,[]⟩
  else ⟨.success,[.read 8 aoacReportSize]⟩

def c2hMccRcvAckHdl : Run :=
  let group := getField (dword mem 8) 0 2
  let h2cFunc := getField (dword mem 8) 8 8
  -- The states of the groups and those of the requests are two tables of one size.
  if h2cFunc ≤ h2cFuncResetMccGroup then ⟨.success,[.read 8 4,.index group mccGroupNum]⟩
  else if h2cFunc ≤ h2cFuncMccSetDuration then ⟨.success,[.read 8 4,.index group mccGroupNum]⟩
  else ⟨.noItem,[.read 8 4]⟩

def c2hMccReqAckHdl : Run :=
  let group := getField (dword mem 8) 0 2
  let h2cFunc := getField (dword mem 8) 8 8
  if h2cFunc < h2cFuncMccReqTsf then ⟨.noItem,[.read 8 4]⟩ else ⟨.success,[.read 8 4,.index group mccGroupNum]⟩

def c2hMccTsfRptHdl : Run :=
  ⟨.success,[.read 8 4,.index (getField (dword mem 8) 16 2) mccGroupNum,.read 12 4,.read 16 4,.read 20 4,.read 24 4]⟩

def c2hMccStatusRptHdl : Run := ⟨.success,[.read 8 4,.read 12 4,.read 16 4,.index (getField (dword mem 8) 6 2) mccGroupNum]⟩
end

def c2hFastChSwRptHdl : Run := ⟨.success,[.read 8 4]⟩

def flashCopies : Bool := dword mem 8 == a.readAddr && a.reading && a.bufAddr && (dword mem 12).toNat ≤ maxReadSize

def c2hSysFlashPkt : Run :=
  ⟨.success,.read 0 4 ::
    if hdrFunc mem = 2 then
      [.read 8 4,.read 12 4] ++
        if flashCopies a mem then (List.range ((dword mem 12).toNat / 4)).map fun i => .read (16 + 4*i) 4 else []
    else if hdrFunc mem = 0 ∨ hdrFunc mem = 1 then [.read 8 4,.read 12 4]
    else []⟩

def c2hSysCmdLb : Run :=
  match a.fwcmdLbData with
  | none => ⟨.success,[]⟩
  | some lbData =>
    if hdrTotalLen mem ≠ hdrTotalLen lbData then ⟨.cmp,[.read 4 4]⟩
    else
      let count := (BitVec.ofNat 32 (hdrTotalLen mem) - BitVec.ofNat 32 fwcmdHdrLen).toNat
      ⟨if (List.range count).all (fun i => mem (8 + i) == lbData (8 + i)) then .success else .cmp,
        [.read 4 4,.length (hdrTotalLen mem),.read 8 count]⟩

def memInfo (entry pos : Nat) : List Access :=
  .read (pos+2) 2 ::
    if hword mem (pos+2) ≠ 0 ∧ a.prints entry pos then
      [.read pos 2,.index (mem pos).toNat eMallocMax,.index (mem (pos+1)).toNat eMallocTypeMax]
    else []

-- The blocks of the firmware's heap follow each other up to one of no size.
def memInfos (entry steps pos : Nat) : List Access := scan (memInfo a mem entry) (fun pos => hword mem (pos+2) == 0) memInfoSize steps pos

def isrInfos (a : Adapter) (entry pos : Nat) : List Access :=
  (List.range isrStatisticMax).flatMap fun i =>
    if a.prints entry (pos + 4*i) then
      [.index i isrStatisticMax,.read (pos + 4*i) 4,.read (pos + 4 * (isrStatisticMax+i)) 4,
        .read (pos + 4 * (2*isrStatisticMax + i)) 4]
    else []

def fwStatusProc (entry steps opCode pos : Nat) (length : U32) (ret : MacRet) : Run :=
  let shown (accesses : List Access) : Run :=
    if (a.room entry).toNat < length.toNat then ⟨.fwStatusFail,[]⟩ else ⟨.success,accesses⟩
  match opCode with
  | 0 => shown (if a.prints entry pos then text mem steps pos else [])
  | 1 => shown [.read pos flashInfoSize]
  | 2 => shown (if a.prints entry pos then text mem steps pos else [])
  | 3 => shown (memInfos a mem entry steps pos)
  | 4 => shown (memInfos a mem entry steps pos)
  | 5 => ⟨.fwStatusFail,[]⟩
  | 6 => ⟨.fwStatusFail,[]⟩
  | 7 => shown (isrInfos a entry pos)
  | _ => ⟨ret,[]⟩

def entryOpCode (mem : Nat → U8) (pos : Nat) : Nat := getField (dword mem pos) 0 16
def entryLength (mem : Nat → U8) (pos : Nat) : U32 := dword mem (pos+4)

def fwStatusPkts (a : Adapter) (mem : Nat → U8) (steps : Nat) : Nat → Nat → MacRet → Run
  | 0,_,ret => ⟨ret,[]⟩
  | n+1,pos,ret =>
    let length := entryLength mem pos
    let proc := fwStatusProc a mem n steps (entryOpCode mem pos) (pos+8) length ret
    let rest := fwStatusPkts a mem steps n (pos + 8 + length.toNat) proc.ret
    ⟨rest.ret,.read pos 4 :: .read (pos+4) 4 :: proc.accesses ++ rest.accesses⟩

def c2hFwStatus (steps : Nat) : Run :=
  if hdrFunc mem = 0 then
    let run := fwStatusPkts a mem steps (dword mem 8).toNat 12 .success
    ⟨run.ret,.read 0 4 :: .read 8 4 :: run.accesses⟩
  else ⟨.success,[.read 0 4]⟩

inductive Handler where
  | fwiRevAck
  | fwiDoneAck
  | fwiCmdLog
  | fwiBcnStats
  | fwiBcnCsazero
  | dumpEfuse
  | readRsp
  | pktOfldRsp
  | beaconResend
  | macidPause
  | tsf32ToglRpt
  | cmdOfldRsp
  | twt
  | wowAoacReport
  | mccRcvAck
  | mccReqAck
  | mccTsfRpt
  | mccStatusRpt
  | rxDbg
  | sysFlashPkt
  | wpsRpt
  | miscCcxrpt
  | fastChSwRpt
  | portInitStat
  | portCfgStat
  | sysCmdLb
  | sysPlatAutotest
  | fwStatus

def Handler.run (len : U32) (steps : Nat) : Handler → Run
  | .fwiRevAck => c2hFwiRevAck
  | .fwiDoneAck => c2hFwiDoneAck a mem
  | .fwiCmdLog => c2hFwiCmdLog a mem len steps
  | .dumpEfuse => c2hDumpEfuseHdl a
  | .readRsp => c2hReadRspHdl a mem
  | .pktOfldRsp => c2hPktOfldRspHdl a mem
  | .tsf32ToglRpt => c2hTsf32ToglRptHdl mem
  | .cmdOfldRsp => c2hCmdOfldRspHdl mem
  | .wowAoacReport => c2hWowAoacReportHdl a
  | .mccRcvAck => c2hMccRcvAckHdl mem
  | .mccReqAck => c2hMccReqAckHdl mem
  | .mccTsfRpt => c2hMccTsfRptHdl mem
  | .mccStatusRpt => c2hMccStatusRptHdl mem
  | .sysFlashPkt => c2hSysFlashPkt a mem
  | .fastChSwRpt => c2hFastChSwRptHdl
  | .portInitStat => c2hPortInitStat mem
  | .portCfgStat => c2hPortCfgStat mem
  | .sysCmdLb => c2hSysCmdLb a mem
  | .sysPlatAutotest => ⟨.success,[.read 0 4]⟩
  | .fwStatus => c2hFwStatus a mem steps
  -- These handlers only answer.
  | .fwiBcnStats => ⟨.success,[]⟩
  | .fwiBcnCsazero => ⟨.success,[]⟩
  | .beaconResend => ⟨.success,[]⟩
  | .macidPause => ⟨.success,[]⟩
  | .twt => ⟨.success,[]⟩
  | .rxDbg => ⟨.success,[]⟩
  | .wpsRpt => ⟨.success,[]⟩
  | .miscCcxrpt => ⟨.success,[]⟩

inductive ClassProc where
  | funcs (table : List (Nat × Handler))
  | handler (proc : Handler)

def c2hProcSys : List (Nat × ClassProc) := [(0,.funcs [(0,.sysCmdLb)]),(2,.handler .sysPlatAutotest),(4,.handler .fwStatus)]

def c2hProcMac : List (Nat × ClassProc) :=
  [(0,.funcs [(0,.fwiRevAck),(1,.fwiDoneAck),(2,.fwiCmdLog),(3,.fwiBcnStats),(4,.fwiBcnCsazero)])
  ,(1,.funcs [(0,.dumpEfuse),(1,.readRsp),(2,.pktOfldRsp),(3,.beaconResend),(4,.macidPause),(6,.tsf32ToglRpt)
    ,(8,.cmdOfldRsp)])
  ,(2,.handler .twt)
  ,(3,.funcs [(0,.wowAoacReport)])
  ,(4,.funcs [(0,.mccRcvAck),(1,.mccReqAck),(2,.mccTsfRpt),(3,.mccStatusRpt)])
  ,(5,.funcs [(0,.rxDbg)])
  ,(6,.handler .sysFlashPkt)
  ,(9,.funcs [(0,.wpsRpt),(1,.miscCcxrpt)])
  ,(8,.funcs [(0,.fastChSwRpt)])
  ,(10,.funcs [(0,.portInitStat),(1,.portCfgStat)])]

def c2hProcSel (cat : Nat) : Option (List (Nat × ClassProc)) :=
  if cat = catTest then some c2hProcSys else if cat = catMac then some c2hProcMac else none

def ClassProc.run (a : Adapter) (mem : Nat → U8) (len : U32) (steps : Nat) : ClassProc → Run
  | .handler proc => proc.run a mem len steps
  | .funcs table => match table.lookup (hdrFunc mem) with
    | none => ⟨.noItem,[.read 0 4]⟩
    | some proc =>
      let run := proc.run a mem len steps
      ⟨run.ret,.read 0 4 :: run.accesses⟩

def c2hFieldParsing (mem : Nat → U8) : List Access := [.read 0 4,.read 4 4,.length (hdrTotalLen mem)]

def macProcessC2h (len : U32) (steps : Nat) : Run :=
  let head := .read 0 4 :: c2hFieldParsing mem
  if hdrDelType mem ≠ fwcmdTypeC2h then ⟨.noItem,head⟩
  else if hdrCat mem = catOutsrc then ⟨.success,head⟩
  else match (c2hProcSel (hdrCat mem)).bind (·.lookup (hdrClass mem)) with
    | none => ⟨.noItem,head⟩
    | some proc =>
      let run := proc.run a mem len steps
      ⟨run.ret,head ++ run.accesses⟩

def Access.Inside (len : Nat) : Access → Prop
  | .read pos count => count = 0 ∨ pos + count ≤ len
  | .length total => fwcmdHdrLen ≤ total
  | .index place size => place < size
  | .wild => False

def AllInside (len : Nat) (accesses : List Access) : Prop := ∀ access ∈ accesses, access.Inside len

def LengthSafe (len : U32) : Prop := ∀ steps, AllInside len.toNat (macProcessC2h a mem len steps).accesses

def chosen (mem : Nat → U8) : Option Handler :=
  if hdrDelType mem ≠ fwcmdTypeC2h then none
  else ((c2hProcSel (hdrCat mem)).bind (·.lookup (hdrClass mem))).bind fun
    | .handler proc => some proc
    | .funcs table => table.lookup (hdrFunc mem)

def TextFits (mem : Nat → U8) (len pos : Nat) : Prop := ∃ last, pos ≤ last ∧ last < len ∧ mem last = 0

def MemInfosFit (len entry pos : Nat) : Prop :=
  ∃ n, pos + memInfoSize * (n+1) ≤ len ∧ hword mem (pos + memInfoSize*n + 2) = 0 ∧ ∀ i < n,
    hword mem (pos + memInfoSize*i + 2) ≠ 0 ∧ (a.prints entry (pos + memInfoSize*i) →
      (mem (pos + memInfoSize*i)).toNat < eMallocMax ∧ (mem (pos + memInfoSize*i + 1)).toNat < eMallocTypeMax)

def EntryFits (len entry pos opCode : Nat) : Prop :=
  match opCode with
  | 0 => a.prints entry pos → TextFits mem len pos
  | 1 => pos + flashInfoSize ≤ len
  | 2 => a.prints entry pos → TextFits mem len pos
  | 3 => MemInfosFit a mem len entry pos
  | 4 => MemInfosFit a mem len entry pos
  | 7 => ∀ i < isrStatisticMax, a.prints entry (pos + 4*i) → pos + 4 * (2*isrStatisticMax + i) + 4 ≤ len
  | _ => True

def EntriesFit (a : Adapter) (mem : Nat → U8) (len : Nat) : Nat → Nat → Prop
  | 0,_ => True
  | n+1,pos => pos+8 ≤ len ∧
    ((entryLength mem pos).toNat ≤ (a.room n).toNat → EntryFits a mem len n (pos+8) (entryOpCode mem pos)) ∧
    EntriesFit a mem len n (pos + 8 + (entryLength mem pos).toNat)

def LogFits (len : Nat) : Prop :=
  let idx := fwLogScanArray (fwLogMsgno mem)
  (fwLogParanumIdx mem → 20 ≤ len) ∧
    (idx ≠ 0 → a.malloc →
      if fwLogIsint mem = false ∧ fwLogParaNum mem ≠ 0 then fwLogString idx → 21 ≤ len
      else fwLogString idx = false ∧ (fwLogParaNum mem ≤ 16 → fwLogParaNum mem ≠ 0 → 20 + 4 * fwLogParaNum mem ≤ len))

def Handler.Fits (len : U32) : Handler → Prop
  | .fwiRevAck | .fwiDoneAck | .mccRcvAck | .mccReqAck | .fastChSwRpt => 12 ≤ len.toNat
  | .tsf32ToglRpt | .portInitStat | .portCfgStat | .mccStatusRpt => 20 ≤ len.toNat
  | .mccTsfRpt => 28 ≤ len.toNat
  | .fwiCmdLog => if fwLogEncoded mem len then LogFits a mem len.toNat else 9 ≤ len.toNat
  | .dumpEfuse => a.efuseOfldRcvd → a.efuseBuf ∨ a.malloc →
      fwcmdHdrLen + a.efuseSize.toNat ≤ len.toNat
  | .readRsp => a.malloc → hdrTotalLen mem ≤ len.toNat
  | .pktOfldRsp => 12 ≤ len.toNat ∧ (pktOfldRspOp mem = pktOfldOpRead → pktOfldRspLength mem ≠ 0 → a.malloc →
      12 + pktOfldRspLength mem ≤ len.toNat)
  | .cmdOfldRsp => (if cmdOfldRspResult mem then 24 else 12) ≤ len.toNat
  | .wowAoacReport => a.aoacRptRcvd → a.malloc → fwcmdHdrLen + aoacReportSize ≤ len.toNat
  | .sysFlashPkt => hdrFunc mem ≤ 2 → 16 ≤ len.toNat ∧ (hdrFunc mem = 2 → flashCopies a mem →
      16 + 4 * ((dword mem 12).toNat / 4) ≤ len.toNat)
  | .sysCmdLb => ∀ lbData, a.fwcmdLbData = some lbData → hdrTotalLen mem = hdrTotalLen lbData →
      hdrTotalLen mem ≤ len.toNat
  | .fwStatus => hdrFunc mem = 0 → 12 ≤ len.toNat ∧ EntriesFit a mem len.toNat (dword mem 8).toNat 12
  | .fwiBcnStats | .fwiBcnCsazero | .beaconResend | .macidPause | .twt | .rxDbg | .wpsRpt | .miscCcxrpt
  | .sysPlatAutotest => True

def PacketFits (len : U32) : Prop :=
  fwcmdHdrLen ≤ len.toNat ∧ fwcmdHdrLen ≤ hdrTotalLen mem ∧
    ∀ handler, chosen mem = some handler → handler.Fits a mem len
end

@[simp] theorem allInside_nil (len : Nat) : AllInside len [] := by simp [AllInside]

@[simp] theorem allInside_cons {access : Access} :
    AllInside len (access :: accesses) ↔ access.Inside len ∧ AllInside len accesses := by simp [AllInside]

@[simp] theorem allInside_append : AllInside len (one ++ two) ↔ AllInside len one ∧ AllInside len two := by
  simp only [AllInside,List.mem_append]
  exact ⟨fun all => ⟨fun access inside => all access (.inl inside),fun access inside => all access (.inr inside)⟩,
    fun ⟨first,second⟩ access inside => inside.elim (first access) (second access)⟩

@[simp] theorem inside_read {count : Nat} : (Access.read pos count).Inside len ↔ count = 0 ∨ pos + count ≤ len := Iff.rfl
@[simp] theorem inside_length {len total : Nat} : (Access.length total).Inside len ↔ fwcmdHdrLen ≤ total := Iff.rfl
@[simp] theorem inside_index {len place size : Nat} : (Access.index place size).Inside len ↔ place < size := Iff.rfl
@[simp] theorem inside_wild : ¬ Access.wild.Inside len := id

theorem allInside_range {count : Nat} {access : Nat → Access} :
    AllInside len ((List.range count).map access) ↔ ∀ i < count, (access i).Inside len := by
  simp [AllInside]

theorem allInside_flatMap {count : Nat} : AllInside len ((List.range count).flatMap accesses) ↔ ∀ i < count, AllInside len (accesses i) := by
  simp only [AllInside,List.mem_flatMap,List.mem_range,forall_exists_index,and_imp]
  exact ⟨fun all i small access inside => all access i small inside,
    fun all access i small inside => all i small access inside⟩

theorem words_inside {count : Nat} :
    AllInside len ((List.range count).map fun i => .read (pos + 4*i) 4) ↔ count = 0 ∨ pos + 4*count ≤ len := by
  simp only [allInside_range,inside_read]
  constructor
  · intro all
    by_cases none : count = 0
    · exact .inl none
    · have last := all (count-1) (by omega)
      omega
  · intro enough i small
    omega

theorem getField_lt (val : U32) (sh width : Nat) : getField val sh width < 2 ^ width := (val.extractLsb' sh width).isLt
theorem totalLen_lt (mem : Nat → U8) : hdrTotalLen mem < 2 ^ 14 := getField_lt _ _ _

theorem contentLen_toNat (whole : fwcmdHdrLen ≤ hdrTotalLen mem) : (contentLen mem).toNat = hdrTotalLen mem - fwcmdHdrLen := by
  have small := totalLen_lt mem
  simp only [contentLen,fwcmdHdrLen] at *
  rw [BitVec.toNat_sub]
  simp only [BitVec.toNat_ofNat]
  omega

theorem scan_inside (moves : 0 < stride) (looks : ∀ pos, AllInside len (head pos) → pos < len) (pos : Nat) :
    (∀ steps, AllInside len (scan head stop stride steps pos)) ↔
      ∃ n, stop (pos + stride*n) ∧ AllInside len (head (pos + stride*n)) ∧
        ∀ i < n, stop (pos + stride*i) = false ∧ AllInside len (head (pos + stride*i)) := by
  constructor
  · intro all
    induction h : len - pos using Nat.strong_induction_on generalizing pos with
    | _ left ih =>
      have here : AllInside len (head pos) := by
        have one := all 1
        simp only [scan,allInside_append] at one
        exact one.1
      cases stopped : stop pos with
      | true => exact ⟨0,by simpa using stopped,by simpa using here,by simp⟩
      | false =>
        have rest (steps : Nat) : AllInside len (scan head stop stride steps (pos+stride)) := by
          have next := all (steps+1)
          simp only [scan,stopped,allInside_append] at next
          exact next.2
        have before := looks pos here
        obtain ⟨n,last,lastInside,earlier⟩ := ih (len - (pos+stride)) (by omega) (pos+stride) rest rfl
        have shift (i : Nat) : pos + stride * (i+1) = pos + stride + stride*i := by rw [mul_succ]; omega
        refine ⟨n+1,by rwa [shift],by rwa [shift],?_⟩
        intro i small
        cases i with
        | zero => exact ⟨by simpa using stopped,by simpa using here⟩
        | succ i => rw [shift]; exact earlier i (by omega)
  · rintro ⟨n,last,lastInside,earlier⟩ steps
    induction steps generalizing pos n with
    | zero => simp [scan]
    | succ steps ih =>
      rw [scan,allInside_append]
      cases n with
      | zero =>
        simp only [Nat.mul_zero,Nat.add_zero] at last lastInside
        simp [last,lastInside]
      | succ n =>
        have shift (i : Nat) : pos + stride * (i+1) = pos + stride + stride*i := by rw [mul_succ]; omega
        have first := earlier 0 (by omega)
        simp only [Nat.mul_zero,Nat.add_zero] at first
        refine ⟨first.2,?_⟩
        rw [if_neg (by simp [first.1])]
        refine ih (pos+stride) n (by rwa [← shift]) (by rwa [← shift]) ?_
        intro i small
        rw [← shift]
        exact earlier (i+1) (by omega)

theorem text_inside (pos : Nat) : (∀ steps, AllInside len (text mem steps pos)) ↔ TextFits mem len pos := by
  have looks (pos : Nat) (inside : AllInside len [.read pos 1]) : pos < len := by
    simp at inside
    omega
  rw [show (∀ steps, AllInside len (text mem steps pos)) ↔ _ from scan_inside Nat.one_pos looks pos]
  simp only [beq_iff_eq,Nat.one_mul,allInside_cons,inside_read,allInside_nil,and_true]
  constructor
  · rintro ⟨n,last,inside,_⟩
    exact ⟨pos+n,by omega,by omega,last⟩
  · rintro ⟨last,behind,before,stops⟩
    have some : ∃ n, mem (pos+n) = 0 := ⟨last-pos,by rwa [Nat.add_sub_cancel' behind]⟩
    have first : Nat.find some ≤ last - pos := Nat.find_min' some (by rwa [Nat.add_sub_cancel' behind])
    refine ⟨Nat.find some,Nat.find_spec some,by omega,?_⟩
    intro i small
    exact ⟨by simpa using Nat.find_min some small,by omega⟩

theorem memInfos_inside (entry pos : Nat) :
    (∀ steps, AllInside len (memInfos a mem entry steps pos)) ↔ MemInfosFit a mem len entry pos := by
  have looks (pos : Nat) (inside : AllInside len (memInfo a mem entry pos)) : pos < len := by
    simp only [memInfo,allInside_cons,inside_read] at inside
    omega
  rw [show (∀ steps, AllInside len (memInfos a mem entry steps pos)) ↔ _ from scan_inside (by decide : 0 < memInfoSize) looks pos]
  have block (place : Nat) : AllInside len (memInfo a mem entry place) ↔ place + memInfoSize ≤ len ∧
      (hword mem (place+2) ≠ 0 → a.prints entry place →
        (mem place).toNat < eMallocMax ∧ (mem (place+1)).toNat < eMallocTypeMax) := by
    simp only [memInfo,allInside_cons,inside_read,memInfoSize]
    by_cases shows : hword mem (place+2) ≠ 0 ∧ a.prints entry place
    · rw [if_pos shows]
      simp only [allInside_cons,inside_read,inside_index,allInside_nil,and_true,shows.1,shows.2,ne_eq,not_false_eq_true,
        forall_const]
      omega
    · rw [if_neg shows]
      simp only [allInside_nil,and_true]
      have quiet (size : hword mem (place+2) ≠ 0) (prints : a.prints entry place) : False := shows ⟨size,prints⟩
      exact ⟨fun enough => ⟨by omega,fun size prints => (quiet size prints).elim⟩,fun enough => by omega⟩
  unfold MemInfosFit
  refine exists_congr fun n => ?_
  simp only [block,beq_iff_eq,beq_eq_false_iff_ne]
  constructor
  · rintro ⟨last,⟨enough,_⟩,earlier⟩
    refine ⟨by rw [mul_succ]; omega,last,fun i small => ?_⟩
    obtain ⟨size,_,names⟩ := earlier i small
    exact ⟨size,names size⟩
  · rintro ⟨enough,last,earlier⟩
    rw [mul_succ] at enough
    refine ⟨last,⟨by omega,fun size => absurd last size⟩,?_⟩
    intro i small
    have before : memInfoSize*i ≤ memInfoSize*n := mul_le_mul_left _ (le_of_lt small)
    exact ⟨(earlier i small).1,by omega,fun _ => (earlier i small).2⟩

theorem portRpt_inside : AllInside len (portRpt mem).accesses ↔ 20 ≤ len := by
  have words : AllInside len [.read 8 4,.read 12 4,.read 16 4] ↔ 20 ≤ len := by
    simp only [allInside_cons,inside_read,allInside_nil,and_true]
    omega
  simp only [portRpt]
  split
  · exact words
  · split
    · exact words
    · next band port =>
      have indexed : getBpIdx (getField (dword mem 8) 0 1) (getField (dword mem 8) 1 3) < macAxBandNum*macAxPortNum := by
        simp only [getBpIdx,macAxBandNum,macAxPortNum] at *
        omega
      rw [allInside_append,words]
      simp [indexed]

theorem getWaitDackP2pid_inside (waitDack : Nat → Bool) (len n idx : Nat) (hit : Option Nat)
    (left : idx + n ≤ p2pMaxNum) (found : ∀ p2pid, hit = some p2pid → p2pid < p2pMaxNum) :
    AllInside len (getWaitDackP2pid waitDack n idx hit).2 ∧
      ∀ p2pid, (getWaitDackP2pid waitDack n idx hit).1 = some (some p2pid) → p2pid < p2pMaxNum := by
  induction n generalizing idx hit with
  | zero => exact ⟨by simp [getWaitDackP2pid],fun p2pid same => found p2pid (some.inj same)⟩
  | succ n ih =>
    have here : idx < p2pMaxNum := by omega
    unfold getWaitDackP2pid
    split
    · simp [here]
    · have next (p2pid : Nat) (same : (if waitDack idx then some idx else hit) = some p2pid) : p2pid < p2pMaxNum := by
        split at same
        · cases same; exact here
        · exact found p2pid same
      obtain ⟨inside,valid⟩ := ih (idx+1) _ (by omega) next
      exact ⟨by simp [here,inside],valid⟩

theorem psDoneAck_inside (a : Adapter) (func h2cReturn len : Nat) :
    AllInside len (c2hPsDoneAckHdl a func h2cReturn).accesses := by
  have scanned := getWaitDackP2pid_inside a.waitDack len p2pMaxNum 0 none (le_refl _) (by simp)
  unfold c2hPsDoneAckHdl
  split_ifs
  · simp
  · simp
  · simp
  · split <;> rename_i same <;> rw [same] at scanned
    · exact scanned.1
    · exact scanned.1
    · simp [scanned.1,scanned.2 _ rfl]

theorem doneAck_inside : AllInside len (c2hFwiDoneAck a mem).accesses ↔ 12 ≤ len := by
  simp only [c2hFwiDoneAck]
  split_ifs <;> simp [psDoneAck_inside]

theorem readRsp_inside (enough : fwcmdHdrLen ≤ len) (whole : fwcmdHdrLen ≤ hdrTotalLen mem) :
    AllInside len (c2hReadRspHdl a mem).accesses ↔ (a.malloc → hdrTotalLen mem ≤ len) := by
  have count := contentLen_toNat whole
  simp only [c2hReadRspHdl,fwcmdHdrLen] at *
  cases a.malloc with
  | false => simp [fwcmdHdrLen,whole]; omega
  | true => simp [fwcmdHdrLen,whole]; omega

theorem pktOfldRsp_inside : AllInside len (c2hPktOfldRspHdl a mem).accesses ↔ 12 ≤ len ∧ (pktOfldRspOp mem = pktOfldOpRead →
      pktOfldRspLength mem ≠ 0 → a.malloc → 12 + pktOfldRspLength mem ≤ len) := by
  have id : pktOfldRspId mem >>> 3 < pktOfldMaxCount >>> 3 := by
    have small : pktOfldRspId mem < 256 := getField_lt (dword mem 8) 0 8
    simp only [shiftRight_eq_div_pow,pktOfldMaxCount]
    omega
  unfold c2hPktOfldRspHdl
  split_ifs with empty kept read refused
  · simp [empty]
  · have other : pktOfldRspOp mem ≠ pktOfldOpRead := by
      rcases kept with same | same <;> rw [same] <;> decide
    simp [id,other]
  · simp [refused]
  · simp [read,empty,refused,pktOfldHdrSize]
  · simp [read]

theorem mccRcvAck_inside : AllInside len (c2hMccRcvAckHdl mem).accesses ↔ 12 ≤ len := by
  have group : getField (dword mem 8) 0 2 < mccGroupNum := getField_lt (dword mem 8) 0 2
  simp only [c2hMccRcvAckHdl]
  split_ifs <;> simp [group]

theorem mccReqAck_inside : AllInside len (c2hMccReqAckHdl mem).accesses ↔ 12 ≤ len := by
  have group : getField (dword mem 8) 0 2 < mccGroupNum := getField_lt (dword mem 8) 0 2
  simp only [c2hMccReqAckHdl]
  split_ifs <;> simp [group]

theorem mccTsfRpt_inside : AllInside len (c2hMccTsfRptHdl mem).accesses ↔ 28 ≤ len := by
  have group : getField (dword mem 8) 16 2 < mccGroupNum := getField_lt (dword mem 8) 16 2
  simp only [c2hMccTsfRptHdl,allInside_cons,inside_read,inside_index,group,allInside_nil,and_true,true_and]
  omega

theorem mccStatusRpt_inside : AllInside len (c2hMccStatusRptHdl mem).accesses ↔ 20 ≤ len := by
  have group : getField (dword mem 8) 6 2 < mccGroupNum := getField_lt (dword mem 8) 6 2
  simp only [c2hMccStatusRptHdl,allInside_cons,inside_read,inside_index,group,allInside_nil,and_true]
  omega

theorem cmdOfldRsp_inside : AllInside len (c2hCmdOfldRspHdl mem).accesses ↔ (if cmdOfldRspResult mem then 24 else 12) ≤ len := by
  unfold c2hCmdOfldRspHdl
  cases cmdOfldRspResult mem with
  | false => simp
  | true =>
    simp only [if_true,allInside_cons,inside_read,allInside_nil,and_true]
    omega

theorem dumpEfuse_inside (enough : fwcmdHdrLen ≤ len) :
    AllInside len (c2hDumpEfuseHdl a).accesses ↔ (a.efuseOfldRcvd → a.efuseBuf ∨ a.malloc →
      fwcmdHdrLen + a.efuseSize.toNat ≤ len) := by
  unfold c2hDumpEfuseHdl
  split_ifs with waiting full
  · simp [waiting]
  · simp [full]
  · have kept : a.efuseBuf ∨ a.malloc := by
      cases h : a.efuseBuf <;> cases h' : a.malloc <;> simp_all
    simp only [fwcmdHdrLen,allInside_cons,inside_read,allInside_nil,and_true] at *
    simp only [kept,show a.efuseOfldRcvd = true by simpa using waiting,forall_const]
    omega

theorem aoacReport_inside : AllInside len (c2hWowAoacReportHdl a).accesses ↔
      (a.aoacRptRcvd → a.malloc → fwcmdHdrLen + aoacReportSize ≤ len) := by
  unfold c2hWowAoacReportHdl
  split_ifs with waiting full
  · simp [waiting]
  · simp [full]
  · simp [waiting,full,fwcmdHdrLen,aoacReportSize]

theorem sysFlashPkt_inside (enough : fwcmdHdrLen ≤ len) :
    AllInside len (c2hSysFlashPkt a mem).accesses ↔ (hdrFunc mem ≤ 2 → 16 ≤ len ∧ (hdrFunc mem = 2 →
      flashCopies a mem → 16 + 4 * ((dword mem 12).toNat / 4) ≤ len)) := by
  simp only [fwcmdHdrLen] at enough
  unfold c2hSysFlashPkt
  split_ifs with reads copies writes
  · simp only [reads,copies,allInside_cons,inside_read,allInside_append,words_inside,allInside_nil,and_true,forall_const]
    omega
  · simp only [reads,copies,allInside_cons,inside_read,allInside_append,allInside_nil,and_true,Bool.false_eq_true,
      false_implies,implies_true]
    omega
  · simp only [allInside_cons,inside_read,allInside_nil,and_true]
    omega
  · simp only [allInside_cons,inside_read,allInside_nil,and_true]
    omega

theorem sysCmdLb_inside (enough : fwcmdHdrLen ≤ len) (whole : fwcmdHdrLen ≤ hdrTotalLen mem) :
    AllInside len (c2hSysCmdLb a mem).accesses ↔
      ∀ lbData, a.fwcmdLbData = some lbData → hdrTotalLen mem = hdrTotalLen lbData → hdrTotalLen mem ≤ len := by
  have small := totalLen_lt mem
  have count : (BitVec.ofNat 32 (hdrTotalLen mem) - BitVec.ofNat 32 fwcmdHdrLen).toNat = hdrTotalLen mem - fwcmdHdrLen := by
    rw [BitVec.toNat_sub]
    simp only [fwcmdHdrLen,BitVec.toNat_ofNat] at *
    omega
  unfold c2hSysCmdLb
  cases a.fwcmdLbData with
  | none => simp
  | some lbData =>
    simp only [some.injEq,forall_eq']
    simp only [fwcmdHdrLen] at enough whole
    by_cases same : hdrTotalLen mem = hdrTotalLen lbData
    · rw [if_neg (not_not.mpr same)]
      simp only [allInside_cons,inside_read,inside_length,allInside_nil,and_true,count]
      simp only [fwcmdHdrLen,same,forall_const] at *
      omega
    · rw [if_pos same]
      simp only [same,allInside_cons,inside_read,allInside_nil,and_true,false_implies,iff_true]
      omega

theorem pred_toNat {len : U32} (packet : 0 < len.toNat) : (len-1).toNat = len.toNat - 1 :=
  BitVec.toNat_sub_of_le (show (1 : U32).toNat ≤ len.toNat from packet)

theorem terminated_fits (packet : 0 < len.toNat) : TextFits (terminated mem len) len.toNat pos ↔ pos+1 ≤ len.toNat := by
  constructor
  · rintro ⟨_,behind,before,_⟩
    omega
  · intro enough
    refine ⟨len.toNat-1,by omega,by omega,?_⟩
    rw [terminated,if_pos (pred_toNat packet).symm]

theorem intDump_inside (row : idx < fwLog8852a.length) :
    AllInside len (fwLogIntDump a idx paraNum) ↔ (a.malloc → fwLogString idx = false ∧
      (paraNum ≤ 16 → paraNum ≠ 0 → 20 + 4*paraNum ≤ len)) := by
  unfold fwLogIntDump
  cases a.malloc with
  | false => simp
  | true =>
    simp only [if_true,allInside_append,allInside_cons,inside_index,row,true_and,forall_const]
    cases fwLogString idx with
    | true => simp
    | false =>
      by_cases few : paraNum ≤ 16
      · simp only [few,if_true,words_inside,Bool.false_eq_true,if_false,allInside_nil,and_true,true_and,forall_const]
        omega
      · simp [few]

theorem scanArray_lt (msgno : U32) : fwLogScanArray msgno < fwLog8852a.length := by
  have size : fwLog8852a.length = 54 := by decide +kernel
  unfold fwLogScanArray
  split
  · omega
  · cases found : fwLog8852a.findIdx? fun row => row.1 = msgno.toNat with
    | none => simp [size]
    | some idx => exact (List.findIdx?_eq_some_iff_getElem.mp found).1

theorem logDump_inside (enough : 19 ≤ len.toNat) :
    (∀ steps, AllInside len.toNat (fwLogDump a mem len steps)) ↔ LogFits a mem len.toNat := by
  have row := scanArray_lt (fwLogMsgno mem)
  have last : (len-1).toNat + 1 ≤ len.toNat := by
    rw [pred_toNat (by omega)]
    omega
  have heads : AllInside len.toNat ((List.range 9).map fun i => .read (10 + i) 1) := by
    simp only [allInside_range,inside_read]
    omega
  have param : AllInside len.toNat (if fwLogParanumIdx mem then [.read 19 1] else []) ↔
      (fwLogParanumIdx mem → 20 ≤ len.toNat) := by
    cases fwLogParanumIdx mem <;> simp
  simp only [fwLogDump,LogFits,allInside_append,heads,param,true_and,forall_and,forall_const]
  refine and_congr_right fun _ => ?_
  by_cases plain : fwLogScanArray (fwLogMsgno mem) = 0
  · simp [plain]
  · simp only [plain,ne_eq,not_false_eq_true,and_true,forall_const]
    by_cases texts : fwLogIsint mem = false ∧ ¬ fwLogParaNum mem = 0
    · simp only [texts,not_false_eq_true,and_self,if_true]
      cases a.malloc with
      | false => simp
      | true =>
        simp only [if_true,allInside_cons,inside_read,inside_index,row,true_and,last,or_true,forall_const]
        cases fwLogString (fwLogScanArray (fwLogMsgno mem)) with
        | false => simp
        | true => simp only [if_true,text_inside,terminated_fits (show 0 < len.toNat by omega),forall_const]
    · simp only [texts,if_false,if_true,intDump_inside row,forall_const,ne_eq]

theorem cmdLog_inside (enough : fwcmdHdrLen ≤ len.toNat) :
    (∀ steps, AllInside len.toNat (c2hFwiCmdLog a mem len steps).accesses) ↔
      if fwLogEncoded mem len then LogFits a mem len.toNat else 9 ≤ len.toNat := by
  have rest : (len - BitVec.ofNat 32 fwcmdHdrLen).toNat = len.toNat - fwcmdHdrLen :=
    BitVec.toNat_sub_of_le (show (BitVec.ofNat 32 fwcmdHdrLen).toNat ≤ len.toNat from enough)
  have packet : 0 < len.toNat := lt_of_lt_of_le (by decide) enough
  have last : (len-1).toNat + 1 ≤ len.toNat := by
    rw [pred_toNat packet]
    omega
  have syntaxes :
      AllInside len.toNat (if 11 ≤ (len - BitVec.ofNat 32 fwcmdHdrLen).toNat then [.read 8 1,.read 9 1] else []) := by
    split
    · next long =>
      rw [rest,fwcmdHdrLen] at long
      simp only [allInside_cons,inside_read,allInside_nil,and_true]
      omega
    · simp
  simp only [c2hFwiCmdLog,allInside_cons,allInside_append,inside_length,enough,syntaxes,true_and]
  by_cases encoded : fwLogEncoded mem len
  · have long : 19 ≤ len.toNat := by
      simp only [fwLogEncoded,rest,Bool.and_eq_true,decide_eq_true_eq] at encoded
      have covered := encoded.1.1
      simp only [fwcmdHdrLen] at covered
      omega
    simp only [encoded,if_true,logDump_inside long]
  · simp only [encoded,if_false,allInside_cons,inside_read,last,or_true,true_and,text_inside,terminated_fits packet,
      Bool.false_eq_true]

theorem isrInfos_inside : AllInside len (isrInfos a entry pos) ↔
    ∀ i < isrStatisticMax, a.prints entry (pos + 4*i) → pos + 4 * (2*isrStatisticMax + i) + 4 ≤ len := by
  simp only [isrInfos,allInside_flatMap]
  refine forall_congr' fun i => forall_congr' fun small => ?_
  cases a.prints entry (pos + 4*i) with
  | false => simp
  | true =>
    simp only [if_true,allInside_cons,inside_index,inside_read,allInside_nil,and_true,small,true_and,forall_const]
    omega

theorem statusProc_inside (a : Adapter) (mem : Nat → U8) (len entry opCode pos : Nat) (length : U32) (ret : Nat → MacRet) :
    (∀ steps, AllInside len (fwStatusProc a mem entry steps opCode pos length (ret steps)).accesses) ↔
      (length.toNat ≤ (a.room entry).toNat → EntryFits a mem len entry pos opCode) := by
  have shown {accesses : Nat → List Access} {fits : Prop} (inside : (∀ steps, AllInside len (accesses steps)) ↔ fits) :
      (∀ steps, AllInside len (if (a.room entry).toNat < length.toNat then (⟨.fwStatusFail,[]⟩ : Run)
        else ⟨.success,accesses steps⟩).accesses) ↔ (length.toNat ≤ (a.room entry).toNat → fits) := by
    by_cases full : (a.room entry).toNat < length.toNat
    · simp [full,not_le.mpr full]
    · simpa [full,not_lt.mp full] using inside
  have string : (∀ steps, AllInside len (if a.prints entry pos then text mem steps pos else [])) ↔
      (a.prints entry pos → TextFits mem len pos) := by
    cases a.prints entry pos <;> simp [text_inside]
  match opCode with
  | 0 => exact shown string
  | 1 => exact @shown (fun _ => [.read pos flashInfoSize]) _ (by simp [EntryFits,flashInfoSize])
  | 2 => exact shown string
  | 3 => exact shown (memInfos_inside entry pos)
  | 4 => exact shown (memInfos_inside entry pos)
  | 5 => simp [fwStatusProc,EntryFits]
  | 6 => simp [fwStatusProc,EntryFits]
  | 7 => exact @shown (fun _ => isrInfos a entry pos) _ (by simp [EntryFits,isrInfos_inside])
  | _+8 => simp [fwStatusProc,EntryFits]

theorem statusPkts_inside (a : Adapter) (mem : Nat → U8) (len n pos : Nat) (ret : Nat → MacRet) :
    (∀ steps, AllInside len (fwStatusPkts a mem steps n pos (ret steps)).accesses) ↔ EntriesFit a mem len n pos := by
  induction n generalizing pos ret with
  | zero => simp [fwStatusPkts,EntriesFit]
  | succ n ih =>
    have entry := statusProc_inside a mem len n (entryOpCode mem pos) (pos+8) (entryLength mem pos) ret
    have rest := ih (pos + 8 + (entryLength mem pos).toNat) fun steps =>
      (fwStatusProc a mem n steps (entryOpCode mem pos) (pos+8) (entryLength mem pos) (ret steps)).ret
    have words : (4 = 0 ∨ pos+4 ≤ len) ∧ (4 = 0 ∨ pos + 4 + 4 ≤ len) ↔ pos+8 ≤ len := by omega
    simp only [fwStatusPkts,EntriesFit,List.cons_append,allInside_append,allInside_cons,inside_read,forall_and,forall_const,
      entry,rest]
    rw [← and_assoc,words]

theorem fwStatus_inside (enough : fwcmdHdrLen ≤ len) : (∀ steps, AllInside len (c2hFwStatus a mem steps).accesses) ↔
      (hdrFunc mem = 0 → 12 ≤ len ∧ EntriesFit a mem len (dword mem 8).toNat 12) := by
  have hdr0 : 0 + 4 ≤ len := le_trans (by decide) enough
  unfold c2hFwStatus
  by_cases status : hdrFunc mem = 0
  · have pkts := statusPkts_inside a mem len (dword mem 8).toNat 12 fun _ => .success
    simp only [status,if_true,allInside_cons,inside_read,forall_and,forall_const,pkts,hdr0,or_true,true_and]
    simp
  · simp [status,hdr0]

theorem handler_inside (enough : fwcmdHdrLen ≤ len.toNat) (whole : fwcmdHdrLen ≤ hdrTotalLen mem) (handler : Handler) :
    (∀ steps, AllInside len.toNat (handler.run a mem len steps).accesses) ↔ handler.Fits a mem len := by
  have silent : (∀ _ : Nat, AllInside len.toNat []) ↔ True := by simp
  have hdr0 : 0 + 4 ≤ len.toNat := le_trans (by decide) enough
  cases handler with
  | fwiRevAck => simp [Handler.run,Handler.Fits,c2hFwiRevAck]
  | fwiDoneAck => simp [Handler.run,Handler.Fits,doneAck_inside]
  | fwiCmdLog => exact cmdLog_inside enough
  | fwiBcnStats => exact silent
  | fwiBcnCsazero => exact silent
  | dumpEfuse => simp [Handler.run,Handler.Fits,dumpEfuse_inside enough]
  | readRsp => simp [Handler.run,Handler.Fits,readRsp_inside enough whole]
  | pktOfldRsp => simp [Handler.run,Handler.Fits,pktOfldRsp_inside]
  | beaconResend => exact silent
  | macidPause => exact silent
  | tsf32ToglRpt => simp [Handler.run,Handler.Fits,c2hTsf32ToglRptHdl,portRpt_inside]
  | cmdOfldRsp => simp [Handler.run,Handler.Fits,cmdOfldRsp_inside]
  | twt => exact silent
  | wowAoacReport => simp [Handler.run,Handler.Fits,aoacReport_inside]
  | mccRcvAck => simp [Handler.run,Handler.Fits,mccRcvAck_inside]
  | mccReqAck => simp [Handler.run,Handler.Fits,mccReqAck_inside]
  | mccTsfRpt => simp [Handler.run,Handler.Fits,mccTsfRpt_inside]
  | mccStatusRpt => simp [Handler.run,Handler.Fits,mccStatusRpt_inside]
  | rxDbg => exact silent
  | sysFlashPkt => simp [Handler.run,Handler.Fits,sysFlashPkt_inside enough]
  | wpsRpt => exact silent
  | miscCcxrpt => exact silent
  | fastChSwRpt => simp [Handler.run,Handler.Fits,c2hFastChSwRptHdl]
  | portInitStat => simp [Handler.run,Handler.Fits,c2hPortInitStat,portRpt_inside]
  | portCfgStat => simp [Handler.run,Handler.Fits,c2hPortCfgStat,portRpt_inside]
  | sysCmdLb => simp [Handler.run,Handler.Fits,sysCmdLb_inside enough whole]
  | sysPlatAutotest => simp [Handler.run,Handler.Fits,hdr0]
  | fwStatus => exact fwStatus_inside enough

theorem parsing_inside : AllInside len (.read 0 4 :: c2hFieldParsing mem) ↔
    fwcmdHdrLen ≤ len ∧ fwcmdHdrLen ≤ hdrTotalLen mem := by
  simp only [c2hFieldParsing,allInside_cons,inside_read,inside_length,allInside_nil,and_true,fwcmdHdrLen]
  omega

theorem dispatch_inside (enough : fwcmdHdrLen ≤ len.toNat) (steps : Nat) :
    AllInside len.toNat (macProcessC2h a mem len steps).accesses ↔ AllInside len.toNat (.read 0 4 :: c2hFieldParsing mem) ∧
        ∀ handler, chosen mem = some handler → AllInside len.toNat (handler.run a mem len steps).accesses := by
  have hdr0 : 0 + 4 ≤ len.toNat := le_trans (by decide) enough
  simp only [macProcessC2h,chosen]
  by_cases type : hdrDelType mem = fwcmdTypeC2h
  · by_cases outsrc : hdrCat mem = catOutsrc
    · simp [type,outsrc,c2hProcSel,catOutsrc,catTest,catMac]
    · simp only [type,outsrc,ne_eq,not_true_eq_false,if_false]
      cases (c2hProcSel (hdrCat mem)).bind (·.lookup (hdrClass mem)) with
      | none => simp
      | some proc =>
        simp only [allInside_append,bind_some]
        refine and_congr_right fun _ => ?_
        cases proc with
        | handler proc => simp [ClassProc.run]
        | funcs table =>
          cases found : table.lookup (hdrFunc mem) with
          | none => simp [ClassProc.run,found,hdr0]
          | some proc => simp [ClassProc.run,found,hdr0]
  · simp [type]

theorem header_read (safe : AllInside len.toNat (macProcessC2h a mem len steps).accesses) :
    AllInside len.toNat (.read 0 4 :: c2hFieldParsing mem) := by
  unfold macProcessC2h at safe
  split_ifs at safe
  · exact safe
  · exact safe
  · split at safe
    · exact safe
    · exact (allInside_append.mp safe).1

theorem c2h_length_safe_exact (a : Adapter) (mem : Nat → U8) (len : U32) : LengthSafe a mem len ↔ PacketFits a mem len := by
  constructor
  · intro safe
    obtain ⟨enough,whole⟩ := parsing_inside.mp (header_read (safe 0))
    refine ⟨enough,whole,fun handler same => ?_⟩
    exact (handler_inside enough whole handler).mp fun steps => ((dispatch_inside enough steps).mp (safe steps)).2 handler same
  · rintro ⟨enough,whole,fits⟩ steps
    refine (dispatch_inside enough steps).mpr ⟨parsing_inside.mpr ⟨enough,whole⟩,fun handler same => ?_⟩
    exact (handler_inside enough whole handler).mpr (fits handler same) steps

-- A read response of eight bytes whose header announces sixteen.
theorem c2h_read_outside : ¬ ∀ (a : Adapter) (mem : Nat → U8) (len : U32), LengthSafe a mem len := by
  intro safe
  let mem : Nat → U8 := fun pos => [0x05,0x01,0x01,0x00,0x10,0x00,0x00,0x00].getD pos 0
  let a : Adapter := ⟨true,false,fun _ => false,false,false,0,false,none,0,false,false,fun _ => 0,fun _ _ => false⟩
  have reads : Access.read 8 8 ∈ (macProcessC2h a mem 8 0).accesses := by decide +kernel
  have outside := safe a mem 8 0 (.read 8 8) reads
  simp at outside
end Rtl8852au.C2hParse
