import Rtl8852au.Words
import Rtl8852au.UsbRx

namespace Rtl8852au.UsbRxParse
open Machine Words

def rxDescLSize : Nat := 32
def rxDescSSize : Nat := 16
def rxPpduMacInfoSize : Nat := 4
def rxDescPktTWifi : Nat := 0
def rxDescPktTPpduStatus : Nat := 1
def rtwMaxEthPktLen : Nat := 1536
def frameOffsetAddress2 : Nat := 10
def frameOffsetAddress3 : Nat := 16

section
variable (mem : Nat → U8)

def leBits4 (pos offset bits : Nat) : Nat := ((dword mem pos).extractLsb' offset bits).toNat
def leBits2 (pos offset bits : Nat) : Nat := ((hword mem pos).extractLsb' offset bits).toNat

structure RMetaData where
  pktlen : Nat
  shift : Nat
  macInfoVld : Bool
  rpktType : Nat
  drvInfoSize : Nat
  longRxd : Bool
  a1Match : Bool

def RMetaData.described (mdata : RMetaData) : Bool := mdata.rpktType == rxDescPktTWifi || mdata.rpktType == rxDescPktTPpduStatus

def parsingRxWd (desc : Nat) : RMetaData where
  pktlen := leBits4 mem desc 0 14
  shift := leBits4 mem desc 14 2
  macInfoVld := leBits4 mem desc 23 1 == 1
  rpktType := leBits4 mem desc 24 4
  drvInfoSize := leBits4 mem desc 28 3
  longRxd := leBits4 mem desc 31 1 == 1
  a1Match := leBits4 mem (desc+12) 0 1 == 1

def wdReads (mdata : RMetaData) (desc : Nat) : List (Nat × Nat) :=
  [(desc,4)] ++ if mdata.described then
    [(desc+4,4),(desc+8,4),(desc+12,4)] ++ if mdata.longRxd then [(desc+16,4),(desc+20,4),(desc+24,6)] else []
  else []

-- From the descriptor to the packet; `shift` is a `u8`.
def RMetaData.offset (mdata : RMetaData) : Nat :=
  let descL := if mdata.longRxd then rxDescLSize else rxDescSSize
  let shift := (mdata.shift*2 + mdata.drvInfoSize*8 + descL) % 256
  if mdata.macInfoVld && mdata.rpktType != rxDescPktTPpduStatus then shift + rxPpduMacInfoSize else shift

-- What one call finds around it. `agg` is the aggregation switch of the build;
-- by round: whether there is a packet structure, whether the packet opens a
-- new PPDU, whether there is memory for a copy, and the stretches the parser of
-- a packet that is not a frame reads (status, report, C2H).
structure Env where
  agg : Bool
  query : Nat → Bool
  newPpdu : Nat → Bool
  alloc : Nat → Bool
  content : Nat → RMetaData → Nat → List (Nat × Nat)

def frameType (hdr : Nat) : Nat := leBits2 mem hdr 2 6
end
section
variable (env : Env) (mem : Nat → U8)

def frameReads (round : Nat) (mdata : RMetaData) (hdr : Nat) : List (Nat × Nat) :=
  [(hdr,2),(hdr,2),(hdr+22,2),(hdr+frameOffsetAddress2,6)] ++ if env.newPpdu round then
    (hdr,2) :: if frameType mem hdr = 32 ∨ frameType mem hdr = 20 then [(hdr+frameOffsetAddress3,6)]
      else if mdata.a1Match ∧ (frameType mem hdr = 8 ∨ frameType mem hdr = 0) then [(hdr+frameOffsetAddress2,6)]
      else []
  else []

def halHandleRxBuffer (round buf bufLen : Nat) : Option (RMetaData × Nat) × List (Nat × Nat) :=
  let mdata := parsingRxWd mem buf
  let reads := wdReads mdata buf
  if mdata.pktlen = 0 then (none,reads)
  else
    let virAddr := buf + mdata.offset
    if virAddr + mdata.pktlen > buf + bufLen then (none,reads)
    else if mdata.rpktType = rxDescPktTWifi then
      (some (mdata,virAddr),reads ++ frameReads env mem round mdata virAddr)
    else (some (mdata,virAddr),reads ++ env.content round mdata virAddr)

structure RxPkt where
  start : Nat
  len : Nat
  type : UsbRx.RxType
  copied : Option Nat

def RxPkt.refers (pkt : RxPkt) : Bool := pkt.copied.isNone

def netbufLen (mem : Nat → U8) (start len : Nat) : Nat :=
  if leBits2 mem start 10 1 = 1 ∧ leBits2 mem (start+22) 0 4 = 0 then
    if len < rtwMaxEthPktLen then rtwMaxEthPktLen else len
  else len

def rxType (mdata : RMetaData) : UsbRx.RxType :=
  if mdata.rpktType = rxDescPktTWifi then .wifi else if mdata.rpktType = rxDescPktTPpduStatus then .ppduStatus else .other

def singleRx (round : Nat) (mdata : RMetaData) (start : Nat) : RxPkt :=
  ⟨start,mdata.pktlen,rxType mdata,
    if rxType mdata = .wifi ∧ env.alloc round then some (netbufLen mem start mdata.pktlen) else none⟩

-- The reads behind the HAL's: the fragment bits, and the copy.
def copyReads (pkt : RxPkt) : List (Nat × Nat) :=
  if pkt.type = .wifi then [(pkt.start,2),(pkt.start+22,2)] ++ if pkt.copied.isSome then [(pkt.start,pkt.len)] else [] else []

def alignOffset (agg : Bool) (pktOffset : Nat) : Nat := if agg then (pktOffset+7) / 8 * 8 else pktOffset

structure Loop where
  pktBuf : Nat
  transferLen : Int
  round : Nat
  pkts : List RxPkt
  refCnt : Nat
  brel : Bool
  reads : List (Nat × Nat)
  again : Bool

def Loop.body (s : Loop) : Loop :=
  if !env.query s.round then {s with again:=false}
  else
    match halHandleRxBuffer env mem s.round s.pktBuf s.transferLen.toNat with
    | (none,reads) => {s with reads:=s.reads ++ reads,again:=false}
    | (some (mdata,virAddr),reads) =>
      let pkt := singleRx env mem s.round mdata virAddr
      let offset := alignOffset env.agg (virAddr - s.pktBuf + mdata.pktlen)
      let transferLen := s.transferLen - offset
      { pktBuf:=s.pktBuf + offset
        transferLen
        round := s.round+1
        pkts := s.pkts ++ [pkt]
        -- a `u8`
        refCnt := if pkt.refers then (s.refCnt+1) % 256 else s.refCnt
        brel := s.brel && !pkt.refers
        reads := s.reads ++ reads ++ copyReads pkt
        again := decide (transferLen > 0) }

-- A round takes more than one byte, so that there are no more rounds than
-- bytes and one.
def rxLoop (transferLen : Nat) : Loop :=
  iterate Loop.again (Loop.body env mem) (transferLen+1) ⟨0,transferLen,0,[],0,true,[],true⟩

structure SingleRx where
  pkts : List RxPkt
  released : Bool
  pktcnt : Option Nat

def phlGetSingleRx (transferLen : Nat) : SingleRx :=
  let s := rxLoop env mem transferLen
  ⟨s.pkts,!s.pkts.isEmpty && s.brel,if !s.pkts.isEmpty && !s.brel then some s.refCnt else none⟩
end

end Rtl8852au.UsbRxParse
