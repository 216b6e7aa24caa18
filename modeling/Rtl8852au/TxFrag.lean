import Rtl8852au.Pieces
import Rtl8852au.Recv

namespace Rtl8852au.TxFrag
open Pieces
open Recv (Cipher)

variable {B : Type}

structure Skb (B : Type) where
  data : List B
  frags : List (List B)

structure Packet (B : Type) where
  head : Skb B
  fragList : List (Skb B)

inductive Entry (B : Type) where
  | head (length : Nat)
  | payload (slice : List B)
  | tail (length : Nat)

def Entry.length : Entry B → Nat
  | .head length => length
  | .payload slice => slice.length
  | .tail length => length

structure Txreq (B : Type) where
  pktList : List (Entry B)
  pktCnt : Nat
  totalLen : Nat

def rtwSzLlc : Nat := 8
def rtwSzFcs : Nat := 4
def rtwTkipMicLen : Nat := 8
def rtwMaxFragNum : Nat := 10
def numPktListPerTxreq : Nat := 8
def ethHlen : Nat := 14
def sub32 (a b : Nat) : Nat := (a + 2^32 - b) % 2^32

def Txreq.put (txreq : Txreq B) (entry : Entry B) : Txreq B where
  pktList := txreq.pktList ++ [entry]
  pktCnt := txreq.pktCnt+1
  totalLen := txreq.totalLen + entry.length

def Txreq.append (txreq : Txreq B) (slice : List B) : Txreq B := if slice.isEmpty then txreq else txreq.put (.payload slice)

structure Filling (B : Type) where
  txreq : Txreq B
  remSz : Nat
  offset : Nat

def fillHead (data : List B) (filling : Filling B) : Filling B :=
  if data.length > filling.offset then
    let curFragRem := min (data.length-filling.offset) filling.remSz
    { txreq := filling.txreq.append ((data.drop filling.offset).take curFragRem)
      remSz := filling.remSz - curFragRem
      offset := 0 }
  else {filling with offset:=filling.offset - data.length}

def fillPages : List (List B) → Filling B → Filling B
  | [],filling => filling
  | page :: pages,filling =>
    if filling.offset < page.length then
      let curFragRem := page.length - filling.offset
      if filling.remSz < curFragRem then
        {filling with txreq:=filling.txreq.append ((page.drop filling.offset).take filling.remSz), remSz:=0}
      else
        fillPages pages
          { txreq := filling.txreq.append ((page.drop filling.offset).take curFragRem)
            remSz := filling.remSz - curFragRem
            offset := 0 }
    else fillPages pages {filling with offset:=filling.offset - page.length}

def fillTxreqSkb (skb : Skb B) (filling : Filling B) : Filling B := fillPages skb.frags (fillHead skb.data filling)
def Skb.pieces (skb : Skb B) : List (List B) := skb.data :: skb.frags

section
variable (packet : Packet B)

def Packet.pieces : List (List B) := packet.head.pieces ++ packet.fragList.flatMap Skb.pieces
def Packet.bytes : List B := packet.pieces.flatten
def Packet.len : Nat := packet.bytes.length

def skbTotalFragNr : Nat := packet.fragList.foldl (fun nr skb => nr + (1 + skb.frags.length)) (1 + packet.head.frags.length)

-- `rtw_skb_linearize` may find no memory, and then it changes nothing.
def rtwSkbLinearize (memory : Bool) (packet : Packet B) : Packet B :=
  if memory then {head:={data:=packet.bytes, frags:=[]}, fragList:=[]} else packet

def crowded : Bool := skbTotalFragNr packet > numPktListPerTxreq - 2
end

def fillTxreqListSkb (memory : Bool) (packet : Packet B) (txreq : Txreq B) (reqSz offset : Nat) : Txreq B × Packet B :=
  let packet := if crowded packet then rtwSkbLinearize memory packet else packet
  let filling := fillTxreqSkb packet.head {txreq, remSz:=reqSz, offset}
  ((packet.fragList.foldl (fun filling skb => fillTxreqSkb skb filling) filling).txreq,packet)

structure PktAttrib where
  encrypt : Cipher
  bswenc : Bool
  hdrlen : Nat
  ivLen : Nat
  icvLen : Nat
  pktlen : Nat

section
variable (attrib : PktAttrib)

def encrypted : Bool := attrib.encrypt != .noPrivacy
def wlHead : Nat := attrib.hdrlen + (if encrypted attrib then attrib.ivLen else 0)
def wlTail : Nat := rtwSzFcs + (if encrypted attrib then attrib.icvLen else 0)

def payloadTotalsz : Nat := attrib.pktlen + rtwSzLlc + (if attrib.encrypt = .tkip then rtwTkipMicLen else 0)

-- The payload of a fragment and the number of fragments; none when the
-- rounding divides by zero.
def getWlFragParas (fragLen : Nat) (attrib : PktAttrib) : Option (Nat × Nat) :=
  let payloadFragsz := sub32 fragLen (wlHead attrib + wlTail attrib)
  let payloadTotalsz := payloadTotalsz attrib
  if payloadFragsz < payloadTotalsz then
    if payloadFragsz = 0 then none else some (payloadFragsz,(payloadTotalsz + payloadFragsz - 1) / payloadFragsz)
  else some (payloadFragsz,1)

def headSz : Nat := attrib.hdrlen + rtwSzLlc + (if encrypted attrib then attrib.ivLen else 0)

def tailSz : Nat :=
  if encrypted attrib then
    (if attrib.encrypt = .tkip then rtwTkipMicLen else 0) + (if attrib.bswenc then attrib.icvLen else 0)
  else 0

-- The MIC is left out of every tail but the last.
def wlanTail (wlFrags idx : Nat) : Nat :=
  if tailSz attrib = 0 then 0
  else if attrib.encrypt = .tkip ∧ idx ≠ wlFrags - 1 then tailSz attrib - rtwTkipMicLen
  else tailSz attrib

structure Cutting (B : Type) where
  packet : Packet B
  payloadOffset : Nat
  txreqs : List (Txreq B)

def payloadSz (fragPerfr wlFrags idx : Nat) (cutting : Cutting B) : Nat :=
  if idx = wlFrags - 1 then sub32 cutting.packet.len cutting.payloadOffset
  else if idx = 0 then sub32 fragPerfr rtwSzLlc
  else fragPerfr

def fillFrag (memory : Nat → Bool) (fragPerfr wlFrags : Nat) (cutting : Cutting B) (idx : Nat) : Cutting B :=
  let txreq : Txreq B := {pktList:=[], pktCnt:=0, totalLen:=0}
  let txreq := txreq.put (.head (if idx = 0 then headSz attrib else headSz attrib - rtwSzLlc))
  let payloadSz := payloadSz fragPerfr wlFrags idx cutting
  let (txreq,packet) := fillTxreqListSkb (memory idx) cutting.packet txreq payloadSz cutting.payloadOffset
  let wlanTail := wlanTail attrib wlFrags idx
  let txreq := if wlanTail = 0 then txreq else txreq.put (.tail wlanTail)
  { packet
    payloadOffset := (cutting.payloadOffset+payloadSz) % 2^32
    txreqs := cutting.txreqs ++ [txreq] }

def fillTxreqPktPerfragTxos (memory : Nat → Bool) (packet : Packet B) (fragPerfr wlFrags : Nat) : Cutting B :=
  (List.range wlFrags).foldl (fillFrag attrib memory fragPerfr wlFrags) {packet, payloadOffset:=ethHlen, txreqs:=[]}
end

end Rtl8852au.TxFrag
