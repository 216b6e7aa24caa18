import Rtl8852au.AttrSearch
import Rtl8852au.Memory

namespace Rtl8852au.Rsn
open Words Attr Memory

def wlanEidRsn : U8 := 48
def rsnVersionBsd : U16 := 1
def rsnHeaderLen : Nat := 4
def rsnSelectorLen : Nat := 4
def rsnPmkidLen : Nat := 16

structure RsneInfo where
  gcs : Option Nat := none
  pcsCnt : U16 := 0
  pcsList : Option Nat := none
  akmCnt : U16 := 0
  akmList : Option Nat := none
  cap : Option Nat := none
  pmkidCnt : U16 := 0
  pmkidList : Option Nat := none
  gmcs : Option Nat := none
  err : U8 := 0

structure Parse where
  reads : List Nat
  ok : Bool
  info : RsneInfo

def Parse.exit (info : RsneInfo) : Parse := ⟨[],true,info⟩
def Parse.err (info : RsneInfo) : Parse := ⟨[],false,{ info with err:=1 }⟩
def Parse.reading (positions : List Nat) (p : Parse) : Parse := { p with reads:=positions ++ p.reads }

variable (ie : Bytes) (ieLen : Nat)

-- Too few bytes for the next item: none at all end the parse, a part is refused.
def room (pos need : Nat) (info : RsneInfo) (next : Parse) : Parse :=
  if ieLen < pos + need then
    if ieLen ≠ pos then .err info else .exit info
  else next

section
variable (pos : Nat) (info : RsneInfo)

def gmcsStage : Parse := room ieLen pos rsnSelectorLen info (.exit { info with gmcs:=some pos })

-- The list may not be missing here, unlike those of the suites.
def pmkidStage : Parse :=
  room ieLen pos 2 info <| .reading [pos,pos+1] <|
    let cnt := getLe16 ie pos
    let pos := pos+2
    if ieLen < pos + rsnPmkidLen * cnt.toNat then
      if ieLen ≠ pos ∨ cnt ≠ 0 then .err info else .exit info
    else gmcsStage ieLen (pos + rsnPmkidLen*cnt.toNat) { info with pmkidCnt:=cnt,pmkidList:=some pos }

def capStage : Parse := room ieLen pos 2 info (pmkidStage ie ieLen (pos+2) { info with cap:=some pos })
end

-- A count of suites and the suites, as the pairwise and the AKM suites are read.
def suitesStage (keep : RsneInfo → U16 → Nat → RsneInfo) (next : Nat → RsneInfo → Parse) (pos : Nat) (info : RsneInfo) : Parse :=
  room ieLen pos 2 info <| .reading [pos,pos+1] <|
    let cnt := getLe16 ie pos
    let pos := pos+2
    if cnt = 0 then .err info
    else room ieLen pos (rsnSelectorLen*cnt.toNat) info (next (pos + rsnSelectorLen*cnt.toNat) (keep info cnt pos))

def akmStage : Nat → RsneInfo → Parse :=
  suitesStage ie ieLen (fun info cnt pos => { info with akmCnt:=cnt,akmList:=some pos }) (capStage ie ieLen)

def pcsStage : Nat → RsneInfo → Parse :=
  suitesStage ie ieLen (fun info cnt pos => { info with pcsCnt:=cnt,pcsList:=some pos }) (akmStage ie ieLen)

def gcsStage (pos : Nat) (info : RsneInfo) : Parse :=
  room ieLen pos rsnSelectorLen info (pcsStage ie ieLen (pos+rsnSelectorLen) { info with gcs:=some pos })

-- The version is compared as the single byte at offset 2.
def rtwRsneInfoParse : Parse :=
  if ieLen < rsnHeaderLen then .err {}
  else .reading [0] <|
    if ie 0 ≠ wlanEidRsn then .err {}
    else .reading [1] <|
      if (ie 1).toNat ≠ ieLen - 2 then .err {}
      else .reading [2] <|
        if (ie 2).setWidth 16 ≠ rsnVersionBsd then .err {} else gcsStage ie ieLen rsnHeaderLen {}

def bitLenMask16 (bitLen : Nat) : U16 := 0xFFFF#16 >>> (16 - bitLen)
def bitOffsetLenMask16 (bitOffset bitLen : Nat) : U16 := bitLenMask16 bitLen <<< bitOffset
def writeLe2Byte (pStart : Nat) (value : U16) : Bytes := put ie pStart [lo8 value,hi8 value]

def setBitsToLe2Byte (pStart bitOffset bitLen : Nat) (value : U16) : Bytes :=
  if bitOffset = 0 ∧ bitLen = 16 then writeLe2Byte ie pStart value
  else
    writeLe2Byte ie pStart
      ((getLe16 ie pStart &&& ~~~bitOffsetLenMask16 bitOffset bitLen) ||| (value &&& bitLenMask16 bitLen) <<< bitOffset)

def setRsnCapSpp (cap : Nat) (spp : U8) : Bytes := setBitsToLe2Byte ie cap 10 2 (spp.setWidth 16)

def sppCap : U8 := 1
def sppReq : U8 := 2

-- The modes in their order: NON_SPP, SPP, ALL_DROP; any other is refused.
def sppReqCap (mode : U8) : Option U8 :=
  if mode = 0 then some (~~~sppCap ||| ~~~sppReq)
  else if mode = 1 then some (sppCap ||| sppReq)
  else if mode = 2 then some (~~~sppCap ||| sppReq)
  else none

def rtwSetSppAmsduMode (mode : U8) : Option Bytes :=
  match sppReqCap mode with
  | none => some ie
  | some sppReqCap =>
    let parsed := rtwRsneInfoParse ie ieLen
    if parsed.ok = false then some ie
    else parsed.info.cap.map fun cap => setRsnCapSpp ie cap sppReqCap

end Rtl8852au.Rsn
