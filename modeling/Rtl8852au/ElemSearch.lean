import Rtl8852au.AttrSearch

namespace Rtl8852au.Ie
open Words Scan Attr Relation

section
variable (ie : Bytes)

def size (pos : Nat) : Nat := (ie (pos+1)).toNat

-- `_rtw_memcmp(&ie[pos], oui, sizeof(oui)) == _TRUE`
def memcmp (pos : Nat) (oui : List U8) : Bool := (span pos oui.length).map ie = oui
abbrev Found := Option (Nat × Nat)

-- `rtw_get_ie` on the pointer `pbuf`; `*len` is the length of the body. The
-- counters are signed, and so are not taken to wrap.
def ieTurn (pbuf : Nat) (index limit : Int) (i : Nat) : Turn Nat Found :=
  let p := pbuf + i
  if (ie p).toNat = index then ⟨span p 2,.done (some (p,size ie p))⟩
  else
    let i := i + (size ie p + 2)
    if limit ≤ i then ⟨span p 2,.done none⟩ else ⟨span p 2,.again i⟩

def ieEntry (pbuf : Nat) (index limit : Int) : Turn Nat Found :=
  if limit < 1 then ⟨[],.done none⟩ else ieTurn ie pbuf index limit 0

def rtwGetIe (index limit : Int) (fuel : Nat) : Option (List Nat × Found) :=
  follow (ieTurn ie 0 index limit) fuel (ieEntry ie 0 index limit)

structure Query where
  eid : U8
  oui : Option (List U8)
  copies : Bool
  sized : Bool

def Query.ouiReads (q : Query) (cnt : U32) : List Nat :=
  match q.oui with
  | none => []
  | some oui => span (cnt+2).toNat oui.length

def Query.ouiMatches (q : Query) (ie : Bytes) (cnt : U32) : Bool :=
  match q.oui with
  | none => true
  | some oui => memcmp ie (cnt+2).toNat oui

def sizeAt (cnt : U32) : U8 := ie (cnt+1).toNat
def whole (cnt : U32) : Nat := (sizeAt ie cnt).toNat + 2
def goNext (cnt : U32) : U32 := cnt + (sizeAt ie cnt).setWidth 32 + 2

section
variable (q : Query) (ie : Bytes)

def Query.matches (cnt : U32) : Bool := q.eid = ie cnt.toNat && q.ouiMatches ie cnt

def Query.testReads (cnt : U32) : List Nat := span cnt.toNat 1 ++ if q.eid = ie cnt.toNat then q.ouiReads cnt else []

def Query.takeReads (cnt : U32) : List Nat :=
  (if q.copies || q.sized then span (cnt+1).toNat 1 else []) ++ copied q.copies cnt.toNat (whole ie cnt)

def exTurn (inLen cnt : U32) : Turn U32 Found :=
  if cnt < inLen then
    if q.matches ie cnt then ⟨q.testReads ie cnt ++ q.takeReads ie cnt,.done (some (cnt.toNat,whole ie cnt))⟩
    else ⟨q.testReads ie cnt ++ span (cnt+1).toNat 1,.again (goNext ie cnt)⟩
  else ⟨[],.done none⟩

def exEntry (inLen : U32) : Turn U32 Found := if inLen ≤ 0 then ⟨[],.done none⟩ else exTurn q ie inLen 0

def rtwGetIeEx (inLen : U32) (fuel : Nat) : Option (List Nat × Found) := follow (exTurn q ie inLen) fuel (exEntry q ie inLen)
end

structure WpaAt where
  pbuf : Nat
  i : Nat

def wpaOui : List U8 := [0x00,0x50,0xf2,0x01]
def wpaIeId : Int := 0xdd

def checkNextIe (limit : Int) (pbuf len : Nat) (reads : List Nat) : Turn WpaAt Found :=
  if limit - pbuf - 2 - len ≤ 0 then ⟨reads,.done none⟩ else ⟨reads,.again ⟨pbuf + (2 + len),0⟩⟩

def wpaTurn (limit : Int) (s : WpaAt) : Turn WpaAt Found :=
  let inner := ieTurn ie s.pbuf wpaIeId (limit-s.pbuf) s.i
  match inner.next with
  | .again i => ⟨inner.reads,.again ⟨s.pbuf,i⟩⟩
  | .done none => ⟨inner.reads,.done none⟩
  | .done (some (pbuf,len)) =>
    let reads := inner.reads ++ span (pbuf+2) 4
    if memcmp ie (pbuf+2) wpaOui then
      if getLe16 ie (pbuf+6) = 1 then ⟨reads ++ span (pbuf+6) 2 ++ span (pbuf+1) 1,.done (some (pbuf,size ie pbuf))⟩
      else checkNextIe limit pbuf len (reads ++ span (pbuf+6) 2)
    else checkNextIe limit pbuf len reads

def wpaEntry (limit : Int) : Turn WpaAt Found := if limit < 1 then ⟨[],.done none⟩ else wpaTurn ie limit ⟨0,0⟩

def rtwGetWpaIe (limit : Int) (fuel : Nat) : Option (List Nat × Found) := follow (wpaTurn ie limit) fuel (wpaEntry ie limit)

def maxIeSz : Nat := 768

def vendorTurn (oui : List U8) (copies : Bool) (ie : Bytes) (inLen cnt : Nat) : Turn Nat Found :=
  if cnt + 1 + 4 < inLen then
    if maxIeSz ≤ cnt + 1 + 4 then ⟨span cnt 1,.done none⟩
    else if ie cnt ≠ vendorSpecific then ⟨span cnt 1 ++ span (cnt+1) 1,.again (cnt + (size ie cnt + 2))⟩
    else
      let reads := span cnt 1 ++ span (cnt+2) oui.length ++ span (cnt+1) 1
      if memcmp ie (cnt+2) oui then ⟨reads ++ copied copies cnt (size ie cnt + 2),.done (some (cnt,size ie cnt + 2))⟩
      else ⟨reads,.again (cnt + (size ie cnt + 2))⟩
  else ⟨[],.done none⟩

def vendorEntry (oui : List U8) (copies : Bool) (ie : Bytes) (inLen : Nat) : Turn Nat Found :=
  if inLen ≤ 0 then ⟨[],.done none⟩ else vendorTurn oui copies ie inLen 0

def rtwGetWpsIe (inLen : Nat) (copies : Bool) (fuel : Nat) : Option (List Nat × Found) :=
  follow (vendorTurn wps.oui copies ie inLen) fuel (vendorEntry wps.oui copies ie inLen)

def rtwGetP2pIe (inLen : Int) (copies : Bool) (fuel : Nat) : Option (List Nat × Found) :=
  if inLen < 0 then some ([],none)
  else follow (vendorTurn p2p.oui copies ie inLen.toNat) fuel (vendorEntry p2p.oui copies ie inLen.toNat)

structure SecAt where
  cnt : U32
  rsnLen : U16
  wpaLen : U16

def rsnId : U8 := 0x30

def secTurn (inLen : U32) (s : SecAt) : Turn SecAt Nat :=
  if s.cnt < inLen then
    let tag := span s.cnt.toNat 1 ++ span (s.cnt+1).toNat 1
    let element := span s.cnt.toNat (whole ie s.cnt)
    if ie s.cnt.toNat = vendorSpecific then
      if memcmp ie (s.cnt+2).toNat wpaOui then
        ⟨tag ++ span (s.cnt+2).toNat 4 ++ element,.again { s with wpaLen:=whole ie s.cnt,cnt:=goNext ie s.cnt }⟩
      else ⟨tag ++ span (s.cnt+2).toNat 4,.again { s with cnt:=goNext ie s.cnt }⟩
    else if ie s.cnt.toNat = rsnId then ⟨tag ++ element,.again { s with rsnLen:=whole ie s.cnt,cnt:=goNext ie s.cnt }⟩
    else ⟨tag,.again { s with cnt:=goNext ie s.cnt }⟩
  else ⟨[],.done (s.rsnLen.toNat+s.wpaLen.toNat)⟩

def secStart : U32 := 8 + 2 + 2

def rtwGetSecIe (inLen : U32) (rsnLen wpaLen : U16) (fuel : Nat) : Option (List Nat × Nat) :=
  follow (secTurn ie inLen) fuel (secTurn ie inLen ⟨secStart,rsnLen,wpaLen⟩)
end

-- A search returns, reads below the limit and what it returns lies there, with
-- `extra` bytes that its length does not count.
def Bounded (extra limit : Nat) (call : Nat → Option (List Nat × Found)) : Prop :=
  ∃ fuel reads found, call fuel = some (reads,found) ∧ Inside limit reads ∧
    ∀ pos len, found = some (pos,len) → pos + extra + len ≤ limit

end Rtl8852au.Ie
