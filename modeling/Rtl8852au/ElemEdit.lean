import Rtl8852au.ParseElems
import Rtl8852au.ElementsHeld

namespace Rtl8852au.Ie
open Words Scan Attr Elements Memory

structure Ies where
  buf : Bytes
  len : Nat

def rtwGetIeFrom (buf : Bytes) (start : Nat) (index limit : Int) (fuel : Nat) : Option (List Nat × Found) :=
  follow (ieTurn buf start index limit) fuel (ieEntry buf start index limit)

def startAt (buf : Bytes) (start : Nat) : Bytes := fun i => buf (start+i)

def rtwGetIeExFrom (q : Query) (buf : Bytes) (start searchLen fuel : Nat) : Option (List Nat × Found) :=
  rtwGetIeEx q (startAt buf start) (BitVec.ofNat 32 searchLen) fuel

def closeUp (buf : Bytes) (target targetLen remainLen : Nat) : Bytes := put buf target (bytesAt buf (target+targetLen) remainLen)

section
variable (alloc : Nat → Bool) (s : Ies)

-- `rtw_ies_update_ie` where the element was found. `alloc` says whether
-- `rtw_malloc` gives so many bytes for the copy of what is behind it.
def updateAt (start searchLen target targetLen : Nat) (content : List U8) : Ies × Bool :=
  let remain := target + 2 + targetLen
  let remainLen := searchLen - (remain-start)
  let buf := put (put s.buf (target+2) content) (target+1) [BitVec.ofNat 8 content.length]
  if targetLen = content.length then (⟨buf,s.len⟩,true)
  else if alloc remainLen then
    (⟨put buf (target + 2 + content.length) (bytesAt s.buf remain remainLen),s.len + content.length - targetLen⟩,true)
  else (s,false)

def rtwIesUpdateIe (offset : Nat) (new : Element) (fuel : Nat) : Option (Ies × Bool) :=
  if s.len = 0 ∨ s.len ≤ offset then some (s,false)
  else
    match rtwGetIeFrom s.buf offset new.id.toNat (s.len - offset : Nat) fuel with
    | none => none
    | some (_,none) => some (s,false)
    | some (_,some (target,targetLen)) =>
      if targetLen = 0 then some (s,false) else some (updateAt alloc s offset (s.len-offset) target targetLen new.body)

structure Cut where
  buf : Bytes
  iesLen : Nat
  start : Nat
  searchLen : Nat
  ret : Bool

def removeLoop (q : Query) (inner : Nat) : Nat → Cut → Option Cut
  | 0,_ => none
  | fuel+1,c =>
    match rtwGetIeExFrom q c.buf c.start c.searchLen inner with
    | none => none
    | some (_,none) => some c
    | some (_,some (at_,targetLen)) =>
      if targetLen = 0 then some c
      else
        let remainLen := c.searchLen - (at_+targetLen)
        removeLoop q inner fuel
          ⟨closeUp c.buf (c.start+at_) targetLen remainLen,c.iesLen-targetLen,c.start+at_,remainLen,true⟩

def removal (eid : U8) (oui : Option (List U8)) : Query where
  eid := eid
  oui := oui
  copies := false
  sized := true

def rtwIesRemoveIe (s : Ies) (offset : Nat) (eid : U8) (oui : Option (List U8)) (fuel : Nat) : Option (Ies × Bool) :=
  if s.len ≤ offset then some (s,false)
  else (removeLoop (removal eid oui) fuel fuel ⟨s.buf,s.len,offset,s.len-offset,false⟩).map fun c => (⟨c.buf,c.iesLen⟩,c.ret)

def rtwSetIe (s : Ies) (new : Element) : Ies where
  buf := put (put (put s.buf s.len [new.id]) (s.len+1) [BitVec.ofNat 8 new.body.length]) (s.len+2) new.body
  len := s.len + (new.body.length+2)

def extCap : U8 := 127

-- `rtw_update_ext_cap_ie`, with the capabilities as the element they make.
def rtwUpdateExtCapIe (offset : Nat) (new : Element) (fuel : Nat) : Option Ies :=
  if new.body.length ≠ 0 then
    match rtwGetIeFrom s.buf offset extCap.toNat (s.len - offset : Nat) fuel with
    | none => none
    | some (_,none) => some (rtwSetIe s { new with id:=extCap })
    | some (_,some _) => (rtwIesUpdateIe alloc s offset { new with id:=extCap } fuel).map Prod.fst
  else (rtwIesRemoveIe s offset extCap none fuel).map Prod.fst
end

-- `rtw_get_wfd_ie`, as `rtw_get_p2p_ie`.
def rtwGetWfdIe (ie : Bytes) (inLen : Int) (copies : Bool) (fuel : Nat) : Option (List Nat × Found) :=
  if inLen < 0 then some ([],none)
  else follow (vendorTurn wfd.oui copies ie inLen.toNat) fuel (vendorEntry wfd.oui copies ie inLen.toNat)

-- `rtw_del_p2p_ie` and `rtw_del_wfd_ie`: the search begins anew after each
-- element, and takes the length as an int.
def delLoop (search : Bytes → Int → Bool → Nat → Option (List Nat × Found)) (inner : Nat) : Nat → Ies → Option Ies
  | 0,_ => none
  | fuel+1,s =>
    match search s.buf (BitVec.ofNat 32 s.len).toInt false inner with
    | none => none
    | some (_,none) => some s
    | some (_,some (target,targetLen)) =>
      if targetLen = 0 then some s
      else
        let remainLen := s.len - (target+targetLen)
        delLoop search inner fuel
          ⟨put (closeUp s.buf target targetLen remainLen) (target+remainLen) (List.replicate targetLen 0),s.len-targetLen⟩

def rtwDelP2pIe (s : Ies) (fuel : Nat) : Option Ies := delLoop rtwGetP2pIe fuel fuel s
def rtwDelWfdIe (s : Ies) (fuel : Nat) : Option Ies := delLoop rtwGetWfdIe fuel fuel s

end Rtl8852au.Ie
