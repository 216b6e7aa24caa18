import Rtl8852au.Scan
import Rtl8852au.Words

namespace Rtl8852au.Attr
open Words Scan BitVec

abbrev Bytes := Nat → U8

def getBe16 (a : Bytes) (pos : Nat) : U16 := mk16 (a pos) (a (pos+1))
def getLe16 (a : Bytes) (pos : Nat) : U16 := mk16 (a (pos+1)) (a pos)
def vendorSpecific : U8 := 0xDD

structure Layout (ι : Type) where
  oui : List U8
  hdr : Nat
  attrId : Bytes → Nat → ι
  attrDataLen : Bytes → Nat → U16

def wps : Layout U16 where
  oui := [0x00,0x50,0xF2,0x04]
  hdr := 4
  attrId := getBe16
  attrDataLen ie pos := getBe16 ie (pos+2)

def p2p : Layout U8 where
  oui := [0x50,0x6F,0x9A,0x09]
  hdr := 3
  attrId ie pos := ie pos
  attrDataLen ie pos := getLe16 ie (pos+1)

def wfd : Layout U8 where
  oui := [0x50,0x6F,0x9A,0x0A]
  hdr := 3
  attrId ie pos := ie pos
  attrDataLen ie pos := getBe16 ie (pos+1)

def ouiAt (ie : Bytes) : List U8 := [ie 2,ie 3,ie 4,ie 5]
def Layout.attrLen (f : Layout ι) (ie : Bytes) (pos : Nat) : U16 := f.attrDataLen ie pos + BitVec.ofNat 16 f.hdr
abbrev Found := Option (Nat × U16)
def copied (copies : Bool) (at_ count : Nat) : List Nat := if copies then span at_ count else []

theorem copied_inside (within : pos + len ≤ ielen) : Inside ielen (copied copies pos len) := by
  unfold copied
  split
  · exact inside_span.mpr (.inr within)
  · simp [Inside]

variable {ι : Type}

section
variable (ie : Bytes) (ielen : Nat) (target : U16) (copies : Bool)

def wpsTurn (pos : Nat) : Turn Nat Found :=
  if pos < ielen then
    let attrLen := wps.attrLen ie pos
    if wps.attrId ie pos = target then ⟨span pos 4 ++ copied copies pos attrLen.toNat,.done (some (pos,attrLen))⟩
    else ⟨span pos 4,.again (pos+attrLen.toNat)⟩
  else ⟨[],.done none⟩

def wpsEntry (ie : Bytes) : Turn Nat Found :=
  if ie 0 ≠ vendorSpecific then ⟨span 0 1,.done none⟩
  else if ouiAt ie ≠ wps.oui then ⟨span 0 1 ++ span 2 4,.done none⟩
  else ⟨span 0 1 ++ span 2 4,.again 6⟩

def rtwGetWpsAttr (fuel : Nat) : Option (List Nat × Found) := follow (wpsTurn ie ielen target copies) fuel (wpsEntry ie)
end

def guardedTurn [DecidableEq ι] (f : Layout ι) (ie : Bytes) (ielen : Nat) (target : ι) (copies : Bool) (pos : Nat) :
    Turn Nat Found :=
  if pos + 3 ≤ ielen then
    let attrLen := f.attrLen ie pos
    if ielen < pos + attrLen.toNat then ⟨span pos 3,.done none⟩
    else if f.attrId ie pos = target then ⟨span pos 3 ++ copied copies pos attrLen.toNat,.done (some (pos,attrLen))⟩
    else ⟨span pos 3,.again (pos+attrLen.toNat)⟩
  else ⟨[],.done none⟩

def guardedEntry (f : Layout ι) (ie : Bytes) (ielen : Nat) : Turn Nat Found :=
  if ielen ≤ 6 then ⟨[],.done none⟩
  else if ie 0 ≠ vendorSpecific then ⟨span 0 1,.done none⟩
  else if ouiAt ie ≠ f.oui then ⟨span 0 1 ++ span 2 4,.done none⟩
  else ⟨span 0 1 ++ span 2 4,.again 6⟩

section
variable (ie : Bytes) (ielen : Nat) (target : U8) (copies : Bool) (fuel : Nat)

def rtwGetP2pAttr : Option (List Nat × Found) :=
  follow (guardedTurn p2p ie ielen target copies) fuel (guardedEntry p2p ie ielen)

def rtwGetWfdAttr : Option (List Nat × Found) :=
  follow (guardedTurn wfd ie ielen target copies) fuel (guardedEntry wfd ie ielen)

-- `rtw_get_*_attr_content`: the attribute without its header, in u32.
def attrContent (f : Layout ι) : Found → Option (Nat × U32)
  | none => none
  | some (pos,attrLen) => if attrLen = 0 then none else some (pos+f.hdr,attrLen.setWidth 32 - BitVec.ofNat 32 f.hdr)

def contentReads (copies : Bool) : Option (Nat × U32) → List Nat
  | none => []
  | some (pos,count) => copied copies pos count.toNat

def getContent (f : Layout ι) (copies : Bool) (out : List Nat × Found) : List Nat × Option (Nat × U32) :=
  (out.1 ++ contentReads copies (attrContent f out.2),attrContent f out.2)

def rtwGetWpsAttrContent (ie : Bytes) (ielen : Nat) (target : U16) (copies : Bool) (fuel : Nat) :
    Option (List Nat × Option (Nat × U32)) :=
  (rtwGetWpsAttr ie ielen target false fuel).map (getContent wps copies)

def rtwGetP2pAttrContent :
    Option (List Nat × Option (Nat × U32)) :=
  (rtwGetP2pAttr ie ielen target false fuel).map (getContent p2p copies)

def rtwGetWfdAttrContent :
    Option (List Nat × Option (Nat × U32)) :=
  (rtwGetWfdAttr ie ielen target false fuel).map (getContent wfd copies)
end

structure InBounds (f : Layout ι) (ielen : Nat) (search : Bool → Nat → Option (List Nat × Found))
    (content : Bool → Nat → Option (List Nat × Option (Nat × U32))) : Prop where
  searched : ∀ copies, ∃ fuel reads found, search copies fuel = some (reads,found) ∧ Inside ielen reads ∧
    ∀ pos len, found = some (pos,len) → pos + len.toNat ≤ ielen
  contents : ∀ copies, ∃ fuel out reads found, search false fuel = some out ∧ content copies fuel = some (reads,found) ∧
    Inside ielen reads ∧ ∀ pos count, found = some (pos,count) →
      ∃ attr len, out.2 = some (attr,len) ∧ pos = attr + f.hdr ∧ count.toNat + f.hdr = len.toNat

-- Where the attributes of an element begin, up to the one that is looked for.
inductive Begins (f : Layout ι) (ie : Bytes) (ielen : Nat) (target : ι) : Nat → Prop where
  | first : Begins f ie ielen target 6
  | next : Begins f ie ielen target pos → pos + f.hdr ≤ ielen → f.attrId ie pos ≠ target →
      pos + (f.attrLen ie pos).toNat ≤ ielen → Begins f ie ielen target (pos + (f.attrLen ie pos).toNat)

-- The 16-bit length with the header added does not pass 2^16, and reaches it
-- only in the attribute that is looked for.
def Unwrapped [DecidableEq ι] (f : Layout ι) (ie : Bytes) (target : ι) (pos : Nat) : Prop :=
  if f.attrId ie pos = target then (f.attrDataLen ie pos).toNat + f.hdr ≤ 65536
  else (f.attrDataLen ie pos).toNat + f.hdr ≠ 65536

def WpsFine (ie : Bytes) (ielen : Nat) (target : U16) : Prop :=
  0 < ielen ∧ (ie 0 = vendorSpecific → 6 ≤ ielen ∧ (ouiAt ie = wps.oui → ∀ pos, Begins wps ie ielen target pos →
    pos < ielen → pos+4 ≤ ielen ∧ Unwrapped wps ie target pos ∧
      (wps.attrId ie pos = target → pos + (wps.attrLen ie pos).toNat ≤ ielen)))

def GuardedFine [DecidableEq ι] (f : Layout ι) (ie : Bytes) (ielen : Nat) (target : ι) : Prop :=
  6 < ielen → ie 0 = vendorSpecific → ouiAt ie = f.oui →
    ∀ pos, Begins f ie ielen target pos → pos+3 ≤ ielen → Unwrapped f ie target pos

def Good (f : Layout ι) (ielen : Nat) (found : Found) : Prop :=
  ∀ pos len, found = some (pos,len) → pos + len.toNat ≤ ielen ∧ (len = 0 ∨ f.hdr ≤ len.toNat)

theorem attrLen_toNat (f : Layout ι) (ie : Bytes) (pos : Nat) :
    (f.attrLen ie pos).toNat = ((f.attrDataLen ie pos).toNat + f.hdr) % 65536 := by
  simp [Layout.attrLen,toNat_add]

theorem content_toNat {hdr : Nat} {len : U16} (within : hdr ≤ len.toNat) :
    (len.setWidth 32 - BitVec.ofNat 32 hdr).toNat + hdr = len.toNat := by
  have bound := len.isLt
  simp only [toNat_sub,toNat_setWidth,toNat_ofNat]
  omega

section Search
variable {f : Layout ι} {ie : Bytes} {ielen : Nat} {entry : Turn Nat Found} {turn : Bool → Nat → Turn Nat Found}
  {search : Bool → Nat → Option (List Nat × Found)} {content : Bool → Nat → Option (List Nat × Option (Nat × U32))}

theorem content_good (copies : Bool) (inside : Inside ielen out.1) (good : Good f ielen out.2) :
    Inside ielen (getContent f copies out).1 ∧ ∀ pos count, (getContent f copies out).2 = some (pos,count) →
      ∃ attr len, out.2 = some (attr,len) ∧ pos = attr + f.hdr ∧ count.toNat + f.hdr = len.toNat := by
  obtain ⟨reads,found⟩ := out
  cases found with
  | none => simpa [getContent,attrContent,contentReads] using inside
  | some found =>
    obtain ⟨attr,len⟩ := found
    obtain ⟨within,whole⟩ := good attr len rfl
    by_cases empty : len = 0
    · simpa [getContent,attrContent,contentReads,empty] using inside
    · have kept := content_toNat (whole.resolve_left empty)
      simp only [getContent,attrContent,if_neg empty,contentReads]
      refine ⟨inside_append.mpr ⟨inside,?_⟩,?_⟩
      · unfold copied
        split
        · exact inside_span.mpr (.inr (by omega))
        · simp [Inside]
      · intro pos count same
        cases same
        exact ⟨attr,len,rfl,rfl,kept⟩

theorem inBounds_good (contents : ∀ copies fuel, content copies fuel = (search false fuel).map (getContent f copies))
    (searches : ∀ copies fuel, search copies fuel = follow (turn copies) fuel entry)
    (safe : ∀ copies, Safe (turn copies) ielen (Good f ielen) entry) : InBounds f ielen search content := by
  constructor
  · intro copies
    obtain ⟨fuel,reads,found,ended,inside,good⟩ := safe copies
    exact ⟨fuel,reads,found,(searches copies fuel).trans ended,inside,fun pos len same => (good pos len same).1⟩
  · intro copies
    obtain ⟨fuel,reads,found,ended,inside,good⟩ := safe false
    have there := (searches false fuel).trans ended
    obtain ⟨within,whole⟩ := content_good copies (show Inside ielen (reads,found).1 from inside) good
    refine ⟨fuel,(reads,found),_,_,there,?_,within,whole⟩
    rw [contents,there]
    rfl

theorem InBounds.good (fine : InBounds f ielen search content)
    (searches : ∀ fuel, search false fuel = follow (turn false) fuel entry)
    (contents : ∀ copies fuel, content copies fuel = (search false fuel).map (getContent f copies)) :
    Safe (turn false) ielen (Good f ielen) entry := by
  obtain ⟨fuel,reads,found,ended,inside,within⟩ := fine.searched false
  obtain ⟨fuel',out,reads',found',ended',there,_,whole⟩ := fine.contents false
  rw [searches] at ended
  have same := follow_agree ended ((searches fuel').symm.trans ended')
  subst same
  rw [contents,ended',Option.map_some,Option.some.injEq] at there
  refine ⟨fuel,reads,found,ended,inside,?_⟩
  intro pos len here
  subst here
  refine ⟨within pos len rfl,?_⟩
  by_cases empty : len = 0
  · exact .inl empty
  · have taken : found' = some (pos+f.hdr,len.setWidth 32 - BitVec.ofNat 32 f.hdr) := by
      have second := congrArg Prod.snd there
      simpa only [getContent,attrContent,if_neg empty] using second.symm
    obtain ⟨attr,len',same,_,size⟩ := whole _ _ taken
    cases same
    exact .inr (by omega)
end Search

end Rtl8852au.Attr
