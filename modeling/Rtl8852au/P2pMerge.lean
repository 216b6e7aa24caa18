import Rtl8852au.ElemWalk

namespace Rtl8852au.P2pMerge
open Words Attr Memory Elements List

def oui : List U8 := [0x50,0x6F,0x9A,0x09]

-- The length byte is 0 here and no later line sets it.
def elOui : List U8 := [0xDD,0x00,0x50,0x6F,0x9A,0x09]

section
variable (inIe : Bytes) (inLen : Nat)

def isP2p (i : Nat) : Bool := inIe i == vendorSpecific && Ie.memcmp inIe (i+2) oui

def mergedLenLoop : Nat → Nat → Int → Option Int
  | 0,_,_ => none
  | fuel+1,i,len =>
    if i < inLen then
      mergedLenLoop fuel (i + Ie.size inIe i + 2) (if isP2p inIe i then len + ((Ie.size inIe i : Int) - 4) else len)
    else some len

def rtwGetP2pMergedIesLen (fuel : Nat) : Option U32 := (mergedLenLoop inIe inLen fuel 0 0).map fun len => BitVec.ofInt 32 (len+4)

structure Merge where
  mem : Bytes
  moved : Nat
  wrote : List Nat
  len : U8

def Merge.copy (m : Merge) (bytes : List U8) : Merge where
  mem := put m.mem m.moved bytes
  moved := m.moved + bytes.length
  wrote := m.wrote ++ range' m.moved bytes.length
  len := m.len + BitVec.ofNat 8 bytes.length

-- The outer `none` is for too little fuel, the inner one for a `_rtw_memcpy`
-- whose size is negative.
def mergeLoop : Nat → Nat → Merge → Option (Option Merge)
  | 0,_,_ => none
  | fuel+1,i,m =>
    if i < inLen then
      if isP2p inIe i then
        if Ie.size inIe i < 4 then some none
        else mergeLoop fuel (i + Ie.size inIe i + 2) (m.copy (bytesAt inIe (i+6) (Ie.size inIe i - 4)))
      else mergeLoop fuel (i + Ie.size inIe i + 2) m
    else some (some m)

structure Merged where
  mem : Bytes
  wrote : List Nat
  ret : Int

def rtwP2pMergeIes (mergeIe : Bytes) (fuel : Nat) : Option (Option Merged) :=
  (mergeLoop inIe inLen fuel 0 ⟨put mergeIe 0 elOui,6,range' 0 6,0⟩).map fun end_ =>
    end_.map fun m => ⟨m.mem,m.wrote,(m.len.toNat : Int) + 4⟩
end

-- An element's bytes after the OUI, when it has it.
def payload (e : Element) : Option (List U8) := if e.body.take 4 = oui then some (e.body.drop 4) else none
def payloads (es : List Element) : List U8 := (es.filterMap payload).flatten

structure Attribute where
  id : U8
  data : List U8
  short : data.length < 65536

def Attribute.bytes (a : Attribute) : List U8 :=
  a.id :: lo8 (BitVec.ofNat 16 a.data.length) :: hi8 (BitVec.ofNat 16 a.data.length) :: a.data

structure VendorList where
  buf : Bytes
  elems : List Element
  vendor : ∀ e ∈ elems, e.id = vendorSpecific
  holds : Holds buf 0 elems
  fits : (encode elems).length < 2 ^ 31

def VendorList.len (l : VendorList) : Nat := (encode l.elems).length

-- A last element shorter than the OUI, which the bytes behind the list complete.
def VendorList.Torn (l : VendorList) : Prop :=
  ∃ front last, l.elems = front ++ [last] ∧ last.body.length < 4 ∧ bytesAt l.buf (l.len-last.body.length) 4 = oui

-- Any attribute that the payloads hold whole, the first with its id, is found.
def Finds (out : Bytes) (len : Nat) (held : List U8) : Prop :=
  ∀ (front : List Attribute) (a : Attribute) (rest : List U8), held = front.flatMap Attribute.bytes ++ (a.bytes ++ rest) →
    (∀ b ∈ front, b.id ≠ a.id) → ∀ copies, ∃ fuel reads pos count, rtwGetP2pAttr out len a.id copies fuel = some (reads,some (pos,count)) ∧
      pos = 6 + (front.flatMap Attribute.bytes).length ∧ count.toNat = a.bytes.length ∧ bytesAt out pos a.bytes.length = a.bytes

def MergeFine (l : VendorList) (mergeIe : Bytes) : Prop :=
  ∃ len out, (∃ fuel, rtwGetP2pMergedIesLen l.buf l.len fuel = some len) ∧
    (∃ fuel, rtwP2pMergeIes l.buf l.len mergeIe fuel = some (some out)) ∧ out.wrote = range (len.toNat+2) ∧
    out.ret = len.toNat ∧ out.mem 0 = vendorSpecific ∧ ouiAt out.mem = oui ∧
    bytesAt out.mem 6 (len.toNat-4) = payloads l.elems ∧ Finds out.mem (len.toNat+2) (payloads l.elems)

section Runs
variable {inIe : Bytes} {pos : Nat} {e : Element} {es : List Element}

theorem payload_some (body : oui <+: e.body) : payload e = some (e.body.drop 4) ∧ 4 ≤ e.body.length := by
  obtain ⟨rest,same⟩ := body
  refine ⟨?_,?_⟩
  · unfold payload
    rw [←same]
    rfl
  · rw [←same]
    simp [oui]

theorem payload_none (other : ¬ oui <+: e.body) : payload e = none := by
  unfold payload
  rw [if_neg]
  intro first
  exact other ⟨e.body.drop 4,by rw [←first,take_append_drop]⟩

theorem isP2p_long (holds : Holds inIe pos (e :: es)) (vendor : e.id = vendorSpecific) (long : 4 ≤ e.body.length) :
    isP2p inIe pos ↔ oui <+: e.body := by
  have body := holds.body
  have first : bytesAt inIe (pos+2) 4 = e.body.take 4 := by
    rw [←body,←Nat.add_sub_cancel' long,bytesAt_append,take_append_of_le_length (by simp),take_of_length_le (by simp)]
  unfold isP2p
  rw [holds.id,vendor,beq_self_eq_true,Bool.true_and,Ie.memcmp_iff,show oui.length = 4 from rfl,first]
  exact ⟨fun same => prefix_iff_eq_take.mpr same.symm,fun before => (prefix_iff_eq_take.mp before).symm⟩

theorem isP2p_short {e' : Element} (holds : Holds inIe pos (e :: e' :: es)) (vendor : e'.id = vendorSpecific)
    (short : e.body.length < 4) :
    isP2p inIe pos = false := by
  have next := holds.tail.id
  rw [vendor] at next
  rw [←Bool.not_eq_true]
  intro hit
  unfold isP2p at hit
  rw [Bool.and_eq_true,Ie.memcmp_iff] at hit
  have there := congrArg (fun bytes => bytes[e.body.length]?) hit.2
  rw [show oui.length = 4 from rfl,bytesAt_get inIe (pos+2) short,show pos + 2 + e.body.length = pos + e.size by unfold Element.size; omega,
    next] at there
  have small : e.body.length = 0 ∨ e.body.length = 1 ∨ e.body.length = 2 ∨ e.body.length = 3 := by omega
  rcases small with k | k | k | k <;> rw [k] at there <;> exact absurd there (by decide)
end Runs

end Rtl8852au.P2pMerge
