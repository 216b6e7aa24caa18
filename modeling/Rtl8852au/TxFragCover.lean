import Rtl8852au.TxFragCut

namespace Rtl8852au.TxFrag
open Pieces List

variable {B : Type}

def Entry.slice : Entry B → List B
  | .payload slice => slice
  | _ => []

def Txreq.payload (txreq : Txreq B) : List B := txreq.pktList.flatMap Entry.slice

section Run
variable (attrib : PktAttrib) (memory : Nat → Bool) (packet : Packet B) (fragPerfr wlFrags : Nat)

def cuttingAt (count : Nat) : Cutting B :=
  (range count).foldl (fillFrag attrib memory fragPerfr wlFrags) {packet, payloadOffset:=ethHlen, txreqs:=[]}

def settledAt (count : Nat) : Packet B := (range count).foldl (fun packet idx => settled (memory idx) packet) packet

def tailEntry (idx : Nat) : List (Entry B) :=
  if wlanTail attrib wlFrags idx = 0 then [] else [.tail (wlanTail attrib wlFrags idx)]

section
variable (count : Nat)

theorem cuttingAt_succ :
    cuttingAt attrib memory packet fragPerfr wlFrags (count+1) =
      fillFrag attrib memory fragPerfr wlFrags (cuttingAt attrib memory packet fragPerfr wlFrags count) count := by
  rw [cuttingAt,range_succ,foldl_append]
  rfl

theorem settledAt_succ : settledAt memory packet (count+1) =
    settled (memory count) (settledAt memory packet count) := by
  rw [settledAt,range_succ,foldl_append]
  rfl

theorem settledAt_bytes : (settledAt memory packet count).bytes = packet.bytes := by
  induction count with
  | zero => rfl
  | succ count ih => rw [settledAt_succ,settled_bytes,ih]

theorem fillFrag_step (cutting : Cutting B) (idx : Nat) :
    ∃ txreq : Txreq B, fillFrag attrib memory fragPerfr wlFrags cutting idx =
        { packet := settled (memory idx) cutting.packet
          payloadOffset := (cutting.payloadOffset + payloadSz fragPerfr wlFrags idx cutting) % 2^32
          txreqs := cutting.txreqs ++ [txreq] } ∧
      txreq.pktList = .head (if idx = 0 then headSz attrib else headSz attrib - rtwSzLlc) ::
        ((cut (settled (memory idx) cutting.packet).pieces cutting.payloadOffset (payloadSz fragPerfr wlFrags idx cutting)).map
          .payload ++ tailEntry attrib wlFrags idx) ∧
      txreq.Counted := by
  obtain ⟨after,filled,list,counted⟩ := fillTxreqListSkb_list (memory idx) cutting.packet
    (({pktList:=[], pktCnt:=0, totalLen:=0} : Txreq B).put
      (.head (if idx = 0 then headSz attrib else headSz attrib - rtwSzLlc)))
    (payloadSz fragPerfr wlFrags idx cutting) cutting.payloadOffset
  have start : ({pktList:=[], pktCnt:=0, totalLen:=0} : Txreq B).Counted := ⟨rfl,rfl⟩
  have counted := counted (start.put _)
  refine ⟨if wlanTail attrib wlFrags idx = 0 then after else after.put (.tail (wlanTail attrib wlFrags idx)),?_,?_,?_⟩
  · rw [fillFrag,filled]
  · rw [tailEntry]
    split
    · rw [list,append_nil]
      rfl
    · rw [Txreq.put,list,append_assoc]
      rfl
  · split
    · exact counted
    · exact counted.put _

def offsetAt (count : Nat) : Nat := (cuttingAt attrib memory packet fragPerfr wlFrags count).payloadOffset
def sizeAt (idx : Nat) : Nat := payloadSz fragPerfr wlFrags idx (cuttingAt attrib memory packet fragPerfr wlFrags idx)
def shareAt (idx offset size : Nat) : List (List B) := cut (settledAt memory packet (idx+1)).pieces offset size

theorem shareAt_flatten (idx offset size : Nat) :
    (shareAt memory packet idx offset size).flatten = (packet.bytes.drop offset).take size := by
  rw [shareAt,cut_flatten]
  show (((settledAt memory packet (idx+1)).bytes).drop offset).take size = _
  rw [settledAt_bytes]

def Made (idx : Nat) (txreq : Txreq B) : Prop :=
  txreq.pktList = .head (if idx = 0 then headSz attrib else headSz attrib - rtwSzLlc) ::
    ((shareAt memory packet idx (offsetAt attrib memory packet fragPerfr wlFrags idx)
      (sizeAt attrib memory packet fragPerfr wlFrags idx)).map .payload ++ tailEntry attrib wlFrags idx) ∧
  txreq.Counted

theorem cuttingAt_packet :
    (cuttingAt attrib memory packet fragPerfr wlFrags count).packet = settledAt memory packet count := by
  induction count with
  | zero => rfl
  | succ count ih =>
    obtain ⟨txreq,step,_,_⟩ := fillFrag_step attrib memory fragPerfr wlFrags
      (cuttingAt attrib memory packet fragPerfr wlFrags count) count
    rw [cuttingAt_succ,step,settledAt_succ,ih]

theorem cuttingAt_len : (cuttingAt attrib memory packet fragPerfr wlFrags count).packet.len = packet.len := by
  rw [cuttingAt_packet,Packet.len,settledAt_bytes,Packet.len]

theorem cuttingAt_made :
    ∃ txreq, (cuttingAt attrib memory packet fragPerfr wlFrags (count+1)).txreqs =
        (cuttingAt attrib memory packet fragPerfr wlFrags count).txreqs ++ [txreq] ∧
      Made attrib memory packet fragPerfr wlFrags count txreq := by
  obtain ⟨txreq,step,list,counted⟩ := fillFrag_step attrib memory fragPerfr wlFrags
    (cuttingAt attrib memory packet fragPerfr wlFrags count) count
  refine ⟨txreq,?_,?_,counted⟩
  · rw [cuttingAt_succ,step]
  · rw [list,cuttingAt_packet,shareAt,settledAt_succ]
    rfl

theorem offsetAt_succ :
    offsetAt attrib memory packet fragPerfr wlFrags (count+1) =
      (offsetAt attrib memory packet fragPerfr wlFrags count + sizeAt attrib memory packet fragPerfr wlFrags count) % 2^32 := by
  obtain ⟨txreq,step,_,_⟩ := fillFrag_step attrib memory fragPerfr wlFrags
    (cuttingAt attrib memory packet fragPerfr wlFrags count) count
  rw [offsetAt,cuttingAt_succ,step]
  rfl
end

variable {attrib memory packet fragPerfr wlFrags}

theorem Made.payload (made : Made attrib memory packet fragPerfr wlFrags idx txreq) :
    txreq.payload = (packet.bytes.drop (offsetAt attrib memory packet fragPerfr wlFrags idx)).take
      (sizeAt attrib memory packet fragPerfr wlFrags idx) := by
  have slices : ∀ pieces : List (List B), (pieces.map Entry.payload).flatMap Entry.slice = pieces.flatten := by
    intro pieces
    induction pieces with
    | nil => rfl
    | cons piece rest ih => rw [map_cons,flatMap_cons,ih,flatten_cons,Entry.slice]
  have tail : (tailEntry attrib wlFrags idx).flatMap Entry.slice = ([] : List B) := by
    rw [tailEntry]
    split
    · rfl
    · rfl
  rw [Txreq.payload,made.1,flatMap_cons,flatMap_append,slices,tail,shareAt_flatten,append_nil]
  rfl

theorem Made.entries (made : Made attrib memory packet fragPerfr wlFrags idx txreq) :
    txreq.pktCnt = 1 + (shareAt memory packet idx (offsetAt attrib memory packet fragPerfr wlFrags idx)
      (sizeAt attrib memory packet fragPerfr wlFrags idx)).length + (tailEntry (B := B) attrib wlFrags idx).length := by
  rw [made.2.1,made.1,length_cons,length_append,length_map]
  omega

theorem txreqs_length (count : Nat) : (cuttingAt attrib memory packet fragPerfr wlFrags count).txreqs.length = count := by
  induction count with
  | zero => rfl
  | succ count ih =>
    obtain ⟨txreq,more,_⟩ := cuttingAt_made attrib memory packet fragPerfr wlFrags count
    rw [more,length_append,ih]
    rfl

theorem txreqs_made {count idx : Nat} (inside : idx < count) :
    ∃ txreq, (cuttingAt attrib memory packet fragPerfr wlFrags count).txreqs[idx]? = some txreq ∧
      Made attrib memory packet fragPerfr wlFrags idx txreq := by
  induction count with
  | zero => cases inside
  | succ count ih =>
    obtain ⟨last,more,made⟩ := cuttingAt_made attrib memory packet fragPerfr wlFrags count
    rw [more]
    obtain before | here := Nat.lt_or_eq_of_le (Nat.le_of_lt_succ inside)
    · obtain ⟨txreq,found,earlier⟩ := ih before
      refine ⟨txreq,?_,earlier⟩
      rw [getElem?_append_left (by rw [txreqs_length]; exact before),found]
    · subst here
      refine ⟨last,?_,made⟩
      rw [getElem?_append_right (Nat.le_of_eq (txreqs_length _)),txreqs_length,Nat.sub_self]
      rfl

theorem txreqs_member {count : Nat} (member : txreq ∈ (cuttingAt attrib memory packet fragPerfr wlFrags count).txreqs) :
    ∃ idx < count, Made attrib memory packet fragPerfr wlFrags idx txreq := by
  obtain ⟨idx,here⟩ := getElem?_of_mem member
  obtain ⟨inside,_⟩ := List.getElem?_eq_some_iff.mp here
  rw [txreqs_length] at inside
  obtain ⟨same,found,made⟩ := txreqs_made inside
  rw [here] at found
  rw [Option.some.inj found]
  exact ⟨idx,inside,made⟩

def carried (attrib : PktAttrib) (memory : Nat → Bool) (packet : Packet B) (fragPerfr wlFrags count : Nat) : List B :=
  (cuttingAt attrib memory packet fragPerfr wlFrags count).txreqs.flatMap Txreq.payload

theorem carried_succ (count : Nat) :
    carried attrib memory packet fragPerfr wlFrags (count+1) = carried attrib memory packet fragPerfr wlFrags count ++
      (packet.bytes.drop (offsetAt attrib memory packet fragPerfr wlFrags count)).take
        (sizeAt attrib memory packet fragPerfr wlFrags count) := by
  obtain ⟨txreq,more,made⟩ := cuttingAt_made attrib memory packet fragPerfr wlFrags count
  rw [carried,more,flatMap_append,flatMap_singleton,made.payload]
  rfl
end Run

end Rtl8852au.TxFrag
