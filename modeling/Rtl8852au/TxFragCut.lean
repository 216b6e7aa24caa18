import Rtl8852au.TxFrag

namespace Rtl8852au.TxFrag
open Pieces List

variable {B : Type}

def Txreq.Counted (txreq : Txreq B) : Prop :=
  txreq.pktCnt = txreq.pktList.length ∧ txreq.totalLen = (txreq.pktList.map Entry.length).sum

theorem Txreq.Counted.put {txreq : Txreq B} (counted : txreq.Counted) (entry : Entry B) : (txreq.put entry).Counted := by
  obtain ⟨count,total⟩ := counted
  constructor
  · rw [Txreq.put,length_append,count]
    rfl
  · rw [Txreq.put,map_append,sum_append,total]
    simp

theorem Txreq.Counted.append {txreq : Txreq B} (counted : txreq.Counted) (slice : List B) : (txreq.append slice).Counted := by
  rw [Txreq.append]
  split
  · exact counted
  · exact counted.put _

theorem append_list (txreq : Txreq B) (piece : List B) (offset size : Nat) :
    (txreq.append ((piece.drop offset).take size)).pktList = txreq.pktList ++ (cut [piece] offset size).map .payload := by
  simp only [Txreq.append,cut]
  split
  · simp
  · rfl

theorem cut_single_length (piece : List B) (offset size : Nat) :
    (cut [piece] offset size).flatten.length = min size (piece.length-offset) := by
  rw [cut_flatten,flatten_cons,flatten_nil,append_nil,length_take,length_drop]

structure Filled (before after : Filling B) (pieces : List (List B)) : Prop where
  list : after.txreq.pktList = before.txreq.pktList ++ (cut pieces before.offset before.remSz).map .payload
  counted : before.txreq.Counted → after.txreq.Counted
  rem : after.remSz = before.remSz - (cut pieces before.offset before.remSz).flatten.length
  place : after.remSz = 0 ∨ after.offset = before.offset - pieces.flatten.length

theorem Filled.refl (filling : Filling B) : Filled filling filling [] where
  list := by simp [cut]
  counted := id
  rem := by simp [cut]
  place := .inr rfl

theorem Filled.trans (one : Filled first second front)
    (two : Filled second third back) : Filled first third (front ++ back) := by
  have joined : cut (front ++ back) first.offset first.remSz =
      cut front first.offset first.remSz ++ cut back second.offset second.remSz := by
    rw [cut_append,← one.rem]
    obtain none | place := one.place
    · rw [none,cut_none,cut_none]
    · rw [place]
  constructor
  · rw [joined,two.list,one.list,map_append,append_assoc]
  · exact fun counted => two.counted (one.counted counted)
  · rw [joined,two.rem,one.rem,flatten_append,length_append,Nat.sub_sub]
  · obtain none | place := two.place
    · exact .inl none
    · obtain empty | here := one.place
      · have still := two.rem
        rw [empty,Nat.zero_sub] at still
        exact .inl still
      · right
        rw [place,here,flatten_append,length_append,Nat.sub_sub]

theorem filled_piece {filling : Filling B} {piece : List B} (inside : filling.offset < piece.length) {count : Nat}
    (enough : count = min filling.remSz (piece.length-filling.offset)) (offset : Nat)
    (place : filling.remSz - count = 0 ∨ offset = 0) :
    Filled filling ⟨filling.txreq.append ((piece.drop filling.offset).take count),filling.remSz-count,offset⟩ [piece] := by
  have same : (piece.drop filling.offset).take count = (piece.drop filling.offset).take filling.remSz := by
    rw [enough,← length_drop,take_eq_take_iff]
    omega
  constructor
  · rw [same]
    exact append_list _ _ _ _
  · exact fun counted => counted.append _
  · rw [cut_single_length,enough]
  · obtain none | zero := place
    · exact .inl none
    · right
      simp only [flatten_cons,flatten_nil,append_nil]
      omega

theorem filled_passed (passed : piece.length ≤ filling.offset) :
    Filled filling {filling with offset:=filling.offset - piece.length} [piece] := by
  have nothing : cut [piece] filling.offset filling.remSz = [] := by simp [cut,drop_eq_nil_of_le passed]
  constructor
  · rw [nothing,map_nil,append_nil]
  · exact id
  · rw [nothing]
    rfl
  · right
    simp

theorem Filled.full (full : filling.remSz = 0) (pieces : List (List B)) : Filled filling filling pieces where
  list := by rw [full,cut_none,map_nil,append_nil]
  counted := id
  rem := by rw [full,Nat.zero_sub]
  place := .inl full

theorem fillHead_filled (data : List B) (filling : Filling B) : Filled filling (fillHead data filling) [data] := by
  rw [fillHead]
  split
  · rename_i inside
    exact filled_piece inside (Nat.min_comm _ _) 0 (.inr rfl)
  · rename_i passed
    exact filled_passed (Nat.le_of_not_lt passed)

theorem fillPages_filled (pages : List (List B)) (filling : Filling B) : Filled filling (fillPages pages filling) pages := by
  induction pages generalizing filling with
  | nil => exact .refl filling
  | cons page pages ih =>
    rw [fillPages]
    dsimp only
    split
    · rename_i inside
      split
      · rename_i short
        have here := filled_piece inside (Nat.min_eq_left (Nat.le_of_lt short)).symm filling.offset (.inl (Nat.sub_self _))
        rw [Nat.sub_self] at here
        exact here.trans (.full rfl pages)
      · rename_i long
        have here := filled_piece inside (Nat.min_eq_right (Nat.le_of_not_lt long)).symm 0 (.inr rfl)
        exact here.trans (ih _)
    · rename_i passed
      exact (filled_passed (Nat.le_of_not_lt passed)).trans (ih _)

theorem fillTxreqSkb_filled (skb : Skb B) (filling : Filling B) : Filled filling (fillTxreqSkb skb filling) skb.pieces :=
  (fillHead_filled skb.data filling).trans (fillPages_filled skb.frags _)

theorem fillFragList_filled (skbs : List (Skb B)) (filling : Filling B) :
    Filled filling (skbs.foldl (fun filling skb => fillTxreqSkb skb filling) filling) (skbs.flatMap Skb.pieces) := by
  induction skbs generalizing filling with
  | nil => exact .refl filling
  | cons skb skbs ih => exact (fillTxreqSkb_filled skb filling).trans (ih _)

section
variable (memory : Bool) (packet : Packet B)

def settled : Packet B := if crowded packet then rtwSkbLinearize memory packet else packet

theorem settled_bytes : (settled memory packet).bytes = packet.bytes := by
  rw [settled]
  split
  · cases memory with
    | false => rfl
    | true =>
      show packet.bytes ++ ([] ++ []) = packet.bytes
      simp
  · rfl

theorem fillTxreqListSkb_list (txreq : Txreq B) (reqSz offset : Nat) :
    ∃ after : Txreq B, fillTxreqListSkb memory packet txreq reqSz offset = (after,settled memory packet) ∧
      after.pktList = txreq.pktList ++ (cut (settled memory packet).pieces offset reqSz).map .payload ∧
      (txreq.Counted → after.Counted) := by
  have first := fillTxreqSkb_filled (settled memory packet).head {txreq, remSz:=reqSz, offset}
  have both := first.trans (fillFragList_filled (settled memory packet).fragList _)
  exact ⟨_,rfl,both.list,both.counted⟩
end

theorem skbTotalFragNr_pieces (packet : Packet B) : skbTotalFragNr packet = packet.pieces.length := by
  have each : ∀ (skbs : List (Skb B)) (nr : Nat),
      skbs.foldl (fun nr skb => nr + (1 + skb.frags.length)) nr = nr + (skbs.flatMap Skb.pieces).length := by
    intro skbs
    induction skbs with
    | nil => exact fun nr => rfl
    | cons skb skbs ih =>
      intro nr
      rw [foldl_cons,ih,flatMap_cons,length_append,Skb.pieces,length_cons]
      omega
  rw [skbTotalFragNr,each,Packet.pieces,length_append,Skb.pieces,length_cons]
  omega

end Rtl8852au.TxFrag
