import Rtl8852au.CyclicCounter
import Rtl8852au.TxHead

namespace Rtl8852au.TxHead
open Nat
open Recv (Bytes Addr Cipher le16 le64 leBytes isMcast getSequence getFragNum getMFrag ccmph2Pn)

theorem memcpy_outside {count : Nat} (outside : i < at_ ∨ at_ + count ≤ i) : memcpy ptr at_ src count i = ptr i := by
  unfold memcpy
  rw [if_neg (by omega)]

theorem memcpy_inside {count : Nat} (inside : i < count) : memcpy ptr at_ src count (at_+i) = src i := by
  unfold memcpy
  rw [if_pos (by omega),Nat.add_sub_cancel_left]

theorem leOf_toNat (v i : Nat) : (leOf v i).toNat = v / 256^i % 256 := by simp [leOf]

section
variable (ptr : Bytes)

theorem le16_lt (at_ : Nat) : le16 ptr at_ < 65536 := by
  have low := (ptr at_).toNat_lt
  have high := (ptr (at_+1)).toNat_lt
  unfold le16
  omega

theorem le16_setLe16 (at_ v : Nat) : le16 (setLe16 ptr at_ v) at_ = v % 65536 := by
  have low : setLe16 ptr at_ v at_ = leOf v 0 := memcpy_inside (i := 0) (by omega)
  have high : setLe16 ptr at_ v (at_+1) = leOf v 1 := memcpy_inside (i := 1) (by omega)
  unfold le16
  rw [low,high,leOf_toNat,leOf_toNat]
  omega

theorem le16_congr {p q : Bytes} (low : p at_ = q at_) (high : p (at_+1) = q (at_+1)) : le16 p at_ = le16 q at_ := by
  unfold le16
  rw [low,high]

theorem getMFrag_setMFrag : getMFrag (setMFrag ptr) := by
  unfold getMFrag setMFrag setFctrl
  rw [le16_setLe16,mod_eq_of_lt (or_lt_two_pow (n := 16) (le16_lt ptr 0) (by decide)),testBit_or]
  simp [show testBit 1024 10 = true by decide]

theorem getMFrag_clearMFrag : getMFrag (clearMFrag ptr) = false := by
  unfold getMFrag clearMFrag
  rw [le16_setLe16,mod_eq_of_lt (lt_of_le_of_lt and_le_left (le16_lt ptr 0)),testBit_and]
  simp [show testBit 64511 10 = false by decide]

theorem setSeqNum_reads (clear : le16 ptr 22 = 0) (small : num < 4096) :
    getSequence (setSeqNum ptr num) = num ∧ getFragNum (setSeqNum ptr num) = 0 := by
  have shifted : 0xFFF0 &&& (num <<< 4) = num*16 := by
    have masked : (0xFFF0 : Nat) = 0xFFF <<< 4 := by decide
    rw [masked,← Nat.shiftLeft_and_distrib,Nat.and_comm,Nat.and_two_pow_sub_one_eq_mod num 12,Nat.mod_eq_of_lt small,Nat.shiftLeft_eq]
  unfold getSequence getFragNum setSeqNum
  rw [le16_setLe16,clear,zero_and,zero_or,shifted]
  omega
end

theorem setLe16_outside (outside : at_ + 2 ≤ i) : setLe16 ptr at_ v i = ptr i := memcpy_outside (.inr outside)
theorem setAddr_outside (outside : at_ + 6 ≤ i) : setAddr ptr at_ addr i = ptr i := memcpy_outside (.inr outside)
theorem setBits_outside (outside : i < at_) : setBits ptr at_ width offset len v i = ptr i := memcpy_outside (.inl outside)

theorem setAddrs_outside (outside : 22 ≤ i) :
    setAddr (setAddr (setAddr hdr 4 first) 10 second) 16 third i = hdr i := by
  rw [setAddr_outside (by omega),setAddr_outside (by omega),setAddr_outside (by omega)]

theorem wlanAddresses_outside (outside : 22 ≤ i) : wlanAddresses cfg a hdr i = hdr i := by
  unfold wlanAddresses
  cases cfg.mode with
  | sta => exact (setAddrs_outside outside).trans (setLe16_outside (by omega))
  | ap => exact (setAddrs_outside outside).trans (setLe16_outside (by omega))
  | adhoc => exact setAddrs_outside outside

theorem wlanQos_outside (outside : i < 24) : wlanQos a hdr i = hdr i := by
  unfold wlanQos
  rw [setBits_outside outside,setBits_outside outside]
  split
  · exact setBits_outside outside
  · rfl

theorem rtwHeFillHtc_outside (outside : i < at_) : rtwHeFillHtc hdr at_ i = hdr i := by
  unfold rtwHeFillHtc
  rw [setBits_outside outside,setBits_outside outside]

theorem wlanFields_seqctl (cfg : Config) (hdr : Bytes) (a : PktAttrib) (lower : 22 ≤ i) (upper : i < 24) :
    wlanFields cfg hdr a i = 0 := by
  have cleared : memcpy hdr 0 (fun _ => 0) a.hdrlen i = 0 := by
    have room := a.room
    have inside : memcpy hdr 0 (fun _ => 0) a.hdrlen (0 + i) = 0 := memcpy_inside (by omega)
    rwa [zero_add] at inside
  have addressed : wlanAddresses cfg a (setFrameSubType (memcpy hdr 0 (fun _ => 0) a.hdrlen) a.subtype) i = 0 := by
    rw [wlanAddresses_outside lower]
    exact (setLe16_outside (by omega)).trans cleared
  have fctrl : ∀ p : Bytes, ∀ bit, setFctrl p bit i = p i := fun p bit => setLe16_outside (by omega)
  unfold wlanFields
  have flagged : ∀ p : Bytes, p i = 0 → ∀ flag : Bool, ∀ bit, (if flag then setFctrl p bit else p) i = 0 := by
    intro p zero flag bit
    cases flag
    · exact zero
    · exact (fctrl p bit).trans zero
  have marked := flagged _ (flagged _ addressed a.mdata 13) (TxFrag.encrypted a.toPktAttrib) 14
  have qos : ∀ p : Bytes, p i = 0 → (if qosOption cfg a.qosEn then wlanQos a p else p) i = 0 := by
    intro p zero
    split
    · exact (wlanQos_outside upper).trans zero
    · exact zero
  have done := qos _ marked
  split
  · rename_i order
    have htc := a.htcRoom order
    rw [rtwHeFillHtc_outside (by omega)]
    exact (fctrl _ 15).trans done
  · exact done

theorem nextSeq_lt (sta : Sta) (priority : Nat) : nextSeq sta priority < 4096 := lt_of_le_of_lt and_le_right (by decide)

theorem nextSeq_eq (sta : Sta) (priority : Nat) : nextSeq sta priority = (sta.txseqTid priority + 1) % 4096 :=
  and_two_pow_sub_one_eq_mod _ 12

theorem and_shiftLeft (x mask n : Nat) : x &&& (mask <<< n) = ((x >>> n) &&& mask) <<< n := by
  apply eq_of_testBit_eq
  intro i
  simp only [testBit_and,testBit_shiftLeft,testBit_shiftRight]
  by_cases above : n ≤ i
  · simp [above]
  · simp [above]

theorem ccmph2Pn_parts (low mid high : Nat) (lowFits : low < 2^16) (midFits : mid < 2^16) (highFits : high < 2^32) :
    ccmph2Pn (low + 2^16*mid + 2^32*high) = low + 2^16*high := by
  have lower : (low + 2^16*mid + 2^32*high) &&& 0xFFFF = low := by
    rw [and_two_pow_sub_one_eq_mod _ 16]
    omega
  have upper : (low + 2^16*mid + 2^32*high) &&& 0xFFFFFFFF00000000 = high <<< 32 := by
    have mask : (0xFFFFFFFF00000000 : Nat) = 0xFFFFFFFF <<< 32 := by decide
    rw [mask,and_shiftLeft,and_two_pow_sub_one_eq_mod _ 32,shiftRight_eq_div_pow]
    congr 1
    omega
  have moved : (high <<< 32) >>> 16 = 2^16*high := by
    rw [shiftRight_eq_div_pow,shiftLeft_eq]
    omega
  unfold ccmph2Pn
  rw [lower,upper,moved,Nat.or_comm,← Nat.two_pow_add_eq_or_of_lt lowFits high]
  omega

theorem leBytes_eight (ptr : Bytes) (at_ : Nat) :
    le64 ptr at_ = le16 ptr at_ + 2^16*le16 ptr (at_+2) + 2^32*(le16 ptr (at_+4) + 2^16*le16 ptr (at_+6)) := by
  simp only [le64,leBytes,le16,List.range,List.range.loop,List.foldr,add_zero,add_assoc,reduceAdd]
  omega

theorem aesIv_pn (head : Bytes) (held : ∀ i < 8, head (at_+i) = aesIv iv pn kid i) :
    ccmph2Pn (le64 head at_) = pn % 2^48 := by
  have low : le16 head at_ = pn % 2^16 := by
    have zero := held 0 (by omega)
    have one := held 1 (by omega)
    unfold le16
    rw [add_zero] at zero
    rw [zero,one]
    simp only [aesIv,leOf_toNat]
    omega
  have upper : le16 head (at_+4) + 2^16*le16 head (at_+6) = pn / 2^16 % 2^32 := by
    unfold le16
    rw [show at_ + 4 + 1 = at_ + 5 from rfl,show at_ + 6 + 1 = at_ + 7 from rfl,held 4 (by omega),held 5 (by omega),
      held 6 (by omega),held 7 (by omega)]
    simp only [aesIv,leOf_toNat]
    omega
  rw [leBytes_eight,upper,ccmph2Pn_parts _ _ _ (le16_lt head at_) (le16_lt head (at_+2)) (mod_lt _ (by decide)),low]
  omega

def headPn (a : PktAttrib) (hdr : Bytes) : Nat := ccmph2Pn (le64 hdr a.hdrlen)
end Rtl8852au.TxHead
