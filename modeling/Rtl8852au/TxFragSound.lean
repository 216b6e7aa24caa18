import Rtl8852au.TxFragCover

namespace Rtl8852au.TxFrag
open Pieces List Nat

variable {B : Type}

structure Handed (attrib : PktAttrib) (fragLen : Nat) (packet : Packet B) : Prop where
  ether : ethHlen ≤ packet.len
  pktlen : attrib.pktlen = packet.len - ethHlen
  short : packet.len < 2^31
  threshold : fragLen < 2^32
  header : wlHead attrib + wlTail attrib < 2^32

structure Exact (attrib : PktAttrib) (memory : Nat → Bool) (packet : Packet B) (fragPerfr wlFrags : Nat) : Prop where
  count : wlFrags ≤ rtwMaxFragNum
  last : offsetAt attrib memory packet fragPerfr wlFrags (wlFrags-1) ≤ packet.len
  bytes : (fillTxreqPktPerfragTxos attrib memory packet fragPerfr wlFrags).txreqs.flatMap Txreq.payload =
    packet.bytes.drop ethHlen
  same : ∃ size, ∀ idx txreq, idx+1 < wlFrags →
    (fillTxreqPktPerfragTxos attrib memory packet fragPerfr wlFrags).txreqs[idx]? = some txreq →
      (if idx = 0 then rtwSzLlc else 0) + txreq.payload.length = size
  totals : ∀ txreq ∈ (fillTxreqPktPerfragTxos attrib memory packet fragPerfr wlFrags).txreqs, txreq.Counted
  entries : ∀ txreq ∈ (fillTxreqPktPerfragTxos attrib memory packet fragPerfr wlFrags).txreqs, txreq.pktCnt ≤ numPktListPerTxreq

def Covers (attrib : PktAttrib) (memory : Nat → Bool) (fragLen : Nat) (packet : Packet B) : Prop :=
  ∃ fragPerfr wlFrags, getWlFragParas fragLen attrib = some (fragPerfr,wlFrags) ∧
    wlHead attrib + wlTail attrib ≤ fragLen ∧ Exact attrib memory packet fragPerfr wlFrags

def room (attrib : PktAttrib) (fragLen : Nat) : Nat := fragLen - (wlHead attrib + wlTail attrib)

def shares (attrib : PktAttrib) (fragLen : Nat) : Nat := (payloadTotalsz attrib + room attrib fragLen - 1) / room attrib fragLen

def shareStart (room idx : Nat) : Nat := ethHlen + (idx*room - rtwSzLlc)

def shareSize (room wlFrags len idx : Nat) : Nat :=
  if idx = wlFrags - 1 then len - shareStart room idx else if idx = 0 then room - rtwSzLlc else room

structure Fits (attrib : PktAttrib) (memory : Nat → Bool) (fragLen : Nat) (packet : Packet B) : Prop where
  positive : wlHead attrib + wlTail attrib < fragLen
  count : payloadTotalsz attrib ≤ rtwMaxFragNum * room attrib fragLen
  llc : payloadTotalsz attrib ≤ room attrib fragLen ∨ rtwSzLlc ≤ room attrib fragLen
  mic : attrib.encrypt = .tkip → payloadTotalsz attrib ≤ room attrib fragLen ∨
    payloadTotalsz attrib % room attrib fragLen = 0 ∨ rtwTkipMicLen ≤ payloadTotalsz attrib % room attrib fragLen
  entries : ∀ idx < shares attrib fragLen,
    1 + (shareAt memory packet idx (shareStart (room attrib fragLen) idx)
      (shareSize (room attrib fragLen) (shares attrib fragLen) packet.len idx)).length +
      (tailEntry (B := B) attrib (shares attrib fragLen) idx).length ≤ numPktListPerTxreq

section Handed
variable {attrib : PktAttrib} {memory : Nat → Bool} {fragLen : Nat} {packet : Packet B} {size full rest : Nat}

theorem sub32_le (ordered : b ≤ a) (small : a < 2^32) : sub32 a b = a - b := by
  rw [sub32]
  omega

theorem total_positive (attrib : PktAttrib) : 0 < payloadTotalsz attrib := by
  rw [payloadTotalsz,rtwSzLlc]
  omega

theorem shares_split (positive : 0 < room attrib fragLen) :
    ∃ full rest, shares attrib fragLen = full+1 ∧ rest < room attrib fragLen ∧
      payloadTotalsz attrib = full * room attrib fragLen + rest + 1 := by
  have some_ := total_positive attrib
  have whole : room attrib fragLen * shares attrib fragLen +
      (payloadTotalsz attrib + room attrib fragLen - 1) % room attrib fragLen = payloadTotalsz attrib + room attrib fragLen - 1 :=
    div_add_mod _ _
  have small := mod_lt (payloadTotalsz attrib + room attrib fragLen - 1) positive
  have one : 1 ≤ shares attrib fragLen := by
    rw [shares,one_le_div_iff positive]
    omega
  refine ⟨shares attrib fragLen - 1,(payloadTotalsz attrib + room attrib fragLen - 1) % room attrib fragLen,by omega,small,?_⟩
  have product : room attrib fragLen * shares attrib fragLen =
      (shares attrib fragLen - 1) * room attrib fragLen + room attrib fragLen := by
    rw [Nat.mul_comm,← Nat.succ_mul]
    congr 1
    omega
  omega

theorem paras_room (handed : Handed attrib fragLen packet) (positive : wlHead attrib + wlTail attrib < fragLen) :
    getWlFragParas fragLen attrib = some (room attrib fragLen,shares attrib fragLen) := by
  have size : sub32 fragLen (wlHead attrib + wlTail attrib) = room attrib fragLen :=
    sub32_le (Nat.le_of_lt positive) handed.threshold
  have some_ : 0 < room attrib fragLen := by
    rw [room]
    omega
  simp only [getWlFragParas,size]
  split
  · rw [if_neg (Nat.ne_of_gt some_)]
    rfl
  · rename_i single
    obtain ⟨full,rest,count,small,total⟩ := shares_split some_
    have none_ : full = 0 := by
      cases full with
      | zero => rfl
      | succ full =>
        rw [succ_mul] at total
        omega
    rw [count,none_]

theorem sizeAt_if (attrib : PktAttrib) (memory : Nat → Bool) (packet : Packet B) (fragPerfr wlFrags idx : Nat) :
    sizeAt attrib memory packet fragPerfr wlFrags idx =
      if idx = wlFrags - 1 then sub32 packet.len (offsetAt attrib memory packet fragPerfr wlFrags idx)
      else if idx = 0 then sub32 fragPerfr rtwSzLlc
      else fragPerfr := by
  rw [sizeAt,payloadSz,cuttingAt_len]
  rfl

structure Split (attrib : PktAttrib) (len size full rest : Nat) : Prop where
  small : rest < size
  total : payloadTotalsz attrib = full*size + rest + 1
  llc : full = 0 ∨ rtwSzLlc ≤ size
  ether : ethHlen ≤ len
  pktlen : attrib.pktlen = len - ethHlen
  short : len < 2^31
  bounded : size < 2^32

theorem Split.le (split : Split attrib packet.len size full rest) : full*size ≤ attrib.pktlen + 16 := by
  have total := split.total
  rw [payloadTotalsz,rtwSzLlc,rtwTkipMicLen] at total
  have mic : (if attrib.encrypt = .tkip then 8 else 0) ≤ 8 := by
    split
    · exact Nat.le_refl 8
    · exact zero_le 8
  omega

theorem Split.large (split : Split attrib len size full rest) (some : full ≠ 0) : rtwSzLlc ≤ size := split.llc.resolve_left some

theorem share_le (size : Nat) (within : idx ≤ full) : idx*size ≤ full*size := mul_le_mul_right size within

section
variable (split : Split attrib packet.len size full rest)
include split

theorem Split.offset : ∀ idx ≤ full,
    offsetAt attrib memory packet size (full+1) idx = shareStart size idx := by
  intro idx
  induction idx with
  | zero =>
    intro _
    rw [shareStart,Nat.zero_mul,Nat.zero_sub]
    rfl
  | succ idx ih =>
    intro within
    have before : idx < full := within
    have last : idx ≠ full + 1 - 1 := by omega
    have large := split.large (by omega)
    have upper := split.le
    have next := share_le size within
    have short := split.short
    have pktlen := split.pktlen
    have bounded := split.bounded
    rw [succ_mul] at next
    rw [offsetAt_succ,ih (Nat.le_of_lt before),sizeAt_if,if_neg last,shareStart,shareStart,Nat.succ_mul]
    rw [rtwSzLlc] at large ⊢
    rw [ethHlen] at pktlen ⊢
    cases idx with
    | zero =>
      rw [if_pos rfl,sub32_le large bounded,Nat.zero_mul]
      omega
    | succ idx =>
      rw [if_neg (succ_ne_zero idx)]
      have one : size ≤ (idx+1) * size := Nat.le_mul_of_pos_left size (Nat.succ_pos idx)
      omega

theorem Split.sizeAt (fits : full*size ≤ attrib.pktlen + rtwSzLlc)
    (within : idx ≤ full) : sizeAt attrib memory packet size (full+1) idx = shareSize size (full+1) packet.len idx := by
  rw [sizeAt_if,shareSize]
  split
  · have last : idx = full := by omega
    subst last
    have pktlen := split.pktlen
    have ether := split.ether
    have short := split.short
    rw [split.offset idx (Nat.le_refl idx)]
    apply sub32_le
    · rw [shareStart]
      rw [ethHlen] at pktlen ether ⊢
      omega
    · omega
  · split
    · obtain none | large := split.llc
      · omega
      · exact sub32_le large split.bounded
    · rfl

theorem Split.carried (fits : full*size ≤ attrib.pktlen + rtwSzLlc) :
    ∀ idx ≤ full,
    carried attrib memory packet size (full+1) idx = (packet.bytes.drop ethHlen).take (idx*size - rtwSzLlc) := by
  intro idx
  induction idx with
  | zero =>
    intro _
    rw [Nat.zero_mul,Nat.zero_sub]
    rfl
  | succ idx ih =>
    intro within
    have before : idx ≤ full := Nat.le_of_lt within
    have grown : (idx+1) * size - rtwSzLlc = (idx*size - rtwSzLlc) + shareSize size (full+1) packet.len idx := by
      have last : idx ≠ full + 1 - 1 := by omega
      have large := split.large (by omega)
      rw [succ_mul,shareSize,if_neg last]
      cases idx with
      | zero => rw [if_pos rfl,Nat.zero_mul,Nat.zero_add,Nat.zero_sub,Nat.zero_add]
      | succ idx =>
        have one : size ≤ (idx+1) * size := Nat.le_mul_of_pos_left size (Nat.succ_pos idx)
        rw [if_neg (succ_ne_zero idx)]
        omega
    rw [carried_succ,ih before,split.offset idx before,split.sizeAt fits before,shareStart,grown,take_add,drop_drop]
end

section
variable (split : Split attrib packet.len size full rest) (fits : full*size ≤ attrib.pktlen + rtwSzLlc)
include split fits

theorem Split.carried_all :
    TxFrag.carried attrib memory packet size (full+1) (full+1) = packet.bytes.drop ethHlen := by
  have all : (packet.bytes.drop (shareStart size full)).take (packet.len - shareStart size full) =
      packet.bytes.drop (shareStart size full) := by
    apply take_of_length_le
    rw [length_drop]
    exact Nat.le_refl _
  rw [carried_succ,split.carried fits full (Nat.le_refl full),split.offset full (Nat.le_refl full),
    split.sizeAt fits (Nat.le_refl full),shareSize,if_pos (Nat.add_sub_cancel full 1).symm,all,shareStart,← drop_drop,take_append_drop]

theorem Split.full_length (early : idx < full) : (if idx = 0 then rtwSzLlc else 0) +
      min (shareSize size (full+1) packet.len idx) (packet.len - shareStart size idx) = size := by
  have last : idx ≠ full + 1 - 1 := by omega
  have large := split.large (by omega)
  have next := share_le size (succ_le_of_lt early)
  have pktlen := split.pktlen
  have ether := split.ether
  rw [succ_mul] at next
  rw [shareSize,if_neg last,shareStart]
  cases idx with
  | zero =>
    rw [if_pos rfl,if_pos rfl,Nat.zero_mul]
    omega
  | succ idx =>
    have one : size ≤ (idx+1) * size := Nat.le_mul_of_pos_left size (Nat.succ_pos idx)
    rw [if_neg (succ_ne_zero idx),if_neg (succ_ne_zero idx)]
    omega
end

theorem Split.exact (split : Split attrib packet.len size full rest) (fits : full*size ≤ attrib.pktlen + rtwSzLlc)
    (count : full + 1 ≤ rtwMaxFragNum)
    (entries : ∀ idx < full+1, 1 + (shareAt memory packet idx (shareStart size idx)
      (shareSize size (full+1) packet.len idx)).length + (tailEntry (B := B) attrib (full+1) idx).length ≤ numPktListPerTxreq) :
    Exact attrib memory packet size (full+1) where
  count := count
  last := by
    have pktlen := split.pktlen
    have ether := split.ether
    show offsetAt attrib memory packet size (full+1) full ≤ packet.len
    rw [split.offset full (Nat.le_refl full),shareStart]
    omega
  bytes := split.carried_all fits
  same := by
    refine ⟨size,?_⟩
    intro idx txreq before found
    have early : idx < full := lt_of_succ_lt_succ before
    have within : idx ≤ full := Nat.le_of_lt early
    obtain ⟨same,there,made⟩ : ∃ same, (fillTxreqPktPerfragTxos attrib memory packet size (full+1)).txreqs[idx]? = some same ∧
      Made attrib memory packet size (full+1) idx same := txreqs_made (lt_of_succ_lt before)
    rw [found] at there
    cases Option.some.inj there
    rw [made.payload,split.offset idx within,split.sizeAt fits within,length_take,length_drop]
    show (if idx = 0 then rtwSzLlc else 0) + min _ (packet.len-_) = size
    exact split.full_length fits early
  totals := by
    intro txreq member
    obtain ⟨idx,_,made⟩ := txreqs_member member
    exact made.2
  entries := by
    intro txreq member
    obtain ⟨idx,inside,made⟩ := txreqs_member member
    have within : idx ≤ full := le_of_lt_succ inside
    rw [made.entries,split.offset idx within,split.sizeAt fits within]
    exact entries idx inside

theorem Split.mic_iff (split : Split attrib packet.len size full rest) :
    full*size ≤ attrib.pktlen + rtwSzLlc ↔ (attrib.encrypt = .tkip → payloadTotalsz attrib ≤ size ∨
      payloadTotalsz attrib % size = 0 ∨ rtwTkipMicLen ≤ payloadTotalsz attrib % size) := by
  have total := split.total
  have small := split.small
  by_cases tkip : attrib.encrypt = .tkip
  · have sum : payloadTotalsz attrib = attrib.pktlen + rtwSzLlc + rtwTkipMicLen := by rw [payloadTotalsz,if_pos tkip]
    have rem : payloadTotalsz attrib % size = (rest+1) % size := by rw [total,Nat.add_assoc,Nat.mul_comm,Nat.mul_add_mod]
    have round : rest + 1 = size ∨ (rest+1) % size = rest + 1 := by
      obtain less | equal := Nat.lt_or_eq_of_le (Nat.succ_le_of_lt small)
      · exact .inr (mod_eq_of_lt less)
      · exact .inl equal
    rw [rtwSzLlc,rtwTkipMicLen] at sum
    rw [rem,rtwSzLlc,rtwTkipMicLen]
    constructor
    · intro fits _
      obtain whole | part := round
      · rw [whole,mod_self]
        exact .inr (.inl rfl)
      · rw [part]
        right
        right
        omega
    · intro mic
      obtain single | whole | long := mic tkip
      · obtain none_ | large := split.llc
        · rw [none_,Nat.zero_mul]
          exact zero_le _
        · have positive : full = 0 := by
            cases full with
            | zero => rfl
            | succ full =>
              rw [succ_mul] at total
              omega
          rw [positive,Nat.zero_mul]
          exact zero_le _
      · obtain same | part := round
        · obtain none_ | large := split.llc
          · rw [none_,Nat.zero_mul]
            exact zero_le _
          · rw [rtwSzLlc] at large
            omega
        · omega
      · obtain same | part := round
        · rw [same,mod_self] at long
          omega
        · omega
  · have sum : payloadTotalsz attrib = attrib.pktlen + rtwSzLlc := by rw [payloadTotalsz,if_neg tkip,Nat.add_zero]
    constructor
    · exact fun _ equal => absurd equal tkip
    · intro _
      omega

theorem Handed.split (handed : Handed attrib fragLen packet) (small : rest < room attrib fragLen)
    (total : payloadTotalsz attrib = full * room attrib fragLen + rest + 1) (llc : full = 0 ∨ rtwSzLlc ≤ room attrib fragLen) :
    Split attrib packet.len (room attrib fragLen) full rest where
  small := small
  total := total
  llc := llc
  ether := handed.ether
  pktlen := handed.pktlen
  short := handed.short
  bounded := by
    have threshold := handed.threshold
    rw [room]
    omega

theorem Fits.covers (handed : Handed attrib fragLen packet) (fits : Fits attrib memory fragLen packet) :
    Covers attrib memory fragLen packet := by
  have positive : 0 < room attrib fragLen := Nat.sub_pos_of_lt fits.positive
  obtain ⟨full,rest,count,small,total⟩ := shares_split positive
  have llc : full = 0 ∨ rtwSzLlc ≤ room attrib fragLen := by
    obtain single | large := fits.llc
    · left
      cases full with
      | zero => rfl
      | succ full =>
        rw [succ_mul] at total
        omega
    · exact .inr large
  have split := handed.split small total llc
  have few : full + 1 ≤ rtwMaxFragNum := by
    have limit := fits.count
    rw [total] at limit
    exact Nat.lt_of_mul_lt_mul_right (Nat.lt_of_lt_of_le (by omega : full * room attrib fragLen < _) limit)
  have entries := fits.entries
  rw [count] at entries
  refine ⟨room attrib fragLen,full+1,?_,Nat.le_of_lt fits.positive,split.exact (split.mic_iff.mpr fits.mic) few entries⟩
  rw [paras_room handed fits.positive,count]

theorem carried_more (attrib : PktAttrib) (memory : Nat → Bool) (packet : Packet B) (fragPerfr wlFrags : Nat)
    (ordered : less ≤ more) :
    (carried attrib memory packet fragPerfr wlFrags less).length ≤ (carried attrib memory packet fragPerfr wlFrags more).length := by
  induction ordered with
  | refl => exact Nat.le_refl _
  | step _ ih =>
    rw [carried_succ,length_append]
    exact le_add_right_of_le ih

theorem short_shares (ether : ethHlen ≤ packet.len) (short : packet.len < 2^31) (positive : 0 < size) (small : size < rtwSzLlc)
    (several : 0 < full) : packet.len - ethHlen < (carried attrib memory packet size (full+1) (full+1)).length := by
  have two : 2 ≤ full + 1 := succ_le_succ several
  have more := carried_more attrib memory packet size (full+1) two
  have wrapped : sub32 size rtwSzLlc = 2^32 - rtwSzLlc + size := by
    rw [rtwSzLlc] at small
    rw [sub32,rtwSzLlc]
    omega
  have first : sizeAt attrib memory packet size (full+1) 0 = 2^32 - rtwSzLlc + size := by
    have last : 0 ≠ full + 1 - 1 := by omega
    rw [sizeAt_if,if_neg last,if_pos rfl,wrapped]
  have second : offsetAt attrib memory packet size (full+1) 1 = ethHlen - rtwSzLlc + size := by
    rw [offsetAt_succ,first]
    show (ethHlen+_) % 2^32 = _
    rw [rtwSzLlc] at small
    rw [ethHlen,rtwSzLlc]
    omega
  have some_ : 0 < sizeAt attrib memory packet size (full+1) 1 := by
    rw [sizeAt_if,second]
    rw [rtwSzLlc] at small
    rw [ethHlen] at ether
    rw [ethHlen,rtwSzLlc]
    split
    · rw [sub32_le (by omega) (by omega)]
      omega
    · rw [if_neg Nat.one_ne_zero]
      exact positive
  have start : carried attrib memory packet size (full+1) 1 = (packet.bytes.drop ethHlen).take (2^32 - rtwSzLlc + size) := by
    rw [carried_succ,first]
    rfl
  have length : packet.bytes.length = packet.len := rfl
  rw [carried_succ,start,second,length_append,length_take,length_drop,length_take,length_drop,length] at more
  rw [rtwSzLlc] at small
  rw [ethHlen] at ether
  rw [ethHlen,rtwSzLlc] at more
  rw [ethHlen]
  omega

theorem Covers.fits (handed : Handed attrib fragLen packet) (covers : Covers attrib memory fragLen packet) :
    Fits attrib memory fragLen packet := by
  obtain ⟨fragPerfr,wlFrags,paras,unwrapped,exact_⟩ := covers
  have positive : wlHead attrib + wlTail attrib < fragLen := by
    obtain less | equal := Nat.lt_or_eq_of_le unwrapped
    · exact less
    · have zero : sub32 fragLen (wlHead attrib + wlTail attrib) = 0 := by
        rw [sub32_le unwrapped handed.threshold,equal,Nat.sub_self]
      rw [getWlFragParas,zero] at paras
      simp [total_positive] at paras
  have room_ : 0 < room attrib fragLen := Nat.sub_pos_of_lt positive
  obtain ⟨full,rest,count,small,total⟩ := shares_split room_
  rw [paras_room handed positive,count] at paras
  cases Option.some.inj paras
  have bytes := congrArg length exact_.bytes
  have llc : full = 0 ∨ rtwSzLlc ≤ room attrib fragLen := by
    obtain none_ | some_ := Nat.eq_zero_or_pos full
    · exact .inl none_
    · right
      by_contra short
      have more : packet.len - ethHlen < (carried attrib memory packet (room attrib fragLen) (full+1) (full+1)).length :=
        short_shares handed.ether handed.short room_ (Nat.lt_of_not_le short) some_
      rw [length_drop] at bytes
      exact absurd bytes (Nat.ne_of_gt more)
  have split := handed.split small total llc
  have last : shareStart (room attrib fragLen) full ≤ packet.len := by
    have start : offsetAt attrib memory packet (room attrib fragLen) (full+1) full = shareStart (room attrib fragLen) full :=
      split.offset full (Nat.le_refl full)
    rw [← start]
    exact exact_.last
  have mic : full * room attrib fragLen ≤ attrib.pktlen + rtwSzLlc := by
    have pktlen := handed.pktlen
    rw [shareStart] at last
    omega
  constructor
  · exact positive
  · have few := mul_le_mul_right (room attrib fragLen) exact_.count
    rw [succ_mul] at few
    omega
  · obtain none_ | large := llc
    · left
      rw [none_,Nat.zero_mul] at total
      omega
    · exact .inr large
  · exact split.mic_iff.mp mic
  · intro idx inside
    rw [count] at inside ⊢
    have within : idx ≤ full := le_of_lt_succ inside
    obtain ⟨txreq,there,made⟩ : ∃ txreq,
        (fillTxreqPktPerfragTxos attrib memory packet (room attrib fragLen) (full+1)).txreqs[idx]? = some txreq ∧
        Made attrib memory packet (room attrib fragLen) (full+1) idx txreq := txreqs_made inside
    have limit := exact_.entries txreq (mem_of_getElem? there)
    rw [made.entries,split.offset idx within,split.sizeAt mic within] at limit
    exact limit

theorem share_entries (fits : crowded packet = false ∨ memory 0) (wlFrags idx offset size : Nat) :
    1 + (shareAt memory packet idx offset size).length + (tailEntry (B := B) attrib wlFrags idx).length ≤ numPktListPerTxreq := by
  have few : ∀ count, crowded (settledAt memory packet (count+1)) = false := by
    intro count
    induction count with
    | zero =>
      show crowded (settled (memory 0) packet) = false
      rw [settled]
      split
      · rename_i many
        obtain not | room := fits
        · rw [not] at many
          cases many
        · rw [room]
          rfl
      · rename_i not
        exact Bool.eq_false_iff.mpr not
    | succ count ih => rw [settledAt_succ,settled,if_neg (Bool.eq_false_iff.mp ih),ih]
  have pieces : (settledAt memory packet (idx+1)).pieces.length ≤ numPktListPerTxreq - 2 := by
    have small := few idx
    rw [crowded,decide_eq_false_iff_not,skbTotalFragNr_pieces] at small
    exact Nat.le_of_not_lt small
  have cut_ := cut_length (settledAt memory packet (idx+1)).pieces offset size
  have tail : (tailEntry (B := B) attrib wlFrags idx).length ≤ 1 := by
    rw [tailEntry]
    split
    · exact zero_le 1
    · exact Nat.le_refl 1
  rw [shareAt]
  rw [numPktListPerTxreq] at pieces ⊢
  omega

-- The fragments cover the packet exactly when the threshold leaves room for a
-- payload, the packet needs no more than ten fragments, the MIC does not spill
-- over a fragment border, and no list is too long.
theorem tx_frag_covers (handed : Handed attrib fragLen packet) :
    Covers attrib memory fragLen packet ↔ Fits attrib memory fragLen packet :=
  ⟨fun covers => covers.fits handed,fun fits => fits.covers handed⟩
end Handed

def linkAttrib (pktlen : Nat) : PktAttrib where
  encrypt := .tkip
  bswenc := false
  hdrlen := 26
  ivLen := 8
  icvLen := 4
  pktlen := pktlen

def linkPacket (len : Nat) : Packet Nat := {head:={data:=List.range len, frags:=[]}, fragList:=[]}

theorem linkPacket_len (len : Nat) : (linkPacket len).len = len := by
  show (range len ++ []).length = len
  rw [append_nil,length_range]

theorem linkPacket_handed (len fragLen : Nat) (ether : ethHlen ≤ len) (short : len < 2^31) (threshold : fragLen < 2^32) :
    Handed (linkAttrib (len-ethHlen)) fragLen (linkPacket len) where
  ether := by rw [linkPacket_len]; exact ether
  pktlen := by rw [linkPacket_len]; rfl
  short := by rw [linkPacket_len]; exact short
  threshold := threshold
  header := (by decide : 42 < 2^32)

theorem tx_frag_covers_link : Covers (linkAttrib 1500) (fun _ => true) 256 (linkPacket 1514) := by
  have handed : Handed (linkAttrib 1500) 256 (linkPacket 1514) := linkPacket_handed 1514 256 (by decide) (by decide) (by decide)
  apply (tx_frag_covers handed).mpr
  constructor
  · decide
  · decide
  · decide
  · decide
  · exact fun idx _ => share_entries (.inr rfl) _ _ _ _

-- 201 bytes behind the Ethernet header: three bytes of the MIC would go into a
-- second fragment whose payload is minus five bytes long.
theorem tx_frag_uncovered : ¬∀ (attrib : PktAttrib) (memory : Nat → Bool) (fragLen : Nat) (packet : Packet Nat),
    Handed attrib fragLen packet → Covers attrib memory fragLen packet := by
  intro always
  have handed : Handed (linkAttrib 201) 256 (linkPacket 215) := linkPacket_handed 215 256 (by decide) (by decide) (by decide)
  have fits := (always (linkAttrib 201) (fun _ => true) 256 (linkPacket 215) handed).fits handed
  exact absurd (fits.mic rfl) (by decide)

end Rtl8852au.TxFrag
