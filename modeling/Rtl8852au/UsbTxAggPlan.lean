import Rtl8852au.UsbTxAggRun

namespace Rtl8852au.UsbTx
open Nat
open Rings (maxPhlRingEntryNum)
open PrefixScan

section congruence
variable {one two : Nat → Nat} {k : Nat}

theorem start_congr (same : ∀ j < k, one j = two j) : start one k = start two k := by
  induction k with
  | zero => rfl
  | succ k ih => rw [start,start,ih (fun j less => same j (lt_succ_of_lt less)),same k (lt_succ_self k)]

theorem endAt_congr (same : ∀ j < k, one j = two j) : endAt one k = endAt two k := by
  cases k with
  | zero => rfl
  | succ k =>
    have prior := start_congr (fun j less => same j (lt_succ_of_lt less))
    simp only [endAt,before,prior,same k (lt_succ_self k)]

theorem trascAt_congr (shift : Nat) (same : ∀ j < k, one j = two j) : trascAt shift one k = trascAt shift two k := by
  induction k with
  | zero => rfl
  | succ k ih => rw [trascAt,trascAt,ih (fun j less => same j (lt_succ_of_lt less)),endAt_congr same]

theorem wdFull_congr (bus : Bus) (same : ∀ j < k+1, one j = two j) : wdFull bus one k ↔ wdFull bus two k := by
  rw [wdFull,wdFull,trascAt_congr _ same]
end congruence
section plan
variable (bus : Bus) (tring : TxRing)

def planned (k : Nat) : Nat := (tring.reqAt k).elim 0 (fun txReq => txReq.wdLen + txReq.totalLen)

def planAccepts (k : Nat) : Prop :=
  match tring.reqAt k with
  | none => False
  | some txReq => align8 (txReq.wdLen+txReq.totalLen) + endAt (planned tring) k ≤ bus.limit ∧
      (start (planned tring) k + txReq.wdLen) % bus.usbBulkoutSize ≠ 0

def planHalts (k : Nat) : Prop := tring.isData k = false ∨ wdFull bus (planned tring) k

instance : DecidablePred (planAccepts bus tring) := by
  intro k
  unfold planAccepts
  exact match tring.reqAt k with
    | none => instDecidableFalse
    | some _ => instDecidableAnd

instance : DecidablePred (planHalts bus tring) := fun _ => instDecidableOr

def planCount (reqBusy : Nat) : Nat := taken (planAccepts bus tring) (planHalts bus tring) reqBusy 0

structure Planning (k : Nat) (s : Preprocess) : Prop where
  cnt : s.cnt = k
  txLen : s.txLen = endAt (planned tring) k
  packetLen : s.packetLen = before 0 (planned tring) k
  trasc : s.trasc = trascAt bus.shiftOffset (planned tring) k
  lastIdx : s.lastIdx = none

structure Planned (n : Nat) (s : Preprocess) : Prop where
  txLen : s.txLen = endAt (planned tring) n
  lastIdx : s.lastIdx = before none some n ∨ s.lastIdx = none ∧ s.cnt = n

variable {bus tring} {k n reqBusy : Nat} {s : Preprocess}

theorem planned_some (there : tring.reqAt k = some txReq) : planned tring k = txReq.wdLen + txReq.totalLen := by
  rw [planned,there,Option.elim_some]

theorem planAccepts_some (there : tring.reqAt k = some txReq) : planAccepts bus tring k ↔
    align8 (txReq.wdLen+txReq.totalLen) + endAt (planned tring) k ≤ bus.limit ∧
      (start (planned tring) k + txReq.wdLen) % bus.usbBulkoutSize ≠ 0 := by
  simp only [planAccepts,there]

theorem planAccepts_there (accepted : planAccepts bus tring k) : ∃ txReq, tring.reqAt k = some txReq := by
  cases there : tring.reqAt k with
  | none => simp [planAccepts,there] at accepted
  | some txReq => exact ⟨txReq,rfl⟩

theorem Planning.begin : Planning bus tring 0 Preprocess.start := ⟨rfl,rfl,rfl,rfl,rfl⟩

section
variable (planning : Planning bus tring k s)
include planning

theorem Planning.stopped : Planned tring k s.stop := by
  refine ⟨planning.txLen,.inl ?_⟩
  simp only [Preprocess.stop,planning.cnt]
  cases k with
  | zero => rfl
  | succ k => rfl

theorem Planning.refused (no : ¬planAccepts bus tring k) :
    (planRound bus tring s).2 = false ∧ Planned tring k (planRound bus tring s).1 := by
  have cnt := planning.cnt
  subst cnt
  unfold planRound
  cases there : tring.reqAt s.cnt with
  | none =>
    rw [← TxRing.reqAt,there]
    exact ⟨rfl,planning.stopped⟩
  | some txReq =>
    rw [← TxRing.reqAt,there]
    rw [planAccepts_some there,← length_start,← planning.txLen,← planning.packetLen] at no
    dsimp only
    split
    · exact ⟨rfl,planning.stopped⟩
    · rename_i fits
      split
      · exact ⟨rfl,planning.stopped⟩
      · rename_i inner
        refine absurd ⟨Nat.le_of_not_lt fits,?_⟩ no
        rwa [add_right_comm] at inner

theorem Planning.accepted (yes : planAccepts bus tring k) :
    if planHalts bus tring k then (planRound bus tring s).2 = false ∧ Planned tring (k+1) (planRound bus tring s).1
    else (planRound bus tring s).2 ∧ Planning bus tring (k+1) (planRound bus tring s).1 := by
  have cnt := planning.cnt
  subst cnt
  obtain ⟨txReq,there⟩ := planAccepts_there yes
  have data := isData_some there
  have tests := (planAccepts_some there).mp yes
  have len : s.txLen + (align8 s.packetLen - s.packetLen) + (txReq.wdLen+txReq.totalLen) =
      endAt (planned tring) (s.cnt+1) := by
    rw [planning.txLen,planning.packetLen,length_start,← planned_some there]
    rfl
  have trasc : trascStep bus.shiftOffset s.trasc (endAt (planned tring) (s.cnt+1)) =
      trascAt bus.shiftOffset (planned tring) (s.cnt+1) := by
    rw [planning.trasc]
    rfl
  rw [← length_start,← planning.txLen,← planning.packetLen,add_right_comm] at tests
  unfold planRound
  rw [← TxRing.reqAt,there]
  dsimp only
  rw [if_neg (Nat.not_lt_of_le tests.1),if_neg tests.2,len,trasc]
  by_cases full : wdFull bus (planned tring) s.cnt
  · rw [if_pos (.inr full),if_pos (show (trascAt bus.shiftOffset (planned tring) (s.cnt+1)).1 ≥ bus.maxBulkoutWdNum from full)]
    exact ⟨rfl,rfl,.inl rfl⟩
  · rw [if_neg (show ¬(trascAt bus.shiftOffset (planned tring) (s.cnt+1)).1 ≥ bus.maxBulkoutWdNum from full)]
    by_cases isData : txReq.mdata.type = .data
    · rw [if_neg]
      · exact ⟨decide_eq_true isData,rfl,rfl,(planned_some there).symm,rfl,planning.lastIdx⟩
      · rintro (other | limit)
        · rw [data,decide_eq_true isData] at other
          cases other
        · exact full limit
    · rw [if_pos (.inl (data.trans (decide_eq_false isData)))]
      exact ⟨decide_eq_false isData,rfl,.inr ⟨planning.lastIdx,rfl⟩⟩

theorem Planning.loop :
    Planned tring (PrefixScan.taken (planAccepts bus tring) (planHalts bus tring) reqBusy k) (planLoop bus tring reqBusy s) := by
  induction reqBusy generalizing k s with
  | zero => exact ⟨planning.txLen,.inr ⟨planning.lastIdx,planning.cnt⟩⟩
  | succ reqBusy ih =>
    unfold PrefixScan.taken planLoop
    by_cases yes : planAccepts bus tring k
    · have round := planning.accepted yes
      rw [if_pos yes]
      split
      · rename_i last
        rw [if_pos last] at round
        simpa only [round.1,Bool.false_eq_true,if_false] using round.2
      · rename_i more
        rw [if_neg more] at round
        simpa only [round.1,if_true] using ih round.2
    · obtain ⟨stop,planned⟩ := planning.refused yes
      rw [if_neg yes]
      simpa only [stop,Bool.false_eq_true,if_false] using planned
end

theorem planCount_stops : Stops (planAccepts bus tring) (planHalts bus tring) reqBusy (planCount bus tring reqBusy) := taken_stops

theorem wdLen_long (txReq : XmitReq) : 24 ≤ txReq.wdLen ∧ txReq.wdLen ≤ 48 := by
  unfold XmitReq.wdLen maxWdLen maxWdBodyLen
  split <;> omega

theorem plan_length (stops : Stops (planAccepts bus tring) (planHalts bus tring) reqBusy n) (some : 0 < n) :
    24 ≤ endAt (planned tring) n := by
  cases n with
  | zero => exact absurd some (lt_irrefl 0)
  | succ m =>
    obtain ⟨txReq,there⟩ := planAccepts_there (stops.accepted m (lt_succ_self m))
    have long := wdLen_long txReq
    simp only [endAt,before,planned_some there]
    omega

theorem usbTxAggPreprocess_exact (bus : Bus) (tring : TxRing) (reqBusy : Nat) : usbTxAggPreprocess bus tring reqBusy =
    ⟨before none some (planCount bus tring reqBusy),decide (endAt (planned tring) (planCount bus tring reqBusy) ≠ 0 ∧
      endAt (planned tring) (planCount bus tring reqBusy) % bus.usbBulkoutSize = 0)⟩ := by
  have stops : Stops (planAccepts bus tring) (planHalts bus tring) reqBusy (planCount bus tring reqBusy) := taken_stops
  have done : Planned tring (planCount bus tring reqBusy) (planLoop bus tring reqBusy .start) := Planning.begin.loop
  unfold usbTxAggPreprocess
  dsimp only
  rw [done.txLen]
  congr 1
  cases size : planCount bus tring reqBusy with
  | zero =>
    rw [if_neg (fun all => all.2.1 rfl)]
    rcases done.lastIdx with last | ⟨last,_⟩
    · rw [last,size]
    · exact last
  | succ m =>
    have long := plan_length stops (by omega)
    rw [size] at long
    rcases done.lastIdx with last | ⟨last,cnt⟩
    · rw [if_neg]
      · rw [last,size]
      · rintro ⟨none,_⟩
        rw [last,size] at none
        cases none
    · have bound := stops.bound
      rw [if_pos ⟨last,by omega,by omega⟩,cnt,size]
      rfl
end plan

end Rtl8852au.UsbTx
