import Rtl8852au.FifoRing
import Rtl8852au.Rings

namespace Rtl8852au.Rings
open FifoRing Machine List

abbrev ringIndex (base moves : Nat) : Nat := index maxPhlRingEntryNum base moves

theorem ring_large : 1 < maxPhlRingEntryNum := by decide
theorem ring_u16 : maxPhlRingEntryNum ≤ 65536 := by decide

section avail
variable {rptr wptr bndy base m n : Nat}

theorem phlCalcAvailRptr_exact (read : rptr < bndy) (written : wptr < bndy) (small : bndy ≤ 65536) :
    phlCalcAvailRptr rptr wptr bndy = if rptr ≤ wptr then wptr - rptr else wptr + (bndy-rptr) := by
  unfold phlCalcAvailRptr u16
  split <;> omega

theorem phlCalcAvailWptr_rest (read : rptr < bndy) (written : wptr < bndy) (small : bndy ≤ 65536) :
    phlCalcAvailWptr rptr wptr bndy + phlCalcAvailRptr rptr wptr bndy = bndy - 1 := by
  rw [phlCalcAvailRptr_exact read written small]
  unfold phlCalcAvailWptr u16
  split <;> split <;> omega

theorem ringIndex_lt : ringIndex base m < maxPhlRingEntryNum := index_lt (by decide)

theorem bump_exact : bump (ringIndex base m) = ringIndex base (m+1) := by
  unfold bump
  rw [ringIndex,ringIndex,index_succ ring_large]
  split <;> split <;> omega

theorem core_bump_exact : (ringIndex base m + 1) % maxPhlRingEntryNum = ringIndex base (m+1) := by
  unfold ringIndex index
  rw [Nat.mod_add_mod,Nat.add_assoc]

variable (base) in
theorem avail_gap (order : m ≤ n) (near : n < m + maxPhlRingEntryNum) :
    phlCalcAvailRptr (ringIndex base m) (ringIndex base n) maxPhlRingEntryNum = n - m := by
  rw [phlCalcAvailRptr_exact ringIndex_lt ringIndex_lt ring_u16]
  exact (index_gap _ _ order near).symm

variable (base) in
theorem room_gap (order : m ≤ n) (near : n < m + maxPhlRingEntryNum) :
    phlCalcAvailWptr (ringIndex base m) (ringIndex base n) maxPhlRingEntryNum + (n-m) = maxPhlRingEntryNum - 1 := by
  rw [← avail_gap base order near]
  exact phlCalcAvailWptr_rest ringIndex_lt ringIndex_lt ring_u16
end avail

variable {α : Type} {base : Nat}

structure TxFifo (base : Nat) (s : Tx α) : Prop where
  bounded : s.handled.length ≤ s.added.length ∧ s.added.length - s.handled.length ≤ maxPhlRingEntryNum - 1
  inRange : s.ring.coreIdx < maxPhlRingEntryNum ∧ s.ring.phlIdx < maxPhlRingEntryNum
  inOrder : s.handled.map Prod.fst = s.added.take s.handled.length
  intact : ∀ k, s.handled.length ≤ k → k < s.added.length →
    s.ring.entry ((base + k + 1) % maxPhlRingEntryNum) = s.added[k]?
  apart : ∀ txReq, s.producer = .moved txReq → ∀ k, s.handled.length ≤ k → k < s.added.length →
    (base + k + 1) % maxPhlRingEntryNum ≠ s.ring.coreIdx
  counted : s.producer = .idle →
    phlCalcAvailRptr s.ring.phlIdx s.ring.coreIdx maxPhlRingEntryNum = s.added.length - s.handled.length
  served : s.producer = .idle → s.consumer = .idle → ∀ txReq, s.added[s.handled.length]? = some txReq →
    ∀ verdict : Verdict, verdict.fits →
      (run Tx.step s [.phlCheckRingStatus true,.consume verdict,.consume verdict]).handled =
        s.handled ++ [(txReq,verdict.prepared)]
  offered : s.producer = .idle → ∀ txReq,
    let after := run Tx.step s (.rtwPhlAddTxReq txReq :: replicate 3 .produce)
    if s.added.length - s.handled.length < maxPhlRingEntryNum - 1 then after.added = s.added ++ [txReq] else after = s

def Tx.Producing (base : Nat) (s : Tx α) : Prop :=
  match s.producer with
  | .idle | .locked _ => s.ring.coreIdx = ringIndex base s.added.length
  -- The index read under the lock may be behind the handler's by now.
  | .room _ rptr => s.ring.coreIdx = ringIndex base s.added.length ∧
      ∃ before ≤ s.handled.length, s.added.length < before + maxPhlRingEntryNum ∧ rptr = ringIndex base before
  | .moved _ => s.ring.coreIdx = ringIndex base (s.added.length+1) ∧
      s.added.length+1 < s.handled.length + maxPhlRingEntryNum

def Tx.Consuming (base : Nat) (s : Tx α) : Prop :=
  match s.consumer with
  | .idle => True
  | .busy reqBusy => s.handled.length + reqBusy ≤ s.added.length ∧
      (reqBusy ≠ 0 → s.ring.phlNextIdx = ringIndex base (s.handled.length+1))
  | .fetched reqBusy rptr txReq => 0 < reqBusy ∧ s.handled.length + reqBusy ≤ s.added.length ∧
      rptr = ringIndex base (s.handled.length+1) ∧ s.added[s.handled.length]? = some txReq

structure Tx.Inv (base : Nat) (s : Tx α) : Prop where
  held : Holds maxPhlRingEntryNum base s.ring.entry s.added s.handled.length
  done : s.ring.phlIdx = ringIndex base s.handled.length
  order : s.handled.map Prod.fst = s.added.take s.handled.length
  producing : s.Producing base
  consuming : s.Consuming base

theorem Tx.Inv.start (phlNextIdx : Nat) (entry : Nat → Option α) (small : base < maxPhlRingEntryNum) :
    (Tx.start base phlNextIdx entry).Inv base := by
  have zero : base = ringIndex base 0 := (index_zero small).symm
  exact ⟨.start (by decide),zero,rfl,zero,trivial⟩

theorem Tx.Consuming.more {s : Tx α} (view : s.Consuming base) (txReq : α) {ring : TxRing α}
    {producer : AddTxReq α} (same : ring.phlNextIdx = s.ring.phlNextIdx) :
    Tx.Consuming base {s with ring:=ring, producer:=producer, added:=s.added ++ [txReq]} := by
  unfold Consuming at view ⊢
  dsimp only
  cases consumer : s.consumer with
  | idle => trivial
  | busy reqBusy =>
    rw [consumer] at view
    obtain ⟨few,next⟩ := view
    rw [same]
    refine ⟨?_,next⟩
    simp only [length_append]
    omega
  | fetched reqBusy rptr found =>
    rw [consumer] at view
    obtain ⟨some_left,few,next,there⟩ := view
    refine ⟨some_left,?_,next,?_⟩
    · simp only [length_append]
      omega
    · rw [getElem?_append_left (by omega)]
      exact there

theorem addTxReqStep_inv {s : Tx α} (inv : s.Inv base) : (addTxReqStep s).Inv base := by
  have producing := inv.producing
  unfold Tx.Producing at producing
  unfold addTxReqStep
  cases producer : s.producer with
  | idle => exact inv
  | locked txReq =>
    rw [producer] at producing
    exact {inv with producing:=⟨producing,s.handled.length,Nat.le_refl _,inv.held.fits,inv.done⟩}
  | room txReq rptr =>
    rw [producer] at producing
    obtain ⟨core,before,old,near,read⟩ := producing
    have past := inv.held.past
    have gap := room_gap base (m := before) (n := s.added.length) (by omega) near
    rw [← core,← read] at gap
    dsimp only
    split
    · refine {inv with producing:=⟨?_,?_⟩}
      · rw [core]
        exact core_bump_exact
      · dsimp only
        omega
    · exact {inv with producing:=core}
  | moved txReq =>
    rw [producer] at producing
    obtain ⟨core,room⟩ := producing
    have past := inv.held.past
    refine ⟨?_,inv.done,?_,?_,inv.consuming.more txReq rfl⟩
    · dsimp only
      rw [core]
      have written := inv.held.write room (some txReq)
      exact written.grow room (by unfold cell; simp)
    · rw [take_append_of_le_length past]
      exact inv.order
    · unfold Tx.Producing
      simpa using core

theorem phlCheckRingStatus_inv (inv : s.Inv base) (idle : s.producer = .idle) (ringSts : Bool) :
    (phlCheckRingStatus s ringSts).Inv base := by
  have producing := inv.producing
  unfold Tx.Producing at producing
  rw [idle] at producing
  have past := inv.held.past
  have gap := avail_gap base past inv.held.fits
  rw [← inv.done,← producing] at gap
  unfold phlCheckRingStatus
  dsimp only
  split
  · exact inv
  · split
    · refine {inv with consuming:=⟨?_,?_⟩}
      · dsimp only
        omega
      · intro _
        dsimp only
        rw [inv.done]
        exact bump_exact
    · exact inv

theorem Tx.Producing.less {s : Tx α} (view : s.Producing base) (one : α × Bool) {ring : TxRing α}
    {consumer : Xmit α} (same : ring.coreIdx = s.ring.coreIdx) :
    Tx.Producing base {s with ring:=ring, consumer:=consumer, handled:=s.handled ++ [one]} := by
  unfold Producing at view ⊢
  dsimp only
  cases producer : s.producer with
  | idle | locked => rw [producer] at view; rw [same]; exact view
  | room txReq rptr =>
    rw [producer] at view
    obtain ⟨core,before,old,near,read⟩ := view
    refine ⟨same.trans core,before,?_,near,read⟩
    simp only [length_append]
    omega
  | moved txReq =>
    rw [producer] at view
    refine ⟨same.trans view.1,?_⟩
    simp only [length_append]
    omega

theorem take_next {all : List α} {n : Nat} {a : α} (there : all[n]? = some a) : all.take (n+1) = all.take n ++ [a] := by
  rw [take_add_one,there]
  rfl

theorem Tx.Inv.took {s : Tx α} (inv : s.Inv base) (there : s.added[s.handled.length]? = some txReq) (prepared : Bool)
    {ring : TxRing α} {consumer : Xmit α} (cells : ring.entry = s.ring.entry) (core : ring.coreIdx = s.ring.coreIdx)
    (moved : ring.phlIdx = ringIndex base (s.handled.length+1))
    (consuming : Tx.Consuming base {s with ring:=ring, consumer:=consumer, handled:=s.handled ++ [(txReq,prepared)]}) :
    Tx.Inv base {s with ring:=ring, consumer:=consumer, handled:=s.handled ++ [(txReq,prepared)]} := by
  obtain ⟨some_left,_⟩ := List.getElem?_eq_some_iff.mp there
  refine ⟨?_,?_,?_,inv.producing.less _ core,consuming⟩
  · dsimp only
    rw [cells,length_append]
    exact inv.held.out some_left
  · dsimp only
    rw [moved,length_append]
    rfl
  · dsimp only
    rw [length_append,map_append,inv.order]
    exact (take_next there).symm

theorem phlHandleXmitRing_inv {s : Tx α} (inv : s.Inv base) (verdict : Verdict) : (phlHandleXmitRing s verdict).Inv base := by
  have consuming := inv.consuming
  unfold Tx.Consuming at consuming
  unfold phlHandleXmitRing
  cases consumer : s.consumer with
  | idle => exact inv
  | busy reqBusy =>
    rw [consumer] at consuming
    obtain ⟨few,next⟩ := consuming
    dsimp only
    split
    · exact {inv with consuming:=trivial}
    · rename_i some_busy
      have there := inv.held.kept s.handled.length (Nat.le_refl _) (by omega)
      split
      · exact {inv with consuming:=trivial}
      · rename_i txReq found
        refine ⟨inv.held,inv.done,inv.order,inv.producing,by omega,few,next some_busy,?_⟩
        rw [← there,← found,next some_busy]
        rfl
  | fetched reqBusy rptr txReq =>
    rw [consumer] at consuming
    obtain ⟨some_left,few,next,there⟩ := consuming
    dsimp only
    split
    · exact {inv with consuming:=trivial}
    · split
      · exact inv.took there verdict.prepared rfl rfl next trivial
      · split
        · apply inv.took there verdict.prepared
          · rfl
          · rfl
          · exact next
          refine ⟨?_,?_⟩
          · simp only [length_append,length_singleton]
            omega
          · intro _
            simp only [length_append,length_singleton]
            rw [next]
            exact bump_exact
        · apply inv.took there verdict.prepared
          · rfl
          · rfl
          · exact next
          refine ⟨?_,fun more => absurd rfl more⟩
          simp only [length_append,length_singleton]
          omega

theorem Tx.step_inv {s : Tx α} (inv : s.Inv base) (event : TxEvent α) : (s.step event).Inv base := by
  cases event with
  | rtwPhlAddTxReq txReq =>
    have producing := inv.producing
    unfold Producing at producing
    unfold step
    dsimp only
    split
    · rename_i idle
      rw [idle] at producing
      exact {inv with producing:=producing}
    · exact inv
  | produce => exact addTxReqStep_inv inv
  | phlCheckRingStatus ringSts =>
    unfold step
    dsimp only
    split
    · rename_i idle _
      exact phlCheckRingStatus_inv inv idle ringSts
    · exact inv
  | skip =>
    unfold step
    dsimp only
    split
    · exact {inv with consuming:=trivial}
    · exact inv
  | consume verdict => exact phlHandleXmitRing_inv inv verdict

theorem Tx.Inv.served (inv : s.Inv base) (quiet : s.producer = .idle) (free : s.consumer = .idle)
    (there : s.added[s.handled.length]? = some txReq) (verdict : Verdict) (fits : verdict.fits) :
    (run Tx.step s [.phlCheckRingStatus true,.consume verdict,.consume verdict]).handled =
      s.handled ++ [(txReq,verdict.prepared)] := by
  have producing := inv.producing
  unfold Tx.Producing at producing
  rw [quiet] at producing
  obtain ⟨some_left,_⟩ := List.getElem?_eq_some_iff.mp there
  have gap := avail_gap base inv.held.past inv.held.fits
  rw [← inv.done,← producing] at gap
  have avail : phlCalcAvailRptr s.ring.phlIdx s.ring.coreIdx maxPhlRingEntryNum ≠ 0 := by omega
  have checked : s.step (.phlCheckRingStatus true) = {s with
      ring := {s.ring with phlNextIdx:=bump s.ring.phlIdx}
      consumer := .busy (phlCalcAvailRptr s.ring.phlIdx s.ring.coreIdx maxPhlRingEntryNum)} := by
    simp [Tx.step,quiet,free,phlCheckRingStatus,avail]
  have entry : s.ring.entry (bump s.ring.phlIdx) = some txReq := by
    rw [inv.done,bump_exact,← there]
    exact inv.held.kept _ (Nat.le_refl _) some_left
  simp only [run,foldl,checked]
  simp only [Tx.step,phlHandleXmitRing,avail,if_false,entry,fits,not_true_eq_false]
  split
  · rfl
  · split <;> rfl

theorem Tx.Inv.offered (inv : s.Inv base) (quiet : s.producer = .idle) (txReq : α) :
    let after := run Tx.step s (.rtwPhlAddTxReq txReq :: replicate 3 .produce)
    if s.added.length - s.handled.length < maxPhlRingEntryNum - 1 then after.added = s.added ++ [txReq] else after = s := by
  have producing := inv.producing
  unfold Tx.Producing at producing
  rw [quiet] at producing
  have gap := room_gap base inv.held.past inv.held.fits
  rw [← inv.done,← producing] at gap
  simp only [run,replicate,foldl,Tx.step,quiet,addTxReqStep]
  split
  · have res : phlCalcAvailWptr s.ring.phlIdx s.ring.coreIdx maxPhlRingEntryNum > 0 := by omega
    simp only [res,if_true]
  · have res : ¬phlCalcAvailWptr s.ring.phlIdx s.ring.coreIdx maxPhlRingEntryNum > 0 := by omega
    simp only [res,if_false]
    rw [← quiet]

theorem Tx.Inv.fifo (inv : s.Inv base) : TxFifo base s := by
  have producing := inv.producing
  unfold Tx.Producing at producing
  have past := inv.held.past
  have fits := inv.held.fits
  refine ⟨⟨past,by omega⟩,⟨?_,?_⟩,inv.order,inv.held.kept,?_,?_,?_,inv.offered⟩
  · split at producing
    · rw [producing]; exact ringIndex_lt
    · rw [producing]; exact ringIndex_lt
    · rw [producing.1]; exact ringIndex_lt
    · rw [producing.1]; exact ringIndex_lt
  · rw [inv.done]; exact ringIndex_lt
  · intro txReq moved k late short
    rw [moved] at producing
    rw [producing.1]
    exact cell_ne short (by omega)
  · intro quiet
    rw [quiet] at producing
    rw [producing,inv.done]
    exact avail_gap _ past fits
  · intro quiet free txReq there verdict roomy
    exact inv.served quiet free there verdict roomy
end Rtl8852au.Rings
