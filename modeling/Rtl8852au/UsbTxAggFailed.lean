import Rtl8852au.UsbTxAggRun

namespace Rtl8852au.UsbTx
open List Nat
open Rings (maxPhlRingEntryNum)
open PrefixScan

def passed (earlier later : Idx) : List Idx :=
  (range ((later.val + maxPhlRingEntryNum - earlier.val) % maxPhlRingEntryNum)).map (fun k => ahead earlier (k+1))

def slotsOf (ok : Bool) (pieces : List Piece) : List Idx := (pieces.filter (fun piece => piece.ok == ok)).map Piece.slot

structure NothingLost (bufs : TxBufs) (tring : TxRing) (txBuf : Nat) (handled : Handled) : Prop where
  exact : passed tring.phlIdx handled.tring.phlIdx = (if handled.sent then slotsOf true handled.pieces else []) ++ slotsOf false handled.pieces
  single : (slotsOf false handled.pieces).length ≤ 1
  buffer : if handled.sent then handled.bufs = {bufs with inFlight:=bufs.inFlight ++ [txBuf]}
    else handled.bufs = bufs.enqueue tring.tid txBuf
  again : handled.sent = false → ∀ slot ∈ slotsOf true handled.pieces, slot ∉ passed tring.phlIdx handled.tring.phlIdx

def handleChecked (bus : Bus) (answers : Answers) (ringSts : RingStatus) (tring : TxRing) (txBuf : Nat) (bufs : TxBufs) : Handled :=
  phlHandleXmitRingUsb bus answers {ringSts with reqBusy:=tring.avail} tring.checked txBuf bufs

-- When nothing is lost: the first packet that is tried fails, or none does and the
-- buffer is taken.
def AllSent (bus : Bus) (plan : Plan) (tring : TxRing) (answers : Answers) (reqBusy : Nat) : Prop :=
  Attempted (accepts bus plan tring answers.fillWd) (halts bus plan tring answers.fillWd) reqBusy 0 → answers.fillWd 0 →
    (∀ k, Attempted (accepts bus plan tring answers.fillWd) (halts bus plan tring answers.fillWd) reqBusy k → answers.fillWd k) ∧
      answers.usbTx

section run
variable {bus : Bus} {plan : Plan} {tring : TxRing} {fillWd : Nat → Bool} {reqBusy n : Nat}

theorem passed_ahead (idx : Idx) (small : n < maxPhlRingEntryNum) :
    passed idx (ahead idx n) = (range n).map (fun k => ahead idx (k+1)) := by
  have inside := idx.isLt
  have moved : ((ahead idx n).val + maxPhlRingEntryNum - idx.val) % maxPhlRingEntryNum = n := by
    simp only [ahead,maxPhlRingEntryNum] at *
    omega
  rw [passed,moved]

theorem slots_last (value : Bool) : slotsOf value ((range (n+1)).map (pieceAt plan tring fillWd)) =
    slotsOf value ((range n).map (pieceAt plan tring fillWd)) ++
      (if fillWd n = value then [ahead tring.phlNextIdx n] else []) := by
  have answer : (pieceAt plan tring fillWd n).ok = fillWd n := rfl
  rw [range_succ,map_append,map_singleton,slotsOf,filter_append,map_append,← slotsOf,
    filter_singleton,answer]
  by_cases same : fillWd n = value
  · simp only [same,beq_self_eq_true,if_true]
    rfl
  · simp only [same,beq_eq_false_iff_ne.mpr same,if_false]
    rfl

variable (plan tring) in
theorem slots_all (ok : ∀ k < n, fillWd k) :
    slotsOf true ((range n).map (pieceAt plan tring fillWd)) = (range n).map (ahead tring.phlNextIdx) ∧
    slotsOf false ((range n).map (pieceAt plan tring fillWd)) = [] := by
  induction n with
  | zero => exact ⟨rfl,rfl⟩
  | succ n ih =>
    obtain ⟨good,bad⟩ := ih (fun k less => ok k (lt_succ_of_lt less))
    have last := ok n (lt_succ_self n)
    rw [slots_last,slots_last,good,bad,last,range_succ,map_append]
    exact ⟨rfl,rfl⟩

theorem checked_phlIdx (tring : TxRing) : tring.checked.phlIdx = tring.phlIdx := by
  unfold TxRing.checked
  split <;> rfl

theorem checked_tid (tring : TxRing) : tring.checked.tid = tring.tid := by
  unfold TxRing.checked
  split <;> rfl

theorem checked_next (some : tring.avail.val ≠ 0) : tring.checked.phlNextIdx = ahead tring.phlIdx 1 := by
  rw [TxRing.checked,if_neg some,← bump_ahead]

theorem checked_moved (fits : n ≤ tring.avail.val) :
    before tring.checked.phlIdx (ahead tring.checked.phlNextIdx) n = ahead tring.phlIdx n := by
  cases n with
  | zero => exact (checked_phlIdx tring).trans (ahead_zero _).symm
  | succ m =>
    have some : tring.avail.val ≠ 0 := by omega
    rw [before,checked_next some,ahead_ahead,add_comm]

theorem checked_slots (fits : n ≤ tring.avail.val) : (range n).map (fun k => ahead tring.phlIdx (k+1)) =
    (range n).map (ahead tring.checked.phlNextIdx) := by
  apply map_congr_left
  intro k member
  have inside := mem_range.mp member
  rw [checked_next (by omega),ahead_ahead,add_comm]
end run
section exact
variable {bus : Bus} {plan : Plan} {ring tring : TxRing} {answers : Answers} {reqBusy n txBuf : Nat} {bufs : TxBufs} {handled : Handled}

section
variable (stops : Stops (accepts bus plan ring answers.fillWd) (halts bus plan ring answers.fillWd) reqBusy n)
include stops

theorem AllSent.counted :
    AllSent bus plan ring answers reqBusy ↔
      (0 < n → answers.fillWd 0 → (∀ k < n, answers.fillWd k) ∧ answers.usbTx) := by
  unfold AllSent
  simp only [stops.attempted]

theorem NothingLost.counted
    (shape : handled.pieces = (range n).map (pieceAt plan ring answers.fillWd))
    (moved : passed tring.phlIdx handled.tring.phlIdx = (range n).map (ahead ring.phlNextIdx))
    (sent : handled.sent = (before false answers.fillWd n && answers.usbTx))
    (buffer : if handled.sent then handled.bufs = {bufs with inFlight:=bufs.inFlight ++ [txBuf]}
      else handled.bufs = bufs.enqueue tring.tid txBuf) :
    NothingLost bufs tring txBuf handled ↔ AllSent bus plan ring answers reqBusy := by
  rw [AllSent.counted stops]
  cases n with
  | zero =>
    refine ⟨fun _ none => absurd none (lt_irrefl 0),fun _ => ⟨?_,?_,buffer,?_⟩⟩
    · rw [moved,shape,sent]
      rfl
    · rw [shape]
      exact zero_le 1
    · intro _ slot member
      rw [shape] at member
      cases member
  | succ m =>
    have earlier : ∀ k < m, answers.fillWd k := by
      intro k less
      by_contra failed
      exact stops.onward k (by omega) (.inl (by simpa using failed))
    obtain ⟨good,bad⟩ := slots_all plan ring earlier
    cases last : answers.fillWd m with
    | true =>
      have every : ∀ k < m+1, answers.fillWd k := by
        intro k less
        rcases lt_or_eq_of_le (le_of_lt_succ less) with smaller | rfl
        · exact earlier k smaller
        · exact last
      obtain ⟨allGood,noneBad⟩ := slots_all plan ring every
      simp only [before,last,Bool.true_and] at sent
      constructor
      · intro lost _ _
        refine ⟨every,?_⟩
        by_contra refused
        have exact := lost.exact
        rw [moved,shape,noneBad,sent,if_neg refused,append_nil] at exact
        simp at exact
      · intro all
        have taken := (all (succ_pos m) (every 0 (succ_pos m))).2
        refine ⟨?_,?_,buffer,?_⟩
        · rw [moved,shape,allGood,noneBad,sent,if_pos taken,append_nil]
        · rw [shape,noneBad]
          exact zero_le 1
        · intro unsent
          rw [sent,taken] at unsent
          cases unsent
    | false =>
      have slotsBad : slotsOf false handled.pieces = [ahead ring.phlNextIdx m] := by
        rw [shape,slots_last,bad,last]
        rfl
      simp only [before,last,Bool.false_and] at sent
      constructor
      · intro lost _ first
        exfalso
        have exact := congrArg length lost.exact
        rw [moved,slotsBad,sent] at exact
        simp at exact
        subst exact
        rw [last] at first
        cases first
      · intro all
        have first : m = 0 := by
          by_contra later
          have ok := (all (succ_pos m) (earlier 0 (by omega))).1 m (lt_succ_self m)
          rw [last] at ok
          cases ok
        subst first
        refine ⟨?_,?_,buffer,?_⟩
        · rw [moved,slotsBad,sent]
          rfl
        · rw [slotsBad]
          exact le_refl 1
        · intro _ slot member
          rw [shape,slots_last,good,last] at member
          cases member
end
end exact

theorem failure_loses_nothing (bus : Bus) (answers : Answers) (ringSts : RingStatus) (tring : TxRing) (txBuf : Nat) (bufs : TxBufs) :
    NothingLost bufs tring txBuf (handleChecked bus answers ringSts tring txBuf bufs) ↔
      AllSent bus (usbTxAggPreprocess bus tring.checked tring.avail) tring.checked answers tring.avail := by
  have finished := loop_finished bus (usbTxAggPreprocess bus tring.checked tring.avail) tring.checked answers.fillWd
    {ringSts with reqBusy := tring.avail} tring.avail
  refine NothingLost.counted count_stops finished.pieces ?_ ?_ ?_
  · have fits : tring.checked.count bus (usbTxAggPreprocess bus tring.checked tring.avail) answers.fillWd tring.avail ≤ tring.avail :=
      count_stops.bound
    have moved := finished.phlIdx
    rw [checked_moved fits] at moved
    simp only [handleChecked,phlHandleXmitRingUsb,moved]
    rw [passed_ahead tring.phlIdx (lt_of_le_of_lt fits tring.avail.isLt),checked_slots fits]
  · simp only [handleChecked,phlHandleXmitRingUsb,finished.pstatus]
  · simp only [handleChecked,phlHandleXmitRingUsb]
    split
    · rfl
    · rw [checked_tid]

-- Two packets are prepared and os_usb_tx refuses them: phl_idx has passed both.
theorem failure_loses : ¬∀ (bus : Bus) (answers : Answers) (ringSts : RingStatus) (tring : TxRing) (txBuf : Nat) (bufs : TxBufs),
    NothingLost bufs tring txBuf (handleChecked bus answers ringSts tring txBuf bufs) := by
  intro all
  have lost := all .usual ⟨fun _ => true,false⟩ ⟨0,0,0,0,0⟩ (.holding (.plain .data 100 (by decide)) (.plain .data 60 (by decide))) 0 ⟨[],[],[]⟩
  have exact := lost.exact
  revert exact
  decide +kernel

end Rtl8852au.UsbTx
