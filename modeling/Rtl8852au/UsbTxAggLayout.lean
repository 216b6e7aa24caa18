import Rtl8852au.UsbTxAggRun

namespace Rtl8852au.UsbTx
open List Option Nat
open Rings (maxPhlRingEntryNum)
open PrefixScan

structure Layout (bus : Bus) (handled : Handled) : Prop where
  chained : ∀ k (piece : Piece), handled.pieces[k]? = some piece → piece.ok →
    piece.start = align8 (before 0 (fun j => (handled.pieces[j]?).elim 0 Piece.stop) k)
  apart : ∀ (j k : Nat) (one two : Piece), j < k → handled.pieces[j]? = some one → handled.pieces[k]? = some two → two.ok →
    one.stop ≤ two.start
  inside : ∀ piece ∈ handled.pieces, piece.stop ≤ bus.txBufSize
  whole : ∀ submission, handled.submission = some submission → handled.pieces.getLast?.map Piece.stop = some submission.txLen

variable (bus : Bus) (plan : Plan) (tring : TxRing) (fillWd : Nat → Bool)

def TxRing.stale (k : Nat) : Bool := (tring.reqAt k).any (fun txReq => txReq.mdata.usbPktOfst == 1)

structure Roomy (reqBusy : Nat) : Prop where
  buffer : Attempted (accepts bus plan tring fillWd) (halts bus plan tring fillWd) reqBusy 0 → pktOffsetDummy ≤ bus.txBufSize
  data : ∀ k, 0 < k → Attempted (accepts bus plan tring fillWd) (halts bus plan tring fillWd) reqBusy k → fillWd k →
    tring.isData k
  offset : ∀ k, 0 < k → Attempted (accepts bus plan tring fillWd) (halts bus plan tring fillWd) reqBusy k → fillWd k →
    tring.stale k → plan.dummyAt (k % 256) = false →
    align8 (endAt (prepared plan tring fillWd) k) + prepared plan tring fillWd k ≤ bus.txBufSize

variable {bus plan tring fillWd} {reqBusy k n : Nat}

theorem getElem?_pieces {piece : Piece} : ((List.range n).map (pieceAt plan tring fillWd))[k]? = some piece ↔
    k < n ∧ piece = pieceAt plan tring fillWd k := by
  rw [getElem?_map,map_eq_some_iff]
  constructor
  · rintro ⟨j,there,rfl⟩
    obtain ⟨inside,rfl⟩ := List.getElem?_eq_some_iff.mp there
    rw [length_range] at inside
    simp only [getElem_range]
    exact ⟨inside,trivial⟩
  · rintro ⟨inside,rfl⟩
    exact ⟨k,getElem?_range inside,rfl⟩

theorem pieceAt_start (data : tring.isData k ∨ k = 0) :
    (pieceAt plan tring fillWd k).start = start (prepared plan tring fillWd) k := by
  rcases data with data | rfl
  · simp only [pieceAt,data,if_true]
  · simp only [pieceAt,ite_self]

theorem pieceAt_stop (there : tring.reqAt k = some txReq) (ok : fillWd k) (data : tring.isData k ∨ k = 0) :
    (pieceAt plan tring fillWd k).stop = endAt (prepared plan tring fillWd) (k+1) := by
  rw [Piece.stop,pieceAt_start data,pieceAt_prepared there ok]
  rfl

variable (plan tring fillWd) in
theorem pieceAt_early (k : Nat) : (pieceAt plan tring fillWd k).start ≤ start (prepared plan tring fillWd) k := by
  simp only [pieceAt]
  split
  · exact le_refl _
  · exact start_mono _ (sub_le k 1)

theorem limit_room (holds : pktOffsetDummy ≤ bus.txBufSize) : bus.limit + 8 = bus.txBufSize := by
  have word := bus.word
  unfold pktOffsetDummy at holds
  unfold Bus.limit pktOffsetDummy
  omega

theorem fits_inside (holds : pktOffsetDummy ≤ bus.txBufSize) (wdLen totalLen len : Nat)
    (fits : align8 (wdLen+totalLen) + endAt (prepared plan tring fillWd) k ≤ bus.limit) (short : len ≤ wdLen + totalLen) :
    start (prepared plan tring fillWd) k + len ≤ bus.txBufSize := by
  have room := limit_room holds
  have whole := align8_le (wdLen+totalLen)
  have pad := align8_lt (endAt (prepared plan tring fillWd) k)
  rw [start_end]
  omega

theorem Roomy.piece_inside (roomy : Roomy bus plan tring fillWd reqBusy)
    (attempted : Attempted (accepts bus plan tring fillWd) (halts bus plan tring fillWd) reqBusy k) :
    (pieceAt plan tring fillWd k).stop ≤ bus.txBufSize := by
  have holds := roomy.buffer (attempted.before (zero_le k))
  obtain ⟨txReq,there⟩ := accepts_there attempted.2.1
  have tests := (accepts_some there).mp attempted.2.1
  have early := pieceAt_early plan tring fillWd k
  have long : (pieceAt plan tring fillWd k).len = if fillWd k then writes plan k txReq else macTxdescLen txReq.mdata := by
    rw [pieceAt_some there]
  rw [Piece.stop,long]
  by_cases ok : fillWd k
  · rw [if_pos ok]
    by_cases measured : (txReq.mdata.usbPktOfst == 1) = false ∨ plan.dummyAt (k % 256)
    · have inner := fits_inside holds _ _ _ tests.1 (writes_bounds txReq measured)
      omega
    · have stale : txReq.mdata.usbPktOfst == 1 := by
        by_contra fresh
        exact measured (.inl (by simpa using fresh))
      have plain : plan.dummyAt (k % 256) = false := by
        by_contra dummy
        exact measured (.inr (by simpa using dummy))
      rcases Nat.eq_zero_or_pos k with rfl | later
      · have written := writes_stale plan 0 txReq
        have room := limit_room holds
        have whole := align8_le (txReq.wdLen + dummyLen (plan.dummyAt (0 % 256)) + txReq.totalLen)
        have fits := tests.1
        have first : start (prepared plan tring fillWd) 0 = 0 := rfl
        unfold pktOffsetDummy at written
        omega
      · have room := roomy.offset k later attempted ok (by simpa only [TxRing.stale,there,any_some] using stale) plain
        rw [prepared_some there,if_pos ok,← start_end] at room
        omega
  · rw [if_neg ok]
    have desc := desc_le txReq
    have inner := fits_inside holds _ _ (macTxdescLen txReq.mdata) tests.1 (by omega)
    omega

section run
variable {handled : Handled} {s : Xmit} {answers : Answers}

theorem Roomy.laid (roomy : Roomy bus plan tring fillWd reqBusy) (inside : k < tring.count bus plan fillWd reqBusy)
    (ok : fillWd k) : tring.isData k ∨ k = 0 := by
  rcases Nat.eq_zero_or_pos k with first | later
  · exact .inr first
  · exact .inl (roomy.data k later (count_stops.attempted.mpr inside) ok)

theorem Roomy.layout (roomy : Roomy bus plan tring fillWd reqBusy)
    (finished : Finished plan tring fillWd (tring.count bus plan fillWd reqBusy) s) (pieces : handled.pieces = s.pieces)
    (submission : ∀ submission, handled.submission = some submission → s.pstatus ∧ submission.txLen = s.txLen) :
    Layout bus handled := by
  have shape : handled.pieces = (range (tring.count bus plan fillWd reqBusy)).map (pieceAt plan tring fillWd) :=
    pieces.trans finished.pieces
  have stop : ∀ j, j+1 < tring.count bus plan fillWd reqBusy →
      (pieceAt plan tring fillWd j).stop = endAt (prepared plan tring fillWd) (j+1) := by
    intro j inside
    have attempted := count_stops.attempted.mpr (lt_of_succ_lt inside)
    obtain ⟨txReq,there⟩ := accepts_there attempted.2.1
    have good := count_good inside
    exact pieceAt_stop there good.1 (.inl good.2)
  constructor
  · rintro k piece there ok
    rw [shape] at there ⊢
    obtain ⟨inside,rfl⟩ := getElem?_pieces.mp there
    rw [pieceAt_start (roomy.laid inside ok),start_end]
    cases k with
    | zero => rfl
    | succ j =>
      have previous := stop j inside
      simp only [before,getElem?_pieces.mpr ⟨lt_of_succ_lt inside,rfl⟩,elim_some,previous]
  · intro j k one two order first second ok
    rw [shape] at first second
    obtain ⟨_,rfl⟩ := getElem?_pieces.mp first
    obtain ⟨inside,rfl⟩ := getElem?_pieces.mp second
    rw [stop j (by omega),pieceAt_start (roomy.laid inside ok)]
    calc endAt (prepared plan tring fillWd) (j+1)
      _ ≤ start (prepared plan tring fillWd) (j+1) := by
        rw [start_end]
        exact align8_le _
      _ ≤ start (prepared plan tring fillWd) k := start_mono _ order
  · intro piece member
    rw [shape] at member
    obtain ⟨k,there,rfl⟩ := mem_map.mp member
    exact roomy.piece_inside (count_stops.attempted.mpr (mem_range.mp there))
  · intro submitted given
    obtain ⟨sent,len⟩ := submission submitted given
    rw [finished.pstatus] at sent
    rw [shape,len]
    cases size : tring.count bus plan fillWd reqBusy with
    | zero =>
      rw [size] at sent
      cases sent
    | succ m =>
      rw [size] at sent
      have inside : m < tring.count bus plan fillWd reqBusy := by omega
      have attempted := count_stops.attempted.mpr inside
      obtain ⟨txReq,there⟩ := accepts_there attempted.2.1
      have laid := roomy.laid inside sent
      rw [range_succ,map_append,map_singleton,getLast?_concat,map_some,
        pieceAt_stop there sent laid,finished.txLen m size sent]
      rcases laid with data | rfl
      · rw [if_pos data]
        rfl
      · congr 1
        simp only [endAt,before,start,ite_self]

theorem Layout.roomy (layout : Layout bus handled)
    (finished : Finished plan tring fillWd (tring.count bus plan fillWd reqBusy) s) (pieces : handled.pieces = s.pieces) :
    Roomy bus plan tring fillWd reqBusy := by
  have shape : handled.pieces = (range (tring.count bus plan fillWd reqBusy)).map (pieceAt plan tring fillWd) :=
    pieces.trans finished.pieces
  have piece : ∀ k, Attempted (accepts bus plan tring fillWd) (halts bus plan tring fillWd) reqBusy k →
      handled.pieces[k]? = some (pieceAt plan tring fillWd k) := by
    intro k attempted
    rw [shape]
    exact getElem?_pieces.mpr ⟨count_stops.attempted.mp attempted,rfl⟩
  have data : ∀ k, 0 < k → Attempted (accepts bus plan tring fillWd) (halts bus plan tring fillWd) reqBusy k → fillWd k →
      tring.isData k := by
    intro k later attempted ok
    by_contra other
    obtain ⟨j,rfl⟩ := Nat.exists_eq_add_one_of_ne_zero (Nat.ne_of_gt later)
    have prior := attempted.before (Nat.le_succ j)
    obtain ⟨txReq,there⟩ := accepts_there prior.2.1
    have good := count_good (count_stops.attempted.mp attempted)
    have apart := layout.apart j (j+1) _ _ (Nat.lt_succ_self j) (piece j prior) (piece (j+1) attempted) ok
    have behind : (pieceAt plan tring fillWd (j+1)).start = start (prepared plan tring fillWd) j := by
      simp only [pieceAt,other,Bool.false_eq_true,if_false,Nat.add_sub_cancel]
    have long := pieceAt_long plan fillWd there
    rw [Piece.stop,pieceAt_start (.inl good.2),behind] at apart
    omega
  have within : ∀ k, Attempted (accepts bus plan tring fillWd) (halts bus plan tring fillWd) reqBusy k →
      (pieceAt plan tring fillWd k).stop ≤ bus.txBufSize :=
    fun k attempted => layout.inside _ (mem_of_getElem? (piece k attempted))
  refine ⟨?_,data,?_⟩
  · intro attempted
    obtain ⟨txReq,there⟩ := accepts_there attempted.2.1
    have long := pieceAt_long plan fillWd there
    have inside := within 0 attempted
    unfold Piece.stop at inside
    unfold pktOffsetDummy
    omega
  · intro k later attempted ok _ _
    obtain ⟨txReq,there⟩ := accepts_there attempted.2.1
    rw [← start_end]
    have inside := within k attempted
    rw [pieceAt_stop there ok (.inl (data k later attempted ok))] at inside
    exact inside
end run

theorem aggregate_laid_out (bus : Bus) (answers : Answers) (ringSts : RingStatus) (tring : TxRing) (txBuf : Nat) (bufs : TxBufs) :
    Layout bus (phlHandleXmitRingUsb bus answers ringSts tring txBuf bufs) ↔
      Roomy bus (usbTxAggPreprocess bus tring ringSts.reqBusy) tring answers.fillWd ringSts.reqBusy := by
  have finished := loop_finished bus (usbTxAggPreprocess bus tring ringSts.reqBusy) tring answers.fillWd ringSts ringSts.reqBusy
  constructor
  · intro layout
    exact layout.roomy finished rfl
  · intro roomy
    refine roomy.layout finished rfl ?_
    intro submission given
    simp only [phlHandleXmitRingUsb] at given
    split at given
    · rename_i sent
      cases given
      exact ⟨sent,rfl⟩
    · cases given

-- A management frame behind a DATA packet: it is written where that one starts.
theorem aggregate_overwritten : ¬∀ (bus : Bus) (answers : Answers) (ringSts : RingStatus) (tring : TxRing) (txBuf : Nat) (bufs : TxBufs),
    Layout bus (phlHandleXmitRingUsb bus answers ringSts tring txBuf bufs) := by
  intro all
  have layout := all .usual ⟨fun _ => true,true⟩ ⟨0,0,0,0,2⟩ (.holding (.plain .data 100 (by decide)) (.plain .mgnt 60 (by decide))) 0 ⟨[],[],[]⟩
  have chained := layout.chained 1 ⟨2,0,84,true⟩ (by decide +kernel) rfl
  revert chained
  decide +kernel

end Rtl8852au.UsbTx
