import Rtl8852au.PrefixScan
import Rtl8852au.UsbTxAgg

namespace Rtl8852au.UsbTx
open Nat List Bool
open Rings (maxPhlRingEntryNum)
open PrefixScan

-- Where packets of given lengths start and end when each one follows the one
-- before it at a multiple of eight.
def start (lens : Nat → Nat) : Nat → Nat
  | 0 => 0
  | k+1 => start lens k + align8 (lens k)

def before (first : α) (f : Nat → α) : Nat → α
  | 0 => first
  | k+1 => f k

def endAt (lens : Nat → Nat) : Nat → Nat := before 0 (fun k => start lens k + lens k)

def trascAt (shift : Nat) (lens : Nat → Nat) : Nat → Nat × Nat
  | 0 => (0,0)
  | k+1 => trascStep shift (trascAt shift lens k) (endAt lens (k+1))

def wdFull (bus : Bus) (lens : Nat → Nat) (k : Nat) : Prop := bus.maxBulkoutWdNum ≤ (trascAt bus.shiftOffset lens (k+1)).1

instance (bus : Bus) (lens : Nat → Nat) : DecidablePred (wdFull bus lens) := fun _ => Nat.decLe _ _

def TxRing.reqAt (tring : TxRing) (k : Nat) : Option XmitReq := tring.entry (ahead tring.phlNextIdx k)
def TxRing.isData (tring : TxRing) (k : Nat) : Bool := (tring.reqAt k).any (fun txReq => txReq.mdata.type = .data)

section
variable (lens : Nat → Nat)

theorem start_mod (lens : Nat → Nat) (k : Nat) : start lens k % 8 = 0 := by
  cases k with
  | zero => rfl
  | succ k =>
    have aligned := start_mod lens k
    have whole := align8_mod (lens k)
    simp only [start]
    omega

theorem pointer_start (k : Nat) : start lens (k-1) + align8 (before 0 lens k) = start lens k := by
  cases k with
  | zero => simp [start,before]
  | succ k => rfl

theorem length_start (k : Nat) :
    endAt lens k + (align8 (before 0 lens k) - before 0 lens k) = start lens k := by
  cases k with
  | zero => simp [start,before,endAt]
  | succ k =>
    have more := align8_le (lens k)
    simp only [endAt,before,start]
    omega

theorem check_start (k more : Nat) :
    endAt lens k + more + align8 (before 0 lens k) - before 0 lens k = start lens k + more := by
  have padded := length_start lens k
  have more := align8_le (before 0 lens k)
  omega

theorem start_end (k : Nat) : start lens k = align8 (endAt lens k) := by
  cases k with
  | zero => simp [start,before,endAt]
  | succ k => exact (align8_add _ _ (start_mod lens k)).symm

theorem start_mono {m n : Nat} (order : m ≤ n) : start lens m ≤ start lens n := by
  induction order with
  | refl => exact le_refl _
  | step _ ih => exact le_trans ih (le_add_right _ _)
end
section handler
variable (bus : Bus) (plan : Plan) (tring : TxRing) (fillWd : Nat → Bool)

-- What the preparation of the k-th request writes, with the eight bytes of the
-- dummy or of an offset that an earlier pass left in the request.
def writes (k : Nat) (txReq : XmitReq) : Nat :=
  macTxdescLen txReq.mdata + dummyLen (txReq.mdata.usbPktOfst == 1 || plan.dummyAt (k % 256)) + txReq.copied

def prepared (k : Nat) : Nat :=
  match tring.reqAt k with
  | none => 0
  | some txReq => if fillWd k then writes plan k txReq else 0

-- The tests of the handler's loop for the k-th request, when those before it were
-- all prepared: whether it gets into the buffer, and whether it is the last one.
def accepts (k : Nat) : Prop :=
  match tring.reqAt k with
  | none => False
  | some txReq =>
    let wdLen := txReq.wdLen + dummyLen (plan.dummyAt (k % 256))
    let lens := prepared plan tring fillWd
    align8 (wdLen+txReq.totalLen) + endAt lens k ≤ bus.limit ∧
    ¬(txReq.mdata.type = .data ∧ endAt lens k ≠ 0 ∧ (start lens k + wdLen) % bus.usbBulkoutSize = 0)

def halts (k : Nat) : Prop := fillWd k = false ∨ tring.isData k = false ∨ wdFull bus (prepared plan tring fillWd) k

instance : DecidablePred (accepts bus plan tring fillWd) := by
  intro k
  unfold accepts
  cases tring.reqAt k with
  | none => exact instDecidableFalse
  | some txReq => exact instDecidableAnd

instance : DecidablePred (halts bus plan tring fillWd) := fun _ => instDecidableOr

def pieceAt (k : Nat) : Piece where
  slot := ahead tring.phlNextIdx k
  start := start (prepared plan tring fillWd) (if tring.isData k then k else k - 1)
  len := (tring.reqAt k).elim 0 (fun txReq => if fillWd k then writes plan k txReq else macTxdescLen txReq.mdata)
  ok := fillWd k

structure Running (k : Nat) (s : Xmit) : Prop where
  phlIdx : s.phlIdx = before tring.phlIdx (ahead tring.phlNextIdx) k
  packetLen : s.packetLen = before 0 (prepared plan tring fillWd) k
  txLen : s.txLen = endAt (prepared plan tring fillWd) k
  txBufData : s.txBufData = start (prepared plan tring fillWd) (k-1)
  aggCnt : s.aggCnt = k % 256
  trasc : s.trasc = trascAt bus.shiftOffset (prepared plan tring fillWd) k
  pstatus : s.pstatus = before false (fun _ => true) k
  pieces : s.pieces = (range k).map (pieceAt plan tring fillWd)
  good : ∀ j < k, fillWd j ∧ tring.isData j
  entries : ∀ j, k ≤ j → j < maxPhlRingEntryNum → s.entry (ahead tring.phlNextIdx j) = tring.reqAt j

structure Finished (n : Nat) (s : Xmit) : Prop where
  phlIdx : s.phlIdx = before tring.phlIdx (ahead tring.phlNextIdx) n
  pstatus : s.pstatus = before false fillWd n
  pieces : s.pieces = (range n).map (pieceAt plan tring fillWd)
  txLen : ∀ m, n = m+1 → fillWd m → s.txLen =
    (if tring.isData m then start (prepared plan tring fillWd) m else endAt (prepared plan tring fillWd) m) +
      prepared plan tring fillWd m

variable {bus plan tring fillWd}

theorem Running.begin : Running bus plan tring fillWd 0 (Xmit.start tring) where
  phlIdx := rfl
  packetLen := rfl
  txLen := rfl
  txBufData := rfl
  aggCnt := rfl
  trasc := rfl
  pstatus := rfl
  pieces := rfl
  good _ none := absurd none (not_lt_zero _)
  entries _ _ _ := rfl

section
variable (there : tring.reqAt k = some txReq)
include there

theorem prepared_some :
    prepared plan tring fillWd k = if fillWd k then writes plan k txReq else 0 := by
  simp only [prepared,there]

theorem isData_some : tring.isData k = decide (txReq.mdata.type = .data) := by simp only [TxRing.isData,there,Option.any_some]

theorem accepts_some : accepts bus plan tring fillWd k ↔
    align8 (txReq.wdLen + dummyLen (plan.dummyAt (k % 256)) + txReq.totalLen) + endAt (prepared plan tring fillWd) k ≤ bus.limit ∧
    ¬(txReq.mdata.type = .data ∧ endAt (prepared plan tring fillWd) k ≠ 0 ∧
      (start (prepared plan tring fillWd) k + (txReq.wdLen + dummyLen (plan.dummyAt (k % 256)))) % bus.usbBulkoutSize = 0) := by
  simp only [accepts,there]
end

theorem accepts_there (accepted : accepts bus plan tring fillWd k) : ∃ txReq, tring.reqAt k = some txReq := by
  cases there : tring.reqAt k with
  | none => simp [accepts,there] at accepted
  | some txReq => exact ⟨txReq,rfl⟩

theorem pieceAt_some (there : tring.reqAt k = some txReq) : pieceAt plan tring fillWd k =
    ⟨ahead tring.phlNextIdx k,start (prepared plan tring fillWd) (if txReq.mdata.type = .data then k else k - 1),
      if fillWd k then writes plan k txReq else macTxdescLen txReq.mdata,fillWd k⟩ := by
  simp only [pieceAt,there,isData_some there,Option.elim_some,decide_eq_true_eq]

theorem phlPrepareTxUsb_fill (k : Nat) (txReq : XmitReq) (ringSts : RingStatus) (ok : Bool) :
    phlPrepareTxUsb (txReq.fill ringSts tring (plan.dummyAt (k % 256))) ok = (ok,if ok then writes plan k txReq else 0) := by
  cases ok with
  | false => rfl
  | true =>
    simp only [phlPrepareTxUsb,if_true,fill_desc,fill_copied,fill_offset,writes,dummyLen]

variable {ringSts : RingStatus} {reqBusy k : Nat} {s : Xmit}

-- The k-th request written to the buffer: `align` and `prepare` together.
variable (ringSts) in
theorem Running.placed (running : Running bus plan tring fillWd k s) (next : s.phlNextIdx = ahead tring.phlNextIdx k)
    (there : tring.reqAt k = some txReq) (entry : Idx → Option XmitReq) :
    Xmit.prepare (Xmit.align {s with entry:=entry, type:=txReq.mdata.type})
      (txReq.fill ringSts tring (plan.dummyAt (k % 256))) (fillWd k) =
    {s with
      entry := entry
      type := txReq.mdata.type
      phlIdx := ahead tring.phlNextIdx k
      packetLen := prepared plan tring fillWd k
      txLen := (if tring.isData k then start (prepared plan tring fillWd) k else endAt (prepared plan tring fillWd) k) +
        prepared plan tring fillWd k
      txBufData := start (prepared plan tring fillWd) (if txReq.mdata.type = .data then k else k - 1)
      pstatus := fillWd k
      pieces := (range (k+1)).map (pieceAt plan tring fillWd)} := by
  have pieces := running.pieces
  have buf := running.txBufData
  have len := running.txLen
  have packet := running.packetLen
  rw [range_succ,map_append,map_singleton,pieceAt_some there,← pieces,prepared_some there,isData_some there]
  by_cases data : txReq.mdata.type = .data
  · simp only [Xmit.align,Xmit.prepare,phlPrepareTxUsb_fill,data,if_true,next,buf,len,packet,pointer_start,length_start,decide_true,
      fill_desc]
    cases fillWd k <;> rfl
  · simp only [Xmit.align,Xmit.prepare,phlPrepareTxUsb_fill,data,if_false,next,buf,len,packet,decide_false,fill_desc,
      false_eq_true]
    cases fillWd k <;> rfl

theorem Running.finished (running : Running bus plan tring fillWd k s) : Finished plan tring fillWd k s := by
  refine ⟨running.phlIdx,?_,running.pieces,?_⟩
  · rw [running.pstatus]
    cases k with
    | zero => rfl
    | succ m => exact (running.good m (lt_succ_self m)).1.symm
  · intro m eq _
    subst eq
    rw [running.txLen,if_pos (running.good m (lt_succ_self m)).2]
    rfl

theorem Finished.same (finished : Finished plan tring fillWd n s) (phlIdx : t.phlIdx = s.phlIdx) (pstatus : t.pstatus = s.pstatus)
    (pieces : t.pieces = s.pieces) (txLen : t.txLen = s.txLen) : Finished plan tring fillWd n t where
  phlIdx := phlIdx.trans finished.phlIdx
  pstatus := pstatus.trans finished.pstatus
  pieces := pieces.trans finished.pieces
  txLen m eq ok := txLen.trans (finished.txLen m eq ok)

theorem Running.found (running : Running bus plan tring fillWd k s) (small : k < maxPhlRingEntryNum)
    (next : s.phlNextIdx = ahead tring.phlNextIdx k) : s.entry s.phlNextIdx = tring.reqAt k := by
  rw [next]
  exact running.entries k (le_refl k) small

variable (ringSts reqBusy) in
theorem Running.refused (running : Running bus plan tring fillWd k s) (small : k < maxPhlRingEntryNum)
    (next : s.phlNextIdx = ahead tring.phlNextIdx k) (no : ¬accepts bus plan tring fillWd k) :
    (xmitRound bus plan ringSts tring fillWd reqBusy s).2 = false ∧
      Finished plan tring fillWd k (xmitRound bus plan ringSts tring fillWd reqBusy s).1 := by
  have found := running.found small next
  cases there : tring.reqAt k with
  | none =>
    simp only [xmitRound,found,there]
    exact ⟨trivial,running.finished⟩
  | some txReq =>
    rw [accepts_some there,← running.txLen,← running.aggCnt,← check_start,← running.packetLen,← running.txLen] at no
    unfold xmitRound
    rw [found,there]
    dsimp only
    by_cases full : align8 (txReq.wdLen + dummyLen (plan.dummyAt s.aggCnt) + txReq.totalLen) + s.txLen > bus.limit
    · rw [if_pos]
      · exact ⟨rfl,running.finished.same rfl rfl rfl rfl⟩
      · exact full
    · rw [if_neg,if_pos]
      · exact ⟨rfl,running.finished.same rfl rfl rfl rfl⟩
      · by_contra inner
        exact no ⟨Nat.le_of_not_lt full,inner⟩
      · exact full

-- The k-th request gets in.
variable (ringSts reqBusy) in
theorem Running.accepted (running : Running bus plan tring fillWd k s) (small : k < maxPhlRingEntryNum)
    (next : s.phlNextIdx = ahead tring.phlNextIdx k) (yes : accepts bus plan tring fillWd k) :
    ∃ entry type txBufData,
      (type = .data ↔ tring.isData k) ∧ (type = .data → txBufData = start (prepared plan tring fillWd) k) ∧
      (∀ j, k+1 ≤ j → j < maxPhlRingEntryNum → entry (ahead tring.phlNextIdx j) = tring.reqAt j) ∧
      xmitRound bus plan ringSts tring fillWd reqBusy s = Xmit.advance bus reqBusy
        {s with
          entry := entry
          type := type
          phlIdx := ahead tring.phlNextIdx k
          packetLen := prepared plan tring fillWd k
          txLen := (if tring.isData k then start (prepared plan tring fillWd) k else endAt (prepared plan tring fillWd) k) +
            prepared plan tring fillWd k
          txBufData := txBufData
          pstatus := fillWd k
          pieces := (range (k+1)).map (pieceAt plan tring fillWd)} := by
  obtain ⟨txReq,there⟩ := accepts_there yes
  have found := running.found small next
  have count : s.pieces.length = k := by rw [running.pieces,length_map,length_range]
  refine ⟨Function.update s.entry s.phlNextIdx (some (txReq.fill ringSts tring (plan.dummyAt (k % 256)))),txReq.mdata.type,
    start (prepared plan tring fillWd) (if txReq.mdata.type = .data then k else k - 1),?_,?_,?_,?_⟩
  · rw [isData_some there,decide_eq_true_eq]
  · intro data
    rw [if_pos data]
  · intro j later inside
    rw [next,Function.update_of_ne (fun same => by have := ahead_injective inside small same; omega)]
    exact running.entries j (by omega) inside
  · have tests := (accepts_some there).mp yes
    rw [← running.txLen,← running.aggCnt,← check_start,← running.packetLen,← running.txLen] at tests
    rw [← running.placed ringSts next there]
    simp only [xmitRound,found,there,fill_wdLen,fill_totalLen,fill_type,running.aggCnt] at tests ⊢
    rw [if_neg (Nat.not_lt_of_le tests.1),if_neg tests.2,count]

variable (ringSts reqBusy) in
theorem Running.stops (running : Running bus plan tring fillWd k s) (small : k < maxPhlRingEntryNum)
    (next : s.phlNextIdx = ahead tring.phlNextIdx k) (yes : accepts bus plan tring fillWd k)
    (last : halts bus plan tring fillWd k) :
    (xmitRound bus plan ringSts tring fillWd reqBusy s).2 = false ∧
      Finished plan tring fillWd (k+1) (xmitRound bus plan ringSts tring fillWd reqBusy s).1 := by
  obtain ⟨entry,type,txBufData,kind,_,_,round⟩ := running.accepted ringSts reqBusy small next yes
  have finished : ∀ t : Xmit, t.phlIdx = ahead tring.phlNextIdx k → t.pstatus = fillWd k →
      t.pieces = (range (k+1)).map (pieceAt plan tring fillWd) →
      t.txLen = (if tring.isData k then start (prepared plan tring fillWd) k else endAt (prepared plan tring fillWd) k) +
        prepared plan tring fillWd k → Finished plan tring fillWd (k+1) t := by
    intro t phlIdx pstatus pieces txLen
    refine ⟨phlIdx,pstatus,pieces,?_⟩
    rintro m eq _
    cases eq
    exact txLen
  rw [round]
  simp only [Xmit.advance]
  by_cases ok : fillWd k
  · rw [if_pos ok]
    by_cases data : type = .data
    · rw [if_neg (not_not_intro data)]
      have isData := kind.mp data
      rcases last with failed | other | full
      · rw [ok] at failed
        cases failed
      · rw [isData] at other
        cases other
      · rw [if_pos]
        · exact ⟨rfl,finished _ rfl rfl rfl rfl⟩
        · rw [if_pos isData,running.trasc]
          exact full
    · rw [if_pos data]
      exact ⟨rfl,finished _ rfl rfl rfl rfl⟩
  · rw [if_neg ok]
    exact ⟨rfl,finished _ rfl rfl rfl rfl⟩

variable (ringSts reqBusy) in
theorem Running.goes (running : Running bus plan tring fillWd k s) (small : k < maxPhlRingEntryNum)
    (next : s.phlNextIdx = ahead tring.phlNextIdx k) (yes : accepts bus plan tring fillWd k)
    (more : ¬halts bus plan tring fillWd k) :
    (xmitRound bus plan ringSts tring fillWd reqBusy s).2 ∧
      Running bus plan tring fillWd (k+1) (xmitRound bus plan ringSts tring fillWd reqBusy s).1 ∧
      (reqBusy ≠ 0 → (xmitRound bus plan ringSts tring fillWd reqBusy s).1.phlNextIdx = ahead tring.phlNextIdx (k+1)) := by
  obtain ⟨entry,type,txBufData,kind,pointer,entries,round⟩ := running.accepted ringSts reqBusy small next yes
  have ok : fillWd k := by
    by_contra failed
    exact more (.inl (by simpa using failed))
  have isData : tring.isData k := by
    by_contra other
    exact more (.inr (.inl (by simpa using other)))
  have data : type = .data := kind.mpr isData
  have room : ¬(trascStep bus.shiftOffset s.trasc
      ((if tring.isData k then start (prepared plan tring fillWd) k else endAt (prepared plan tring fillWd) k) +
        prepared plan tring fillWd k)).1 ≥ bus.maxBulkoutWdNum := by
    rw [if_pos isData,running.trasc]
    exact fun full => more (.inr (.inr full))
  rw [round]
  simp only [Xmit.advance]
  rw [if_pos ok,if_neg (not_not_intro data),if_neg room]
  have going : ∀ t : Xmit, t.phlIdx = ahead tring.phlNextIdx k → t.packetLen = prepared plan tring fillWd k →
      t.txLen = (if tring.isData k then start (prepared plan tring fillWd) k else endAt (prepared plan tring fillWd) k) +
        prepared plan tring fillWd k → t.txBufData = txBufData → t.aggCnt = (s.aggCnt+1) % 256 →
      t.trasc = trascStep bus.shiftOffset s.trasc
        ((if tring.isData k then start (prepared plan tring fillWd) k else endAt (prepared plan tring fillWd) k) +
          prepared plan tring fillWd k) →
      t.pstatus = fillWd k → t.pieces = (range (k+1)).map (pieceAt plan tring fillWd) → t.entry = entry →
      Running bus plan tring fillWd (k+1) t := by
    intro t phlIdx packetLen txLen buf aggCnt trasc pstatus pieces same
    rw [if_pos isData] at txLen trasc
    refine ⟨phlIdx,packetLen,txLen,buf.trans (pointer data),?_,?_,pstatus.trans ok,pieces,?_,?_⟩
    · rw [aggCnt,running.aggCnt]
      omega
    · rw [trasc,running.trasc]
      rfl
    · intro j less
      rcases lt_or_eq_of_le (le_of_lt_succ less) with smaller | rfl
      · exact running.good j smaller
      · exact ⟨ok,isData⟩
    · rw [same]
      exact entries
  by_cases left : reqBusy = 0
  · rw [if_neg (not_not_intro left)]
    exact ⟨rfl,going _ rfl rfl rfl rfl rfl rfl rfl rfl rfl,fun some => absurd left some⟩
  · rw [if_pos left]
    refine ⟨rfl,going _ rfl rfl rfl rfl rfl rfl rfl rfl rfl,fun _ => ?_⟩
    rw [next,bump_ahead,ahead_ahead]

theorem Running.loop (running : Running bus plan tring fillWd k s) (small : k + reqBusy < maxPhlRingEntryNum)
    (next : reqBusy ≠ 0 → s.phlNextIdx = ahead tring.phlNextIdx k) :
    Finished plan tring fillWd (taken (accepts bus plan tring fillWd) (halts bus plan tring fillWd) reqBusy k)
      (xmitLoop bus plan ringSts tring fillWd reqBusy s) := by
  induction reqBusy generalizing k s with
  | zero => exact running.finished
  | succ reqBusy ih =>
    have inside : k < maxPhlRingEntryNum := by omega
    have here := next (succ_ne_zero reqBusy)
    unfold taken xmitLoop
    by_cases yes : accepts bus plan tring fillWd k
    · rw [if_pos yes]
      by_cases last : halts bus plan tring fillWd k
      · obtain ⟨stop,finished⟩ := running.stops ringSts reqBusy inside here yes last
        rw [if_pos last]
        simpa only [stop,false_eq_true,if_false] using finished
      · obtain ⟨go,going,moved⟩ := running.goes ringSts reqBusy inside here yes last
        rw [if_neg last]
        simpa only [go,if_true] using ih going (by omega) moved
    · obtain ⟨stop,finished⟩ := running.refused ringSts reqBusy inside here yes
      rw [if_neg yes]
      simpa only [stop,false_eq_true,if_false] using finished

variable (bus plan tring fillWd) in
def TxRing.count (reqBusy : Nat) : Nat := taken (accepts bus plan tring fillWd) (halts bus plan tring fillWd) reqBusy 0

theorem count_stops : Stops (accepts bus plan tring fillWd) (halts bus plan tring fillWd) reqBusy
    (tring.count bus plan fillWd reqBusy) := taken_stops

theorem count_good (inside : k + 1 < tring.count bus plan fillWd reqBusy) : fillWd k ∧ tring.isData k := by
  have onward := count_stops.onward k inside
  unfold halts at onward
  constructor
  · by_contra failed
    exact onward (.inl (by simpa using failed))
  · by_contra other
    exact onward (.inr (.inl (by simpa using other)))

variable (bus plan tring fillWd ringSts) in
theorem loop_finished (reqBusy : Idx) : Finished plan tring fillWd (tring.count bus plan fillWd reqBusy)
    (xmitLoop bus plan ringSts tring fillWd reqBusy (Xmit.start tring)) :=
  Running.begin.loop (by have := reqBusy.isLt; omega) (fun _ => (ahead_zero _).symm)

theorem writes_bounds (txReq : XmitReq) (stale : (txReq.mdata.usbPktOfst == 1) = false ∨ plan.dummyAt (k % 256)) :
    writes plan k txReq ≤ txReq.wdLen + dummyLen (plan.dummyAt (k % 256)) + txReq.totalLen := by
  have desc := desc_le txReq
  have copied := copied_le txReq
  unfold writes
  rcases stale with fresh | dummy
  · rw [fresh,Bool.false_or]
    omega
  · rw [dummy,Bool.or_true]
    omega

variable (plan) in
theorem writes_stale (k : Nat) (txReq : XmitReq) : writes plan k txReq ≤ txReq.wdLen + pktOffsetDummy + txReq.totalLen := by
  have desc := desc_le txReq
  have copied := copied_le txReq
  have dummy : dummyLen (txReq.mdata.usbPktOfst == 1 || plan.dummyAt (k % 256)) ≤ pktOffsetDummy := by
    unfold dummyLen
    split <;> omega
  unfold writes
  omega

variable (plan fillWd) in
theorem pieceAt_long (there : tring.reqAt k = some txReq) : 24 ≤ (pieceAt plan tring fillWd k).len := by
  have desc := desc_le txReq
  rw [pieceAt_some there]
  unfold writes
  dsimp only
  split <;> omega

theorem pieceAt_prepared (there : tring.reqAt k = some txReq) (ok : fillWd k) :
    (pieceAt plan tring fillWd k).len = prepared plan tring fillWd k := by
  rw [pieceAt_some there,prepared_some there]
  simp only [ok,if_true]
end handler

end Rtl8852au.UsbTx
