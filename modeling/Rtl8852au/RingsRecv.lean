import Rtl8852au.RingsFifo

namespace Rtl8852au.Rings
open FifoRing Machine List Function

variable {α : Type} {base : Nat}

structure RxFifo (base : Nat) (s : Rx α) : Prop where
  bounded : s.got.length ≤ s.added.length ∧ s.added.length - s.got.length ≤ maxPhlRingEntryNum - 1
  inRange : s.ring.coreIdx < maxPhlRingEntryNum ∧ s.ring.phlIdx < maxPhlRingEntryNum
  inOrder : s.got = (s.added.take s.got.length).map some
  intact : ∀ k, s.got.length ≤ k → k < s.added.length →
    s.ring.entry ((base + k + 1) % maxPhlRingEntryNum) = s.added[k]? ∨
    k = s.got.length ∧ ∃ rptr, s.consumer = .cleared s.added[k]? rptr
  apart : ∀ recvpkt wptr rptr, s.producer = .room recvpkt wptr rptr →
    phlCalcAvailWptr rptr wptr maxPhlRingEntryNum > 0 → ∀ k, s.got.length ≤ k → k < s.added.length →
    (base + k + 1) % maxPhlRingEntryNum ≠ bump wptr
  counted : phlCalcAvailRptr s.ring.coreIdx s.ring.phlIdx maxPhlRingEntryNum = s.added.length - s.got.length
  served : s.consumer = .idle → ∀ recvpkt, s.added[s.got.length]? = some recvpkt →
    (run Rx.step s (.rtwPhlQueryRxPkt :: replicate 5 .consume)).got = s.got ++ [some recvpkt]
  offered : s.producer = .idle → ∀ recvpkt,
    let after := run Rx.step s (.phlAddRxPkt recvpkt :: replicate 4 .produce)
    if s.added.length - s.got.length < maxPhlRingEntryNum - 1 then after.added = s.added ++ [recvpkt] else after = s

def Rx.Producing (base : Nat) (s : Rx α) : Prop :=
  match s.producer with
  | .idle | .begun _ => True
  | .wptr _ wptr => wptr = ringIndex base s.added.length
  | .room _ wptr rptr => wptr = ringIndex base s.added.length ∧
      ∃ before ≤ s.got.length, s.added.length < before + maxPhlRingEntryNum ∧ rptr = ringIndex base before
  | .stored recvpkt wptr => wptr = ringIndex base (s.added.length+1) ∧
      s.added.length+1 < s.got.length + maxPhlRingEntryNum ∧
      s.ring.entry (cell maxPhlRingEntryNum base s.added.length) = some recvpkt

def Rx.Consuming (base : Nat) (s : Rx α) : Prop :=
  match s.consumer with
  | .idle | .begun => True
  -- What the producer has put in since the index was read is not seen yet.
  | .wptr wptr => ∃ seen, s.got.length ≤ seen ∧ seen ≤ s.added.length ∧ wptr = ringIndex base seen
  | .room wptr rptr => rptr = ringIndex base s.got.length ∧
      ∃ seen, s.got.length ≤ seen ∧ seen ≤ s.added.length ∧ wptr = ringIndex base seen
  | .taken recvpkt rptr | .cleared recvpkt rptr => s.got.length < s.added.length ∧
      rptr = ringIndex base (s.got.length+1) ∧ recvpkt = s.added[s.got.length]?

def Rx.out (s : Rx α) : Nat :=
  match s.consumer with
  | .cleared _ _ => s.got.length+1
  | _ => s.got.length

structure Rx.Inv (base : Nat) (s : Rx α) : Prop where
  held : Holds maxPhlRingEntryNum base s.ring.entry s.added s.out
  near : s.added.length < s.got.length + maxPhlRingEntryNum
  written : s.ring.phlIdx = ringIndex base s.added.length
  read : s.ring.coreIdx = ringIndex base s.got.length
  order : s.got = (s.added.take s.got.length).map some
  producing : s.Producing base
  consuming : s.Consuming base

theorem Rx.out_ge {s : Rx α} : s.got.length ≤ s.out := by
  unfold out
  split <;> omega

theorem Rx.Inv.past {s : Rx α} (inv : s.Inv base) : s.got.length ≤ s.added.length := Nat.le_trans out_ge inv.held.past

theorem Rx.Inv.start (entry : Nat → Option α) (small : base < maxPhlRingEntryNum) : (Rx.start base entry).Inv base := by
  have zero : base = ringIndex base 0 := (index_zero small).symm
  exact ⟨.start (by decide),(by decide : 0 < 0 + maxPhlRingEntryNum),zero,zero,rfl,trivial,trivial⟩

theorem inc_exact : (if ringIndex base (m+1) ≠ 0 then ringIndex base m + 1 else 0) = ringIndex base (m+1) := by
  have next : bump (ringIndex base m) = ringIndex base (m+1) := bump_exact
  unfold bump at next
  split at next <;> split <;> omega

theorem Rx.Consuming.more {s : Rx α} (view : s.Consuming base) (recvpkt : α) {ring : RxRing α} {producer : AddRxPkt α} :
    Rx.Consuming base {s with ring:=ring, producer:=producer, added:=s.added ++ [recvpkt]} := by
  unfold Consuming at view ⊢
  dsimp only
  cases consumer : s.consumer with
  | idle | begun => trivial
  | wptr wptr =>
    rw [consumer] at view
    obtain ⟨seen,late,there,read⟩ := view
    refine ⟨seen,late,?_,read⟩
    simp only [length_append]
    omega
  | room wptr rptr =>
    rw [consumer] at view
    obtain ⟨core,seen,late,there,read⟩ := view
    refine ⟨core,seen,late,?_,read⟩
    simp only [length_append]
    omega
  | taken found rptr | cleared found rptr =>
    rw [consumer] at view
    obtain ⟨some_left,next,there⟩ := view
    refine ⟨?_,next,?_⟩
    · simp only [length_append]
      omega
    · rw [getElem?_append_left some_left]
      exact there

theorem phlAddRxPktStep_inv {s : Rx α} (inv : s.Inv base) : (phlAddRxPktStep s).Inv base := by
  have producing := inv.producing
  unfold Rx.Producing at producing
  unfold phlAddRxPktStep
  cases producer : s.producer with
  | idle => exact inv
  | begun recvpkt => exact ⟨inv.held,inv.near,inv.written,inv.read,inv.order,inv.written,inv.consuming⟩
  | wptr recvpkt wptr =>
    rw [producer] at producing
    refine {inv with producing:=⟨producing,?_⟩}
    exact ⟨s.got.length,Nat.le_refl _,inv.near,inv.read⟩
  | room recvpkt wptr rptr =>
    rw [producer] at producing
    obtain ⟨here,before,old,near,read⟩ := producing
    have past := inv.past
    have gap := room_gap base (m := before) (n := s.added.length) (by omega) near
    rw [← here,← read] at gap
    dsimp only
    split
    · exact {inv with producing:=trivial}
    · have next : bump wptr = ringIndex base (s.added.length+1) := by rw [here]; exact bump_exact
      have room : s.added.length + 1 < s.got.length + maxPhlRingEntryNum := by omega
      have late : s.got.length ≤ s.out := Rx.out_ge
      refine {inv with held:=?_,producing:=⟨next,room,?_⟩}
      · dsimp only
        rw [next]
        exact inv.held.write (by omega) (some recvpkt)
      · dsimp only
        rw [next]
        exact update_self _ _ _
  | stored recvpkt wptr =>
    rw [producer] at producing
    obtain ⟨next,room,there⟩ := producing
    have past := inv.past
    have late : s.got.length ≤ s.out := Rx.out_ge
    refine ⟨inv.held.grow (by omega) there,?_,?_,inv.read,?_,trivial,inv.consuming.more recvpkt⟩
    · simpa using room
    · dsimp only
      rw [length_append,next,inv.written]
      exact inc_exact
    · rw [take_append_of_le_length past]
      exact inv.order

theorem Rx.Producing.less {s : Rx α} (view : s.Producing base) (one : Option α) {ring : RxRing α} {consumer : QueryRxPkt α}
    (same : ring.entry = s.ring.entry) : Rx.Producing base {s with ring:=ring, consumer:=consumer, got:=s.got ++ [one]} := by
  unfold Producing at view ⊢
  dsimp only
  cases producer : s.producer with
  | idle | begun | wptr => rw [producer] at view; exact view
  | room recvpkt wptr rptr =>
    rw [producer] at view
    obtain ⟨here,before,old,near,read⟩ := view
    refine ⟨here,before,?_,near,read⟩
    simp only [length_append]
    omega
  | stored recvpkt wptr =>
    rw [producer] at view
    refine ⟨view.1,?_,by rw [same]; exact view.2.2⟩
    have room := view.2.1
    simp only [length_append]
    omega

theorem Rx.Producing.clear {s : Rx α} (view : s.Producing base) (some_left : s.got.length < s.added.length)
    {consumer : QueryRxPkt α} :
    Rx.Producing base {s with
      ring := {s.ring with entry:=update s.ring.entry (cell maxPhlRingEntryNum base s.got.length) none}
      consumer := consumer} := by
  unfold Producing at view ⊢
  dsimp only
  cases producer : s.producer with
  | idle | begun | wptr | room => rw [producer] at view; exact view
  | stored recvpkt wptr =>
    rw [producer] at view
    obtain ⟨here,room,there⟩ := view
    refine ⟨here,room,?_⟩
    have short : s.added.length < s.got.length + maxPhlRingEntryNum := by omega
    have apart : cell maxPhlRingEntryNum base s.got.length ≠ cell maxPhlRingEntryNum base s.added.length :=
      cell_ne some_left short
    rw [update_of_ne apart.symm]
    exact there

theorem rtwPhlQueryRxPktStep_inv {s : Rx α} (inv : s.Inv base) : (rtwPhlQueryRxPktStep s).Inv base := by
  have consuming := inv.consuming
  unfold Rx.Consuming at consuming
  have held := inv.held
  unfold Rx.out at held
  unfold rtwPhlQueryRxPktStep
  cases consumer : s.consumer with
  | idle => exact inv
  | begun =>
    rw [consumer] at held
    exact ⟨held,inv.near,inv.written,inv.read,inv.order,inv.producing,s.added.length,inv.past,Nat.le_refl _,inv.written⟩
  | wptr wptr =>
    rw [consumer] at held consuming
    exact ⟨held,inv.near,inv.written,inv.read,inv.order,inv.producing,inv.read,consuming⟩
  | room wptr rptr =>
    rw [consumer] at held consuming
    obtain ⟨core,seen,late,there,read⟩ := consuming
    have near := inv.near
    have gap := avail_gap base late (by omega)
    rw [← core,← read] at gap
    dsimp only
    split
    · have next : bump rptr = ringIndex base (s.got.length+1) := by rw [core]; exact bump_exact
      have found := held.kept s.got.length (Nat.le_refl _) (by omega)
      refine ⟨held,near,inv.written,inv.read,inv.order,inv.producing,by dsimp only; omega,next,?_⟩
      dsimp only
      rw [next]
      exact found
    · exact {inv with held:=held,near:=near,consuming:=trivial}
  | taken recvpkt rptr =>
    rw [consumer] at held consuming
    obtain ⟨some_left,next,found⟩ := consuming
    dsimp only
    rw [next]
    have cleared := (held.out some_left).clear none
    exact ⟨cleared,inv.near,inv.written,inv.read,inv.order,inv.producing.clear some_left,some_left,rfl,found⟩
  | cleared recvpkt rptr =>
    rw [consumer] at held consuming
    obtain ⟨some_left,next,found⟩ := consuming
    have near := inv.near
    have there : s.added[s.got.length]? = some s.added[s.got.length] := getElem?_eq_getElem some_left
    refine ⟨?_,?_,inv.written,?_,?_,inv.producing.less recvpkt rfl,trivial⟩
    · unfold Rx.out
      simpa using held
    · simp only [length_append]
      omega
    · dsimp only
      rw [length_append,next,inv.read]
      exact inc_exact
    · simp only [length_append,length_singleton]
      rw [take_next there,map_append,← inv.order,found,there]
      rfl

theorem Rx.step_inv {s : Rx α} (inv : s.Inv base) (event : RxEvent α) : (s.step event).Inv base := by
  cases event with
  | phlAddRxPkt recvpkt =>
    unfold step
    dsimp only
    split
    · exact {inv with producing:=trivial}
    · exact inv
  | produce => exact phlAddRxPktStep_inv inv
  | rtwPhlQueryRxPkt =>
    unfold step
    dsimp only
    split
    · rename_i idle
      have held := inv.held
      unfold out at held
      rw [idle] at held
      exact {inv with held:=held,consuming:=trivial}
    · exact inv
  | consume => exact rtwPhlQueryRxPktStep_inv inv

theorem Rx.Inv.served {s : Rx α} (inv : s.Inv base) (free : s.consumer = .idle) (there : s.added[s.got.length]? = some recvpkt) :
    (run Rx.step s (.rtwPhlQueryRxPkt :: replicate 5 .consume)).got = s.got ++ [some recvpkt] := by
  obtain ⟨some_left,_⟩ := List.getElem?_eq_some_iff.mp there
  have held := inv.held
  unfold Rx.out at held
  rw [free] at held
  have gap := avail_gap base inv.past inv.near
  rw [← inv.read,← inv.written] at gap
  have res : phlCalcAvailRptr s.ring.coreIdx s.ring.phlIdx maxPhlRingEntryNum > 0 := by omega
  have entry : s.ring.entry (bump s.ring.coreIdx) = some recvpkt := by
    rw [inv.read,bump_exact,← there]
    exact held.kept _ (Nat.le_refl _) some_left
  simp only [run,replicate,foldl,Rx.step,free,rtwPhlQueryRxPktStep,res,if_true,entry]

theorem Rx.Inv.offered {s : Rx α} (inv : s.Inv base) (quiet : s.producer = .idle) (recvpkt : α) :
    let after := run Rx.step s (.phlAddRxPkt recvpkt :: replicate 4 .produce)
    if s.added.length - s.got.length < maxPhlRingEntryNum - 1 then after.added = s.added ++ [recvpkt] else after = s := by
  have gap := room_gap base inv.past inv.near
  rw [← inv.read,← inv.written] at gap
  simp only [run,replicate,foldl,Rx.step,quiet,phlAddRxPktStep]
  split
  · have res : ¬phlCalcAvailWptr s.ring.coreIdx s.ring.phlIdx maxPhlRingEntryNum ≤ 0 := by omega
    simp only [res,if_false]
  · have res : phlCalcAvailWptr s.ring.coreIdx s.ring.phlIdx maxPhlRingEntryNum ≤ 0 := by omega
    simp only [res,if_true]
    rw [← quiet]

theorem Rx.Inv.fifo {s : Rx α} (inv : s.Inv base) : RxFifo base s := by
  have past := inv.past
  have near := inv.near
  have producing := inv.producing
  unfold Rx.Producing at producing
  refine ⟨⟨past,by omega⟩,⟨?_,?_⟩,inv.order,?_,?_,?_,fun free _ there => inv.served free there,inv.offered⟩
  · rw [inv.read]; exact ringIndex_lt
  · rw [inv.written]; exact ringIndex_lt
  · intro k late short
    have held := inv.held
    have consuming := inv.consuming
    unfold Rx.out at held
    unfold Rx.Consuming at consuming
    cases consumer : s.consumer with
    | cleared recvpkt rptr =>
      rw [consumer] at held consuming
      by_cases first : k = s.got.length
      · refine .inr ⟨first,rptr,?_⟩
        rw [first,consuming.2.2]
      · exact .inl (held.kept k (by dsimp only; omega) short)
    | idle | begun | wptr | room | taken =>
      rw [consumer] at held
      exact .inl (held.kept k late short)
  · intro recvpkt wptr rptr room free k late short
    rw [room] at producing
    obtain ⟨here,before,old,close,read⟩ := producing
    have gap := room_gap base (m := before) (n := s.added.length) (by omega) close
    rw [← here,← read] at gap
    rw [here,bump_exact]
    exact cell_ne short (by omega)
  · rw [inv.read,inv.written]
    exact avail_gap _ past near

theorem rings_are_fifos (α : Type) :
    (∀ (base phlNextIdx : Nat) (entry : Nat → Option α) (s : Tx α), base < maxPhlRingEntryNum →
      Reached Tx.step (fun _ _ => True) (Tx.start base phlNextIdx entry) s → TxFifo base s) ∧
    (∀ (base : Nat) (entry : Nat → Option α) (s : Rx α), base < maxPhlRingEntryNum →
      Reached Rx.step (fun _ _ => True) (Rx.start base entry) s → RxFifo base s) ∧
    ∀ r w bndy : Nat, r < bndy → w < bndy → bndy ≤ maxPhlRingEntryNum →
      phlCalcAvailWptr r w bndy + phlCalcAvailRptr r w bndy = bndy - 1 := by
  refine ⟨?_,?_,?_⟩
  · intro base phlNextIdx entry s small path
    have inv := path.invariant (Tx.Inv base) (.start phlNextIdx entry small) (fun _ event inv _ => Tx.step_inv inv event)
    exact inv.fifo
  · intro base entry s small path
    have inv := path.invariant (Rx.Inv base) (.start entry small) (fun _ event inv _ => Rx.step_inv inv event)
    exact inv.fifo
  · intro r w bndy read written small
    exact phlCalcAvailWptr_rest read written (Nat.le_trans small ring_u16)

-- Both rings from their last index on, so that the first entry goes to cell 0.
theorem rings_are_fifos_wrap :
    TxFifo 4095 (run Tx.step (Tx.start 4095 0 (fun _ => none))
      [.rtwPhlAddTxReq 7,.produce,.produce,.produce,.phlCheckRingStatus true,.consume ⟨true,true,false⟩]) ∧
    RxFifo 4095 (run Rx.step (Rx.start 4095 (fun _ => none)) [.phlAddRxPkt 8,.produce,.produce,.produce,.produce]) ∧
    phlCalcAvailWptr 4095 0 maxPhlRingEntryNum + phlCalcAvailRptr 4095 0 maxPhlRingEntryNum = maxPhlRingEntryNum - 1 :=
  ⟨(rings_are_fifos Nat).1 4095 0 (fun _ => none) _ (by decide) (Reached.start.run (by simp [Admitted])),
    (rings_are_fifos Nat).2.1 4095 (fun _ => none) _ (by decide) (Reached.start.run (by simp [Admitted])),
    (rings_are_fifos Nat).2.2 4095 0 maxPhlRingEntryNum (by decide) (by decide) (by decide)⟩
end Rtl8852au.Rings
