import Rtl8852au.Reorder

namespace Rtl8852au.Reorder
open Machine Function Option Nat Bool

structure WindowOk (r : TidAmpduRx) : Prop where
  inWindow : ∀ i < r.bufSize, ∀ p, r.reorderBuf i = some p → seqSub p.seq r.headSeqNum < r.bufSize
  ownSlot : ∀ i < r.bufSize, ∀ p, r.reorderBuf i = some p → i = reorderIndex r p.seq
  distinct : ∀ i < r.bufSize, ∀ j < r.bufSize, ∀ p q, r.reorderBuf i = some p → r.reorderBuf j = some q →
    i ≠ j → reorderIndex r p.seq ≠ reorderIndex r q.seq
  counted : r.storedMpduNum = (stored r).length

structure Window (r : TidAmpduRx) : Prop where
  size : 0 < r.bufSize ∧ r.bufSize ≤ 1024
  head : r.headSeqNum < 4096
  placed : ∀ i < r.bufSize, ∀ p, r.reorderBuf i = some p →
    seqSub p.seq r.headSeqNum < r.bufSize ∧ i = reorderIndex r p.seq
  counted : r.storedMpduNum = (stored r).length
  single : r.bufSize = 1 → r.storedMpduNum = 0

theorem Window.ok (valid : Window r) : WindowOk r := by
  refine ⟨fun i bound p held => (valid.placed i bound p held).1,fun i bound p held => (valid.placed i bound p held).2,?_,
    valid.counted⟩
  intro i ib j jb p q hi hj different same
  exact different ((valid.placed i ib p hi).2.trans (same.trans (valid.placed j jb q hj).2.symm))

theorem RxPkt.seq_lt (p : RxPkt) : p.seq < 4096 := p.mdata.seq.isLt

theorem reorderIndex_lt (r : TidAmpduRx) (seq : Nat) (positive : 0 < r.bufSize) : reorderIndex r seq < r.bufSize :=
  mod_lt _ positive

theorem reorderIndex_congr (ssn : r'.ssn = r.ssn) (size : r'.bufSize = r.bufSize) (seq : Nat) :
    reorderIndex r' seq = reorderIndex r seq := by
  simp only [reorderIndex,ssn,size]

structure Same (r r' : TidAmpduRx) : Prop where
  ssn : r'.ssn = r.ssn
  bufSize : r'.bufSize = r.bufSize
  started : r'.started = r.started
  removed : r'.removed = r.removed

theorem Same.refl (r : TidAmpduRx) : Same r r := ⟨rfl,rfl,rfl,rfl⟩
theorem Same.trans (left : Same a b) (right : Same b c) : Same a c :=
  ⟨right.ssn.trans left.ssn,right.bufSize.trans left.bufSize,right.started.trans left.started,
    right.removed.trans left.removed⟩
theorem Same.setHead (same : Same r r') (head : Nat) : Same r {r' with headSeqNum:=head} := {same with}
theorem Same.index (same : Same r r') (seq : Nat) : reorderIndex r' seq = reorderIndex r seq :=
  reorderIndex_congr same.ssn same.bufSize seq

@[simp] theorem setHead_r (c : Ctx) (head : Nat) : (c.setHead head).r = {c.r with headSeqNum:=head} := rfl
@[simp] theorem setHead_frames (c : Ctx) (head : Nat) : (c.setHead head).frames = c.frames := rfl
@[simp] theorem setHead_recycled (c : Ctx) (head : Nat) : (c.setHead head).recycled = c.recycled := rfl
@[simp] theorem recycle_r (c : Ctx) (pkt : RxPkt) : (c.recycle pkt).r = c.r := rfl
@[simp] theorem stored_setHead (r : TidAmpduRx) (head : Nat) : stored {r with headSeqNum:=head} = stored r := rfl

theorem release_empty (empty : c.r.reorderBuf index = none) :
    phlReleaseReorderFrame c index = c.setHead (seqInc c.r.headSeqNum) := by
  simp [phlReleaseReorderFrame,empty]

theorem release_full (full : c.r.reorderBuf index = some pkt) :
    phlReleaseReorderFrame c index =
      ⟨{c.r with
        storedMpduNum := (c.r.storedMpduNum + 0xffff) % 0x10000
        reorderBuf := update c.r.reorderBuf index none
        headSeqNum := seqInc c.r.headSeqNum},c.frames ++ [pkt],c.recycled,c.reorderTimer⟩ := by
  simp [phlReleaseReorderFrame,full,Ctx.setHead]

theorem release_same (c : Ctx) (index : Nat) : Same c.r (phlReleaseReorderFrame c index).r := by
  cases held : c.r.reorderBuf index with
  | none => rw [release_empty held]; exact ⟨rfl,rfl,rfl,rfl⟩
  | some pkt => rw [release_full held]; exact ⟨rfl,rfl,rfl,rfl⟩

theorem release_head (c : Ctx) (index : Nat) :
    (phlReleaseReorderFrame c index).r.headSeqNum = seqInc c.r.headSeqNum := by
  cases held : c.r.reorderBuf index with
  | none => rw [release_empty held]; rfl
  | some pkt => rw [release_full held]

theorem release_buf (c : Ctx) (index : Nat) :
    (phlReleaseReorderFrame c index).r.reorderBuf = update c.r.reorderBuf index none := by
  cases held : c.r.reorderBuf index with
  | none => rw [release_empty held,← held,update_eq_self]; rfl
  | some pkt => rw [release_full held]

theorem release_buf_some (held : (phlReleaseReorderFrame c index).r.reorderBuf i = some p) :
    i ≠ index ∧ c.r.reorderBuf i = some p := by
  rw [release_buf] at held
  by_cases same : i = index
  · subst i; simp at held
  · exact ⟨same,by rwa [update_of_ne same] at held⟩

theorem release_count (bounded : index < c.r.bufSize) (size : c.r.bufSize ≤ 1024)
    (counted : c.r.storedMpduNum = (stored c.r).length) : ∃ k,
    (phlReleaseReorderFrame c index).r.storedMpduNum + k = c.r.storedMpduNum ∧
      (stored (phlReleaseReorderFrame c index).r).length + k = (stored c.r).length := by
  have limit : (stored c.r).length ≤ c.r.bufSize := Slots.contents_length_le _ _
  cases held : c.r.reorderBuf index with
  | none => rw [release_empty held]; exact ⟨0,rfl,rfl⟩
  | some pkt =>
    have perm := (Slots.contents_clear bounded held).length_eq
    rw [release_full held]
    simp only [stored,List.length_cons] at perm counted limit ⊢
    exact ⟨1,by omega,perm.symm⟩

theorem release_counted (bounded : index < c.r.bufSize) (size : c.r.bufSize ≤ 1024)
    (counted : c.r.storedMpduNum = (stored c.r).length) :
    (phlReleaseReorderFrame c index).r.storedMpduNum = (stored (phlReleaseReorderFrame c index).r).length := by
  obtain ⟨k,number,left⟩ := release_count bounded size counted
  omega

theorem release_head_window (valid : Window c.r) :
    Window (phlReleaseReorderFrame c (reorderIndex c.r c.r.headSeqNum)).r := by
  have same := release_same c (reorderIndex c.r c.r.headSeqNum)
  have bounded := reorderIndex_lt c.r c.r.headSeqNum valid.size.1
  refine ⟨by rw [same.bufSize]; exact valid.size,?_,?_,release_counted bounded valid.size.2 valid.counted,?_⟩
  · rw [release_head,seqInc]; exact mod_lt _ (by decide)
  · intro i ib p held
    obtain ⟨other,before⟩ := release_buf_some held
    rw [same.bufSize] at ib
    obtain ⟨inside,slot⟩ := valid.placed i ib p before
    rw [release_head,same.bufSize,same.index]
    refine ⟨?_,slot⟩
    have notHead : p.seq ≠ c.r.headSeqNum := by
      intro equal
      exact other (by rw [slot,equal])
    have low := p.seq_lt
    have head := valid.head
    simp only [seqSub,seqInc,seqModulo] at inside ⊢
    omega
  · intro one
    obtain ⟨k,below,_⟩ := release_count bounded valid.size.2 valid.counted
    have empty := valid.single (same.bufSize ▸ one)
    omega

theorem releaseReady_window (valid : Window c.r) : Window (releaseReady c).r :=
  iterate_keeps (fun c : Ctx => Window c.r) (fun _ valid _ => release_head_window valid) valid

theorem empty_stored (valid : Window r) (nothing : r.storedMpduNum = 0) (bounded : i < r.bufSize) :
    r.reorderBuf i = none :=
  Slots.contents_eq_nil (List.eq_nil_of_length_eq_zero (valid.counted ▸ nothing)) bounded

theorem setHead_window (valid : Window r) (nothing : r.storedMpduNum = 0) (low : head < 4096) :
    Window {r with headSeqNum:=head} := by
  refine {valid with head:=low,placed:=?_}
  intro i ib p held
  have empty := empty_stored valid nothing ib
  rw [empty] at held
  cases held

theorem seqLess_eq_true : seqLess sq1 sq2 ↔ 2048 < seqSub sq1 sq2 := by
  unfold seqLess seqModulo
  rw [decide_eq_true_eq]

theorem seqLess_eq_false : seqLess sq1 sq2 = false ↔ seqSub sq1 sq2 ≤ 2048 := by rw [← not_eq_true,seqLess_eq_true,not_lt]

theorem seqLess_iff : seqLess head target ↔ 0 < seqSub target head ∧ seqSub target head < 2048 := by
  rw [seqLess_eq_true]
  unfold seqSub
  omega

theorem seqSub_seqInc (ahead : 0 < seqSub target head) :
    seqSub target (seqInc head) + 1 = seqSub target head := by
  simp only [seqSub,seqInc,seqModulo] at ahead ⊢
  omega

theorem seqSub_eq_zero (headLow : head < 4096) (low : target < 4096) : seqSub target head = 0 ↔ head = target := by
  simp only [seqSub]
  omega

theorem releaseFrames_window (valid : Window c.r) (low : head < 4096)
    (ahead : seqLess head c.r.headSeqNum = false)
    (half : seqSub head c.r.headSeqNum = 2048 → c.r.storedMpduNum = 0) :
    Window (phlReleaseReorderFrames c head).r := by
  let more (c : Ctx) : Bool := seqLess c.r.headSeqNum head && c.r.storedMpduNum != 0
  let body (c : Ctx) : Ctx := phlReleaseReorderFrame c (reorderIndex c.r c.r.headSeqNum)
  let inv (d : Ctx) : Prop := Window d.r ∧ seqSub head d.r.headSeqNum ≤ 2048 ∧
    (seqSub head d.r.headSeqNum = 2048 → d.r.storedMpduNum = 0)
  have moved : ∀ d, inv d → more d →
      seqSub head (body d).r.headSeqNum + 1 = seqSub head d.r.headSeqNum ∧ seqSub head d.r.headSeqNum < 2048 := by
    intro d held again
    rw [and_eq_true,seqLess_iff] at again
    exact ⟨by rw [release_head]; exact seqSub_seqInc again.1.1,again.1.2⟩
  have kept : ∀ d, inv d → more d → inv (body d) := by
    intro d held again
    have step := moved d held again
    exact ⟨release_head_window held.1,by omega,by omega⟩
  have drop : ∀ d, inv d → more d → seqSub head (body d).r.headSeqNum < seqSub head d.r.headSeqNum := by
    intro d held again
    have step := moved d held again
    omega
  have start : inv c := ⟨valid,seqLess_eq_false.mp ahead,half⟩
  have enough : seqSub head c.r.headSeqNum ≤ seqModulo := le_trans start.2.1 (by decide)
  have final : inv (iterate more body seqModulo c) := iterate_keeps inv kept start
  have stop : more (iterate more body seqModulo c) = false :=
    iterate_exits inv (fun d => seqSub head d.r.headSeqNum) kept drop start enough
  change Window {(iterate more body seqModulo c).r with headSeqNum:=head}
  generalize iterate more body seqModulo c = d at final stop
  obtain ⟨window,near,edge⟩ := final
  by_cases nothing : d.r.storedMpduNum = 0
  · exact setHead_window window nothing low
  · -- packets are left, so the loop stopped because the head arrived
    have notLess : ¬ (0 < seqSub head d.r.headSeqNum ∧ seqSub head d.r.headSeqNum < 2048) := by
      rw [← seqLess_iff]
      simpa [more,nothing] using stop
    have arrived : d.r.headSeqNum = head := (seqSub_eq_zero window.head low).mp (by omega)
    rw [← arrived]
    exact window

-- The slot of an SN is `(SN - ssn) mod 4096 mod buf_size`. Consecutive SNs get
-- consecutive slots unless the window runs over the point where the inner
-- modulus wraps and the buffer size does not divide it.
def Straight (r : TidAmpduRx) (head : Nat) : Prop := r.bufSize ∣ 4096 ∨ seqSub head r.ssn + r.bufSize ≤ 4096

instance (r : TidAmpduRx) (head : Nat) : Decidable (Straight r head) := inferInstanceAs (Decidable (_ ∨ _))

theorem straight_index (straight : Straight r head) (inside : k < r.bufSize) :
    reorderIndex r ((head+k) % 4096) = (reorderIndex r head + k) % r.bufSize := by
  have shifted : seqSub ((head+k) % 4096) r.ssn = (seqSub head r.ssn + k) % 4096 := by
    unfold seqSub
    omega
  rw [reorderIndex,reorderIndex,shifted,mod_add_mod]
  rcases straight with divides | short
  · exact mod_mod_of_dvd _ divides
  · rw [mod_eq_of_lt (a := seqSub head r.ssn + k) (by omega)]

theorem seq_of_seqSub (low : seq < 4096) : (head + seqSub seq head) % 4096 = seq := by
  unfold seqSub
  omega

theorem recycleBetween_empty (positive : 0 < c.r.bufSize) (inside : 0 < t ∧ t ≤ c.r.bufSize)
    (empty : ∀ s < t, c.r.reorderBuf ((index+s) % c.r.bufSize) = none) :
    recycleBetween c index ((index+t) % c.r.bufSize) = c := by
  let inv (w : Ctx × Nat) : Prop := w.1 = c ∧ ∃ s, 0 < s ∧ s ≤ t ∧ w.2 = (index+s) % c.r.bufSize
  have kept : ∀ w : Ctx × Nat, inv w → (w.2 != (index+t) % c.r.bufSize) →
      inv (phlRecycleRxBuf w.1 (w.1.r.reorderBuf w.2),(w.2+1) % w.1.r.bufSize) := by
    rintro ⟨d,j⟩ ⟨same,s,first,last,at'⟩ again
    simp only at same at' again
    subst same at'
    have notLast : s ≠ t := by rintro rfl; simp at again
    refine ⟨?_,s+1,by omega,by omega,Slots.ring_next index s d.r.bufSize⟩
    rw [empty s (by omega)]
    rfl
  have start : inv (c,(index+1) % c.r.bufSize) := ⟨rfl,1,by omega,by omega,rfl⟩
  have final : inv (iterate (fun w : Ctx × Nat => w.2 != (index+t) % c.r.bufSize)
      (fun w => (phlRecycleRxBuf w.1 (w.1.r.reorderBuf w.2),(w.2+1) % w.1.r.bufSize))
      c.r.bufSize (c,(index+1) % c.r.bufSize)) := iterate_keeps inv kept start
  exact final.1

structure WalkInv (r : TidAmpduRx) (w : Walk) (t : Nat) : Prop where
  same : Same r w.c.r
  range : 0 < t ∧ t ≤ r.bufSize
  position : w.j = (reorderIndex r r.headSeqNum + t) % r.bufSize
  behind : w.skipped ≤ t
  head : w.c.r.headSeqNum = (r.headSeqNum + (t-w.skipped)) % 4096
  empty : ∀ s < t, w.c.r.reorderBuf ((reorderIndex r r.headSeqNum + s) % r.bufSize) = none
  placed : ∀ i < r.bufSize, ∀ p, w.c.r.reorderBuf i = some p →
    seqSub p.seq r.headSeqNum < r.bufSize ∧ i = reorderIndex r p.seq
  counted : w.c.r.storedMpduNum = (stored w.c.r).length

structure Round (r : TidAmpduRx) (w : Walk) (t : Nat) : Prop where
  same : Same r w.c.r
  range : 0 < t ∧ t ≤ r.bufSize
  position : w.j = (reorderIndex r r.headSeqNum + t) % r.bufSize
  empty : ∀ s < t, w.c.r.reorderBuf ((reorderIndex r r.headSeqNum + s) % r.bufSize) = none
  counted : w.c.r.storedMpduNum = (stored w.c.r).length

theorem WalkInv.round (valid : WalkInv r w t) : Round r w t := {valid with}

theorem walk_cases (valid : Round r w t) (positive : 0 < r.bufSize) (time : Nat) :
    (w.c.r.reorderBuf w.j = none ∧ w.body (reorderIndex r r.headSeqNum) time =
      {w with skipped:=w.skipped+1,j:=(w.j+1) % r.bufSize}) ∨
    ((w.c.r.reorderBuf w.j).isSome ∧ w.body (reorderIndex r r.headSeqNum) time = {w with pending:=true}) ∨
    ((w.c.r.reorderBuf w.j).isSome ∧ w.body (reorderIndex r r.headSeqNum) time =
      {w with
        c := (phlReleaseReorderFrame w.c w.j).setHead ((seqInc w.c.r.headSeqNum + w.skipped) % 4096)
        skipped := 0
        j := (w.j+1) % r.bufSize}) := by
  have size := valid.same.bufSize
  unfold Walk.body
  cases held : w.c.r.reorderBuf w.j with
  | none => left; simp [size]
  | some pkt =>
    right
    simp only
    split
    · left; exact ⟨rfl,rfl⟩
    · right
      have nothing : recycleBetween w.c (reorderIndex r r.headSeqNum) w.j = w.c := by
        rw [valid.position,← size]
        exact recycleBetween_empty (size ▸ positive) (size ▸ valid.range) (size ▸ valid.empty)
      rw [nothing,release_head,size]
      exact ⟨rfl,rfl⟩

theorem walk_short (positive : 0 < r.bufSize) (valid : Round r w t)
    (again : w.more (reorderIndex r r.headSeqNum)) : t < r.bufSize := by
  have notRound : w.j ≠ reorderIndex r r.headSeqNum := by
    rw [Walk.more,and_eq_true,bne_iff_ne] at again
    exact again.2
  rw [valid.position,Ne,Slots.ring_round (reorderIndex_lt r _ positive) valid.range.2 valid.range.1] at notRound
  have limit := valid.range.2
  omega

theorem round_next (valid : Round r w t) :
    (w.j+1) % r.bufSize = (reorderIndex r r.headSeqNum + (t+1)) % r.bufSize := by
  rw [valid.position]
  exact Slots.ring_next _ _ _

theorem round_skip (valid : Round r w t) (short : t < r.bufSize) (here : w.c.r.reorderBuf w.j = none) :
    Round r {w with skipped:=w.skipped+1,j:=(w.j+1) % r.bufSize} (t+1) := by
  refine ⟨valid.same,by omega,round_next valid,?_,valid.counted⟩
  intro s inside
  by_cases last : s = t
  · subst s; rw [← valid.position]; exact here
  · exact valid.empty s (by omega)

theorem round_release (positive : 0 < r.bufSize ∧ r.bufSize ≤ 1024) (valid : Round r w t) (short : t < r.bufSize) :
    Round r {w with
      c := (phlReleaseReorderFrame w.c w.j).setHead ((seqInc w.c.r.headSeqNum + w.skipped) % 4096)
      skipped := 0
      j := (w.j+1) % r.bufSize} (t+1) := by
  refine ⟨(valid.same.trans (release_same w.c w.j)).setHead _,by omega,round_next valid,?_,?_⟩
  · intro s inside
    simp only [setHead_r,release_buf]
    by_cases last : s = t
    · subst s; rw [← valid.position,update_self]
    · rw [update_of_ne]
      · exact valid.empty s (by omega)
      · rw [valid.position]
        intro equal
        exact last (Slots.ring_injective (reorderIndex_lt r _ positive.1) (by omega) short equal)
  · have inRange : w.j < w.c.r.bufSize := by
      rw [valid.same.bufSize,valid.position]; exact Nat.mod_lt _ positive.1
    exact release_counted inRange (valid.same.bufSize ▸ positive.2) valid.counted

theorem walk_skip (valid : WalkInv r w t) (short : t < r.bufSize) (here : w.c.r.reorderBuf w.j = none) :
    WalkInv r {w with skipped:=w.skipped+1,j:=(w.j+1) % r.bufSize} (t+1) := by
  have behind := valid.behind
  refine {round_skip valid.round short here with behind:=by simp only; omega,head:=?_,placed:=valid.placed}
  have distance : t + 1 - (w.skipped+1) = t - w.skipped := by omega
  simp only [distance]
  exact valid.head

theorem walk_stop (valid : WalkInv r w t) : WalkInv r {w with pending:=true} t := {valid with}

theorem walk_release (positive : 0 < r.bufSize ∧ r.bufSize ≤ 1024) (valid : WalkInv r w t) (short : t < r.bufSize) :
    WalkInv r {w with
      c := (phlReleaseReorderFrame w.c w.j).setHead ((seqInc w.c.r.headSeqNum + w.skipped) % 4096)
      skipped := 0
      j := (w.j+1) % r.bufSize} (t+1) := by
  have behind := valid.behind
  refine {round_release positive valid.round short with behind:=Nat.zero_le _,head:=?_,placed:=?_}
  · simp only [setHead_r,valid.head,seqInc,seqModulo]
    omega
  · intro i ib p held
    exact valid.placed i ib p (release_buf_some held).2

theorem walk_step (positive : 0 < r.bufSize ∧ r.bufSize ≤ 1024) (valid : WalkInv r w t)
    (again : w.more (reorderIndex r r.headSeqNum)) (time : Nat) :
    ∃ t', WalkInv r (w.body (reorderIndex r r.headSeqNum) time) t' := by
  have short := walk_short positive.1 valid.round again
  rcases walk_cases valid.round positive.1 time with ⟨here,stepped⟩ | ⟨_,stepped⟩ | ⟨_,stepped⟩
  · exact ⟨t+1,stepped ▸ walk_skip valid short here⟩
  · exact ⟨t,stepped ▸ walk_stop valid⟩
  · exact ⟨t+1,stepped ▸ walk_release positive valid short⟩

theorem walk_inv (positive : 0 < r.bufSize ∧ r.bufSize ≤ 1024) (start : WalkInv r w t) (time fuel : Nat) :
    ∃ t', WalkInv r (iterate (Walk.more (reorderIndex r r.headSeqNum)) (Walk.body (reorderIndex r r.headSeqNum) time)
      fuel w) t' :=
  iterate_keeps (fun w => ∃ t, WalkInv r w t) (fun _ ⟨_,valid⟩ again => walk_step positive valid again time) ⟨t,start⟩

theorem walk_start (valid : Window c.r) (empty : c.r.reorderBuf (reorderIndex c.r c.r.headSeqNum) = none) :
    WalkInv c.r ⟨c,(reorderIndex c.r c.r.headSeqNum + 1) % c.r.bufSize,1,false⟩ 1 := by
  refine ⟨Same.refl _,⟨by decide,valid.size.1⟩,rfl,le_refl _,?_,?_,valid.placed,valid.counted⟩
  · exact (mod_eq_of_lt valid.head).symm
  · intro s first
    have zero : s = 0 := by omega
    have here : (reorderIndex c.r c.r.headSeqNum + s) % c.r.bufSize = reorderIndex c.r c.r.headSeqNum := by
      rw [zero,Nat.add_zero,Nat.mod_eq_of_lt (reorderIndex_lt _ _ valid.size.1)]
    simpa only [here] using empty

theorem walk_window (valid : Window r) (straight : Straight r r.headSeqNum) (walk : WalkInv r w t)
    (single : r.bufSize = 1 → w.c.r.storedMpduNum = 0) : Window w.c.r := by
  have size := walk.same.bufSize
  refine ⟨by rw [size]; exact valid.size,?_,?_,walk.counted,by rw [size]; exact single⟩
  · rw [walk.head]; exact mod_lt _ (by decide)
  · intro i ib p held
    rw [size] at ib
    obtain ⟨inside,slot⟩ := walk.placed i ib p held
    rw [walk.same.index,size]
    refine ⟨?_,slot⟩
    have beyond : t ≤ seqSub p.seq r.headSeqNum := by
      rcases lt_or_ge (seqSub p.seq r.headSeqNum) t with early | late
      · have vacant := walk.empty _ early
        rw [← straight_index straight inside,seq_of_seqSub p.seq_lt,← slot,held] at vacant
        cases vacant
      · exact late
    rw [walk.head]
    unfold seqSub at inside beyond ⊢
    omega

def releaseBuffered (time : Nat) (c : Ctx) : Ctx :=
  if (c.r.reorderBuf (reorderIndex c.r c.r.headSeqNum)).isNone ∧ c.r.storedMpduNum ≠ 0 then
    (timeoutWalk c (reorderIndex c.r c.r.headSeqNum) time).c
  else releaseReady c

theorem setReleaseTimer_eq (c : Ctx) : ∃ timer, setReleaseTimer c = {c with reorderTimer:=timer} := by
  unfold setReleaseTimer
  split
  · exact ⟨c.reorderTimer,rfl⟩
  · exact ⟨true,rfl⟩

theorem reorderRelease_eq (time : Nat) (c : Ctx) :
    ∃ timer, phlReorderRelease time c = {releaseBuffered time c with reorderTimer:=timer} := by
  have finish : ∀ d : Ctx, ∃ timer, (if d.r.storedMpduNum ≠ 0 then
      (if searchMore d.r (searchStored d.r) then d else setReleaseTimer d) else {d with reorderTimer:=false}) =
      {d with reorderTimer:=timer} := by
    intro d
    split
    · split
      · exact ⟨d.reorderTimer,rfl⟩
      · exact setReleaseTimer_eq d
    · exact ⟨false,rfl⟩
  unfold phlReorderRelease releaseBuffered
  dsimp only
  split
  · split
    · exact setReleaseTimer_eq _
    · exact finish _
  · exact finish _

def Walks (r : TidAmpduRx) : Prop := (r.reorderBuf (reorderIndex r r.headSeqNum)).isNone ∧ r.storedMpduNum ≠ 0

instance (r : TidAmpduRx) : Decidable (Walks r) := inferInstanceAs (Decidable (_ ∧ _))

theorem releaseBuffered_window (valid : Window c.r) (straight : Walks c.r → Straight c.r c.r.headSeqNum) :
    Window (releaseBuffered time c).r := by
  unfold releaseBuffered
  split
  · rename_i entered
    have straight := straight entered
    obtain ⟨empty,some⟩ := entered
    obtain ⟨t,walk⟩ := walk_inv valid.size (walk_start valid (isNone_iff_eq_none.mp empty)) time c.r.bufSize
    exact walk_window valid straight walk (fun one => absurd (valid.single one) some)
  · exact releaseReady_window valid

theorem reorderRelease_window (valid : Window c.r) (straight : Walks c.r → Straight c.r c.r.headSeqNum) :
    Window (phlReorderRelease time c).r := by
  obtain ⟨timer,equal⟩ := reorderRelease_eq time c
  rw [equal]
  exact releaseBuffered_window valid straight

def inserted (r : TidAmpduRx) (storeTime : Nat) (pkt : RxPkt) : TidAmpduRx :=
  {r with
    reorderBuf := update r.reorderBuf (reorderIndex r pkt.seq) (some pkt)
    reorderTime := update r.reorderTime (reorderIndex r pkt.seq) storeTime
    storedMpduNum := (r.storedMpduNum+1) % 0x10000}

theorem inserted_counted (size : 0 < r.bufSize ∧ r.bufSize ≤ 1024) (counted : r.storedMpduNum = (stored r).length)
    (empty : r.reorderBuf (reorderIndex r pkt.seq) = none) :
    (inserted r storeTime pkt).storedMpduNum = (stored (inserted r storeTime pkt)).length := by
  have grown := (Slots.contents_fill (reorderIndex_lt r pkt.seq size.1) empty pkt).length_eq
  have limit : (stored r).length ≤ r.bufSize := Slots.contents_length_le _ _
  simp only [stored,inserted,List.length_cons] at grown limit counted ⊢
  omega

theorem inserted_window (valid : Window r) (empty : r.reorderBuf (reorderIndex r pkt.seq) = none)
    (inside : seqSub pkt.seq r.headSeqNum < r.bufSize) (several : r.bufSize ≠ 1) :
    Window (inserted r storeTime pkt) := by
  refine ⟨valid.size,valid.head,?_,inserted_counted valid.size valid.counted empty,fun one => absurd one several⟩
  intro i ib p held
  simp only [inserted] at held
  by_cases same : i = reorderIndex r pkt.seq
  · subst i
    rw [update_self] at held
    cases some.inj held
    exact ⟨inside,rfl⟩
  · rw [update_of_ne same] at held
    exact valid.placed i ib p held

theorem stored_several {pkt : RxPkt} (valid : Window r) (inside : seqSub pkt.seq r.headSeqNum < r.bufSize)
    (notDirect : ¬ (pkt.seq = r.headSeqNum ∧ r.storedMpduNum = 0)) : r.bufSize ≠ 1 := by
  intro one
  rw [one] at inside
  have first := (seqSub_eq_zero valid.head pkt.seq_lt).mp (by omega)
  exact notDirect ⟨first.symm,valid.single one⟩

def roomHead (r : TidAmpduRx) (mpduSeqNum : Nat) : Nat :=
  if !seqLess mpduSeqNum (r.headSeqNum+r.bufSize) then seqInc (seqSub mpduSeqNum r.bufSize) else r.headSeqNum

theorem makeRoom_head (c : Ctx) (mpduSeqNum : Nat) :
    (makeRoom c mpduSeqNum).r.headSeqNum = roomHead c.r mpduSeqNum := by
  unfold makeRoom roomHead
  split <;> rfl

theorem roomHead_spec (valid : Window r) (low : seq < 4096) (ahead : seqLess seq r.headSeqNum = false) :
    seqSub seq (roomHead r seq) < r.bufSize ∧ roomHead r seq < 4096 ∧
    seqSub (roomHead r seq) r.headSeqNum + r.bufSize ≤ 2049 := by
  have size := valid.size
  have head := valid.head
  have near := seqLess_eq_false.mp ahead
  unfold roomHead
  cases within : seqLess seq (r.headSeqNum+r.bufSize) with
  | false =>
    have far := seqLess_eq_false.mp within
    simp only [Bool.not_false,if_true,seqInc,seqModulo]
    unfold seqSub at *
    omega
  | true =>
    have close := seqLess_eq_true.mp within
    simp only [Bool.not_true,Bool.false_eq_true,if_false]
    unfold seqSub at *
    omega

theorem iterateRelease_same (c : Ctx) (more : Ctx → Bool) (fuel : Nat) :
    Same c.r (iterate more (fun c => phlReleaseReorderFrame c (reorderIndex c.r c.r.headSeqNum)) fuel c).r :=
  iterate_keeps (fun d : Ctx => Same c.r d.r) (fun _ same _ => same.trans (release_same _ _)) (Same.refl _)

theorem releaseFrames_same (c : Ctx) (head : Nat) : Same c.r (phlReleaseReorderFrames c head).r :=
  (iterateRelease_same c _ seqModulo).setHead head

theorem makeRoom_same (c : Ctx) (seq : Nat) : Same c.r (makeRoom c seq).r := by
  unfold makeRoom
  split
  · exact releaseFrames_same c _
  · exact Same.refl _

theorem makeRoom_window (valid : Window c.r) (low : seq < 4096) (ahead : seqLess seq c.r.headSeqNum = false) :
    Window (makeRoom c seq).r ∧ seqSub seq (makeRoom c seq).r.headSeqNum < (makeRoom c seq).r.bufSize := by
  obtain ⟨inside,bound,near⟩ := roomHead_spec valid low ahead
  rw [makeRoom_head,(makeRoom_same c seq).bufSize]
  refine ⟨?_,inside⟩
  unfold makeRoom
  split
  · rename_i beyond
    rw [roomHead,if_pos beyond] at bound near
    refine releaseFrames_window valid bound (seqLess_eq_false.mpr (by omega)) ?_
    intro half
    exact valid.single (by omega)
  · exact valid

theorem start_window {c : Ctx} (valid : Window c.r) : Window c.start.r := {valid with}

-- Everything an arriving MPDU can do; `d` is the session after making room.
inductive Arrival (storeTime releaseTime : Nat) (pkt : RxPkt) (c : Ctx) : Ctx → Prop where
  | early (idle : c.r.started = false) (old : seqLess pkt.seq c.r.headSeqNum) :
      Arrival storeTime releaseTime pkt c {c with frames:=c.frames ++ [pkt]}
  | old (running : c.r.started) (old : seqLess pkt.seq c.r.headSeqNum) :
      Arrival storeTime releaseTime pkt c (c.start.recycle pkt)
  | duplicate (ahead : seqLess pkt.seq c.r.headSeqNum = false) (room : makeRoom c.start pkt.seq = d)
      (held : (d.r.reorderBuf (reorderIndex d.r pkt.seq)).isSome) :
      Arrival storeTime releaseTime pkt c (d.recycle pkt)
  | direct (ahead : seqLess pkt.seq c.r.headSeqNum = false) (room : makeRoom c.start pkt.seq = d)
      (first : pkt.seq = d.r.headSeqNum) (nothing : d.r.storedMpduNum = 0) :
      Arrival storeTime releaseTime pkt c {d.setHead (seqInc d.r.headSeqNum) with frames:=d.frames ++ [pkt]}
  | store (ahead : seqLess pkt.seq c.r.headSeqNum = false) (room : makeRoom c.start pkt.seq = d)
      (empty : d.r.reorderBuf (reorderIndex d.r pkt.seq) = none)
      (notDirect : ¬ (pkt.seq = d.r.headSeqNum ∧ d.r.storedMpduNum = 0)) :
      Arrival storeTime releaseTime pkt c (storeReorder storeTime releaseTime pkt d)

theorem rxReorder_arrival (storeTime releaseTime : Nat) (pkt : RxPkt) (c : Ctx) :
    Arrival storeTime releaseTime pkt c (rxReorderLocked storeTime releaseTime pkt c) := by
  unfold rxReorderLocked phlManageStaReorderBuf
  dsimp only
  cases old : seqLess pkt.seq c.r.headSeqNum with
  | true =>
    cases running : c.r.started with
    | false => exact .early running old
    | true =>
      have same : seqLess pkt.seq c.start.r.headSeqNum := old
      simp only [same,Bool.not_true,Bool.false_and,Bool.false_eq_true,if_false,if_true]
      exact .old running old
  | false =>
    simp only [Bool.and_false,Bool.false_eq_true,if_false]
    have same : seqLess pkt.seq c.start.r.headSeqNum = false := old
    simp only [same,false_eq_true,if_false]
    generalize room : makeRoom c.start pkt.seq = d
    cases held : d.r.reorderBuf (reorderIndex d.r pkt.seq) with
    | some q => exact .duplicate old room (by simp [held])
    | none =>
      by_cases direct : pkt.seq = d.r.headSeqNum ∧ d.r.storedMpduNum = 0
      · simp only [isSome_none,false_eq_true,if_false,if_pos direct]
        exact .direct old room direct.1 direct.2
      · simp only [isSome_none,false_eq_true,if_false,if_neg direct]
        exact .store old room held direct

-- The MPDU goes into a slot: it is not behind the head, its slot is free once
-- room was made, and it is not handed up at the head of an empty buffer.
def UsesSlot (c : Ctx) (pkt : RxPkt) : Prop :=
  seqLess pkt.seq c.r.headSeqNum = false ∧
  ((makeRoom c.start pkt.seq).r.reorderBuf (reorderIndex (makeRoom c.start pkt.seq).r pkt.seq)).isNone ∧
  ¬(pkt.seq = (makeRoom c.start pkt.seq).r.headSeqNum ∧ (makeRoom c.start pkt.seq).r.storedMpduNum = 0)

instance (c : Ctx) (pkt : RxPkt) : Decidable (UsesSlot c pkt) := inferInstanceAs (Decidable (_ ∧ _ ∧ _))

theorem rxReorder_window (valid : Window c.r) (straight : UsesSlot c pkt → Straight c.r (roomHead c.r pkt.seq)) :
    Window (rxReorderLocked storeTime releaseTime pkt c).r := by
  have roomy : ∀ d, seqLess pkt.seq c.r.headSeqNum = false → makeRoom c.start pkt.seq = d →
      Window d.r ∧ seqSub pkt.seq d.r.headSeqNum < d.r.bufSize := by
    rintro d ahead rfl
    exact makeRoom_window (start_window valid) pkt.seq_lt ahead
  have arrival := rxReorder_arrival storeTime releaseTime pkt c
  generalize rxReorderLocked storeTime releaseTime pkt c = result at arrival ⊢
  cases arrival with
  | early idle old => exact valid
  | old running old => exact start_window valid
  | duplicate ahead room held => exact (roomy _ ahead room).1
  | direct ahead room first nothing => exact setHead_window (roomy _ ahead room).1 nothing (mod_lt _ (by decide))
  | @store d ahead room empty notDirect =>
    obtain ⟨window,inside⟩ := roomy _ ahead room
    have several := stored_several window inside notDirect
    have straightThere : Straight d.r d.r.headSeqNum := by
      have same := room ▸ makeRoom_same c.start pkt.seq
      have head := room ▸ makeRoom_head c.start pkt.seq
      have condition := straight ⟨ahead,by subst room; simp [empty],by subst room; exact notDirect⟩
      unfold Straight at condition ⊢
      rw [head,same.bufSize,same.ssn]
      exact condition
    exact reorderRelease_window (inserted_window window empty inside several) (fun _ => straightThere)

theorem rxBar_window (valid : Window c.r) (low : seq < 4096)
    (half : seqSub seq c.r.headSeqNum = 2048 → c.r.storedMpduNum = 0) : Window (rxBarLocked seq c).r := by
  unfold rxBarLocked
  split
  · exact valid
  · rename_i ahead
    exact releaseFrames_window valid low (by simpa using ahead) half

theorem alloc_window (low : ssn < 4096) (size : 0 < bufSize ∧ bufSize ≤ 1024) :
    Window (phlTidAmpduRxAlloc ssn tid bufSize) := by
  refine ⟨size,low,(by intro i _ p held; cases held),?_,fun _ => rfl⟩
  simp [phlTidAmpduRxAlloc,stored,Slots.contents]

def StaWindow (sta : StaInfo) : Prop := ∀ tid r, sta.tidRx tid = some r → Window r

theorem onTid_other (sta : StaInfo) (op : Ctx → Ctx) (different : other ≠ tid) :
    (sta.onTid tid op).tidRx other = sta.tidRx other := by
  unfold StaInfo.onTid
  split
  · rfl
  · exact update_of_ne different _ _

theorem onTid_window (valid : StaWindow sta)
    (kept : ∀ r, sta.tidRx tid = some r → Window r → Window (op ⟨r,sta.frames,sta.recycled,sta.reorderTimer⟩).r) :
    StaWindow (sta.onTid tid op) := by
  intro other r found
  by_cases same : other = tid
  · subst other
    unfold StaInfo.onTid at found
    split at found
    · exact valid _ _ found
    · rename_i session held
      simp only [update_self,some.injEq] at found
      subst r
      exact kept _ held (valid _ _ held)
  · rw [onTid_other sta op same] at found
    exact valid _ _ found

theorem replace_window (valid : StaWindow sta) (fresh : ∀ r, next = some r → Window r) :
    StaWindow (sta.replace tid next) := by
  intro other r found
  simp only [StaInfo.replace] at found
  by_cases same : other = tid
  · subst other
    rw [update_self] at found
    exact fresh r found
  · rw [update_of_ne same] at found
    exact valid _ _ found

theorem startRxBaSession_window (valid : StaWindow sta) (ssn : Fin 4096) (size : Fin 257) :
    StaWindow (rtwPhlStartRxBaSession sta ssn baPolicy tid size alloc).2 := by
  unfold rtwPhlStartRxBaSession
  dsimp only
  split
  · exact valid
  · split
    · exact valid
    · split
      · refine replace_window valid ?_
        intro r opened
        cases some.inj opened
        refine alloc_window ssn.isLt ?_
        split
        · decide
        · omega
      · exact valid

theorem timer_window (clock : Fin 8 → Nat) (tids : List (Fin 8)) (once : tids.Nodup) (valid : StaWindow sta)
    (straight : ∀ tid ∈ tids, ∀ r, sta.tidRx tid = some r → Walks r → Straight r r.headSeqNum) :
    StaWindow (tids.foldl (fun sta tid => sta.onTid tid (phlReorderRelease (clock tid))) sta) := by
  induction tids generalizing sta with
  | nil => exact valid
  | cons tid rest ih =>
    obtain ⟨notLater,onceRest⟩ := List.nodup_cons.mp once
    rw [List.foldl_cons]
    apply ih onceRest
    · refine onTid_window valid ?_
      intro r held window
      exact reorderRelease_window window (straight tid List.mem_cons_self r held)
    · intro later member r found
      have different : later ≠ tid := by rintro rfl; exact notLater member
      rw [onTid_other sta _ different] at found
      exact straight later (List.mem_cons_of_mem _ member) r found

theorem disconnect_window (tids : List (Fin 8)) (valid : StaWindow sta) :
    StaWindow (tids.foldl (fun sta tid => sta.replace tid none) sta) := by
  induction tids generalizing sta with
  | nil => exact valid
  | cons tid rest ih => exact ih (replace_window valid (by intro r none; cases none))

-- What `phl_rx_reorder` looks up a session for.
def reordered (appendFcs found : Bool) (pkt : RxPkt) : Bool :=
  !(appendFcs && !(pkt.mdata.amsduCut && !pkt.mdata.lastMsdu) && decide (pkt.length ≤ 4)) &&
    !(pkt.mdata.bc || pkt.mdata.mc || !pkt.mdata.qos || pkt.mdata.qNull || pkt.mdata.moreFrag ||
      pkt.mdata.fragNum != 0 || !found)

-- The steps the window survives. A BlockAckReq exactly half the number space
-- ahead must find the buffer empty, and where an MPDU is stored or the timeout
-- walk runs the slots of the window must follow its sequence numbers.
def StaGuard (sta : StaInfo) : StaEvent → Prop
  | .mpdu appendFcs found pkt _ _ => reordered appendFcs found pkt → ∀ tid : Fin 8, tid.val = pkt.mdata.tid →
      ∀ r ∈ sta.tidRx tid, UsesSlot ⟨r,sta.frames,sta.recycled,sta.reorderTimer⟩ pkt → Straight r (roomHead r pkt.seq)
  | .bar tid seq => ∀ r ∈ sta.tidRx tid, seqSub seq r.headSeqNum = 2048 → r.storedMpduNum = 0
  | .timer _ => ∀ tid, ∀ r ∈ sta.tidRx tid, Walks r → Straight r r.headSeqNum
  | .addba .. | .delba _ | .disconnect => True

theorem phlRxReorder_cases (sta : StaInfo) (pkt : RxPkt) (appendFcs found : Bool) (storeTime releaseTime : Nat) :
    ∃ short : RxPkt, short.arrival = pkt.arrival ∧ short.mdata = pkt.mdata ∧
      ((phlRxReorder sta appendFcs found pkt storeTime releaseTime).2 = {sta with frames:=sta.frames ++ [short]} ∨
      (phlRxReorder sta appendFcs found pkt storeTime releaseTime).2 = {sta with recycled:=sta.recycled ++ [short]} ∨
      ∃ tid : Fin 8, (tid.val = pkt.mdata.tid ∧ reordered appendFcs found pkt) ∧ (sta.tidRx tid).isSome ∧
        (phlRxReorder sta appendFcs found pkt storeTime releaseTime).2 =
          sta.onTid tid (rxReorderLocked storeTime releaseTime short)) := by
  unfold phlRxReorder
  dsimp only
  generalize trimmed : (if (appendFcs && !(pkt.mdata.amsduCut && !pkt.mdata.lastMsdu)) then
    ({pkt with length:=pkt.length - 4} : RxPkt) else pkt) = short
  have same : short.arrival = pkt.arrival ∧ short.mdata = pkt.mdata := by
    rw [← trimmed]
    split <;> exact ⟨rfl,rfl⟩
  split
  · exact ⟨pkt,rfl,rfl,.inr (.inl rfl)⟩
  · rename_i kept
    refine ⟨short,same.1,same.2,?_⟩
    split
    · exact .inl rfl
    · rename_i wanted
      have ordered : reordered appendFcs found pkt := by
        rw [same.2] at wanted
        simp only [reordered,kept,wanted,Bool.not_false,Bool.and_self]
      split
      · rename_i inRange
        split
        · exact .inl rfl
        · rename_i held
          exact .inr (.inr ⟨_,⟨congrArg RMetaData.tid same.2,ordered⟩,by rw [held]; rfl,rfl⟩)
      · exact .inr (.inl rfl)

theorem phlRxReorder_window (valid : StaWindow sta)
    (straight : reordered appendFcs found pkt → ∀ tid : Fin 8, tid.val = pkt.mdata.tid → ∀ r ∈ sta.tidRx tid,
      UsesSlot ⟨r,sta.frames,sta.recycled,sta.reorderTimer⟩ pkt → Straight r (roomHead r pkt.seq)) :
    StaWindow (phlRxReorder sta appendFcs found pkt storeTime releaseTime).2 := by
  obtain ⟨short,_,same,put | dropped | ⟨tid,⟨named,ordered⟩,_,stored⟩⟩ := phlRxReorder_cases sta pkt appendFcs found storeTime releaseTime
  · rw [put]; exact valid
  · rw [dropped]; exact valid
  · rw [stored]
    refine onTid_window valid ?_
    intro r held window
    have seq : short.seq = pkt.seq := by rw [RxPkt.seq,same]; rfl
    refine rxReorder_window window fun uses => ?_
    unfold UsesSlot at uses
    rw [seq] at uses ⊢
    exact straight ordered tid named r held uses

theorem staStep_window (valid : StaWindow sta) (allowed : StaGuard sta event) : StaWindow (staStep sta event) := by
  cases event with
  | addba ssn baPolicy tid size alloc => exact startRxBaSession_window valid ssn size
  | delba tid =>
    simp only [staStep,rtwPhlStopRxBaSession]
    split
    · exact replace_window valid (by intro r none; cases none)
    · exact valid
  | mpdu appendFcs found pkt storeTime releaseTime => exact phlRxReorder_window valid allowed
  | bar tid seq =>
    refine onTid_window valid ?_
    intro r held window
    exact rxBar_window window seq.isLt (allowed r held)
  | timer clock => exact timer_window clock _ (List.nodup_finRange 8) valid (fun tid _ => allowed tid)
  | disconnect => exact disconnect_window _ valid

theorem sta_window_reached (path : Reached staStep StaGuard .init sta) :
    ∀ tid r, sta.tidRx tid = some r → WindowOk r := by
  intro tid r found
  have start : StaWindow .init := by intro tid r none; cases none
  exact (path.invariant StaWindow start (fun _ _ valid allowed => staStep_window valid allowed) tid r found).ok

instance (sta : StaInfo) : (event : StaEvent) → Decidable (StaGuard sta event)
  | .mpdu appendFcs found pkt _ _ => inferInstanceAs (Decidable (reordered appendFcs found pkt → ∀ tid : Fin 8,
      tid.val = pkt.mdata.tid → ∀ r ∈ sta.tidRx tid, UsesSlot ⟨r,sta.frames,sta.recycled,sta.reorderTimer⟩ pkt →
        Straight r (roomHead r pkt.seq)))
  | .bar tid seq => inferInstanceAs (Decidable (∀ r ∈ sta.tidRx tid, seqSub seq r.headSeqNum = 2048 → r.storedMpduNum = 0))
  | .timer _ => inferInstanceAs (Decidable (∀ tid, ∀ r ∈ sta.tidRx tid, Walks r → Straight r r.headSeqNum))
  | .addba .. | .delba _ | .disconnect => isTrue trivial

def traffic : List StaEvent :=
  [.addba 4094 0 3 64 true,.mpdu false true ⟨0,{seq:=0,tid:=3},60⟩ 5 6,
    .mpdu false true ⟨1,{seq:=4094,tid:=3},60⟩ 7 8,.timer (fun _ => 200),.bar 3 70]

theorem sta_window_reached_traffic :
    Admitted staStep StaGuard .init traffic ∧
      ∀ tid r, (run staStep .init traffic).tidRx tid = some r → WindowOk r := by
  have admitted : Admitted staStep StaGuard .init traffic := by decide +kernel
  exact ⟨admitted,sta_window_reached (Reached.start.run admitted)⟩

def strays (r : TidAmpduRx) : Bool :=
  (List.range r.bufSize).any fun i => (r.reorderBuf i).any fun p => !decide (seqSub p.seq r.headSeqNum < r.bufSize)

theorem strays_not_ok (found : session.any strays) : ∃ r, session = some r ∧ ¬ WindowOk r := by
  obtain ⟨r,rfl,stray⟩ := (any_eq_true _ _).mp found
  refine ⟨r,rfl,?_⟩
  intro ok
  obtain ⟨i,bound,stray⟩ := List.any_eq_true.mp stray
  obtain ⟨p,held,outside⟩ := (any_eq_true _ _).mp stray
  have inside := ok.inWindow i (List.mem_range.mp bound) p held
  simp [inside] at outside

def halfAhead : List StaEvent := [.addba 0 0 0 64 true,.mpdu false true ⟨0,{seq:=1},60⟩ 0 0,.bar 0 2048]

def acrossWrap : List StaEvent :=
  [.addba 0 0 0 6 true,.bar 0 2047,.bar 0 4094,.bar 0 4095,.mpdu false true ⟨0,{seq:=4},60⟩ 0 0,
    .mpdu false true ⟨1,{seq:=0},60⟩ 50 50,.timer (fun _ => 120)]

theorem window_lost :
    (∃ r, (run staStep .init halfAhead).tidRx 0 = some r ∧ ¬ WindowOk r) ∧
    (∃ r, (run staStep .init acrossWrap).tidRx 0 = some r ∧ ¬ WindowOk r) :=
  ⟨strays_not_ok (by decide +kernel),strays_not_ok (by decide +kernel)⟩
end Rtl8852au.Reorder
