import Rtl8852au.ReorderWindow

namespace Rtl8852au.Reorder
open Machine List Option Nat Bool

def headSlot (c : Ctx) : Nat := reorderIndex c.r c.r.headSeqNum

-- The loop of recycleBetween with the slot it ends at.
def recycleLoop (c : Ctx) (index j : Nat) : Ctx × Nat :=
  iterate (fun w : Ctx × Nat => w.2 != j)
    (fun w => (phlRecycleRxBuf w.1 (w.1.r.reorderBuf w.2),(w.2+1) % w.1.r.bufSize))
    c.r.bufSize (c,(index+1) % c.r.bufSize)

def walked (c : Ctx) (time rounds : Nat) : Walk :=
  iterate (Walk.more (headSlot c)) (Walk.body (headSlot c) time) rounds ⟨c,(headSlot c + 1) % c.r.bufSize,1,false⟩

structure LoopsEnd (time : Nat) (c : Ctx) : Prop where
  walk : Walks c.r → (timeoutWalk c (headSlot c) time).more (headSlot c) = false
  recycle : Walks c.r → ∀ rounds,
    (recycleLoop (walked c time rounds).c (headSlot c) (walked c time rounds).j).2 = (walked c time rounds).j
  ready : ¬ Walks c.r → (releaseReady c).r.reorderBuf (headSlot (releaseReady c)) = none
  search : (releaseBuffered time c).r.storedMpduNum ≠ 0 →
    searchMore (releaseBuffered time c).r (searchStored (releaseBuffered time c).r) = false

theorem recycleRxBuf_kept (c : Ctx) (pkt : Option RxPkt) :
    (phlRecycleRxBuf c pkt).r = c.r ∧ (phlRecycleRxBuf c pkt).reorderTimer = c.reorderTimer := by
  cases pkt with
  | none => exact ⟨rfl,rfl⟩
  | some pkt => exact ⟨rfl,rfl⟩

theorem recycleLoop_ends (inside : 0 < t ∧ t ≤ c.r.bufSize) :
    (recycleLoop c index ((index+t) % c.r.bufSize)).2 = (index+t) % c.r.bufSize := by
  have ends := @iterate_counted _ (c,(index+1) % c.r.bufSize) 1 c.r.bufSize (·.2 != (index+t) % c.r.bufSize)
    (fun w => (phlRecycleRxBuf w.1 (w.1.r.reorderBuf w.2),(w.2+1) % w.1.r.bufSize))
    (fun s w => w.1.r = c.r ∧ s ≤ t ∧ w.2 = (index+s) % c.r.bufSize) t ?_ ⟨rfl,inside.1,rfl⟩ (by omega)
  · exact bne_eq_false_iff_eq.mp ends.1
  · rintro s ⟨d,j⟩ ⟨same,before,place⟩ again
    dsimp only at same place again
    have short : s ≠ t := by
      rintro rfl
      simp [place] at again
    refine ⟨by omega,(recycleRxBuf_kept d _).1.trans same,by omega,?_⟩
    rw [place,same]
    exact Slots.ring_next index s c.r.bufSize

def Searched (r : TidAmpduRx) (s j : Nat) : Prop :=
  j = (r.headSeqNum % r.bufSize + s) % r.bufSize ∧ ∀ k < s, r.reorderBuf ((r.headSeqNum % r.bufSize + k) % r.bufSize) = none

theorem search_ends (counted : r.storedMpduNum = (stored r).length) (positive : 0 < r.bufSize) (left : r.storedMpduNum ≠ 0) :
    searchMore r (searchStored r) = false := by
  have head : r.headSeqNum % r.bufSize < r.bufSize := mod_lt _ positive
  refine (iterate_counted (Searched r) r.bufSize ?_ (n := 0) ⟨(mod_eq_of_lt head).symm,nofun⟩ (by omega)).1
  intro s j ⟨place,passed⟩ again
  have short : s < r.bufSize := by
    by_contra whole
    apply left
    rw [counted,length_eq_zero_iff,eq_nil_iff_forall_not_mem]
    intro p member
    obtain ⟨i,bound,held⟩ := Slots.mem_contents.mp member
    have visited := passed ((i + r.bufSize - r.headSeqNum % r.bufSize) % r.bufSize)
      (Nat.lt_of_lt_of_le (Nat.mod_lt _ positive) (Nat.le_of_not_lt whole))
    have here : (r.headSeqNum % r.bufSize + (i + r.bufSize - r.headSeqNum % r.bufSize) % r.bufSize) % r.bufSize = i := by
      rw [add_mod_mod,show r.headSeqNum % r.bufSize + (i + r.bufSize - r.headSeqNum % r.bufSize) = i + r.bufSize by omega,
        add_mod_right,mod_eq_of_lt bound]
    rw [here,held] at visited
    cases visited
  have empty : r.reorderBuf j = none := by
    unfold searchMore at again
    rw [and_eq_true,isNone_iff_eq_none] at again
    exact again.2
  refine ⟨short,?_,?_⟩
  · rw [place]
    exact Slots.ring_next _ _ _
  · intro k before
    by_cases last : k = s
    · rw [last,← place]
      exact empty
    · exact passed k (by omega)

structure Walking (r : TidAmpduRx) (n : Nat) (w : Walk) : Prop where
  some : ∃ t, Round r w t
  going : w.pending = false → Round r w n
  stopped : w.pending → (w.c.r.reorderBuf w.j).isSome

theorem walking_step (size : 0 < r.bufSize ∧ r.bufSize ≤ 1024) (time : Nat) (walk : Walking r n w)
    (again : w.more (reorderIndex r r.headSeqNum)) :
    n < r.bufSize ∧ Walking r (n+1) (w.body (reorderIndex r r.headSeqNum) time) := by
  have going : w.pending = false := by
    unfold Walk.more at again
    simp only [and_eq_true,not_eq_true'] at again
    exact again.1
  have valid := walk.going going
  have short := walk_short size.1 valid again
  refine ⟨short,?_⟩
  rcases walk_cases valid size.1 time with ⟨here,stepped⟩ | ⟨full,stepped⟩ | ⟨_,stepped⟩
  · have next := round_skip valid short here
    rw [stepped]
    exact ⟨⟨_,next⟩,fun _ => next,fun pending => absurd (pending.symm.trans going) nofun⟩
  · rw [stepped]
    exact ⟨⟨n,{valid with}⟩,nofun,fun _ => full⟩
  · have next := round_release size valid short
    rw [stepped]
    exact ⟨⟨_,next⟩,fun _ => next,fun pending => absurd (pending.symm.trans going) nofun⟩

section
variable {c : Ctx} (size : 0 < c.r.bufSize ∧ c.r.bufSize ≤ 1024) (counted : c.r.storedMpduNum = (stored c.r).length)
include size counted

theorem walking_start (walks : Walks c.r) : Walking c.r 1 ⟨c,(headSlot c + 1) % c.r.bufSize,1,false⟩ := by
  have start : Round c.r ⟨c,(headSlot c + 1) % c.r.bufSize,1,false⟩ 1 := by
    refine ⟨Same.refl _,⟨one_pos,size.1⟩,rfl,?_,counted⟩
    intro s first
    have here : (reorderIndex c.r c.r.headSeqNum + s) % c.r.bufSize = reorderIndex c.r c.r.headSeqNum := by
      rw [show s = 0 by omega,Nat.add_zero,Nat.mod_eq_of_lt (reorderIndex_lt _ _ size.1)]
    rw [here]
    exact isNone_iff_eq_none.mp walks.1
  exact ⟨⟨1,start⟩,fun _ => start,nofun⟩

theorem walk_ends (time : Nat) (walks : Walks c.r) :
    (timeoutWalk c (headSlot c) time).more (headSlot c) = false ∧ ∃ n, Walking c.r n (timeoutWalk c (headSlot c) time) :=
  iterate_counted (Walking c.r) c.r.bufSize (fun _ _ walk again => walking_step size time walk again)
    (walking_start size counted walks) (by omega)

theorem walked_round (time : Nat) (walks : Walks c.r) (rounds : Nat) : ∃ t, Round c.r (walked c time rounds) t := by
  have walk : ∃ n, Walking c.r n (walked c time rounds) :=
    iterate_keeps (fun w => ∃ n, Walking c.r n w) (fun _ ⟨_,walk⟩ again => ⟨_,(walking_step size time walk again).2⟩)
      ⟨1,walking_start size counted walks⟩
  obtain ⟨_,walk⟩ := walk
  exact walk.some

structure Drained (c : Ctx) (n : Nat) (d : Ctx) : Prop where
  same : Same c.r d.r
  counted : d.r.storedMpduNum = (stored d.r).length
  released : d.r.storedMpduNum + n = c.r.storedMpduNum

theorem ready_ends : (releaseReady c).r.reorderBuf (headSlot (releaseReady c)) = none ∧ ∃ n, Drained c n (releaseReady c) := by
  have limit : c.r.storedMpduNum ≤ c.r.bufSize := counted ▸ Slots.contents_length_le _ _
  let more (d : Ctx) : Bool := (d.r.reorderBuf (headSlot d)).isSome
  have ends : more (releaseReady c) = false ∧ ∃ n, Drained c n (releaseReady c) := by
    refine iterate_counted (Drained c) c.r.storedMpduNum ?_ (n := 0) ⟨Same.refl _,counted,rfl⟩ (by omega)
    intro n d drained again
    obtain ⟨pkt,full⟩ := isSome_iff_exists.mp again
    have bounded := reorderIndex_lt d.r d.r.headSeqNum (drained.same.bufSize ▸ size.1)
    have after := release_counted bounded (drained.same.bufSize ▸ size.2) drained.counted
    have perm := (Slots.contents_clear bounded full).length_eq
    have whole := drained.counted
    have left := drained.released
    have same := drained.same.trans (release_same d (headSlot d))
    have fewer : (phlReleaseReorderFrame d (reorderIndex d.r d.r.headSeqNum)).r.storedMpduNum + 1 = d.r.storedMpduNum := by
      have room := drained.same.bufSize
      have bound : (stored d.r).length ≤ d.r.bufSize := Slots.contents_length_le _ _
      rw [release_full full]
      simp only [stored,length_cons] at perm whole bound ⊢
      omega
    exact ⟨by omega,same,after,by omega⟩
  exact ⟨isNone_iff_eq_none.mp (by simpa [more] using ends.1),ends.2⟩

theorem buffered_counted (time : Nat) :
    (releaseBuffered time c).r.storedMpduNum = (stored (releaseBuffered time c).r).length ∧
      Same c.r (releaseBuffered time c).r := by
  unfold releaseBuffered
  split
  · rename_i walks
    obtain ⟨_,_,walk⟩ := walk_ends size counted time walks
    obtain ⟨_,round⟩ := walk.some
    exact ⟨round.counted,round.same⟩
  · obtain ⟨_,_,drained⟩ := ready_ends size counted
    exact ⟨drained.counted,drained.same⟩

theorem loops_end (time : Nat) : LoopsEnd time c := by
  refine ⟨fun walks => (walk_ends size counted time walks).1,?_,fun _ => (ready_ends size counted).1,?_⟩
  · intro walks rounds
    obtain ⟨t,round⟩ := walked_round size counted time walks rounds
    have same := round.same.bufSize
    rw [round.position,← same]
    exact recycleLoop_ends (same ▸ round.range)
  · have after := buffered_counted size counted time
    exact search_ends after.1 (after.2.bufSize ▸ size.1)
end

theorem release_timer (c : Ctx) (index : Nat) : (phlReleaseReorderFrame c index).reorderTimer = c.reorderTimer := by
  cases held : c.r.reorderBuf index with
  | none => rw [release_empty held]; rfl
  | some pkt => rw [release_full held]

theorem recycle_timer (c : Ctx) (index j : Nat) : (recycleBetween c index j).reorderTimer = c.reorderTimer :=
  iterate_keeps (fun w : Ctx × Nat => w.1.reorderTimer = c.reorderTimer)
    (fun w same _ => (recycleRxBuf_kept w.1 _).2.trans same) rfl

theorem body_timer (w : Walk) (index time : Nat) : (w.body index time).c.reorderTimer = w.c.reorderTimer := by
  unfold Walk.body
  dsimp only
  split
  · rfl
  · split
    · rfl
    · exact (release_timer _ _).trans (recycle_timer _ _ _)

theorem buffered_timer (time : Nat) (c : Ctx) : (releaseBuffered time c).reorderTimer = c.reorderTimer := by
  unfold releaseBuffered
  split
  · exact iterate_keeps (fun w : Walk => w.c.reorderTimer = c.reorderTimer)
      (fun w same _ => (body_timer w _ _).trans same) rfl
  · exact iterate_keeps (fun d : Ctx => d.reorderTimer = c.reorderTimer)
      (fun d same _ => (release_timer d _).trans same) rfl

-- What phl_reorder_release does about the timer once packets are released.
def armed (d : Ctx) : Ctx := if d.r.storedMpduNum ≠ 0 then setReleaseTimer d else {d with reorderTimer:=false}

theorem armed_iff (d : Ctx) : (armed d).reorderTimer ↔ d.r.storedMpduNum ≠ 0 ∧ (d.r.removed → d.reorderTimer) := by
  unfold armed setReleaseTimer
  by_cases left : d.r.storedMpduNum = 0
  · simp [left]
  · cases removed : d.r.removed with
    | false => simp [left]
    | true => simp [left]

theorem release_arms (size : 0 < c.r.bufSize ∧ c.r.bufSize ≤ 1024) (counted : c.r.storedMpduNum = (stored c.r).length)
    (time : Nat) : phlReorderRelease time c = armed (releaseBuffered time c) := by
  have finish : ∀ d, d = releaseBuffered time c → (if d.r.storedMpduNum ≠ 0 then
      (if searchMore d.r (searchStored d.r) then d else setReleaseTimer d) else {d with reorderTimer:=false}) = armed d := by
    rintro d rfl
    unfold armed
    split
    · rename_i left
      rw [(loops_end size counted time).search left]
      rfl
    · rfl
  by_cases walks : (c.r.reorderBuf (reorderIndex c.r c.r.headSeqNum)).isNone ∧ c.r.storedMpduNum ≠ 0
  · have buffered : releaseBuffered time c = (timeoutWalk c (headSlot c) time).c := if_pos walks
    rw [buffered]
    unfold phlReorderRelease
    dsimp only
    rw [if_pos walks]
    split
    · rename_i pending
      obtain ⟨_,n,walk⟩ := walk_ends size counted time walks
      obtain ⟨t,round⟩ := walk.some
      obtain ⟨pkt,held⟩ := isSome_iff_exists.mp (walk.stopped pending)
      have inside : (timeoutWalk c (headSlot c) time).j < (timeoutWalk c (headSlot c) time).c.r.bufSize := by
        rw [round.same.bufSize,round.position]
        exact mod_lt _ size.1
      refine (if_pos fun nothing => ?_).symm
      have vacant := Slots.contents_eq_nil (eq_nil_of_length_eq_zero (round.counted.symm.trans nothing)) inside
      exact absurd (held.symm.trans vacant) nofun
    · exact finish _ buffered.symm
  · have buffered : releaseBuffered time c = releaseReady c := if_neg walks
    rw [buffered]
    unfold phlReorderRelease
    dsimp only
    rw [if_neg walks]
    exact finish _ buffered.symm

theorem reorder_release_ends (counted : c.r.storedMpduNum = (stored c.r).length)
    (size : 0 < c.r.bufSize ∧ c.r.bufSize ≤ 256) (time : Nat) :
    LoopsEnd time c ∧ ((phlReorderRelease time c).reorderTimer = true ↔
      stored (phlReorderRelease time c).r ≠ [] ∧ (c.r.removed = true → c.reorderTimer = true)) := by
  have size : 0 < c.r.bufSize ∧ c.r.bufSize ≤ 1024 := ⟨size.1,by omega⟩
  refine ⟨loops_end size counted time,?_⟩
  obtain ⟨after,same⟩ := buffered_counted size counted time
  obtain ⟨timer,equal⟩ := reorderRelease_eq time c
  have kept : stored (phlReorderRelease time c).r = stored (releaseBuffered time c).r := by rw [equal]
  rw [kept,release_arms size counted,armed_iff,same.removed,buffered_timer,after,ne_eq,length_eq_zero_iff]

-- A packet that waits in a session of four slots for the one before it.
def waiting (removed : Bool) : Ctx :=
  ⟨⟨fun i => if i = 1 then some ⟨0,{seq:=1},60⟩ else none,fun _ => 0,0,1,0,4,0,true,removed⟩,[],[],true⟩

theorem reorder_release_ends_waiting :
    LoopsEnd 50 (waiting false) ∧ ((phlReorderRelease 50 (waiting false)).reorderTimer = true ↔
      stored (phlReorderRelease 50 (waiting false)).r ≠ [] ∧ ((waiting false).r.removed = true → (waiting false).reorderTimer = true)) :=
  reorder_release_ends (by decide) (by decide) 50

theorem removed_stays_armed : ¬∀ (c : Ctx) (time : Nat), c.r.storedMpduNum = (stored c.r).length →
    0 < c.r.bufSize ∧ c.r.bufSize ≤ 256 → ((phlReorderRelease time c).reorderTimer = true ↔
      stored (phlReorderRelease time c).r ≠ [] ∧ (phlReorderRelease time c).r.removed = false) := by
  intro exact_
  have cleared := ((exact_ (waiting true) 50 (by decide) (by decide)).mp (by decide)).2
  exact absurd cleared (by decide)
end Rtl8852au.Reorder
