import Rtl8852au.ReorderWindow

namespace Rtl8852au.Reorder
open Machine Nat Bool Option

structure Moves (c c' : Ctx) (distance : Nat) (fresh out gone : List RxPkt) : Prop where
  frames : c'.frames = c.frames ++ out
  recycled : c'.recycled = c.recycled ++ gone
  head : c'.r.headSeqNum = (c.r.headSeqNum+distance) % 4096
  increasing : (out.map fun p => seqSub p.seq c.r.headSeqNum).Pairwise (· < ·)
  passed : ∀ p ∈ out, seqSub p.seq c.r.headSeqNum < distance
  kept : (fresh ++ stored c.r).Perm (out ++ gone ++ stored c'.r)

theorem Moves.refl (low : c.r.headSeqNum < 4096) : Moves c c 0 [] [] [] :=
  ⟨by simp,by simp,by simp [mod_eq_of_lt low],by simp,by simp,by simp⟩

theorem seqSub_shift (near : seqSub seq ((head+distance) % 4096) + distance < 4096) :
    seqSub seq head = distance + seqSub seq ((head+distance) % 4096) := by
  unfold seqSub at *
  omega

theorem Moves.trans (one : Moves a b d fresh out gone) (two : Moves b c d' fresh' out' gone') (short : d+d' ≤ 4096) :
    Moves a c (d+d') (fresh ++ fresh') (out ++ out') (gone ++ gone') := by
  have later : ∀ p ∈ out', seqSub p.seq a.r.headSeqNum = d + seqSub p.seq b.r.headSeqNum := by
    intro p member
    have passed := two.passed p member
    rw [one.head] at passed ⊢
    exact seqSub_shift (by omega)
  refine ⟨?_,?_,?_,?_,?_,?_⟩
  · rw [two.frames,one.frames,List.append_assoc]
  · rw [two.recycled,one.recycled,List.append_assoc]
  · rw [two.head,one.head]; omega
  · rw [List.map_append,List.pairwise_append]
    refine ⟨one.increasing,?_,?_⟩
    · have increasing := two.increasing
      rw [List.pairwise_map] at increasing ⊢
      refine increasing.imp_of_mem ?_
      intro p q pMember qMember less
      rw [later p pMember,later q qMember]
      omega
    · intro x left y right
      obtain ⟨p,pMember,rfl⟩ := List.mem_map.mp left
      obtain ⟨q,qMember,rfl⟩ := List.mem_map.mp right
      have passed := one.passed p pMember
      have beyond := later q qMember
      omega
  · intro p member
    rcases List.mem_append.mp member with left | right
    · have passed := one.passed p left; omega
    · have passed := two.passed p right
      have beyond := later p right
      omega
  · have first := one.kept
    have second := two.kept
    rw [List.perm_iff_count] at *
    intro p
    have firstCount := first p
    have secondCount := second p
    simp only [List.count_append] at *
    omega

section
variable (moves : Moves c d distance fresh out gone)
include moves

theorem Moves.pass (farther : Nat) (further : distance ≤ farther) :
    Moves c (d.setHead ((c.r.headSeqNum+farther) % 4096)) farther fresh out gone :=
  {moves with head:=rfl,passed:=fun p member => lt_of_lt_of_le (moves.passed p member) further}

theorem Moves.take (bounded : j < d.r.bufSize)
    (held : d.r.reorderBuf j = some p) (further : distance ≤ seqSub p.seq c.r.headSeqNum) :
    Moves c ((phlReleaseReorderFrame d j).setHead ((c.r.headSeqNum + (seqSub p.seq c.r.headSeqNum + 1)) % 4096))
      (seqSub p.seq c.r.headSeqNum + 1) fresh (out ++ [p]) gone := by
  rw [release_full held]
  refine ⟨?_,moves.recycled,rfl,?_,?_,?_⟩
  · simp [moves.frames]
  · rw [List.map_append,List.pairwise_append]
    refine ⟨moves.increasing,by simp,?_⟩
    intro x left y right
    obtain ⟨q,qMember,rfl⟩ := List.mem_map.mp left
    have passed := moves.passed q qMember
    simp only [List.map_cons,List.map_nil,List.mem_singleton] at right
    omega
  · intro q member
    rcases List.mem_append.mp member with left | right
    · have passed := moves.passed q left; omega
    · cases List.mem_singleton.mp right; omega
  · have before := moves.kept
    have cleared := Slots.contents_clear bounded held
    rw [List.perm_iff_count] at *
    intro q
    have beforeCount := before q
    have clearedCount := cleared q
    simp only [stored,setHead_r,List.count_append,List.count_cons,List.count_nil] at *
    omega

theorem Moves.timer (armed : Bool) :
    Moves c {d with reorderTimer:=armed} distance fresh out gone :=
  {moves with}
end

theorem Moves.of_start (moves : Moves c.start d distance fresh out gone) : Moves c d distance fresh out gone := {moves with}

theorem placed_offset {p : RxPkt} (straight : Straight r r.headSeqNum) (positive : 0 < r.bufSize)
    (inside : seqSub p.seq r.headSeqNum < r.bufSize) (slot : i = reorderIndex r p.seq) (short : t < r.bufSize)
    (here : i = (reorderIndex r r.headSeqNum + t) % r.bufSize) : seqSub p.seq r.headSeqNum = t := by
  have index := straight_index straight inside
  rw [seq_of_seqSub p.seq_lt,← slot,here] at index
  exact Slots.ring_injective (reorderIndex_lt r _ positive) inside short index.symm

theorem head_slot (valid : Window r) (divides : r.bufSize ∣ 4096)
    (held : r.reorderBuf (reorderIndex r r.headSeqNum) = some p) : p.seq = r.headSeqNum := by
  have bounded := reorderIndex_lt r r.headSeqNum valid.size.1
  obtain ⟨inside,slot⟩ := valid.placed _ bounded p held
  have zero := placed_offset (.inl divides) valid.size.1 inside slot valid.size.1
    (by rw [Nat.add_zero,Nat.mod_eq_of_lt bounded])
  exact ((seqSub_eq_zero valid.head p.seq_lt).mp zero).symm

theorem release_moves (valid : Window d.r) (divides : d.r.bufSize ∣ 4096) (moves : Moves c d distance [] out [])
    (short : distance < 4096) :
    Moves c (phlReleaseReorderFrame d (reorderIndex d.r d.r.headSeqNum)) (distance+1) []
      (out ++ (d.r.reorderBuf (reorderIndex d.r d.r.headSeqNum)).toList) [] := by
  have bounded := reorderIndex_lt d.r d.r.headSeqNum valid.size.1
  have next : seqInc d.r.headSeqNum = (c.r.headSeqNum + (distance+1)) % 4096 := by rw [moves.head,seqInc,seqModulo]; omega
  cases held : d.r.reorderBuf (reorderIndex d.r d.r.headSeqNum) with
  | none =>
    rw [release_empty held,next,toList_none,List.append_nil]
    exact moves.pass _ (by omega)
  | some p =>
    have here : seqSub p.seq c.r.headSeqNum = distance := by
      rw [head_slot valid divides held,moves.head]
      unfold seqSub
      omega
    have taken := moves.take bounded held (by omega)
    rw [here,release_full held,← next] at taken
    rw [release_full held]
    exact taken

section
variable {c : Ctx} (valid : Window c.r) (divides : c.r.bufSize ∣ 4096)
include valid divides

theorem releaseFrames_moves (low : head < 4096) :
    ∃ out, Moves c (phlReleaseReorderFrames c head) (seqSub head c.r.headSeqNum) [] out [] := by
  let inv (d : Ctx) : Prop := Window d.r ∧ Same c.r d.r ∧ ∃ distance out, Moves c d distance [] out [] ∧
    distance + seqSub head d.r.headSeqNum = seqSub head c.r.headSeqNum
  have bounded : seqSub head c.r.headSeqNum < 4096 := by unfold seqSub; omega
  have kept : ∀ d, inv d → (seqLess d.r.headSeqNum head && d.r.storedMpduNum != 0) →
      inv (phlReleaseReorderFrame d (reorderIndex d.r d.r.headSeqNum)) := by
    rintro d ⟨window,same,distance,out,moves,together⟩ again
    rw [and_eq_true,seqLess_iff] at again
    have step := seqSub_seqInc again.1.1
    refine ⟨release_head_window window,same.trans (release_same _ _),distance+1,_,
      release_moves window (same.bufSize ▸ divides) moves (by omega),?_⟩
    rw [release_head]
    omega
  have start : inv c := ⟨valid,Same.refl _,0,[],Moves.refl valid.head,by simp⟩
  have final : inv (iterate _ _ seqModulo c) := iterate_keeps inv kept start
  obtain ⟨window,same,distance,out,moves,together⟩ := final
  refine ⟨out,?_⟩
  have passed := moves.pass (seqSub head c.r.headSeqNum) (by omega)
  rwa [seq_of_seqSub low] at passed

theorem releaseReady_moves :
    ∃ out, Moves c (releaseReady c) out.length [] out [] := by
  let inv (d : Ctx) : Prop := Window d.r ∧ Same c.r d.r ∧ ∃ out, Moves c d out.length [] out []
  have kept : ∀ d, inv d → (d.r.reorderBuf (reorderIndex d.r d.r.headSeqNum)).isSome →
      inv (phlReleaseReorderFrame d (reorderIndex d.r d.r.headSeqNum)) := by
    rintro d ⟨window,same,out,moves⟩ again
    obtain ⟨p,held⟩ := isSome_iff_exists.mp again
    have limit : (stored c.r).length ≤ c.r.bufSize := Slots.contents_length_le _ _
    have balance := moves.kept.length_eq
    have small := valid.size.2
    simp only [List.nil_append,List.append_nil,List.length_append] at balance
    have released := release_moves window (same.bufSize ▸ divides) moves (by omega)
    rw [held] at released
    refine ⟨release_head_window window,same.trans (release_same _ _),out ++ [p],?_⟩
    rw [List.length_append]
    exact released
  have start : inv c := ⟨valid,Same.refl _,[],Moves.refl valid.head⟩
  have final : inv (releaseReady c) := iterate_keeps inv kept start
  exact final.2.2

theorem walk_moves
    (empty : c.r.reorderBuf (reorderIndex c.r c.r.headSeqNum) = none) (time : Nat) :
    ∃ t out, WalkInv c.r (timeoutWalk c (reorderIndex c.r c.r.headSeqNum) time) t ∧
      Moves c (timeoutWalk c (reorderIndex c.r c.r.headSeqNum) time).c
        (t - (timeoutWalk c (reorderIndex c.r c.r.headSeqNum) time).skipped) [] out [] := by
  let inv (w : Walk) : Prop := ∃ t out, WalkInv c.r w t ∧ Moves c w.c (t-w.skipped) [] out []
  have kept : ∀ w, inv w → w.more (reorderIndex c.r c.r.headSeqNum) →
      inv (w.body (reorderIndex c.r c.r.headSeqNum) time) := by
    rintro w ⟨t,out,walk,moves⟩ again
    have short := walk_short valid.size.1 walk.round again
    rcases walk_cases walk.round valid.size.1 time with ⟨here,stepped⟩ | ⟨_,stepped⟩ | ⟨full,stepped⟩
    · rw [stepped]
      refine ⟨t+1,out,walk_skip walk short here,?_⟩
      rwa [Nat.add_sub_add_right]
    · rw [stepped]
      exact ⟨t,out,walk_stop walk,moves⟩
    · rw [stepped]
      obtain ⟨p,held⟩ := isSome_iff_exists.mp full
      have bounded : w.j < c.r.bufSize := by rw [walk.position]; exact mod_lt _ valid.size.1
      obtain ⟨inside,slot⟩ := walk.placed _ bounded p held
      have here := placed_offset (.inl divides) valid.size.1 inside slot short walk.position
      have taken := moves.take (walk.same.bufSize ▸ bounded) held (by omega)
      have head : (seqInc w.c.r.headSeqNum + w.skipped) % 4096 = (c.r.headSeqNum + (t+1)) % 4096 := by
        have behind := walk.behind
        rw [walk.head,seqInc,seqModulo]
        omega
      rw [here,← head] at taken
      exact ⟨t+1,out ++ [p],walk_release valid.size walk short,taken⟩
  have start : inv ⟨c,(reorderIndex c.r c.r.headSeqNum + 1) % c.r.bufSize,1,false⟩ :=
    ⟨1,[],walk_start valid empty,Moves.refl valid.head⟩
  exact iterate_keeps inv kept start

theorem reorderRelease_moves (time : Nat) :
    Same c.r (phlReorderRelease time c).r ∧
    ∃ distance out, distance ≤ c.r.bufSize ∧ Moves c (phlReorderRelease time c) distance [] out [] := by
  obtain ⟨timer,equal⟩ := reorderRelease_eq time c
  rw [equal]
  unfold releaseBuffered
  split
  · rename_i entered
    obtain ⟨t,out,walk,moves⟩ := walk_moves valid divides (isNone_iff_eq_none.mp entered.1) time
    have range := walk.range
    exact ⟨walk.same,_,out,by omega,moves.timer timer⟩
  · obtain ⟨out,moves⟩ := releaseReady_moves valid divides
    have limit : (stored c.r).length ≤ c.r.bufSize := Slots.contents_length_le _ _
    have balance := moves.kept.length_eq
    simp only [List.nil_append,List.append_nil,List.length_append] at balance
    exact ⟨iterateRelease_same c _ _,_,out,by omega,moves.timer timer⟩

theorem makeRoom_moves (low : seq < 4096)
    (ahead : seqLess seq c.r.headSeqNum = false) :
    ∃ distance out, distance + c.r.bufSize ≤ 2049 ∧ Moves c (makeRoom c seq) distance [] out [] := by
  obtain ⟨inside,bound,near⟩ := roomHead_spec valid low ahead
  unfold makeRoom
  split
  · rename_i beyond
    rw [roomHead,if_pos beyond] at bound near
    obtain ⟨out,moves⟩ := releaseFrames_moves valid divides bound
    exact ⟨_,out,near,moves⟩
  · have small := valid.size.2
    exact ⟨0,[],by omega,Moves.refl valid.head⟩
end

theorem recycle_moves (low : c.r.headSeqNum < 4096) (pkt : RxPkt) : Moves c (c.recycle pkt) 0 [pkt] [] [pkt] :=
  ⟨by simp [Ctx.recycle],rfl,(mod_eq_of_lt low).symm,by simp,by simp,by simp⟩

theorem direct_moves (first : pkt.seq = c.r.headSeqNum) :
    Moves c {c.setHead (seqInc c.r.headSeqNum) with frames:=c.frames ++ [pkt]} 1 [pkt] [pkt] [] := by
  have zero : seqSub pkt.seq c.r.headSeqNum = 0 := by simp [seqSub,first]
  exact ⟨rfl,by simp,rfl,by simp,by simp [zero],by simp⟩

theorem inserted_moves (valid : Window c.r) (empty : c.r.reorderBuf (reorderIndex c.r pkt.seq) = none)
    (storeTime : Nat) : Moves c {c with r:=inserted c.r storeTime pkt} 0 [pkt] [] [] := by
  refine ⟨by simp,by simp,(mod_eq_of_lt valid.head).symm,by simp,by simp,?_⟩
  exact (Slots.contents_fill (reorderIndex_lt c.r pkt.seq valid.size.1) empty pkt).symm

theorem rxReorder_moves (valid : Window c.r) (divides : c.r.bufSize ∣ 4096)
    (late : c.r.started ∨ seqLess pkt.seq c.r.headSeqNum = false) :
    Same c.start.r (rxReorderLocked storeTime releaseTime pkt c).r ∧
    ∃ distance out gone, distance < 4096 ∧
      Moves c (rxReorderLocked storeTime releaseTime pkt c) distance [pkt] out gone := by
  have arrival := rxReorder_arrival storeTime releaseTime pkt c
  generalize rxReorderLocked storeTime releaseTime pkt c = result at arrival ⊢
  have roomy : ∀ d, seqLess pkt.seq c.r.headSeqNum = false → makeRoom c.start pkt.seq = d →
      Same c.start.r d.r ∧ (Window d.r ∧ seqSub pkt.seq d.r.headSeqNum < d.r.bufSize) ∧
      ∃ distance out, distance + c.r.bufSize ≤ 2049 ∧ Moves c d distance [] out [] := by
    rintro d ahead rfl
    obtain ⟨distance,out,near,moves⟩ := makeRoom_moves (start_window valid) divides pkt.seq_lt ahead
    exact ⟨makeRoom_same _ _,makeRoom_window (start_window valid) pkt.seq_lt ahead,distance,out,near,moves.of_start⟩
  cases arrival with
  | early idle old =>
    rcases late with running | ahead
    · rw [idle] at running; cases running
    · rw [old] at ahead; cases ahead
  | old running old => exact ⟨Same.refl _,0,[],[pkt],by decide,(recycle_moves (start_window valid).head pkt).of_start⟩
  | duplicate ahead room held =>
    obtain ⟨same,⟨window,_⟩,distance,out,near,moves⟩ := roomy _ ahead room
    exact ⟨same,_,_,_,by omega,moves.trans (recycle_moves window.head pkt) (by omega)⟩
  | direct ahead room first nothing =>
    obtain ⟨same,_,distance,out,near,moves⟩ := roomy _ ahead room
    have size := valid.size
    exact ⟨same.setHead _,_,_,_,by omega,moves.trans (direct_moves first) (by omega)⟩
  | @store d ahead room empty notDirect =>
    obtain ⟨same,⟨window,inside⟩,distance,out,near,moves⟩ := roomy _ ahead room
    have several := stored_several window inside notDirect
    have size : d.r.bufSize = c.r.bufSize := same.bufSize
    obtain ⟨kept,farther,out',short,released⟩ := reorderRelease_moves
      (c := {d with r:=inserted d.r storeTime pkt}) (inserted_window window empty inside several)
      (size ▸ divides) releaseTime
    have bound : farther ≤ c.r.bufSize := size ▸ short
    refine ⟨same.trans {kept with},_,_,_,?_,
      (moves.trans (inserted_moves window empty storeTime) (by omega)).trans released (by omega)⟩
    omega

-- One session on its own. `head` is the head without the wrap, and every packet
-- put out after the start is recorded with its number without the wrap.
-- `early` are the packets passed through before the session starts.
structure Delivery where
  c : Ctx
  handed : List RxPkt
  head : Nat
  early : List RxPkt
  delivered : List (Nat × RxPkt)

inductive SessionEvent where
  | mpdu (mdata : RMetaData) (length storeTime releaseTime : Nat)
  | bar (seq : Fin 4096)
  | timer (time : Nat)

def Delivery.fresh (s : Delivery) : SessionEvent → List RxPkt
  | .mpdu mdata length _ _ => [⟨s.handed.length,mdata,length⟩]
  | .bar _ | .timer _ => []

def Delivery.act (s : Delivery) : SessionEvent → Ctx
  | .mpdu mdata length storeTime releaseTime => rxReorderLocked storeTime releaseTime ⟨s.handed.length,mdata,length⟩ s.c
  | .bar seq => rxBarLocked seq s.c
  | .timer time => phlReorderRelease time s.c

def Delivery.step (s : Delivery) (event : SessionEvent) : Delivery :=
  let c := s.act event
  let out := c.frames.drop s.c.frames.length
  ⟨c,s.handed ++ s.fresh event,s.head + seqSub c.r.headSeqNum s.c.r.headSeqNum,
    if c.r.started then s.early else s.early ++ out,
    if c.r.started then s.delivered ++ out.map (fun p => (s.head + seqSub p.seq s.c.r.headSeqNum,p))
    else s.delivered⟩

def Delivery.init (ssn : Fin 4096) (tid bufSize : Nat) : Delivery :=
  ⟨⟨phlTidAmpduRxAlloc ssn tid bufSize,[],[],false⟩,[],ssn,[],[]⟩

-- A BlockAckReq is within 2047 of the head, on either side.
def Near (s : Delivery) : SessionEvent → Prop
  | .bar seq => seqSub seq s.c.r.headSeqNum ≠ 2048
  | .mpdu .. | .timer _ => True

structure InOrder (s : Delivery) : Prop where
  frames : s.c.frames = s.early ++ s.delivered.map Prod.snd
  increasing : (s.delivered.map Prod.fst).Pairwise (· < ·)
  number : ∀ q ∈ s.delivered, q.1 % 4096 = q.2.seq
  behind : ∀ q ∈ s.delivered, q.1 < s.head
  head : s.head % 4096 = s.c.r.headSeqNum

structure Accounted (s : Delivery) : Prop where
  kept : s.handed.Perm (s.c.frames ++ s.c.recycled ++ stored s.c.r)
  once : (s.c.frames ++ s.c.recycled ++ stored s.c.r).Nodup

structure DeliveryInv (s : Delivery) : Prop where
  window : Window s.c.r
  divides : s.c.r.bufSize ∣ 4096
  order : InOrder s
  idle : s.c.r.started = false → s.delivered = []
  named : ∀ p ∈ s.handed, p.arrival < s.handed.length
  different : s.handed.Nodup
  kept : s.handed.Perm (s.c.frames ++ s.c.recycled ++ stored s.c.r)

variable {s : Delivery}

theorem seqSub_forward (short : distance < 4096) :
    seqSub ((head+distance) % 4096) head = distance := by
  unfold seqSub
  omega

theorem tagged_number {p : RxPkt} (same : unwrapped % 4096 = head) :
    (unwrapped + seqSub p.seq head) % 4096 = p.seq := by
  have forward : (head + seqSub p.seq head) % 4096 = p.seq := seq_of_seqSub p.seq_lt
  rw [← mod_add_mod,same]
  exact forward

theorem moved_order (valid : DeliveryInv s) (moves : Moves s.c (s.act event) distance fresh out gone)
    (short : distance < 4096) (running : s.c.r.started → (s.act event).r.started) :
    InOrder (s.step event) := by
  have order := valid.order
  have fresh : (s.act event).frames.drop s.c.frames.length = out := by rw [moves.frames,List.drop_left]
  have advance : seqSub (s.act event).r.headSeqNum s.c.r.headSeqNum = distance := by rw [moves.head,seqSub_forward short]
  have head : (s.head+distance) % 4096 = (s.act event).r.headSeqNum := by rw [moves.head,← order.head,mod_add_mod]
  cases started : (s.act event).r.started with
  | false =>
    -- a session that is not running now was not running before
    have nothing : s.delivered = [] := by
      cases before : s.c.r.started with
      | false => exact valid.idle before
      | true => rw [running before] at started; cases started
    have frames := order.frames
    simp only [nothing,List.map_nil,List.append_nil] at frames
    simp only [Delivery.step,started,fresh,advance,false_eq_true,if_false]
    exact ⟨by simp [nothing,moves.frames,frames],by simp [nothing],by simp [nothing],by simp [nothing],head⟩
  | true =>
    simp only [Delivery.step,started,fresh,advance,if_true]
    refine ⟨?_,?_,?_,?_,head⟩
    · simp [moves.frames,order.frames,Function.comp_def]
    · rw [List.map_append,List.pairwise_append,List.map_map]
      refine ⟨order.increasing,?_,?_⟩
      · have increasing := moves.increasing
        rw [List.pairwise_map] at increasing ⊢
        exact increasing.imp (fun less => Nat.add_lt_add_left less _)
      · intro x left y right
        obtain ⟨q,qMember,rfl⟩ := List.mem_map.mp left
        obtain ⟨p,pMember,rfl⟩ := List.mem_map.mp right
        exact lt_of_lt_of_le (order.behind q qMember) (le_add_right _ _)
    · intro q member
      rcases List.mem_append.mp member with before | now
      · exact order.number q before
      · obtain ⟨p,pMember,rfl⟩ := List.mem_map.mp now
        exact tagged_number order.head
    · intro q member
      rcases List.mem_append.mp member with before | now
      · exact lt_of_lt_of_le (order.behind q before) (le_add_right _ _)
      · obtain ⟨p,pMember,rfl⟩ := List.mem_map.mp now
        exact Nat.add_lt_add_left (moves.passed p pMember) _

theorem moved_kept (kept : s.handed.Perm (s.c.frames ++ s.c.recycled ++ stored s.c.r))
    (moves : Moves s.c (s.act event) distance (s.fresh event) out gone) :
    (s.step event).handed.Perm ((s.step event).c.frames ++ (s.step event).c.recycled ++ stored (s.step event).c.r) := by
  have change := moves.kept
  simp only [Delivery.step,moves.frames,moves.recycled]
  rw [List.perm_iff_count] at *
  intro p
  have before := kept p
  have during := change p
  simp only [List.count_append] at *
  omega

theorem step_handed (named : ∀ p ∈ s.handed, p.arrival < s.handed.length) (different : s.handed.Nodup)
    (event : SessionEvent) :
    (∀ p ∈ (s.step event).handed, p.arrival < (s.step event).handed.length) ∧ (s.step event).handed.Nodup := by
  cases event with
  | mpdu mdata length storeTime releaseTime =>
    simp only [Delivery.step,Delivery.fresh,List.length_append,List.length_singleton]
    refine ⟨?_,List.nodup_append.mpr ⟨different,by simp,?_⟩⟩
    · intro p member
      rcases List.mem_append.mp member with before | now
      · exact lt_succ_of_lt (named p before)
      · cases List.mem_singleton.mp now; exact lt_succ_self _
    · rintro p before q now rfl
      have earlier := named p before
      cases List.mem_singleton.mp now
      exact lt_irrefl _ earlier
  | bar seq => simpa [Delivery.step,Delivery.fresh] using ⟨named,different⟩
  | timer time => simpa [Delivery.step,Delivery.fresh] using ⟨named,different⟩

theorem moved_inv (valid : DeliveryInv s) (window : Window (s.act event).r)
    (moves : Moves s.c (s.act event) distance (s.fresh event) out gone) (short : distance < 4096)
    (size : (s.act event).r.bufSize = s.c.r.bufSize)
    (running : s.c.r.started → (s.act event).r.started) : DeliveryInv (s.step event) := by
  obtain ⟨named,different⟩ := step_handed valid.named valid.different event
  have divides : (s.act event).r.bufSize ∣ 4096 := size ▸ valid.divides
  refine ⟨window,divides,moved_order valid moves short running,?_,named,different,moved_kept valid.kept moves⟩
  intro stopped
  have before : s.c.r.started = false := by
    cases was : s.c.r.started with
    | false => rfl
    | true => exact (running was).symm.trans stopped
  have still : (s.act event).r.started = false := stopped
  simp only [Delivery.step,still,false_eq_true,if_false]
  exact valid.idle before

theorem early_inv (valid : DeliveryInv s) (idle : s.c.r.started = false)
    (old : seqLess (RxPkt.seq ⟨s.handed.length,mdata,length⟩) s.c.r.headSeqNum) :
    DeliveryInv (s.step (.mpdu mdata length storeTime releaseTime)) := by
  obtain ⟨named,different⟩ := step_handed valid.named valid.different (.mpdu mdata length storeTime releaseTime)
  have passed : s.act (.mpdu mdata length storeTime releaseTime) =
      {s.c with frames:=s.c.frames ++ [⟨s.handed.length,mdata,length⟩]} := by
    simp only [Delivery.act,rxReorderLocked,phlManageStaReorderBuf,idle,old,Bool.not_false,Bool.and_self,if_true]
  have nothing := valid.idle idle
  have frames := valid.order.frames
  simp only [nothing,List.map_nil,List.append_nil] at frames
  refine ⟨?_,?_,?_,?_,named,different,?_⟩
  · simp only [Delivery.step,passed]; exact valid.window
  · simp only [Delivery.step,passed]; exact valid.divides
  · have still : seqSub s.c.r.headSeqNum s.c.r.headSeqNum = 0 := by simp [seqSub]
    simp only [Delivery.step,passed,idle,still,nothing,List.drop_left,false_eq_true,if_false]
    exact ⟨by simp [frames],by simp,by simp,by simp,valid.order.head⟩
  · intro _
    simp only [Delivery.step,passed,idle,false_eq_true,if_false]
    exact nothing
  · have kept := valid.kept
    simp only [Delivery.step,Delivery.fresh,passed]
    rw [List.perm_iff_count] at *
    intro p
    have before := kept p
    simp only [List.count_append] at *
    omega

theorem step_inv (valid : DeliveryInv s) (near : Near s event) : DeliveryInv (s.step event) := by
  have straight : ∀ head, Straight s.c.r head := fun _ => .inl valid.divides
  cases event with
  | mpdu mdata length storeTime releaseTime =>
    by_cases early : s.c.r.started = false ∧
        seqLess (RxPkt.seq ⟨s.handed.length,mdata,length⟩) s.c.r.headSeqNum
    · exact early_inv valid early.1 early.2
    · have late : s.c.r.started ∨
          seqLess (RxPkt.seq ⟨s.handed.length,mdata,length⟩) s.c.r.headSeqNum = false := by
        rwa [not_and_or,not_eq_false,not_eq_true] at early
      obtain ⟨same,distance,out,gone,short,moves⟩ := rxReorder_moves valid.window valid.divides late
      exact moved_inv valid (rxReorder_window valid.window (fun _ => straight _)) moves short same.bufSize
        (fun _ => same.started)
  | bar seq =>
    have window : Window (rxBarLocked seq s.c).r := rxBar_window valid.window seq.isLt (fun half => absurd half near)
    cases behind : seqLess seq s.c.r.headSeqNum with
    | true =>
      have ignored : s.act (.bar seq) = s.c := by simp only [Delivery.act,rxBarLocked,behind,if_true]
      have moves : Moves s.c (s.act (.bar seq)) 0 [] [] [] := by rw [ignored]; exact Moves.refl valid.window.head
      exact moved_inv valid window moves (by decide) (by rw [ignored]) (by rw [ignored]; exact id)
    | false =>
      obtain ⟨out,moves⟩ := releaseFrames_moves valid.window valid.divides seq.isLt
      have same := releaseFrames_same s.c seq
      have released : s.act (.bar seq) = phlReleaseReorderFrames s.c seq := by
        simp only [Delivery.act,rxBarLocked,behind,false_eq_true,if_false]
      have bounded : seqSub seq s.c.r.headSeqNum < 4096 := by unfold seqSub; omega
      exact moved_inv valid window (released ▸ moves) bounded (by rw [released]; exact same.bufSize)
        (by rw [released]; exact same.started.trans)
  | timer time =>
    obtain ⟨same,distance,out,short,moves⟩ := reorderRelease_moves valid.window valid.divides time
    have small := valid.window.size.2
    exact moved_inv valid (reorderRelease_window valid.window (fun _ => straight _)) moves (by omega) same.bufSize
      same.started.trans

theorem init_inv (ssn : Fin 4096) (size : 0 < bufSize ∧ bufSize ≤ 1024) (divides : bufSize ∣ 4096) :
    DeliveryInv (.init ssn tid bufSize) := by
  have nothing : stored (phlTidAmpduRxAlloc ssn tid bufSize) = [] := by simp [phlTidAmpduRxAlloc,stored,Slots.contents]
  refine ⟨alloc_window ssn.isLt size,divides,?_,fun _ => rfl,?_,?_,?_⟩
  · exact ⟨rfl,.nil,by simp [Delivery.init],by simp [Delivery.init],mod_eq_of_lt ssn.isLt⟩
  · simp [Delivery.init]
  · simp [Delivery.init]
  · simp [Delivery.init,nothing]

theorem free_stored (recycled : List RxPkt) (r : TidAmpduRx) : phlTidAmpduRxFree recycled r = recycled ++ stored r := by
  rw [stored,← Slots.contents_foldl,phlTidAmpduRxFree]
  congr 1
  funext found i
  cases r.reorderBuf i with
  | none => rfl
  | some pkt => rfl

-- The size field of an ADDBA request has ten bits, and the driver passes on at
-- most eight of them.
theorem delivery_in_order (ssn : Fin 4096) (tid : Nat) (size : 0 < bufSize ∧ bufSize ≤ 1024)
    (divides : bufSize ∣ 4096) (path : Reached Delivery.step Near (.init ssn tid bufSize) s) :
    InOrder s ∧ Accounted s ∧ phlTidAmpduRxFree s.c.recycled s.c.r = s.c.recycled ++ stored s.c.r := by
  have valid : DeliveryInv s :=
    path.invariant DeliveryInv (init_inv ssn size divides) (fun _ _ valid near => step_inv valid near)
  exact ⟨valid.order,⟨valid.kept,valid.kept.nodup_iff.mp valid.different⟩,free_stored _ _⟩

instance (s : Delivery) : (event : SessionEvent) → Decidable (Near s event)
  | .bar seq => inferInstanceAs (Decidable (seqSub seq s.c.r.headSeqNum ≠ 2048))
  | .mpdu .. | .timer _ => isTrue trivial

def mixed : List SessionEvent :=
  [.mpdu {seq:=4000} 60 0 0,.mpdu {seq:=4095} 60 1 1,.mpdu {seq:=4094} 60 2 2,.mpdu {seq:=4094} 60 3 3,
    .mpdu {seq:=40} 60 4 4,.timer 300,.bar 50,.mpdu {seq:=52} 60 301 301]

theorem delivery_in_order_mixed :
    Admitted Delivery.step Near (.init 4094 0 8) mixed ∧
    ((run Delivery.step (.init 4094 0 8) mixed).delivered.map fun q => (q.1,q.2.seq)) =
      [(4094,4094),(4095,4095),(4136,40)] ∧
    InOrder (run Delivery.step (.init 4094 0 8) mixed) ∧ Accounted (run Delivery.step (.init 4094 0 8) mixed) := by
  have admitted : Admitted Delivery.step Near (.init 4094 0 8) mixed := by decide +kernel
  have facts := delivery_in_order 4094 0 (by decide) (by decide) (Reached.start.run admitted)
  exact ⟨admitted,by decide +kernel,facts.1,facts.2.1⟩
end Rtl8852au.Reorder
