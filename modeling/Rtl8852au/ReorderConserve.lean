import Rtl8852au.ReorderDelivery
import Rtl8852au.ReorderRelease

namespace Rtl8852au.Reorder
open Machine Function List

structure Sized (r : TidAmpduRx) : Prop where
  size : 0 < r.bufSize ∧ r.bufSize ≤ 1024
  counted : r.storedMpduNum = (stored r).length

def packets : Option TidAmpduRx → List RxPkt
  | none => []
  | some r => stored r

section
variable (a : Nat)

def seen (pkts : List RxPkt) : Nat := pkts.countP (·.arrival = a)

theorem seen_append (one two : List RxPkt) : seen a (one ++ two) = seen a one + seen a two := countP_append

theorem seen_perm (same : one.Perm (pkt :: rest)) : seen a one = seen a [pkt] + seen a rest :=
  (same.countP_eq _).trans (seen_append a [pkt] rest)

def Ctx.load (c : Ctx) : Nat := seen a c.frames + seen a c.recycled + seen a (stored c.r)

def StaInfo.load (sta : StaInfo) : Nat := seen a sta.frames + seen a sta.recycled + ∑ tid, seen a (packets (sta.tidRx tid))

def Held (n : Nat) (c : Ctx) : Prop := Sized c.r ∧ c.load a = n

structure StaHeld (n : Nat) (sta : StaInfo) : Prop where
  sized : ∀ tid, ∀ r ∈ sta.tidRx tid, Sized r
  kept : sta.load a = n
end

section
variable {c : Ctx} (held : Held a n c)
include held

theorem Held.setHead (head : Nat) : Held a n (c.setHead head) := ⟨{held.1 with},held.2⟩

theorem Held.start : Held a n c.start := ⟨{held.1 with},held.2⟩

theorem Held.release (bounded : index < c.r.bufSize) : Held a n (phlReleaseReorderFrame c index) := by
  have same := release_same c index
  refine ⟨⟨by rw [same.bufSize]; exact held.1.size,release_counted bounded held.1.size.2 held.1.counted⟩,?_⟩
  cases full : c.r.reorderBuf index with
  | none =>
    rw [release_empty full]
    exact held.2
  | some pkt =>
    have load := held.2
    have cleared := seen_perm a (Slots.contents_clear bounded full)
    rw [release_full full]
    simp only [Ctx.load,stored,seen_append] at load cleared ⊢
    omega

theorem Held.releases (more : Ctx → Bool) (fuel : Nat) :
    Held a n (iterate more (fun c => phlReleaseReorderFrame c (reorderIndex c.r c.r.headSeqNum)) fuel c) :=
  iterate_keeps (Held a n) (fun _ held _ => held.release (reorderIndex_lt _ _ held.1.size.1)) held

theorem Held.releaseFrames (head : Nat) : Held a n (phlReleaseReorderFrames c head) := (held.releases _ seqModulo).setHead head

theorem Held.walk (walks : Walks c.r) (time : Nat) : Held a n (timeoutWalk c (headSlot c) time).c := by
  have size := held.1.size
  let inv (w : Walk) : Prop := Held a n w.c ∧ ∃ s, Walking c.r s w
  have kept : ∀ w, inv w → w.more (headSlot c) → inv (w.body (headSlot c) time) := by
    rintro w ⟨held,s,walk⟩ again
    refine ⟨?_,s+1,(walking_step size time walk again).2⟩
    obtain ⟨t,round⟩ := walk.some
    have inside : w.j < w.c.r.bufSize := by
      rw [round.same.bufSize,round.position]
      exact Nat.mod_lt _ size.1
    rcases walk_cases round size.1 time with ⟨_,stepped⟩ | ⟨_,stepped⟩ | ⟨_,stepped⟩
    · exact stepped ▸ held
    · exact stepped ▸ held
    · exact stepped ▸ (held.release inside).setHead _
  exact (iterate_keeps inv kept ⟨held,1,walking_start size held.1.counted walks⟩).1

theorem Held.reorderRelease (time : Nat) : Held a n (phlReorderRelease time c) := by
  obtain ⟨timer,equal⟩ := reorderRelease_eq time c
  rw [equal]
  unfold releaseBuffered
  split
  · rename_i walks
    exact held.walk walks time
  · exact held.releases _ _

theorem Held.bar (seq : Nat) : Held a n (rxBarLocked seq c) := by
  unfold rxBarLocked
  split
  · exact held
  · exact held.releaseFrames seq

theorem Held.put (pkt : RxPkt) : Held a (n + seen a [pkt]) {c with frames:=c.frames ++ [pkt]} := by
  have load := held.2
  simp only [Held,Ctx.load,seen_append] at load ⊢
  exact ⟨held.1,by omega⟩

theorem Held.recycle (pkt : RxPkt) : Held a (n + seen a [pkt]) (c.recycle pkt) := by
  have load := held.2
  simp only [Held,Ctx.load,Ctx.recycle,seen_append] at load ⊢
  exact ⟨held.1,by omega⟩

theorem Held.insert (empty : c.r.reorderBuf (reorderIndex c.r pkt.seq) = none) (time : Nat) :
    Held a (n + seen a [pkt]) {c with r:=inserted c.r time pkt} := by
  refine ⟨⟨held.1.size,inserted_counted held.1.size held.1.counted empty⟩,?_⟩
  have load := held.2
  have filled := seen_perm a (Slots.contents_fill (reorderIndex_lt c.r pkt.seq held.1.size.1) empty pkt)
  simp only [Ctx.load,stored,inserted] at load filled ⊢
  omega

theorem Held.rxReorder (pkt : RxPkt) : Held a (n + seen a [pkt]) (rxReorderLocked storeTime releaseTime pkt c) := by
  have room : Held a n (makeRoom c.start pkt.seq) := by
    unfold makeRoom
    split
    · exact held.start.releaseFrames _
    · exact held.start
  have arrival := rxReorder_arrival storeTime releaseTime pkt c
  generalize rxReorderLocked storeTime releaseTime pkt c = result at arrival ⊢
  cases arrival with
  | early => exact held.put pkt
  | old => exact held.start.recycle pkt
  | duplicate _ made => exact (made ▸ room).recycle pkt
  | direct _ made => exact ((made ▸ room).setHead _).put pkt
  | store _ made empty => exact ((made ▸ room).insert empty storeTime).reorderRelease releaseTime
end

section
variable {sta : StaInfo} (valid : StaHeld a n sta)
include valid

theorem StaHeld.moved {after : StaInfo} (tid : Fin 8) (session : after.tidRx = update sta.tidRx tid renewed)
    (sized : ∀ r ∈ renewed, Sized r)
    (moved : seen a after.frames + seen a after.recycled + seen a (packets renewed) =
      seen a sta.frames + seen a sta.recycled + seen a (packets (sta.tidRx tid)) + k) : StaHeld a (n+k) after := by
  have shares := Slots.sum_update sta.tidRx (fun session => seen a (packets session)) tid renewed
  have kept := valid.kept
  refine ⟨?_,?_⟩
  · rw [session,forall_update_iff _ fun _ session => ∀ r ∈ session, Sized r]
    exact ⟨sized,fun t _ => valid.sized t⟩
  · rw [StaInfo.load] at kept ⊢
    rw [session]
    omega

theorem StaHeld.grown {after : StaInfo} (session : after.tidRx = sta.tidRx)
    (more : seen a after.frames + seen a after.recycled = seen a sta.frames + seen a sta.recycled + k) : StaHeld a (n+k) after := by
  refine valid.moved 0 (session.trans (update_eq_self _ _).symm) (valid.sized 0) ?_
  omega

theorem StaHeld.onTid (op : Ctx → Ctx) (kept : ∀ n c, Held a n c → Held a (n+k) (op c)) (found : sta.tidRx tid = some r) :
    StaHeld a (n+k) (sta.onTid tid op) := by
  have held := kept _ ⟨r,sta.frames,sta.recycled,sta.reorderTimer⟩ ⟨valid.sized tid r found,rfl⟩
  simp only [StaInfo.onTid,found]
  refine valid.moved tid rfl (fun _ opened => ?_) (by rw [found]; exact held.2)
  cases opened
  exact held.1

theorem StaHeld.visit (op : Ctx → Ctx) (kept : ∀ n c, Held a n c → Held a n (op c)) (tid : Fin 8) :
    StaHeld a n (sta.onTid tid op) := by
  cases found : sta.tidRx tid with
  | none =>
    rw [StaInfo.onTid,found]
    exact valid
  | some r => exact valid.onTid (k := 0) op kept found

theorem StaHeld.replace (tid : Fin 8) (fresh : ∀ r ∈ renewed, Sized r ∧ stored r = []) : StaHeld a n (sta.replace tid renewed) := by
  refine valid.moved (k := 0) tid rfl (fun r opened => (fresh r opened).1) ?_
  have empty : packets renewed = [] := by
    cases renewed with
    | none => rfl
    | some r => exact (fresh r rfl).2
  have freed : (sta.replace tid renewed).recycled = sta.recycled ++ packets (sta.tidRx tid) := by
    unfold StaInfo.replace
    cases sta.tidRx tid with
    | none => exact (append_nil _).symm
    | some r => exact free_stored _ _
  rw [freed,empty,seen_append]
  exact (Nat.add_assoc ..).symm

theorem StaHeld.mpdu (pkt : RxPkt) :
    StaHeld a (n + seen a [pkt]) (phlRxReorder sta appendFcs found pkt storeTime releaseTime).2 := by
  obtain ⟨short,same,_,moved⟩ := phlRxReorder_cases sta pkt appendFcs found storeTime releaseTime
  have one : seen a [pkt] = seen a [short] := by simp only [seen,countP_cons,same]
  rw [one]
  rcases moved with put | dropped | ⟨tid,_,found,stored⟩
  · rw [put]
    refine valid.grown rfl ?_
    rw [seen_append,Nat.add_right_comm]
  · rw [dropped]
    refine valid.grown rfl ?_
    rw [seen_append,Nat.add_assoc]
  · rw [stored]
    obtain ⟨r,found⟩ := Option.isSome_iff_exists.mp found
    exact valid.onTid _ (fun _ _ held => held.rxReorder short) found
end

def StaEvent.handed : StaEvent → List RxPkt
  | .mpdu _ _ pkt _ _ => [pkt]
  | _ => []

theorem StaHeld.step (valid : StaHeld a n sta) (event : StaEvent) : StaHeld a (n + seen a event.handed) (staStep sta event) := by
  cases event with
  | mpdu appendFcs found pkt storeTime releaseTime => exact valid.mpdu pkt
  | delba tid =>
    show StaHeld a n (rtwPhlStopRxBaSession sta tid)
    unfold rtwPhlStopRxBaSession
    split
    · exact valid.replace _ nofun
    · exact valid
  | bar tid seq => exact valid.visit _ (fun _ _ held => held.bar seq) tid
  | timer clock =>
    exact foldlRecOn _ _ valid fun _ valid tid _ => valid.visit _ (fun _ _ held => held.reorderRelease (clock tid)) tid
  | disconnect => exact foldlRecOn _ _ ⟨valid.sized,valid.kept⟩ fun _ valid tid _ => valid.replace tid nofun
  | addba ssn baPolicy tid size alloc =>
    show StaHeld a n (rtwPhlStartRxBaSession sta ssn baPolicy tid size alloc).2
    unfold rtwPhlStartRxBaSession
    dsimp only
    split
    · exact valid
    · split
      · exact valid
      · split
        · refine valid.replace _ fun r opened => ?_
          cases opened
          have window : Window (phlTidAmpduRxAlloc ssn tid (if size.val = 0 then phlMaxAggWsize else size)) := by
            refine alloc_window ssn.isLt ?_
            split
            · decide
            · omega
          exact ⟨⟨window.size,window.counted⟩,length_eq_zero_iff.mp window.counted.symm⟩
        · exact valid

theorem packets_conserved (events : List StaEvent) :
    let sta := run staStep .init events
    (∀ a, seen a sta.frames + seen a sta.recycled + ∑ tid, seen a (packets (sta.tidRx tid)) =
      seen a (events.flatMap StaEvent.handed)) ∧
    ∀ tid, ∀ r ∈ sta.tidRx tid, r.storedMpduNum = (stored r).length := by
  have later : ∀ a, StaHeld a (seen a (events.flatMap StaEvent.handed)) (run staStep .init events) := by
    intro a
    have all : ∀ n sta, StaHeld a n sta → StaHeld a (n + seen a (events.flatMap StaEvent.handed)) (run staStep sta events) := by
      induction events with
      | nil => exact fun _ _ valid => valid
      | cons event rest ih =>
        intro n sta valid
        rw [flatMap_cons,seen_append,← Nat.add_assoc]
        exact ih _ _ (valid.step event)
    have start : StaHeld a 0 .init := ⟨nofun,rfl⟩
    exact Nat.zero_add (seen a _) ▸ all 0 .init start
  exact ⟨fun a => (later a).kept,fun tid r found => ((later 0).sized tid r found).counted⟩
end Rtl8852au.Reorder
