import Rtl8852au.ReorderDelivery

namespace Rtl8852au.RxBa
open Reorder Function List

def maxBaEntry : Nat := 2

structure AddbaReq where
  dialogToken : Nat
  timeout : Nat
  startSeqNum : Nat
  baPolicy : Nat
  tid : Nat
  bufSize : Nat

structure BaCam where
  macid : Nat
  tid : Nat
  bmapSize : Nat
  ssn : Nat
  deriving DecidableEq,Repr

structure BaCtl where
  count : Nat
  usedMap : Fin 2 → Bool
  tid : Fin 2 → Nat

structure HalStainfo where
  macid : Nat
  baCtl : BaCtl
  bacam : Fin 2 → Option BaCam

structure Answers where
  remove : Fin 2 → Bool
  add : Bool
  kmemR : Bool
  kmemBuf : Bool
  kmemTime : Bool

def HalStainfo.newCam (h : HalStainfo) (startSeqNum tid bufSize : Nat) : BaCam :=
  ⟨h.macid % 256,tid % 16,if bufSize > 64 then 4 else 0,startSeqNum % 4096⟩

def halUpdateBaCam (h : HalStainfo) (valid : Bool) (startSeqNum tid bufSize : Nat) (camid : Fin 2) (sent : Bool) :
    Bool × HalStainfo :=
  if sent then
    let entry := if valid then some (h.newCam startSeqNum tid bufSize) else none
    (true,{h with bacam:=update h.bacam camid entry})
  else (false,h)

def HalStainfo.vacate (h : HalStainfo) (idx : Fin 2) : HalStainfo :=
  {h with baCtl := {h.baCtl with
    usedMap := update h.baCtl.usedMap idx false
    count := (h.baCtl.count+255) % 256}}

def HalStainfo.occupy (h : HalStainfo) (idx : Fin 2) (tid : Nat) : HalStainfo :=
  {h with baCtl := {
    usedMap := update h.baCtl.usedMap idx true
    tid := update h.baCtl.tid idx (tid % 256)
    count := (h.baCtl.count+1) % 256}}

-- The loop that makes room for TID 0: an entry of another TID is given up if
-- the firmware takes the command, an entry of TID 0 without one.
def removeOldEntry (remove : Fin 2 → Bool) : List (Fin 2) → Bool × HalStainfo → Bool × HalStainfo
  | [],at_ => at_
  | idx::rest,(status,h) =>
    if h.baCtl.tid idx ≠ 0 then
      match halUpdateBaCam h false 0 0 0 idx (remove idx) with
      | (true,h) => (true,h.vacate idx)
      | (false,h) => removeOldEntry remove rest (false,h)
    else (status,h.vacate idx)

def addEntry (room : Bool × HalStainfo) (req : AddbaReq) (answers : Answers) : Bool × HalStainfo :=
  match (finRange maxBaEntry).find? (fun idx => !room.2.baCtl.usedMap idx) with
  | none => room
  | some idx =>
    match halUpdateBaCam room.2 true req.startSeqNum req.tid req.bufSize idx answers.add with
    | (false,h) => (false,h)
    | (true,h) => (true,h.occupy idx req.tid)

def rtwHalStartBaSession (h : HalStainfo) (req : AddbaReq) (answers : Answers) : Bool × HalStainfo :=
  if h.baCtl.count = maxBaEntry then
    if req.tid ≠ 0 then (false,h)
    else addEntry (removeOldEntry answers.remove (finRange maxBaEntry) (false,h)) req answers
  else addEntry (false,h) req answers

structure Heap where
  next : Nat
  live : List Nat
  older : ∀ block ∈ live, block < next

def Heap.alloc (heap : Heap) : Heap :=
  ⟨heap.next+1,heap.next::heap.live,by
    intro block member
    rcases mem_cons.mp member with rfl | earlier
    · exact Nat.lt_succ_self _
    · exact Nat.lt_succ_of_lt (heap.older block earlier)⟩

def Heap.free (heap : Heap) (block : Nat) : Heap :=
  ⟨heap.next,heap.live.erase block,fun other member => heap.older other (mem_of_mem_erase member)⟩

def osKmemAlloc (heap : Heap) (succeeds : Bool) : Option Nat × Heap :=
  if succeeds then (some heap.next,heap.alloc) else (none,heap)

structure Session where
  r : TidAmpduRx
  rBlock : Nat
  bufBlock : Nat
  timeBlock : Nat

structure Sta where
  tidRx : Fin 8 → Option Session
  reorderTimer : Bool
  frames : List RxPkt
  recycled : List RxPkt
  heap : Heap
  halSta : HalStainfo

def allocSession (heap : Heap) (ssn tid bufSize : Nat) (answers : Answers) : Option Session × Heap :=
  match osKmemAlloc heap answers.kmemR with
  | (none,heap) => (none,heap)
  | (some rBlock,heap) =>
    match osKmemAlloc heap answers.kmemBuf with
    | (none,heap) => (none,heap.free rBlock)
    | (some bufBlock,heap) =>
      match osKmemAlloc heap answers.kmemTime with
      | (none,heap) => (none,(heap.free bufBlock).free rBlock)
      | (some timeBlock,heap) => (some ⟨phlTidAmpduRxAlloc ssn tid bufSize,rBlock,bufBlock,timeBlock⟩,heap)

def freeSession (sta : Sta) (old : Session) : Sta :=
  {sta with
    recycled := phlTidAmpduRxFree sta.recycled old.r
    heap := ((sta.heap.free old.timeBlock).free old.bufBlock).free old.rBlock}

-- The status of the HAL is kept in a local that nothing reads.
def rtwPhlStartRxBaSession (sta : Sta) (req : AddbaReq) (answers : Answers) : PhlStatus × Sta :=
  let sta := {sta with halSta:=(rtwHalStartBaSession sta.halSta req answers).2}
  if req.baPolicy ≠ 0 then (.failure,sta)
  else
    let bufSize := if req.bufSize = 0 then phlMaxAggWsize else req.bufSize
    match allocSession sta.heap req.startSeqNum req.tid bufSize answers with
    | (none,heap) => (.resource,{sta with heap})
    | (some r,heap) =>
      let sta := {sta with heap}
      if valid : req.tid < 8 then
        let sta := match sta.tidRx ⟨req.tid,valid⟩ with
          | none => sta
          | some old => freeSession sta old
        (.success,{sta with tidRx:=update sta.tidRx ⟨req.tid,valid⟩ (some r)})
      else (.failure,sta)

-- The station without its memory and its hardware is the one of the reorder
-- model, whose start takes the three allocations as one.
def Sta.reorder (sta : Sta) : StaInfo := ⟨fun tid => (sta.tidRx tid).map Session.r,sta.reorderTimer,sta.frames,sta.recycled⟩

def Answers.allocs (answers : Answers) : Bool := answers.kmemR && answers.kmemBuf && answers.kmemTime

section
variable (heap : Heap)

@[simp] theorem alloc_live : heap.alloc.live = heap.next::heap.live := rfl
@[simp] theorem alloc_next : heap.alloc.next = heap.next + 1 := rfl
@[simp] theorem free_live (block : Nat) : (heap.free block).live = heap.live.erase block := rfl
theorem next_fresh : heap.next ∉ heap.live := fun member => Nat.lt_irrefl _ (heap.older _ member)

theorem alloc_given (ssn tid bufSize : Nat) (allocs : answers.allocs) :
    allocSession heap ssn tid bufSize answers =
      (some ⟨phlTidAmpduRxAlloc ssn tid bufSize,heap.next,heap.next+1,heap.next+2⟩,heap.alloc.alloc.alloc) := by
  simp only [Answers.allocs,Bool.and_eq_true] at allocs
  simp [allocSession,osKmemAlloc,allocs.1.1,allocs.1.2,allocs.2]

theorem alloc_refused (ssn tid bufSize : Nat) (short : answers.allocs = false) :
    ∃ after, allocSession heap ssn tid bufSize answers = (none,after) ∧ after.live = heap.live := by
  cases first : answers.kmemR with
  | false => exact ⟨heap,by simp [allocSession,osKmemAlloc,first],rfl⟩
  | true =>
    cases second : answers.kmemBuf with
    | false => exact ⟨heap.alloc.free heap.next,by simp [allocSession,osKmemAlloc,first,second],by simp⟩
    | true =>
      have third : answers.kmemTime = false := by simpa [Answers.allocs,first,second] using short
      refine ⟨(heap.alloc.alloc.free heap.alloc.next).free heap.next,?_,by simp⟩
      simp [allocSession,osKmemAlloc,first,second,third]
end

def Kept (before after : Fin 2 → Option BaCam) : Prop := ∀ idx entry, after idx = some entry → before idx = some entry
theorem Kept.refl (before : Fin 2 → Option BaCam) : Kept before before := fun _ _ same => same

theorem kept_clear (before : Fin 2 → Option BaCam) (idx : Fin 2) : Kept before (update before idx none) := by
  intro other entry held
  by_cases here : other = idx
  · subst here
    simp at held
  · rwa [update_of_ne here] at held

theorem kept_fill {before after : Fin 2 → Option BaCam} (kept : Kept before after) (idx : Fin 2) (entry : BaCam) :
    Kept before (update after idx (some entry)) ↔ before idx = some entry := by
  constructor
  · intro all
    exact all idx entry (update_self idx (some entry) after)
  · intro same other held at_
    by_cases here : other = idx
    · subst here
      rw [update_self] at at_
      rwa [← at_]
    · rw [update_of_ne here] at at_
      exact kept other held at_

def givenUp (h : HalStainfo) (remove : Fin 2 → Bool) : Option (Fin 2) :=
  (finRange maxBaEntry).find? fun idx => decide (h.baCtl.tid idx = 0) || remove idx

section
variable (h : HalStainfo) (req : AddbaReq) (answers : Answers)

def entryFor : Option (Fin 2) :=
  if h.baCtl.count = maxBaEntry then
    if req.tid ≠ 0 then none
    else (finRange maxBaEntry).find? fun idx => !h.baCtl.usedMap idx || decide (givenUp h answers.remove = some idx)
  else (finRange maxBaEntry).find? fun idx => !h.baCtl.usedMap idx

def Starts : Prop :=
  ∃ idx, entryFor h req answers = some idx ∧ answers.add ∧
    h.bacam idx ≠ some (h.newCam req.startSeqNum req.tid req.bufSize)
end

theorem removed_room (remove : Fin 2 → Bool) (entries : List (Fin 2)) (status : Bool) (h : HalStainfo) :
    (entries.find? (fun idx => decide (h.baCtl.tid idx = 0) || remove idx) = none ∧
      (removeOldEntry remove entries (status,h)).2 = h) ∨
    ∃ idx bacam, entries.find? (fun idx => decide (h.baCtl.tid idx = 0) || remove idx) = some idx ∧ Kept h.bacam bacam ∧
      (removeOldEntry remove entries (status,h)).2 = {h.vacate idx with bacam} := by
  induction entries generalizing status with
  | nil => exact .inl ⟨rfl,rfl⟩
  | cons idx rest ih =>
    by_cases zero : h.baCtl.tid idx = 0
    · exact .inr ⟨idx,h.bacam,by simp [zero],.refl _,by simp [removeOldEntry,zero,HalStainfo.vacate]⟩
    · cases sent : remove idx with
      | true =>
        refine .inr ⟨idx,update h.bacam idx none,by simp [sent],kept_clear h.bacam idx,?_⟩
        simp [removeOldEntry,zero,halUpdateBaCam,sent,HalStainfo.vacate]
      | false =>
        simp only [find?_cons,zero,sent,decide_false,Bool.or_self,removeOldEntry,ne_eq,not_false_eq_true,if_true,
          halUpdateBaCam,Bool.false_eq_true,if_false]
        exact ih false

theorem add_kept {room : Bool × HalStainfo} (answers : Answers)
    (kept : Kept h.bacam room.2.bacam) (macid : room.2.macid = h.macid)
    (chosen : (finRange maxBaEntry).find? (fun idx => !room.2.baCtl.usedMap idx) = entryFor h req answers) :
    Kept h.bacam (addEntry room req answers).2.bacam ↔ ¬Starts h req answers := by
  rw [addEntry,chosen]
  cases entry : entryFor h req answers with
  | none => exact ⟨fun _ starts => by obtain ⟨_,some_,_⟩ := starts; simp [entry] at some_,fun _ => kept⟩
  | some idx =>
    cases sent : answers.add with
    | false => exact ⟨fun _ starts => by simp [Starts,sent] at starts,fun _ => kept⟩
    | true =>
      have written := kept_fill kept idx (h.newCam req.startSeqNum req.tid req.bufSize)
      simpa [Starts,entry,sent,halUpdateBaCam,HalStainfo.occupy,HalStainfo.newCam,macid] using written

theorem hal_kept (h : HalStainfo) (req : AddbaReq) (answers : Answers) :
    Kept h.bacam (rtwHalStartBaSession h req answers).2.bacam ↔ ¬Starts h req answers := by
  unfold rtwHalStartBaSession
  by_cases full : h.baCtl.count = maxBaEntry
  · rw [if_pos full]
    by_cases zero : req.tid = 0
    · rw [if_neg (not_not_intro zero)]
      rcases removed_room answers.remove (finRange maxBaEntry) false h with ⟨none_,same⟩ | ⟨idx,bacam,given,kept,room⟩
      · refine add_kept answers (by rw [same]; exact .refl _) (by rw [same]) ?_
        simp [entryFor,full,zero,givenUp,none_,same]
      · refine add_kept answers (by rw [room]; exact kept) (by rw [room]; rfl) ?_
        simp only [entryFor,full,zero,givenUp,given,room,HalStainfo.vacate,if_true,ne_eq,not_true_eq_false,if_false]
        congr 1
        funext other
        by_cases here : other = idx
        · simp [here]
        · simp [update_of_ne here,Ne.symm here]
    · rw [if_pos zero]
      refine ⟨fun _ starts => ?_,fun _ => .refl _⟩
      obtain ⟨idx,entry,_⟩ := starts
      simp [entryFor,full,zero] at entry
  · rw [if_neg full]
    refine add_kept answers (.refl h.bacam) rfl ?_
    rw [entryFor,if_neg full]

structure Atomic (before : Sta) (req : AddbaReq) (result : PhlStatus × Sta) : Prop where
  failed : result.1 ≠ .success → result.2.tidRx = before.tidRx ∧ (∀ block ∈ result.2.heap.live, block ∈ before.heap.live) ∧
    Kept before.halSta.bacam result.2.halSta.bacam
  succeeded : result.1 = .success → ∃ (valid : req.tid < 8) (session : Session),
    session.r = phlTidAmpduRxAlloc req.startSeqNum req.tid (if req.bufSize = 0 then phlMaxAggWsize else req.bufSize) ∧
    result.2.tidRx = update before.tidRx ⟨req.tid,valid⟩ (some session) ∧
    result.2.recycled = before.recycled ++ ((before.tidRx ⟨req.tid,valid⟩).map fun old => stored old.r).getD []

section
variable (sta : Sta) (req : AddbaReq) (answers : Answers)
include sta

theorem start_policy (policy : req.baPolicy ≠ 0) :
    rtwPhlStartRxBaSession sta req answers =
      (.failure,{sta with halSta:=(rtwHalStartBaSession sta.halSta req answers).2}) := by
  simp [rtwPhlStartRxBaSession,policy]

theorem start_short (policy : req.baPolicy = 0) (short : answers.allocs = false) :
    ∃ heap, heap.live = sta.heap.live ∧ rtwPhlStartRxBaSession sta req answers =
      (.resource,{sta with halSta:=(rtwHalStartBaSession sta.halSta req answers).2,heap}) := by
  obtain ⟨heap,refused,same⟩ := alloc_refused sta.heap req.startSeqNum req.tid
    (if req.bufSize = 0 then phlMaxAggWsize else req.bufSize) short
  exact ⟨heap,same,by simp [rtwPhlStartRxBaSession,policy,refused]⟩

theorem start_range (policy : req.baPolicy = 0) (allocs : answers.allocs)
    (wide : ¬req.tid < 8) : rtwPhlStartRxBaSession sta req answers =
      (.failure,{sta with halSta:=(rtwHalStartBaSession sta.halSta req answers).2,heap:=sta.heap.alloc.alloc.alloc}) := by
  simp [rtwPhlStartRxBaSession,policy,alloc_given _ _ _ _ allocs,wide]

theorem start_succeeds (policy : req.baPolicy = 0)
    (allocs : answers.allocs) (valid : req.tid < 8) :
    let session : Session := ⟨phlTidAmpduRxAlloc req.startSeqNum req.tid (if req.bufSize = 0 then phlMaxAggWsize else req.bufSize),
      sta.heap.next,sta.heap.next+1,sta.heap.next+2⟩
    (rtwPhlStartRxBaSession sta req answers).1 = .success ∧
    (rtwPhlStartRxBaSession sta req answers).2.tidRx = update sta.tidRx ⟨req.tid,valid⟩ (some session) ∧
    (rtwPhlStartRxBaSession sta req answers).2.recycled =
      sta.recycled ++ ((sta.tidRx ⟨req.tid,valid⟩).map fun old => stored old.r).getD [] := by
  intro session
  have given := alloc_given sta.heap req.startSeqNum req.tid (if req.bufSize = 0 then phlMaxAggWsize else req.bufSize) allocs
  simp only [rtwPhlStartRxBaSession,policy,ne_eq,not_true_eq_false,if_false,given,valid,dif_pos]
  cases held : sta.tidRx ⟨req.tid,valid⟩ with
  | none => exact ⟨trivial,rfl,(append_nil _).symm⟩
  | some old => exact ⟨trivial,rfl,free_stored sta.recycled old.r⟩
end

theorem ba_start_atomic (sta : Sta) (req : AddbaReq) (answers : Answers) :
    Atomic sta req (rtwPhlStartRxBaSession sta req answers) ↔
      if req.baPolicy = 0 ∧ answers.allocs = true then req.tid < 8 else ¬Starts sta.halSta req answers := by
  by_cases policy : req.baPolicy = 0
  · cases allocs : answers.allocs with
    | false =>
      obtain ⟨heap,same,short⟩ := start_short sta req answers policy allocs
      simp only [policy,Bool.false_eq_true,and_false,if_false]
      rw [short,← hal_kept]
      refine ⟨fun atomic => (atomic.failed (by simp)).2.2,fun kept => ⟨fun _ => ⟨rfl,?_,kept⟩,fun done => by cases done⟩⟩
      intro block member
      rwa [← same]
    | true =>
      simp only [policy,and_self,if_true]
      by_cases valid : req.tid < 8
      · obtain ⟨status,tidRx,recycled⟩ := start_succeeds sta req answers policy allocs valid
        exact ⟨fun _ => valid,fun _ => ⟨fun failed => absurd status failed,fun _ => ⟨valid,_,rfl,tidRx,recycled⟩⟩⟩
      · -- the session that was allocated is in no table
        refine ⟨fun atomic => ?_,fun below => absurd below valid⟩
        rw [start_range sta req answers policy allocs valid] at atomic
        have leaked := (atomic.failed (by simp)).2.1 sta.heap.next (by simp)
        exact absurd leaked (next_fresh sta.heap)
  · simp only [policy,false_and,if_false]
    rw [start_policy sta req answers policy,← hal_kept]
    exact ⟨fun atomic => (atomic.failed (by simp)).2.2,fun kept => ⟨fun _ => ⟨rfl,fun _ member => member,kept⟩,fun done => by cases done⟩⟩

-- A request for TID 8 of a station without sessions.
theorem ba_start_leaks : ¬∀ (sta : Sta) (req : AddbaReq) (answers : Answers),
    Atomic sta req (rtwPhlStartRxBaSession sta req answers) := by
  intro always
  have atomic := always ⟨fun _ => none,false,[],[],⟨0,[],by simp⟩,⟨1,⟨0,fun _ => false,fun _ => 0⟩,fun _ => none⟩⟩
    ⟨1,0,100,0,8,64⟩ ⟨fun _ => true,true,true,true,true⟩
  have leaked := (atomic.failed (by decide)).2.1 0 (by decide)
  cases leaked

end Rtl8852au.RxBa
