import Mathlib.Algebra.BigOperators.Group.List.Basic
import Rtl8852au.UsbRx

namespace Rtl8852au.UsbRx
open Machine PhlQueue Option Nat Bool

section weights

def is (b' b : Nat) : Nat := if b' = b then 1 else 0

section
variable (b : Nat)

@[simp] theorem is_same : is b b = 1 := if_pos rfl

def Release.holds : Release → Nat
  | .count b' false => is b' b
  | .count _ true => 0
  | .push b' _ => is b' b
  | .freeRx => 0

def Release.refs : Release → Nat
  | .count b' true => is b' b
  | _ => 0

def Call.holds : Call → Nat
  | .query b' _ => is b' b
  | .pend b' _ _ => is b' b
  | .back r => r.holds b
  | _ => 0

def Call.refs : Call → Nat
  | .back r => r.refs b
  | _ => 0

-- Calls whose buffer is in busy_rxbuf_list, with no URB in flight.
def Call.unsubmitted : Call → Nat
  | .send b' => is b' b
  | .unsent b' => is b' b
  | .complete b' _ _ => is b' b
  | _ => 0

def refsOf (pkts : List PhlRx) (b : Nat) : Nat := pkts.countP fun p => decide (p.rxbufPtr = some b)

def Pc.holds : Pc → Nat
  | .got b' _ => is b' b
  | .parse b' _ _ _ _ => is b' b
  | .parsed b' _ _ _ => is b' b
  | .back r _ => r.holds b
  | .drop r => r.holds b
  | _ => 0

def Pc.refs : Pc → Nat
  | .process pkts => refsOf pkts b
  | .back r pkts => r.refs b + refsOf pkts b
  | .drop r => r.refs b
  | _ => 0

-- The packets of a transfer that is still parsed: only those not copied refer to the
-- buffer, and ref_cnt has counted them.
def Fresh (head : List PhlRx) (refCnt : Nat) (brel : Bool) : Prop :=
  refCnt < 256 ∧ (brel ↔ refCnt = 0) ∧ ∀ b', refsOf head b' = if b = b' then refCnt else 0
end

def Pc.Fresh : Pc → Prop
  | .parse b _ head refCnt brel => UsbRx.Fresh b head refCnt brel
  | .parsed b head refCnt brel => UsbRx.Fresh b head refCnt brel
  | _ => True

-- The round does not count a 256th reference, with which ref_cnt runs over.
def Few (s : Ring) (piece : Piece) (refCnt : Nat) : Prop := s.idleCnt ≠ 0 → piece.ok → keeps piece → refCnt+1 < 256

-- What the tasklet must not meet: a transfer of another pipe while its phl_rx is not
-- NULL, and 256 packets of a transfer that all refer to the buffer.
def Pc.Clear (s : Ring) (piece : Piece) : Pc → Prop
  | .got b phlRx => phlRx → (s.rxBuf b).pipeIdx = wlanInMpduPipeIdx
  | .parse _ _ _ refCnt _ => Few s piece refCnt
  | _ => True

-- Packets that are still to be counted off keep their buffer out of the lists.
def awaited (pktcnt : Nat) : Nat := if pktcnt = 0 then 0 else 1
@[simp] theorem awaited_zero : awaited 0 = 0 := rfl
theorem awaited_some (left : pktcnt ≠ 0) : awaited pktcnt = 1 := if_neg left

theorem awaited_nothing (nothing : awaited pktcnt = 0) : pktcnt = 0 := by
  unfold awaited at nothing
  split at nothing
  · assumption
  · omega

structure Tally (b size : Nat) (s : Ring) (holds refs unsubmitted : Nat) : Prop where
  place : s.idle.queue.count b + s.busy.queue.count b + s.pend.queue.count b + holds +
    awaited (s.rxBuf b).pktcnt = size
  refs : (s.rxBuf b).pktcnt = refsOf s.out b + refs
  flight : s.busy.queue.count b = s.urbs.count b + unsubmitted
  account : s.taken b + s.idle.queue.count b = s.returned b + size
  single : size ≤ 1
end weights
section steps
variable {s : Ring} {b size h r f : Nat}

theorem setBuf_same (s : Ring) (b : Nat) (g : RxBuf → RxBuf) : (s.setBuf b g).rxBuf b = g (s.rxBuf b) := by simp [Ring.setBuf]

theorem setBuf_other (s : Ring) (g : RxBuf → RxBuf) (other : b' ≠ b) : (s.setBuf b' g).rxBuf b = s.rxBuf b := by
  simp [Ring.setBuf,Ne.symm other]

theorem is_other (other : b' ≠ b) : is b' b = 0 := if_neg other
theorem bump_same (g : Nat → Nat) (b : Nat) : bump g b b = g b + 1 := by simp [bump]
theorem bump_other (g : Nat → Nat) (other : b' ≠ b) : bump g b' b = g b := by simp [bump,Ne.symm other]

theorem count_push (q : PhlQueue Nat) (b' b : Nat) : (q.pqPush b' .tail).queue.count b = q.queue.count b + is b' b := by
  unfold is
  by_cases same : b' = b <;> simp [pqPush,same]

theorem count_pop {q rest : PhlQueue Nat} (pop : q.pqPop .first = some (b',rest)) (b : Nat) :
    q.queue.count b = rest.queue.count b + is b' b := by
  unfold pqPop at pop
  split at pop
  · dsimp only at pop
    cases list : q.queue with
    | nil =>
      rw [list] at pop
      cases pop
    | cons first tail =>
      rw [list] at pop
      cases pop
      unfold is
      by_cases same : b' = b <;> simp [same]
  · cases pop

theorem count_del {q : PhlQueue Nat} (there : is b' b ≤ q.queue.count b) :
    (q.pqDelNode b').queue.count b + is b' b = q.queue.count b := by
  unfold is at there ⊢
  by_cases same : b' = b
  · subst same
    rw [if_pos rfl] at there ⊢
    have erased : (q.pqDelNode b').queue.count b' = q.queue.count b' - 1 := List.count_erase_self
    omega
  · rw [if_neg same]
    exact List.count_erase_of_ne (Ne.symm same)

theorem refsOf_append (one two : List PhlRx) (b : Nat) : refsOf (one ++ two) b = refsOf one b + refsOf two b :=
  List.countP_append

theorem refsOf_cons (p : PhlRx) (rest : List PhlRx) (b : Nat) : refsOf (p :: rest) b = refsOf [p] b + refsOf rest b :=
  refsOf_append [p] rest b

theorem refsOf_one (p : PhlRx) (b : Nat) : refsOf [p] b = if p.rxbufPtr = some b then 1 else 0 := by
  by_cases same : p.rxbufPtr = some b <;> simp [refsOf,same]

theorem recycle_refs (p : PhlRx) (b : Nat) : (phlRecycleRxBuf p).refs b = refsOf [p] b := by
  rw [refsOf_one]
  unfold phlRecycleRxBuf
  cases ptr : p.rxbufPtr with
  | none => rfl
  | some b' => simp [Release.refs,is]

theorem recycle_holds (p : PhlRx) (b : Nat) : (phlRecycleRxBuf p).holds b = 0 := by
  unfold phlRecycleRxBuf
  cases p.rxbufPtr <;> rfl

def held (b : Nat) : Option Release → Nat
  | some next => next.holds b
  | none => 0

def referred (b : Nat) : Option Release → Nat
  | some next => next.refs b
  | none => 0

theorem Release.next_tally (release : Release) (tally : Tally b size s (h + release.holds b) (r + release.refs b) f) :
    Tally b size (release.next s).1 (h + held b (release.next s).2) (r + referred b (release.next s).2) f := by
  obtain ⟨place,refs,flight,account,single⟩ := tally
  cases release with
  | count b' rx =>
    unfold Release.next
    dsimp only
    by_cases same : b' = b
    · subst same
      have now := setBuf_same s b' fun buf => {buf with pktcnt:=(s.rxBuf b').pktcnt - 1}
      cases rx with
      | false =>
        simp only [Release.holds,Release.refs,is_same,add_zero] at place refs
        have none_left : (s.rxBuf b').pktcnt = 0 := awaited_nothing (by omega)
        rw [none_left] at now ⊢
        rw [if_pos rfl]
        refine ⟨?_,?_,flight,account,single⟩
        · rw [now]
          simp only [held,Release.holds,is_same]
          rw [none_left] at place
          exact place
        · rw [now]
          rw [none_left] at refs
          exact refs
      | true =>
        simp only [Release.holds,Release.refs,is_same,add_zero] at place refs
        have some_left : (s.rxBuf b').pktcnt ≠ 0 := by omega
        rw [awaited_some some_left] at place
        split
        · rename_i last
          refine ⟨?_,?_,flight,account,single⟩
          · rw [now,last]
            simp only [held,Release.holds,is_same]
            exact place
          · rw [now]
            simp only [referred,Release.refs]
            change (s.rxBuf b').pktcnt - 1 = refsOf s.out b' + (r+0)
            omega
        · rename_i more
          refine ⟨?_,?_,flight,account,single⟩
          · rw [now,awaited_some more]
            exact place
          · rw [now]
            change (s.rxBuf b').pktcnt - 1 = refsOf s.out b' + (r+0)
            omega
    · have now := setBuf_other s (fun buf => {buf with pktcnt:=(s.rxBuf b').pktcnt - 1}) same
      have zero := is_other same
      have quiet : (Release.count b' rx).holds b = 0 ∧ (Release.count b' rx).refs b = 0 := by
        cases rx with
        | false => exact ⟨zero,rfl⟩
        | true => exact ⟨rfl,zero⟩
      rw [quiet.1] at place
      rw [quiet.2] at refs
      have next : held b (some (Release.push b' rx)) = 0 := zero
      split
      · refine ⟨?_,?_,flight,account,single⟩
        · rw [now,next]
          exact place
        · rw [now]
          exact refs
      · refine ⟨?_,?_,flight,account,single⟩
        · rw [now]
          cases rx <;> exact place
        · rw [now]
          cases rx <;> exact refs
  | push b' rx =>
    have more := count_push s.idle b' b
    have after : held b (if rx then some .freeRx else none) = 0 ∧ referred b (if rx then some .freeRx else none) = 0 := by
      cases rx <;> exact ⟨rfl,rfl⟩
    unfold Release.next
    refine ⟨?_,?_,flight,?_,single⟩
    · dsimp only
      rw [more,after.1]
      simp only [Release.holds] at place
      omega
    · dsimp only
      rw [after.2]
      exact refs
    · dsimp only
      rw [more]
      by_cases same : b' = b
      · subst same
        rw [bump_same,is_same]
        omega
      · rw [bump_other _ same,is_other same]
        omega
  | freeRx => exact ⟨place,refs,flight,account,single⟩

section
variable (weight : Call → Nat)

def total (calls : List Call) : Nat := (calls.map weight).sum
@[simp] theorem total_nil : total weight [] = 0 := rfl
@[simp] theorem total_one (call : Call) : total weight [call] = weight call := by simp [total]

theorem total_append (one two : List Call) :
    total weight (one ++ two) = total weight one + total weight two := by
  simp [total]

theorem total_perm (perm : one.Perm two) : total weight one = total weight two := (perm.map weight).sum_eq
end

theorem total_zero {calls : List Call} : total weight calls = 0 ↔ ∀ call ∈ calls, weight call = 0 := by
  induction calls with
  | nil => simp
  | cons call rest ih =>
    have split : total weight (call :: rest) = weight call + total weight rest := by simp [total]
    rw [split,Nat.add_eq_zero_iff,ih]
    simp

theorem total_take {calls : List Call} {call : Call} (weight : Call → Nat) (there : calls[j]? = some call) :
    total weight calls = total weight (calls.eraseIdx j) + weight call := by
  obtain ⟨short,this⟩ := List.getElem?_eq_some_iff.mp there
  have perm := List.getElem_cons_eraseIdx_perm short
  rw [this] at perm
  rw [← total_perm weight perm]
  simp [total,add_comm]

def Shared (b size : Nat) (s : Ring) (calls : List Call) (h r f : Nat) : Prop :=
  Tally b size s (h + total (Call.holds b) calls) (r + total (Call.refs b) calls) (f + total (Call.unsubmitted b) calls)

theorem Call.next_tally (call : Call) (hal urb : Bool) (tally : Shared b size s [call] h r f)
    (answers : ∀ b pipe, call = .query b pipe → hal) :
    Shared b size (call.next s hal urb).1 (call.next s hal urb).2.toList h r f := by
  unfold Shared at tally ⊢
  simp only [total_one] at tally
  obtain ⟨place,refs,flight,account,single⟩ := tally
  cases call with
  | take pipe =>
    unfold Call.next
    cases pop : s.idle.pqPop .first with
    | none => exact ⟨place,refs,flight,account,single⟩
    | some both =>
      obtain ⟨b',rest⟩ := both
      have less := count_pop pop b
      refine ⟨?_,refs,flight,?_,single⟩
      · simp only [toList_some,total_one,Call.holds] at place ⊢
        omega
      · by_cases same : b' = b
        · subst same
          simp only [is_same] at less
          dsimp only
          rw [bump_same]
          omega
        · rw [is_other same] at less
          dsimp only
          rw [bump_other _ same]
          omega
  | query b' pipe =>
    have told := answers b' pipe rfl
    subst told
    have more := count_push s.busy b' b
    have buf : (s.setBuf b' fun buf => {buf with pipeIdx:=pipe}).rxBuf b =
        {s.rxBuf b with pipeIdx:=if b' = b then pipe else (s.rxBuf b).pipeIdx} := by
      by_cases same : b' = b
      · subst same
        rw [setBuf_same,if_pos rfl]
      · rw [setBuf_other _ _ same,if_neg same]
    unfold Call.next
    refine ⟨?_,?_,?_,account,single⟩
    · simp only [if_true,toList_some,total_one,Call.holds] at place ⊢
      rw [buf,more]
      dsimp only [Ring.setBuf]
      omega
    · simp only [if_true]
      rw [buf]
      exact refs
    · simp only [if_true,toList_some,total_one,Call.unsubmitted] at flight ⊢
      rw [more]
      dsimp only [Ring.setBuf]
      omega
  | send b' =>
    unfold Call.next
    cases urb with
    | false => exact ⟨place,refs,flight,account,single⟩
    | true =>
      refine ⟨place,refs,?_,account,single⟩
      simp only [if_true,toList_none,total_nil,Call.unsubmitted] at flight ⊢
      rw [List.count_cons]
      unfold is at flight
      simp only [beq_iff_eq]
      omega
  | unsent b' =>
    have less : (s.busy.pqDelNode b').queue.count b + is b' b = s.busy.queue.count b := by
      apply count_del
      simp only [Call.unsubmitted] at flight
      omega
    refine ⟨?_,refs,?_,account,single⟩
    · simp only [Call.next,toList_some,total_one,Call.holds,Release.holds] at place ⊢
      omega
    · simp only [Call.next,toList_some,total_one,Call.unsubmitted] at flight ⊢
      omega
  | complete b' len ok =>
    have cases : Call.next s hal urb (.complete b' len ok) = if s.busy.queue ≠ [] then
      ({s with busy:=s.busy.pqDelNode b'},some (.pend b' len ok)) else (s,some (.pend b' len ok)) := rfl
    rw [cases]
    by_cases listed : s.busy.queue ≠ []
    · rw [if_pos listed]
      have less : (s.busy.pqDelNode b').queue.count b + is b' b = s.busy.queue.count b := by
        apply count_del
        simp only [Call.unsubmitted] at flight
        omega
      refine ⟨?_,refs,?_,account,single⟩
      · simp only [toList_some,total_one,Call.holds] at place ⊢
        omega
      · simp only [toList_some,total_one,Call.unsubmitted] at flight ⊢
        omega
    · rw [if_neg listed]
      have nothing : s.busy.queue.count b = 0 := by
        rw [not_not.mp listed]
        rfl
      have zero : is b' b = 0 := by
        simp only [Call.unsubmitted] at flight
        omega
      refine ⟨?_,refs,?_,account,single⟩
      · simp only [toList_some,total_one,Call.holds] at place ⊢
        omega
      · simp only [toList_some,total_one,Call.unsubmitted] at flight ⊢
        omega
  | pend b' len ok =>
    unfold Call.next
    cases ok with
    | false => exact ⟨place,refs,flight,account,single⟩
    | true =>
      have more := count_push s.pend b' b
      have buf : ((s.setBuf b' fun buf => {buf with transferLen:=len}).rxBuf b).pktcnt = (s.rxBuf b).pktcnt := by
        by_cases same : b' = b
        · subst same
          rw [setBuf_same]
        · rw [setBuf_other _ _ same]
      refine ⟨?_,?_,flight,account,single⟩
      · simp only [if_true,toList_some,total_one,Call.holds] at place ⊢
        rw [buf,more]
        dsimp only [Ring.setBuf]
        omega
      · simp only [if_true]
        rw [buf]
        exact refs
  | again b' => exact ⟨place,refs,flight,account,single⟩
  | back release =>
    have next := release.next_tally (h := h) (r := r) (f := f+0) ⟨place,refs,flight,account,single⟩
    unfold Call.next
    dsimp only
    cases after : (release.next s).2 with
    | none =>
      rw [after] at next
      exact next
    | some later =>
      rw [after] at next
      simp only [map_some,toList_some,total_one]
      exact next


theorem Fresh.start (b : Nat) : Fresh b [] 0 true := by
  refine ⟨by decide,by simp,?_⟩
  intro b'
  split <;> rfl

theorem Fresh.round (fresh : Fresh b head refCnt brel) (piece : Piece) (few : keeps piece → refCnt+1 < 256) :
    Fresh b (head ++ [⟨piece.type,if keeps piece then some b else none⟩])
      (if keeps piece then (refCnt+1) % 256 else refCnt) (brel && !keeps piece) := by
  obtain ⟨small,all,refs⟩ := fresh
  cases kept : keeps piece with
  | false =>
    refine ⟨small,by simpa using all,?_⟩
    intro b'
    rw [refsOf_append,refs,refsOf_one]
    simp
  | true =>
    have next := few kept
    have same : (refCnt+1) % 256 = refCnt + 1 := mod_eq_of_lt next
    simp only [if_true]
    rw [same]
    refine ⟨next,by simp,?_⟩
    intro b'
    rw [refsOf_append,refs,refsOf_one]
    by_cases own : b = b' <;> simp [own]

theorem phlGetSingleRx_fresh (fresh : Fresh b head refCnt brel) (piece : Piece)
    (len : Int) (few : Few s piece refCnt) : (phlGetSingleRx s piece b len head refCnt brel).2.Fresh := by
  unfold phlGetSingleRx
  split
  · exact fresh
  · rename_i goes
    push Not at goes
    have next := fresh.round piece (few goes.1 (by simpa using goes.2))
    dsimp only
    split
    · exact next
    · exact next

theorem Pc.next_fresh (pc : Pc) (fresh : pc.Fresh) (piece : Piece) (clear : pc.Clear s piece) : (pc.next s piece).2.Fresh := by
  cases pc with
  | sleep => trivial
  | check phlRx =>
    simp only [Pc.next]
    split
    · trivial
    · cases s.pend.pqPop .first <;> trivial
  | got b' phlRx =>
    simp only [Pc.next]
    split
    · exact Fresh.start b'
    · split <;> trivial
  | parse b' len head refCnt brel => exact phlGetSingleRx_fresh fresh piece len clear
  | parsed b' head refCnt brel =>
    simp only [Pc.next]
    split
    · trivial
    · split <;> trivial
  | process pkts =>
    cases pkts with
    | nil => trivial
    | cons p rest =>
      simp only [Pc.next]
      cases p.type <;> trivial
  | back release pkts =>
    simp only [Pc.next]
    split <;> trivial
  | drop release =>
    simp only [Pc.next]
    split <;> trivial

theorem phlGetSingleRx_tally (piece : Piece) (b' : Nat) (len : Int) (tally : Tally b size s (h + is b' b) (r+0) f) :
    Tally b size (phlGetSingleRx s piece b' len head refCnt brel).1
      (h + (phlGetSingleRx s piece b' len head refCnt brel).2.holds b)
      (r + (phlGetSingleRx s piece b' len head refCnt brel).2.refs b) f := by
  obtain ⟨place,refs,flight,account,single⟩ := tally
  unfold phlGetSingleRx
  split
  · exact ⟨place,refs,flight,account,single⟩
  · dsimp only
    split
    · exact ⟨place,refs,flight,account,single⟩
    · exact ⟨place,refs,flight,account,single⟩

theorem Pc.next_tally (pc : Pc) (fresh : pc.Fresh) (piece : Piece) (clear : pc.Clear s piece)
    (tally : Tally b size s (h + pc.holds b) (r + pc.refs b) f) :
    Tally b size (pc.next s piece).1 (h + (pc.next s piece).2.holds b) (r + (pc.next s piece).2.refs b) f := by
  cases pc with
  | sleep => exact tally
  | check phlRx =>
    simp only [Pc.next]
    split
    · exact tally
    · cases pop : s.pend.pqPop .first with
      | none => exact tally
      | some both =>
        obtain ⟨b',rest⟩ := both
        have less := count_pop pop b
        obtain ⟨place,refs,flight,account,single⟩ := tally
        refine ⟨?_,refs,flight,account,single⟩
        simp only [Pc.holds] at place ⊢
        omega
  | got b' phlRx =>
    simp only [Pc.next]
    split
    · exact tally
    · rename_i other
      cases phlRx with
      | false => exact tally
      | true => exact absurd (clear rfl) other
  | parse b' len head refCnt brel => exact phlGetSingleRx_tally piece b' len tally
  | parsed b' head refCnt brel =>
    obtain ⟨small,all,own⟩ := fresh
    simp only [Pc.next]
    split
    · exact tally
    · cases brel with
      | true =>
        have none_kept := all.mp rfl
        have zero : refsOf head b = 0 := by
          rw [own,none_kept]
          simp
        obtain ⟨place,refs,flight,account,single⟩ := tally
        refine ⟨place,?_,flight,account,single⟩
        simp only [if_true,Pc.refs,Release.refs,zero]
        exact refs
      | false =>
        have some_kept : refCnt ≠ 0 := by simpa using all.not.mp (by simp)
        obtain ⟨place,refs,flight,account,single⟩ := tally
        simp only [Pc.holds,Pc.refs,add_zero] at place refs
        by_cases same : b' = b
        · subst same
          have now := setBuf_same s b' fun buf => {buf with pktcnt:=refCnt}
          rw [is_same] at place
          have free : (s.rxBuf b').pktcnt = 0 := awaited_nothing (by omega)
          refine ⟨?_,?_,flight,account,single⟩
          · simp only [false_eq_true,if_false]
            rw [now,awaited_some some_kept]
            rw [free] at place
            exact place
          · simp only [false_eq_true,if_false]
            rw [now]
            simp only [Pc.refs]
            rw [own,if_pos rfl]
            dsimp only [Ring.setBuf]
            omega
        · have now := setBuf_other s (fun buf => {buf with pktcnt:=refCnt}) same
          rw [is_other same] at place
          refine ⟨?_,?_,flight,account,single⟩
          · simp only [false_eq_true,if_false]
            rw [now]
            exact place
          · simp only [false_eq_true,if_false]
            rw [now]
            simp only [Pc.refs]
            rw [own,if_neg same]
            exact refs
  | process pkts =>
    cases pkts with
    | nil => exact tally
    | cons p rest =>
      obtain ⟨place,refs,flight,account,single⟩ := tally
      simp only [Pc.refs] at refs
      rw [refsOf_cons] at refs
      have recycled : Tally b size s (h + (phlRecycleRxBuf p).holds b) (r + ((phlRecycleRxBuf p).refs b + refsOf rest b)) f := by
        refine ⟨?_,?_,flight,account,single⟩
        · rw [recycle_holds]
          exact place
        · rw [recycle_refs]
          exact refs
      simp only [Pc.next]
      cases p.type with
      | wifi =>
        refine ⟨place,?_,flight,account,single⟩
        simp only [Pc.refs]
        rw [refsOf_append]
        omega
      | ppduStatus => exact recycled
      | other => exact recycled
  | back release pkts =>
    have moved : Tally b size s (h + release.holds b) (r + refsOf pkts b + release.refs b) f := by
      have same : r + refsOf pkts b + release.refs b = r + (release.refs b + refsOf pkts b) := by omega
      rw [same]
      exact tally
    have next := release.next_tally moved
    simp only [Pc.next]
    split
    · rename_i s' later after
      rw [after] at next
      have same : r + refsOf pkts b + referred b (some later) = r + (later.refs b + refsOf pkts b) := by
        simp only [referred]
        omega
      rw [same] at next
      exact next
    · rename_i s' after
      rw [after] at next
      exact next
  | drop release =>
    have next := release.next_tally tally
    simp only [Pc.next]
    split
    · rename_i s' later after
      rw [after] at next
      exact next
    · rename_i s' after
      rw [after] at next
      exact next
end steps
section runs
variable {n : Nat} {s : Usb}

structure Usb.Inv (n : Nat) (s : Usb) : Prop where
  tally : ∀ b, Shared b (if b < n then 1 else 0) s.ring s.calls (s.pc.holds b) (s.pc.refs b) 0
  fresh : s.pc.Fresh

def Pc.pkts : Pc → List PhlRx
  | .parse _ _ head _ _ => head
  | .parsed _ head _ _ => head
  | .process pkts => pkts
  | .back _ pkts => pkts
  | _ => []

def alive (s : Usb) : List PhlRx := s.ring.out ++ s.pc.pkts

-- A call or the tasklet has the buffer in hand or is recycling a packet that refers to
-- it, or such a packet is alive.
def InProcess (s : Usb) (b : Nat) : Prop :=
  (∃ call ∈ s.calls, call.holds b + call.refs b ≠ 0) ∨ s.pc.holds b + s.pc.refs b ≠ 0 ∨
    ∃ p ∈ alive s, p.rxbufPtr = some b

def listed (s : Ring) (b : Nat) : Nat := s.idle.queue.count b + s.busy.queue.count b + s.pend.queue.count b

structure Conserved (n : Nat) (s : Usb) : Prop where
  once : ∀ b < n, listed s.ring b = 1 ∧ ¬ InProcess s b ∨ listed s.ring b = 0 ∧ InProcess s b
  back : ∀ b < n, s.ring.taken b + s.ring.idle.queue.count b = s.ring.returned b + 1
  live : ∀ p ∈ alive s, ∀ b, p.rxbufPtr = some b → b ∉ s.ring.idle.queue

-- The HAL answers the query of `_phl_in_token_usb`, and the tasklet meets nothing it
-- cannot keep count of.
def Sane (s : Usb) : Event → Prop
  | .advance j hal _ => ∀ b pipe, s.calls[j]? = some (.query b pipe) → hal
  | .tasklet piece => s.pc.Clear s.ring piece
  | _ => True

theorem init_inv (n pool : Nat) : (Usb.init n pool).Inv n := by
  refine ⟨?_,trivial⟩
  intro b
  have places : (List.range n).count b = if b < n then 1 else 0 := by
    rw [List.nodup_range.count]
    simp
  refine ⟨?_,rfl,rfl,?_,?_⟩
  · change (List.range n).count b + 0 + 0 + 0 + 0 = _
    omega
  · change 0 + (List.range n).count b = 0 + _
    omega
  · split <;> omega

theorem refsOf_take (there : list[i]? = some p) (b : Nat) : refsOf list b = refsOf (list.eraseIdx i) b + refsOf [p] b := by
  obtain ⟨short,this⟩ := List.getElem?_eq_some_iff.mp there
  have perm := List.getElem_cons_eraseIdx_perm short
  rw [this] at perm
  have counts : refsOf (p :: list.eraseIdx i) b = refsOf list b := perm.countP_eq _
  rw [← counts,refsOf_cons]
  omega

theorem Shared.enter {b size h r f : Nat} {calls : List Call} (shared : Shared b size ring calls h r f) (call : Call)
    (empty : call.holds b = 0 ∧ call.refs b = 0 ∧ call.unsubmitted b = 0) : Shared b size ring (calls ++ [call]) h r f := by
  unfold Shared at shared ⊢
  rw [total_append,total_append,total_append,total_one,total_one,total_one,empty.1,empty.2.1,empty.2.2]
  exact shared

theorem step_inv (inv : s.Inv n) (event : Event) (sane : Sane s event) : (s.step event).Inv n := by
  cases event with
  | inToken pipe => exact ⟨fun b => (inv.tally b).enter (.take pipe) ⟨rfl,rfl,rfl⟩,inv.fresh⟩
  | complete b' len ok =>
    unfold Usb.step
    dsimp only
    split
    · rename_i flying
      refine ⟨?_,inv.fresh⟩
      intro b
      obtain ⟨place,refs,flight,account,single⟩ := inv.tally b
      have less : (s.ring.urbs.erase b').count b + is b' b = s.ring.urbs.count b := by
        by_cases same : b' = b
        · subst same
          have positive : 0 < s.ring.urbs.count b' := List.count_pos_iff.mpr flying
          rw [List.count_erase_self,is_same]
          omega
        · rw [List.count_erase_of_ne (Ne.symm same),is_other same]
          rfl
      unfold Shared
      rw [total_append,total_append,total_append,total_one,total_one,total_one]
      refine ⟨place,refs,?_,account,single⟩
      simp only [Call.unsubmitted]
      omega
    · exact inv
  | recycle i =>
    unfold Usb.step
    dsimp only
    cases there : s.ring.out[i]? with
    | none => exact inv
    | some p =>
      refine ⟨?_,inv.fresh⟩
      intro b
      obtain ⟨place,refs,flight,account,single⟩ := inv.tally b
      have less := refsOf_take there b
      have none_held := recycle_holds p b
      have one_referred := recycle_refs p b
      unfold Shared
      rw [total_append,total_append,total_append,total_one,total_one,total_one]
      refine ⟨?_,?_,flight,account,single⟩
      · simp only [Call.holds,none_held]
        exact place
      · simp only [Call.refs,one_referred]
        omega
  | advance j hal urb =>
    unfold Usb.step
    dsimp only
    cases there : s.calls[j]? with
    | none => exact inv
    | some call =>
      refine ⟨?_,inv.fresh⟩
      intro b
      have apart : Shared b (if b < n then 1 else 0) s.ring [call] (s.pc.holds b + total (Call.holds b) (s.calls.eraseIdx j))
          (s.pc.refs b + total (Call.refs b) (s.calls.eraseIdx j)) (0 + total (Call.unsubmitted b) (s.calls.eraseIdx j)) := by
        have shared := inv.tally b
        unfold Shared at shared ⊢
        rw [total_take (Call.holds b) there,total_take (Call.refs b) there,total_take (Call.unsubmitted b) there] at shared
        simpa only [total_one,add_assoc] using shared
      have next := call.next_tally hal urb apart (fun b' pipe same => sane b' pipe (same ▸ there))
      unfold Shared at next ⊢
      rw [total_append,total_append,total_append]
      simpa only [add_assoc] using next
  | tasklet piece =>
    refine ⟨?_,Pc.next_fresh s.pc inv.fresh piece sane⟩
    intro b
    have moved : Tally b (if b < n then 1 else 0) s.ring (total (Call.holds b) s.calls + s.pc.holds b)
        (total (Call.refs b) s.calls + s.pc.refs b) (0 + total (Call.unsubmitted b) s.calls) := by
      rw [add_comm (total (Call.holds b) s.calls),add_comm (total (Call.refs b) s.calls)]
      exact inv.tally b
    have next := s.pc.next_tally inv.fresh piece sane moved
    rw [add_comm (total (Call.holds b) s.calls),add_comm (total (Call.refs b) s.calls)] at next
    exact next

theorem total_pos {calls : List Call} (some_share : ∃ call ∈ calls, weight call ≠ 0) : total weight calls ≠ 0 := by
  obtain ⟨call,member,share⟩ := some_share
  intro zero
  exact share (total_zero.mp zero call member)

theorem refsOf_pos (member : p ∈ list) (ptr : p.rxbufPtr = some b) : refsOf list b ≠ 0 := by
  have positive : 0 < refsOf list b := List.countP_pos_iff.mpr ⟨p,member,by simpa using ptr⟩
  omega

theorem Usb.Inv.pkts (inv : s.Inv n) (member : p ∈ s.pc.pkts) (ptr : p.rxbufPtr = some b) : s.pc.holds b + s.pc.refs b ≠ 0 := by
  have fresh := inv.fresh
  have parsing {head : List PhlRx} {b' refCnt : Nat} {brel : Bool} (fresh : Fresh b' head refCnt brel) (there : p ∈ head) :
      is b' b ≠ 0 := by
    have positive := refsOf_pos there ptr
    rw [fresh.2.2] at positive
    unfold is
    split at positive <;> simp_all
  cases state : s.pc with
  | sleep => rw [state] at member; exact absurd member List.not_mem_nil
  | check phlRx => rw [state] at member; exact absurd member List.not_mem_nil
  | got b' phlRx => rw [state] at member; exact absurd member List.not_mem_nil
  | drop release => rw [state] at member; exact absurd member List.not_mem_nil
  | parse b' len head refCnt brel =>
    rw [state] at member fresh
    exact parsing fresh member
  | parsed b' head refCnt brel =>
    rw [state] at member fresh
    exact parsing fresh member
  | process pkts =>
    rw [state] at member
    have positive : refsOf pkts b ≠ 0 := refsOf_pos member ptr
    simp only [Pc.refs]
    omega
  | back release pkts =>
    rw [state] at member
    have positive : refsOf pkts b ≠ 0 := refsOf_pos member ptr
    simp only [Pc.refs]
    omega

theorem Usb.Inv.process (inv : s.Inv n) (b : Nat) : InProcess s b ↔
    s.pc.holds b + total (Call.holds b) s.calls + awaited (s.ring.rxBuf b).pktcnt ≠ 0 := by
  obtain ⟨place,refs,flight,account,single⟩ := inv.tally b
  constructor
  · rintro (⟨call,member,share⟩ | share | ⟨p,member,ptr⟩)
    · by_cases holds : call.holds b = 0
      · have referred := total_pos ⟨call,member,(by omega : call.refs b ≠ 0)⟩
        rw [awaited_some (by omega)]
        omega
      · have more := total_pos ⟨call,member,holds⟩
        omega
    · by_cases holds : s.pc.holds b = 0
      · rw [awaited_some (by omega)]
        omega
      · omega
    · rcases List.mem_append.mp member with out | pkts
      · have referred := refsOf_pos out ptr
        rw [awaited_some (by omega)]
        omega
      · have share := inv.pkts pkts ptr
        by_cases holds : s.pc.holds b = 0
        · rw [awaited_some (by omega)]
          omega
        · omega
  · intro share
    by_contra nobody
    unfold InProcess at nobody
    push Not at nobody
    obtain ⟨calls,tasklet,packets⟩ := nobody
    have no_holds : total (Call.holds b) s.calls = 0 := by
      apply total_zero.mpr
      intro call inside
      have nothing := calls call inside
      omega
    have no_refs : total (Call.refs b) s.calls = 0 := by
      apply total_zero.mpr
      intro call inside
      have nothing := calls call inside
      omega
    have no_out : refsOf s.ring.out b = 0 := by
      apply List.countP_eq_zero.mpr
      intro p member
      simpa using packets p (List.mem_append_left _ member)
    have zero : (s.ring.rxBuf b).pktcnt = 0 := by omega
    rw [zero,awaited_zero] at share
    omega

theorem Usb.Inv.conserved (inv : s.Inv n) : Conserved n s := by
  refine ⟨?_,?_,?_⟩
  · intro b inside
    obtain ⟨place,refs,flight,account,single⟩ := inv.tally b
    rw [if_pos inside] at place
    have process := inv.process b
    unfold listed
    by_cases busy : InProcess s b
    · have share := process.mp busy
      exact .inr ⟨by omega,busy⟩
    · have share := process.not.mp busy
      exact .inl ⟨by omega,busy⟩
  · intro b inside
    have account := (inv.tally b).account
    rw [if_pos inside] at account
    exact account
  · intro p member b ptr idle
    have share := (inv.process b).mp (.inr (.inr ⟨p,member,ptr⟩))
    obtain ⟨place,refs,flight,account,single⟩ := inv.tally b
    have positive : 0 < s.ring.idle.queue.count b := List.count_pos_iff.mpr idle
    omega

theorem rxbuf_conserved (n pool : Nat) (s : Usb) (reached : Reached Usb.step Sane (.init n pool) s) : Conserved n s := by
  have inv := reached.invariant (Usb.Inv n) (init_inv n pool) (fun _ event inv sane => step_inv inv event sane)
  exact inv.conserved
end runs

def go : Event := .advance 0 true true
def received (pipe len : Nat) (b : Nat) : List Event := [.inToken pipe,go,go,go,.complete b len true,go,go,go,go]

def copied : Piece := ⟨true,.wifi,64,true⟩
def status : Piece := ⟨true,.ppduStatus,64,false⟩
def report : Piece := ⟨true,.other,32,false⟩

-- A transfer with a frame that is copied and a PPDU status: the buffer is back once the
-- status is recycled.
theorem rxbuf_conserved_status :
    Conserved 1 (Machine.run Usb.step (.init 1 4) (received 0 128 0 ++
      [.tasklet copied,.tasklet copied,.tasklet copied,.tasklet copied,.tasklet status,.tasklet status,.tasklet status,
        .tasklet status,.tasklet status,.tasklet status])) := by
  refine rxbuf_conserved 1 4 _ (Reached.start.run ?_)
  have answered : ∀ s, Sane s go := fun _ _ _ _ => rfl
  refine ⟨trivial,answered _,answered _,answered _,trivial,answered _,answered _,answered _,answered _,?_⟩
  refine ⟨trivial,trivial,?_,?_,?_,trivial,trivial,trivial,trivial,trivial,trivial⟩
  · intro carried
    cases carried
  · intro _ _ kept
    cases kept
  · intro _ _ _
    decide

def twoPipes : List Event :=
  [.inToken 0,go,go,go,.inToken 1,go,go,go,.complete 0 64 true,go,go,.complete 1 64 true,.advance 1 true true,.advance 1 true true]

theorem lost_nowhere (inside : b < n) (unlisted : listed s.ring b = 0)
    (calls : ∀ call ∈ s.calls, call.holds b + call.refs b = 0) (tasklet : s.pc.holds b + s.pc.refs b = 0)
    (packets : ∀ p ∈ alive s, p.rxbufPtr ≠ some b) : ¬ Conserved n s := by
  intro conserved
  rcases conserved.once b inside with ⟨one,_⟩ | ⟨_,process⟩
  · omega
  · rcases process with ⟨call,member,share⟩ | share | ⟨p,member,ptr⟩
    · exact share (calls call member)
    · exact share tasklet
    · exact packets p member ptr

-- The query fails after the buffer was taken; a transfer of another pipe follows one
-- of the MPDU pipe; 256 reports in one transfer, all of which refer to the buffer.
theorem rxbuf_lost :
    ¬ Conserved 1 (Machine.run Usb.step (.init 1 4) [.inToken 0,go,.advance 0 false true]) ∧
    ¬ Conserved 2 (Machine.run Usb.step (.init 2 4) (twoPipes ++ List.replicate 11 (.tasklet copied))) ∧
    ¬ Conserved 1 (Machine.run Usb.step (.init 1 256) (received 0 8192 0 ++ List.replicate 263 (.tasklet report))) := by
  refine ⟨?_,?_,?_⟩
  · exact lost_nowhere Nat.zero_lt_one (by decide) (by decide) (by decide) (by decide)
  · exact lost_nowhere Nat.one_lt_two (by decide) (by decide) (by decide) (by decide)
  · intro conserved
    have back : 0 ∈ (run Usb.step (.init 1 256) (received 0 8192 0 ++
        List.replicate 263 (.tasklet report))).ring.idle.queue := by decide +kernel
    have there : ⟨.other,some 0⟩ ∈ alive (run Usb.step (.init 1 256) (received 0 8192 0 ++
        List.replicate 263 (.tasklet report))) := by decide +kernel
    exact conserved.live _ there 0 rfl back
end Rtl8852au.UsbRx
