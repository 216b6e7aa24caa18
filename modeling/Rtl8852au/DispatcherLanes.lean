import Rtl8852au.DispatcherPool

namespace Rtl8852au.Dispr
open Machine List Bool

structure Lanes where
  high : List Nat
  low : List Nat

def Lanes.arrive (l : Lanes) (urgent : Bool) (i : Nat) : Lanes :=
  if urgent then {l with high:=l.high ++ [i]} else {l with low:=l.low ++ [i]}

def Lanes.serve (l : Lanes) : Lanes :=
  match l.high with
  | _ :: rest => {l with high:=rest}
  | [] => {l with low:=l.low.tail}

-- The dispatcher with its threads between two accesses to the message queues.
-- `hands` are the extensions that a sender or the thread has taken from a queue
-- and not put into one yet; `lanes` is what the wait queue should be.
structure Hub where
  disp : CmdDispatcher
  hands : List Nat
  lanes : Lanes

section
variable (h : Hub)

def Hub.mdlId (i : Nat) : Nat := (h.disp.msgExPool i).msg.mdlId
def Hub.evtId (i : Nat) : Nat := (h.disp.msgExPool i).msg.evtId

def popFrontPendingMsg (s : CmdDispatcher) : Option (Nat × CmdDispatcher) :=
  match s.msgPendQ with
  | [] => none
  | i :: rest => some (i,{s with msgPendQ:=rest})

-- One access to a queue, by any thread. `elsewhere` is whatever the threads do
-- in between, `reschedule` the end of `msg_dispatch` under that label,
-- `requeue` a round of the loop of `clear_pending_msg` and `drain` one of the
-- first inner loop of `clear_waiting_msg`.
inductive Access where
  | elsewhere (t : CmdDispatcher)
  | take
  | queue (i : Nat)
  | giveBack (i : Nat)
  | fetch
  | reschedule (i : Nat)
  | lift
  | requeue (i : Nat)
  | drain (i : Nat)

def Hub.taken : Option (Nat × CmdDispatcher) → Hub
  | none => h
  | some (i,t) => {h with disp:=t,hands:=i :: h.hands}

def Hub.fetched : Option (Nat × CmdDispatcher) → Hub
  | none => h
  | some (i,t) => ⟨t,i :: h.hands,h.lanes.serve⟩

def Hub.waits (i : Nat) (t : CmdDispatcher) : Hub := ⟨t,h.hands.erase i,h.lanes.arrive (isDisprCtrl (h.mdlId i)) i⟩

def access : Access → Hub
  | .elsewhere t => {h with disp:=t}
  | .take => h.taken (popFrontIdleMsg h.disp)
  | .queue i => h.waits i (queueMsg h.disp i (h.mdlId i))
  | .giveBack i => {h with disp:=returnMsg h.disp i,hands:=h.hands.erase i}
  | .fetch => h.fetched (popFrontWaitMsg h.disp)
  | .reschedule i =>
    if (h.disp.msgExPool i).status.pending then {h with disp:=pushBackPendingMsg h.disp i,hands:=h.hands.erase i}
    else h.waits i (pushBackWaitMsg h.disp i)
  | .lift => h.taken (popFrontPendingMsg h.disp)
  | .requeue i => h.waits i (requeueMsg h.disp i)
  | .drain i => h.waits i (pushBackWaitMsg h.disp i)

structure QueuesKept (s : CmdDispatcher) (hands : List Nat) (t : CmdDispatcher) : Prop where
  idle : t.msgIdleQ = s.msgIdleQ
  wait : t.msgWaitQ = s.msgWaitQ
  pend : t.msgPendQ = s.msgPendQ
  msg : ∀ i, i ∉ hands → (t.msgExPool i).msg.mdlId = (s.msgExPool i).msg.mdlId

def legal : Access → Prop
  | .elsewhere t => QueuesKept h.disp h.hands t
  | .take | .fetch | .lift => True
  | .queue i | .giveBack i | .reschedule i | .requeue i | .drain i => i ∈ h.hands

-- The tail of the wait queue is no place for a controller's message when
-- another one waits.
def tailOk (i : Nat) : Prop := isDisprCtrl (h.mdlId i) → ∀ j ∈ h.disp.msgWaitQ, isDisprCtrl (h.mdlId j)

-- The accesses that do not overlook it.
def orderly : Access → Prop
  | .requeue i => isDisprCtrl (h.evtId i) = false → tailOk h i
  | .reschedule i => (h.disp.msgExPool i).status.pending = false → tailOk h i
  | .drain i => tailOk h i
  | _ => True

def Hub.Apart : Prop := ∀ i, h.disp.msgIdleQ.count i + h.disp.msgWaitQ.count i + h.disp.msgPendQ.count i + h.hands.count i ≤ 1
end

structure Hub.Laned (h : Hub) : Prop where
  wait : h.disp.msgWaitQ = h.lanes.high ++ h.lanes.low
  high : ∀ i ∈ h.lanes.high, isDisprCtrl (h.mdlId i)
  low : ∀ i ∈ h.lanes.low, isDisprCtrl (h.mdlId i) = false

theorem pqInsert_between {before : Nat → Bool} (i : Nat) (low : List Nat) (stays : ∀ j ∈ high, before j = false)
    (overtakes : ∀ j ∈ low, before j) : pqInsert before i (high ++ low) = (high ++ [i]) ++ low := by
  induction high with
  | nil =>
    cases low with
    | nil => rfl
    | cons j rest => simp [pqInsert,overtakes j mem_cons_self]
  | cons j rest ih =>
    have stay := stays j mem_cons_self
    simp only [cons_append,pqInsert,stay,false_eq_true,if_false]
    rw [ih fun k member => stays k (mem_cons_of_mem _ member)]

theorem pqInsert_last {before : Nat → Bool} (i : Nat) (queue : List Nat) (stays : ∀ j ∈ queue, before j = false) :
    pqInsert before i queue = queue ++ [i] := by
  have all := pqInsert_between i [] stays fun _ none_ => nomatch none_
  simpa using all

structure Puts (s t : CmdDispatcher) (i : Nat) : Prop where
  idle : t.msgIdleQ = s.msgIdleQ
  pend : t.msgPendQ = s.msgPendQ
  wait : ∀ j, t.msgWaitQ.count j = s.msgWaitQ.count j + [i].count j
  msg : ∀ j, (t.msgExPool j).msg = (s.msgExPool j).msg

section
variable (s : CmdDispatcher)

theorem msg_setEx (i : Nat) (ex : MsgEx) (same : ex.msg = (s.msgExPool i).msg) (j : Nat) :
    ((s.setEx i ex).msgExPool j).msg = (s.msgExPool j).msg := by
  unfold CmdDispatcher.setEx
  by_cases here : j = i
  · subst here
    simpa using same
  · simp [here]

theorem puts_tail (i : Nat) : Puts s (pushBackWaitMsg s i) i :=
  ⟨rfl,rfl,(queued_push s i).wait,msg_setEx s i (enqueued (s.msgExPool i)) rfl⟩

theorem puts_insert (i : Nat) : Puts s (insertMsgByPriority s i) i :=
  ⟨rfl,rfl,(queued_insert s i).wait,msg_setEx s i (enqueued (s.msgExPool i)) rfl⟩

theorem puts_queueMsg (i mdlId : Nat) : Puts s (queueMsg s i mdlId) i := by
  unfold queueMsg
  split
  · exact puts_insert s i
  · exact puts_tail s i

theorem puts_requeue (i : Nat) : Puts s (requeueMsg s i) i := by
  unfold requeueMsg
  split
  · exact puts_insert s i
  · exact puts_tail s i

theorem Hub.Apart.waits {h : Hub} (apart : h.Apart) (held : i ∈ h.hands) (puts : Puts h.disp t i) : (h.waits i t).Apart := by
  intro j
  have place := apart j
  have wait := puts.wait j
  have there := count_pos_iff.mpr held
  unfold Hub.waits
  dsimp only
  rw [puts.idle,puts.pend,wait,count_erase]
  by_cases same : i = j
  · subst same
    simp only [count_singleton_self,beq_self_eq_true,if_true]
    omega
  · have other : (i == j) = false := by simpa using same
    simp only [count_singleton,other,false_eq_true,if_false]
    omega

theorem waits_mdlId {h : Hub} (puts : Puts h.disp t i) (j : Nat) : (h.waits i t).mdlId j = h.mdlId j :=
  congrArg MsgId.mdlId (puts.msg j)

theorem Hub.Laned.waits {h : Hub} (laned : h.Laned) (puts : Puts h.disp t i)
    (wait : t.msgWaitQ = (h.waits i t).lanes.high ++ (h.waits i t).lanes.low) : (h.waits i t).Laned := by
  refine ⟨wait,?_,?_⟩
  · intro j member
    rw [waits_mdlId puts]
    unfold Hub.waits Lanes.arrive at member
    dsimp only at member
    split at member
    · rename_i urgent
      rcases mem_append.mp member with before | now
      · exact laned.high j before
      · rw [mem_singleton.mp now]
        exact urgent
    · exact laned.high j member
  · intro j member
    rw [waits_mdlId puts]
    unfold Hub.waits Lanes.arrive at member
    dsimp only at member
    split at member
    · exact laned.low j member
    · rename_i plain
      rcases mem_append.mp member with before | now
      · exact laned.low j before
      · rw [mem_singleton.mp now]
        exact not_eq_true _ ▸ plain

theorem Hub.Laned.insert {h : Hub} (laned : h.Laned) :
    (h.waits i (insertMsgByPriority h.disp i)).Laned := by
  refine laned.waits (puts_insert h.disp i) ?_
  have ids (j : Nat) : (((h.disp.setEx i (enqueued (h.disp.msgExPool i))).msgExPool j).msg.mdlId) = h.mdlId j :=
    congrArg MsgId.mdlId (msg_setEx h.disp i (enqueued (h.disp.msgExPool i)) rfl j)
  unfold insertMsgByPriority Hub.waits Lanes.arrive notifyBkThread isHigherPriority
  dsimp only
  simp only [ids]
  have queue : (h.disp.setEx i (enqueued (h.disp.msgExPool i))).msgWaitQ = h.lanes.high ++ h.lanes.low := laned.wait
  rw [queue]
  split
  · rename_i urgent
    refine pqInsert_between i _ ?_ ?_
    · intro j member
      simp [laned.high j member]
    · intro j member
      simp [urgent,laned.low j member]
  · rename_i plain
    rw [pqInsert_last]
    · exact append_assoc ..
    · intro j _
      simp [plain]

theorem Hub.Laned.tail {h : Hub} (laned : h.Laned) : (h.waits i (pushBackWaitMsg h.disp i)).Laned ↔ tailOk h i := by
  constructor
  · intro after urgent j waiting
    have wait := after.wait
    have isWait : (h.waits i (pushBackWaitMsg h.disp i)).disp.msgWaitQ = h.lanes.high ++ h.lanes.low ++ [i] :=
      congrArg (· ++ [i]) laned.wait
    have isLanes : (h.waits i (pushBackWaitMsg h.disp i)).lanes = {h.lanes with high:=h.lanes.high ++ [i]} := by
      simp [Hub.waits,Lanes.arrive,urgent]
    rw [isWait,isLanes,append_assoc,append_assoc] at wait
    have low := append_cancel_left wait
    rw [laned.wait] at waiting
    rcases mem_append.mp waiting with fast | slow
    · exact laned.high j fast
    · -- The slow lane would begin with the message itself.
      cases isLow : h.lanes.low with
      | nil => rw [isLow] at slow; exact nomatch slow
      | cons k rest =>
        rw [isLow] at low
        have same : k = i := (cons.inj low).1
        have plain := laned.low k (isLow ▸ mem_cons_self)
        rw [same,urgent] at plain
        exact nomatch plain
  · intro ok
    refine laned.waits (puts_tail h.disp i) ?_
    have isWait : (pushBackWaitMsg h.disp i).msgWaitQ = h.lanes.high ++ h.lanes.low ++ [i] := congrArg (· ++ [i]) laned.wait
    rw [isWait]
    unfold Hub.waits Lanes.arrive
    dsimp only
    split
    · rename_i urgent
      have empty : h.lanes.low = [] := by
        rw [eq_nil_iff_forall_not_mem]
        intro j slow
        have fast := ok urgent j (laned.wait ▸ mem_append_right _ slow)
        rw [laned.low j slow] at fast
        exact nomatch fast
      rw [empty]
      simp
    · exact append_assoc ..

theorem returnMsg_places (i : Nat) :
    (returnMsg s i).msgIdleQ = s.msgIdleQ ++ [i] ∧ (returnMsg s i).msgWaitQ = s.msgWaitQ ∧
      (returnMsg s i).msgPendQ = s.msgPendQ ∧ ∀ j, j ≠ i → ((returnMsg s i).msgExPool j).msg = (s.msgExPool j).msg := by
  have op (s : CmdDispatcher) : (onAbortMsgComplete s).msgExPool = s.msgExPool := by
    unfold onAbortMsgComplete pushBackTokenOpInfo
    dsimp only
    split <;> rfl
  have evt (s : CmdDispatcher) (msg : MsgId) : (clearPendingEvt s msg).msgExPool = s.msgExPool := by
    unfold clearPendingEvt
    split <;> rfl
  obtain ⟨t,same,parts⟩ := returnMsg_parts s i
  refine ⟨?_,?_,?_,?_⟩
  · rw [parts]
    exact congrArg (· ++ [i]) same.idle
  · rw [parts]
    exact same.wait
  · rw [parts]
    exact same.pend
  · intro j other
    unfold returnMsg
    dsimp only [CmdDispatcher.note,CmdDispatcher.setEx]
    rw [Function.update_of_ne other,evt]
    split
    · rw [op]
    · rfl

theorem Hub.Laned.same {h h' : Hub} (laned : h.Laned) (lanes : h'.lanes = h.lanes) (wait : h'.disp.msgWaitQ = h.disp.msgWaitQ)
    (msg : ∀ j ∈ h.disp.msgWaitQ, h'.mdlId j = h.mdlId j) : h'.Laned := by
  refine ⟨by rw [wait,lanes,laned.wait],?_,?_⟩
  · intro j member
    rw [lanes] at member
    rw [msg j (laned.wait ▸ mem_append_left _ member)]
    exact laned.high j member
  · intro j member
    rw [lanes] at member
    rw [msg j (laned.wait ▸ mem_append_right _ member)]
    exact laned.low j member

theorem Hub.Apart.notHeld {h : Hub} (apart : h.Apart) (waiting : i ∈ h.disp.msgWaitQ) : i ∉ h.hands ∧ i ∉ h.disp.msgIdleQ := by
  have place := apart i
  have there := count_pos_iff.mpr waiting
  constructor
  · intro held
    have here := count_pos_iff.mpr held
    omega
  · intro idle
    have here := count_pos_iff.mpr idle
    omega

theorem Hub.Laned.served {h : Hub} (laned : h.Laned) (wait : h.disp.msgWaitQ = i :: rest) :
    rest = h.lanes.serve.high ++ h.lanes.serve.low ∧ (∀ j ∈ h.lanes.serve.high, j ∈ h.lanes.high) ∧
      ∀ j ∈ h.lanes.serve.low, j ∈ h.lanes.low := by
  have queue := laned.wait
  rw [wait] at queue
  unfold Lanes.serve
  cases isHigh : h.lanes.high with
  | cons k high =>
    rw [isHigh] at queue
    exact ⟨(cons.inj queue).2,fun j member => mem_cons_of_mem _ member,fun _ member => member⟩
  | nil =>
    rw [isHigh,nil_append] at queue
    refine ⟨?_,fun _ none_ => none_,fun j member => mem_of_mem_tail member⟩
    rw [← queue]
    rfl

theorem Hub.Laned.fetched {h : Hub} (laned : h.Laned) : (h.fetched (popFrontWaitMsg h.disp)).Laned := by
  unfold popFrontWaitMsg
  cases wait : h.disp.msgWaitQ with
  | nil => exact laned
  | cons i rest =>
    obtain ⟨queue,high,low⟩ := laned.served wait
    dsimp only [Hub.fetched]
    have ids (status : MsgStatus) (j : Nat) :
        (({h.disp with msgWaitQ:=rest}.setEx i {h.disp.msgExPool i with status}).msgExPool j).msg = (h.disp.msgExPool j).msg :=
      msg_setEx {h.disp with msgWaitQ:=rest} i {h.disp.msgExPool i with status} rfl j
    refine ⟨queue,?_,?_⟩
    · intro j member
      unfold Hub.mdlId
      rw [ids]
      exact laned.high j (high j member)
    · intro j member
      unfold Hub.mdlId
      rw [ids]
      exact laned.low j (low j member)

theorem count_out {hands : List Nat} (held : i ∈ hands) (j : Nat) : hands.count j = (hands.erase i).count j + [i].count j := by
  have there := count_pos_iff.mpr held
  rw [count_erase]
  by_cases same : i = j
  · subst same
    simp only [beq_self_eq_true,if_true,count_singleton_self]
    omega
  · have other : (i == j) = false := by simpa using same
    simp [count_singleton,other]

theorem Hub.Apart.access {h : Hub} (apart : h.Apart) (allowed : legal h a) : (access h a).Apart := by
  cases a with
  | elsewhere t =>
    intro j
    have place := apart j
    rw [← allowed.idle,← allowed.wait,← allowed.pend] at place
    exact place
  | take =>
    unfold Dispr.access popFrontIdleMsg
    cases idle : h.disp.msgIdleQ with
    | nil => exact apart
    | cons i rest =>
      intro j
      have place := apart j
      rw [idle] at place
      simp only [Hub.taken,CmdDispatcher.setEx,count_cons] at place ⊢
      omega
  | queue i => exact apart.waits allowed (puts_queueMsg h.disp i _)
  | giveBack i =>
    obtain ⟨idle,wait,pend,_⟩ := returnMsg_places h.disp i
    intro j
    have place := apart j
    rw [count_out allowed j] at place
    unfold Dispr.access
    dsimp only
    rw [idle,wait,pend,count_append]
    omega
  | fetch =>
    unfold Dispr.access popFrontWaitMsg
    cases wait : h.disp.msgWaitQ with
    | nil => exact apart
    | cons i rest =>
      intro j
      have place := apart j
      rw [wait] at place
      simp only [Hub.fetched,CmdDispatcher.setEx,count_cons] at place ⊢
      omega
  | reschedule i =>
    unfold Dispr.access
    dsimp only
    split
    · intro j
      have place := apart j
      rw [count_out allowed j] at place
      have pended : (pushBackPendingMsg h.disp i).msgIdleQ = h.disp.msgIdleQ ∧ (pushBackPendingMsg h.disp i).msgWaitQ = h.disp.msgWaitQ ∧
          (pushBackPendingMsg h.disp i).msgPendQ = h.disp.msgPendQ ++ [i] := by
        unfold pushBackPendingMsg
        dsimp only
        split <;> exact ⟨rfl,rfl,rfl⟩
      obtain ⟨idle,wait,pend⟩ := pended
      dsimp only
      rw [idle,wait,pend,count_append]
      omega
    · exact apart.waits allowed (puts_tail h.disp i)
  | lift =>
    unfold Dispr.access popFrontPendingMsg
    cases pend : h.disp.msgPendQ with
    | nil => exact apart
    | cons i rest =>
      intro j
      have place := apart j
      rw [pend] at place
      simp only [Hub.taken,count_cons] at place ⊢
      omega
  | requeue i => exact apart.waits allowed (puts_requeue h.disp i)
  | drain i => exact apart.waits allowed (puts_tail h.disp i)

theorem Hub.Laned.access {h : Hub} (laned : h.Laned) (apart : h.Apart) (allowed : legal h a) :
    (access h a).Laned ↔ orderly h a := by
  cases a with
  | elsewhere t =>
    refine iff_of_true (laned.same rfl allowed.wait fun j waiting => ?_) trivial
    exact allowed.msg j (apart.notHeld waiting).1
  | take =>
    refine iff_of_true ?_ trivial
    unfold Dispr.access popFrontIdleMsg
    cases idle : h.disp.msgIdleQ with
    | nil => exact laned
    | cons i rest =>
      refine laned.same rfl rfl fun j waiting => ?_
      have other : j ≠ i := by
        rintro rfl
        exact (apart.notHeld waiting).2 (idle ▸ mem_cons_self)
      simp [Hub.mdlId,Hub.taken,CmdDispatcher.setEx,other]
  | queue i =>
    refine iff_of_true ?_ trivial
    unfold Dispr.access queueMsg
    dsimp only
    split
    · exact laned.insert
    · rename_i plain
      exact laned.tail.mpr fun urgent => absurd urgent plain
  | giveBack i =>
    obtain ⟨_,wait,_,msg⟩ := returnMsg_places h.disp i
    refine iff_of_true (laned.same rfl wait fun j waiting => ?_) trivial
    have other : j ≠ i := by
      rintro rfl
      exact (apart.notHeld waiting).1 allowed
    exact congrArg MsgId.mdlId (msg j other)
  | fetch => exact iff_of_true laned.fetched trivial
  | reschedule i =>
    unfold Dispr.access orderly
    dsimp only
    split
    · rename_i pended
      refine iff_of_true (laned.same rfl ?_ ?_) fun other => absurd pended (by simp [other])
      · unfold pushBackPendingMsg
        dsimp only
        split <;> rfl
      · intro j _
        have ids : ((pushBackPendingMsg h.disp i).msgExPool j).msg = (h.disp.msgExPool j).msg := by
          unfold pushBackPendingMsg
          dsimp only
          split <;> exact msg_setEx h.disp i (enqueued (h.disp.msgExPool i)) rfl j
        exact congrArg MsgId.mdlId ids
    · rename_i plain
      rw [laned.tail]
      exact ⟨fun ok _ => ok,fun ok => ok (by simpa using plain)⟩
  | lift =>
    refine iff_of_true ?_ trivial
    unfold Dispr.access popFrontPendingMsg
    cases pend : h.disp.msgPendQ with
    | nil => exact laned
    | cons i rest => exact laned.same rfl rfl fun _ _ => rfl
  | requeue i =>
    unfold Dispr.access orderly requeueMsg
    dsimp only [Hub.evtId]
    split
    · rename_i isCtrl
      exact iff_of_true laned.insert fun other => by
        rw [isCtrl] at other
        cases other
    · rename_i plain
      rw [laned.tail]
      exact ⟨fun ok _ => ok,fun ok => ok (by simpa using plain)⟩
  | drain i => exact laned.tail

theorem QueuesKept.setEx (i : Nat) (ex : MsgEx) (same : i ∈ hands ∨ ex.msg = (s.msgExPool i).msg) :
    QueuesKept s hands (s.setEx i ex) := by
  refine ⟨rfl,rfl,rfl,fun j free => ?_⟩
  unfold CmdDispatcher.setEx
  by_cases here : j = i
  · subst here
    rcases same with held | same
    · exact absurd held free
    · simp [same]
  · simp [here]
end

def Hub.start (s : CmdDispatcher) : Hub := ⟨s,[],⟨[],[]⟩⟩

-- In every run of accesses whose tail pushes overlook no waiting message the
-- controller's messages come first, each class in the order it came; and the
-- first access that does overlook one ends this.
theorem controller_first (path : Reached access (fun h a => legal h a ∧ orderly h a)
    (Hub.start (disprStart moduleQ bitmap basemap ctrlPresent)) h) :
    h.Laned ∧ ∀ a, legal h a → ((access h a).Laned ↔ orderly h a) := by
  have all := path.invariant (fun h => h.Apart ∧ h.Laned) ?_ fun h a both allowed =>
    ⟨both.1.access allowed.1,(both.2.access both.1 allowed.1).mpr allowed.2⟩
  · exact ⟨all.2,fun a allowed => all.2.access all.1 allowed⟩
  · refine ⟨fun i => ?_,⟨rfl,(fun _ none_ => nomatch none_),fun _ none_ => nomatch none_⟩⟩
    have place := (kept_start moduleQ bitmap basemap ctrlPresent).places i
    have atMost : (if i < maxPhlMsgNum then 1 else 0) ≤ 1 := by split <;> decide
    exact place ▸ atMost

def Hub.sets (h : Hub) (i : Nat) (ex : MsgEx) : Hub := access h (.elsewhere (h.disp.setEx i ex))
def Hub.sent (h : Hub) (i : Nat) (msg : MsgId) : Hub := access ((access h .take).sets i {msg}) (.queue i)

-- A module's message is pended, another module's waits, the controller's
-- overtakes it, and the pended one is put back behind both.
def startHub : Hub := Hub.start (disprStart (fun _ => []) 0 0 true)
def fetchedHub : Hub := access (startHub.sent 0 {mdlId:=41,evtId:=200}) .fetch
def markedHub : Hub := fetchedHub.sets 0 {msg:={mdlId:=41,evtId:=200},status:={pending:=true}}
def pendedHub : Hub := access markedHub (.reschedule 0)
def overtakenHub : Hub := (pendedHub.sent 1 {mdlId:=42,evtId:=201}).sent 2 {mdlId:=2,evtId:=101}
def clearedHub : Hub := access (access overtakenHub .lift) (.requeue 0)

abbrev Comes : Hub → Prop := Reached access (fun h a => legal h a ∧ orderly h a) startHub

theorem Comes.sets (comes : Comes h) (held : i ∈ h.hands) (ex : MsgEx) : Comes (h.sets i ex) :=
  comes.step ⟨QueuesKept.setEx h.disp i ex (.inl held),trivial⟩

theorem Comes.sent (comes : Comes h) (held : i ∈ (access h .take).hands) (msg : MsgId) : Comes (h.sent i msg) := by
  have taken : Comes (access h .take) := comes.step ⟨trivial,trivial⟩
  exact (Comes.sets taken held {msg}).step ⟨held,trivial⟩

theorem clearedHub_comes : Comes clearedHub := by
  have first : Comes (startHub.sent 0 _) := Comes.sent .start (by decide +kernel) {mdlId:=41,evtId:=200}
  have fetched : Comes fetchedHub := first.step ⟨trivial,trivial⟩
  have isPending : (markedHub.disp.msgExPool 0).status.pending = true := by decide +kernel
  have held : 0 ∈ markedHub.hands := by decide +kernel
  have marked : Comes markedHub := fetched.sets (by decide +kernel) _
  have pended : Comes pendedHub := marked.step ⟨held,fun plain => absurd (isPending.symm.trans plain) (by decide)⟩
  have second : Comes (pendedHub.sent 1 _) := Comes.sent pended (by decide +kernel) {mdlId:=42,evtId:=201}
  have overtaken : Comes overtakenHub := Comes.sent second (by decide +kernel) _
  have lifted : Comes (access overtakenHub .lift) := overtaken.step ⟨trivial,trivial⟩
  have back : 0 ∈ (access overtakenHub .lift).hands := by decide +kernel
  have plain : ¬isDisprCtrl ((access overtakenHub .lift).mdlId 0) := by decide +kernel
  exact lifted.step ⟨back,fun _ urgent => absurd urgent plain⟩

theorem controller_first_queued :
    overtakenHub.disp.msgWaitQ = [2,1] ∧ clearedHub.disp.msgWaitQ = [2,1,0] ∧ clearedHub.Laned ∧ (access clearedHub .fetch).Laned := by
  have laned := controller_first clearedHub_comes
  exact ⟨by decide +kernel,by decide +kernel,laned.1,(laned.2 .fetch trivial).mpr trivial⟩

end Rtl8852au.Dispr
