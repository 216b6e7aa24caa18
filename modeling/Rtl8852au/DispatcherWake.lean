import Rtl8852au.DispatcherEngine

namespace Rtl8852au.Dispr
open Machine List Nat Function CmdDispatcher

structure Rung (s t : CmdDispatcher) : Prop where
  sema : s.msgQSema ≤ t.msgQSema
  wait : t.msgWaitQ.length + s.msgQSema ≤ s.msgWaitQ.length + t.msgQSema
  ops : t.tokenOpQ ≠ [] → s.tokenOpQ ≠ [] ∨ s.msgQSema < t.msgQSema
  flag : t.status.clrPendMsg = true → s.status.clrPendMsg = true ∨ s.msgQSema < t.msgQSema
  kept : ∀ i ∈ s.msgWaitQ, i ∈ t.msgWaitQ
  parked : ∀ i ∈ s.msgPendQ, i ∈ t.msgWaitQ ∨ i ∈ t.msgPendQ
  due : ∀ i ∈ s.msgPendQ, s.status.clrPendMsg = true → i ∈ t.msgWaitQ ∨ i ∈ t.msgPendQ ∧ t.status.clrPendMsg = true

structure SameBells (s t : CmdDispatcher) : Prop where
  wait : t.msgWaitQ = s.msgWaitQ
  pend : t.msgPendQ = s.msgPendQ
  ops : t.tokenOpQ = s.tokenOpQ
  flag : t.status.clrPendMsg = s.status.clrPendMsg
  sema : t.msgQSema = s.msgQSema

theorem SameBells.refl (s : CmdDispatcher) : SameBells s s := ⟨rfl,rfl,rfl,rfl,rfl⟩

theorem SameBells.trans (one : SameBells s t) (two : SameBells t u) : SameBells s u :=
  ⟨two.wait.trans one.wait,two.pend.trans one.pend,two.ops.trans one.ops,two.flag.trans one.flag,two.sema.trans one.sema⟩

theorem SameBells.rung (same : SameBells s t) : Rung s t := by
  constructor
  · exact Nat.le_of_eq same.sema.symm
  · exact Nat.le_of_eq (by rw [same.sema,same.wait])
  · rw [same.ops]
    exact .inl
  · rw [same.flag]
    exact .inl
  · rw [same.wait]
    exact fun _ => id
  · rw [same.pend]
    exact fun _ => .inr
  · rw [same.pend,same.flag]
    exact fun _ member up => .inr ⟨member,up⟩

theorem Rung.refl (s : CmdDispatcher) : Rung s s := (SameBells.refl s).rung

theorem Rung.trans (one : Rung s t) (two : Rung t u) : Rung s u := by
  have rises := one.sema
  have again := two.sema
  constructor
  · omega
  · have first := one.wait
    have second := two.wait
    omega
  · intro queued
    rcases two.ops queued with queued | more
    · rcases one.ops queued with queued | more
      · exact .inl queued
      · exact .inr (by omega)
    · exact .inr (by omega)
  · intro up
    rcases two.flag up with up | more
    · rcases one.flag up with up | more
      · exact .inl up
      · exact .inr (by omega)
    · exact .inr (by omega)
  · intro i member
    exact two.kept i (one.kept i member)
  · intro i member
    rcases one.parked i member with moved | still
    · exact .inl (two.kept i moved)
    · exact two.parked i still
  · intro i member up
    rcases one.due i member up with moved | ⟨still,up⟩
    · exact .inl (two.kept i moved)
    · exact two.due i still up

theorem Rung.goto (rung : Rung s t) (pc : Pc) : Rung s (t.goto pc) := rung.trans (SameBells.rung ⟨rfl,rfl,rfl,rfl,rfl⟩)

section
variable (s : CmdDispatcher)

theorem sameBells_setOpInfo (node : OpNode) (info : TokenOpInfo) : SameBells s (setOpInfo s node info) := by
  cases node <;> exact ⟨rfl,rfl,rfl,rfl,rfl⟩

theorem rung_pushOp (node : OpNode) (type : OpType) (data : Nat) :
    Rung s (pushBackTokenOpInfo s node type data).1 := by
  unfold pushBackTokenOpInfo
  split
  · exact .refl s
  · apply (sameBells_setOpInfo s node ⟨true,type,data⟩).rung.trans
    constructor
    · exact le_succ _
    · simp only [notifyBkThread]
      omega
    · intro _
      exact .inr (lt_succ_self _)
    · exact .inl
    · exact fun _ => id
    · exact fun _ => .inr
    · exact fun _ member up => .inr ⟨member,up⟩

theorem rung_abortComplete : Rung s (onAbortMsgComplete s) := by
  have cleared : SameBells s {s with status:={s.status with waitAbortMsgDone:=false}} := ⟨rfl,rfl,rfl,rfl,rfl⟩
  exact cleared.rung.trans (rung_pushOp _ _ _ _)

theorem sameBells_completeMsg (i : Nat) : SameBells s (completeMsg s i).1 := by
  unfold completeMsg
  dsimp only
  split
  · split <;> exact ⟨rfl,rfl,rfl,rfl,rfl⟩
  · exact .refl s

theorem sameBells_clearEvt (msg : MsgId) : SameBells s (clearPendingEvt s msg) := by
  unfold clearPendingEvt
  split
  · exact ⟨rfl,rfl,rfl,rfl,rfl⟩
  · exact .refl s

theorem rung_returnMsg (i : Nat) : Rung s (returnMsg s i) := by
  have aborted : Rung s (if (s.msgExPool i).status.forAbort then onAbortMsgComplete s else s) := by
    split
    · exact rung_abortComplete s
    · exact .refl s
  have cleared := sameBells_clearEvt (if (s.msgExPool i).status.forAbort then onAbortMsgComplete s else s) (s.msgExPool i).msg
  have stored : SameBells (if (s.msgExPool i).status.forAbort then onAbortMsgComplete s else s) (returnMsg s i) :=
    {cleared with}
  exact aborted.trans stored.rung

theorem rung_pushIdle (i : Nat) : Rung s (pushBackIdleMsg s i) := (sameBells_completeMsg s i).rung.trans (rung_returnMsg _ i)
end
section
variable (before : Nat → Bool) (i : Nat) (queue : List Nat)

theorem mem_pqInsert (j : Nat) :
    j ∈ pqInsert before i queue ↔ j = i ∨ j ∈ queue := by
  induction queue with
  | nil => simp [pqInsert]
  | cons k rest ih =>
    unfold pqInsert
    split
    · exact mem_cons
    · simp only [mem_cons,ih]
      tauto

theorem length_pqInsert :
    (pqInsert before i queue).length = queue.length + 1 := by
  induction queue with
  | nil => rfl
  | cons k rest ih =>
    unfold pqInsert
    split
    · rfl
    · simp only [length_cons,ih]
end

theorem rung_queued (wait : t.msgWaitQ.length = s.msgWaitQ.length+1) (more : ∀ j ∈ s.msgWaitQ, j ∈ t.msgWaitQ)
    (pend : t.msgPendQ = s.msgPendQ) (ops : t.tokenOpQ = s.tokenOpQ) (flag : t.status = s.status)
    (sema : t.msgQSema = s.msgQSema+1) : Rung s t := by
  constructor
  · omega
  · omega
  · rw [ops]
    exact .inl
  · rw [flag]
    exact .inl
  · exact more
  · rw [pend]
    exact fun _ => .inr
  · rw [pend,flag]
    exact fun _ member up => .inr ⟨member,up⟩

section
variable (s : CmdDispatcher)

theorem rung_pushWait (i : Nat) : Rung s (pushBackWaitMsg s i) ∧ i ∈ (pushBackWaitMsg s i).msgWaitQ := by
  constructor
  · apply rung_queued <;> simp [pushBackWaitMsg,notifyBkThread,setEx]
    exact fun j member => .inl member
  · simp [pushBackWaitMsg,notifyBkThread,setEx]

theorem rung_insert (i : Nat) :
    Rung s (insertMsgByPriority s i) ∧ i ∈ (insertMsgByPriority s i).msgWaitQ := by
  constructor
  · apply rung_queued <;> simp [insertMsgByPriority,notifyBkThread,setEx,length_pqInsert,mem_pqInsert]
    exact fun j member => .inr member
  · simp [insertMsgByPriority,notifyBkThread,setEx,mem_pqInsert]

theorem rung_requeue (i : Nat) : Rung s (requeueMsg s i) ∧ i ∈ (requeueMsg s i).msgWaitQ := by
  unfold requeueMsg
  split
  · exact rung_insert s i
  · exact rung_pushWait s i

theorem rung_requeues (queue : List Nat) (s : CmdDispatcher) :
    Rung s (queue.foldl requeueMsg s) ∧ ∀ i ∈ queue, i ∈ (queue.foldl requeueMsg s).msgWaitQ := by
  induction queue generalizing s with
  | nil => exact ⟨.refl s,nofun⟩
  | cons i rest ih =>
    obtain ⟨rung,there⟩ := rung_requeue s i
    obtain ⟨later,all⟩ := ih (requeueMsg s i)
    refine ⟨rung.trans later,?_⟩
    intro j member
    rcases mem_cons.mp member with rfl | member
    · exact later.kept j there
    · exact all j member

theorem requeue_status (i : Nat) : (requeueMsg s i).status = s.status := by
  unfold requeueMsg
  split <;> rfl

theorem requeues_status (queue : List Nat) (s : CmdDispatcher) : (queue.foldl requeueMsg s).status = s.status := by
  induction queue generalizing s with
  | nil => rfl
  | cons i rest ih => exact (ih (requeueMsg s i)).trans (requeue_status s i)

theorem rung_clearPending : Rung s (clearPendingMsg s) ∧ (clearPendingMsg s).status.clrPendMsg = false ∧
    (s.status.clrPendMsg → ∀ i ∈ s.msgPendQ, i ∈ (clearPendingMsg s).msgWaitQ) := by
  unfold clearPendingMsg
  split
  · rename_i up
    obtain ⟨rung,all⟩ := rung_requeues s.msgPendQ {s with status:={s.status with clrPendMsg:=false},msgPendQ:=[]}
    have down : (s.msgPendQ.foldl requeueMsg {s with status:={s.status with clrPendMsg:=false},msgPendQ:=[]}).status.clrPendMsg =
        false := by rw [requeues_status]
    refine ⟨⟨rung.sema,rung.wait,rung.ops,?_,rung.kept,?_,?_⟩,down,fun _ => all⟩
    · intro still
      rw [down] at still
      cases still
    · exact fun i member => .inl (all i member)
    · exact fun i member _ => .inl (all i member)
  · rename_i down
    exact ⟨.refl s,by simpa using down,fun up => absurd up down⟩

theorem rung_queueMsg (i mdlId : Nat) : Rung s (queueMsg s i mdlId) := by
  unfold queueMsg
  split
  · exact (rung_insert s i).1
  · exact (rung_pushWait s i).1
end

theorem sameBells_popIdle (popped : popFrontIdleMsg s = some (i,t)) : SameBells s t := by
  unfold popFrontIdleMsg at popped
  split at popped
  · cases popped
  · cases popped
    exact ⟨rfl,rfl,rfl,rfl,rfl⟩

section
variable (s : CmdDispatcher)

theorem sameBells_setEx (i : Nat) (ex : MsgEx) : SameBells s (s.setEx i ex) := ⟨rfl,rfl,rfl,rfl,rfl⟩
theorem sameBells_note (n : Note) : SameBells s (s.note n) := ⟨rfl,rfl,rfl,rfl,rfl⟩

theorem sameBells_waitAbort (abort : Bool) (s : CmdDispatcher) :
    SameBells s (if abort then {s with status:={s.status with waitAbortMsgDone:=true}} else s) := by
  cases abort <;> exact ⟨rfl,rfl,rfl,rfl,rfl⟩

theorem rung_send (msg : MsgId) (attr : Option MsgAttr) : Rung s (disprSendMsg s msg attr).1 := by
  unfold disprSendMsg
  split
  · exact .refl s
  split
  · exact .refl s
  split
  · exact .refl s
  cases popped : popFrontIdleMsg s with
  | none => exact .refl s
  | some taken =>
    obtain ⟨i,t⟩ := taken
    have same := sameBells_popIdle popped
    dsimp only
    split
    · apply (same.trans (sameBells_setEx t i _)).rung.trans
      exact rung_pushIdle _ i
    · apply (same.trans (sameBells_waitAbort _ t)).rung.trans
      apply (sameBells_setEx _ i _).rung.trans
      apply (rung_queueMsg _ i msg.mdlId).trans
      exact (sameBells_note _ _).rung

theorem rung_clrPending : Rung s (disprClrPendingMsg s) ∧ (disprClrPendingMsg s).status.clrPendMsg := by
  refine ⟨⟨le_succ _,?_,.inl,fun _ => .inr (lt_succ_self _),fun _ => id,fun _ => .inr,
    fun _ member _ => .inr ⟨member,rfl⟩⟩,rfl⟩
  simp only [disprClrPendingMsg,notifyBkThread]
  omega
end

theorem rung_follows : Follows Rung where
  calm calm := SameBells.rung ⟨calm.wait,calm.pend,calm.ops,calm.flag,calm.sema⟩
  trans := .trans
  clrPending s := (rung_clrPending s).1
  send := rung_send
  pushOp := rung_pushOp
  goto s pc := (Rung.refl s).goto pc
  note _ _ _ := SameBells.rung ⟨rfl,rfl,rfl,rfl,rfl⟩
  clearPending s := (rung_clearPending s).1

section
variable (s : CmdDispatcher)

theorem rung_park (i : Nat) : Rung s {s with msgPendQ:=s.msgPendQ ++ [i]} :=
  ⟨Nat.le_refl _,Nat.le_refl _,.inl,.inl,fun _ => id,fun _ member => .inr (mem_append_left _ member),
    fun _ member up => .inr ⟨mem_append_left _ member,up⟩⟩

theorem rung_pushPending (i : Nat) :
    Rung s (pushBackPendingMsg s i) ∧ i ∈ (pushBackPendingMsg s i).msgPendQ ∧
      (pushBackPendingMsg s i).status.clrPendMsg = s.status.clrPendMsg := by
  have stored : SameBells s (if (enqueued (s.msgExPool i)).status.clrSndrMsgIfPending then
      (s.setEx i (enqueued (s.msgExPool i))).setPendingEvt (enqueued (s.msgExPool i)).msg.mdlId (enqueued (s.msgExPool i)).msg.evtId
      else s.setEx i (enqueued (s.msgExPool i))) := by
    split <;> exact ⟨rfl,rfl,rfl,rfl,rfl⟩
  exact ⟨stored.rung.trans (rung_park _ i),mem_append_right _ mem_cons_self,stored.flag⟩

theorem rung_dispatchStep (i : Nat) (stage : Stage) (ret : MdlRet) : Rung s (dispatchStep s i stage ret) := by
  rcases leaves_cases stage with stays | rfl | rfl | rfl
  · exact rung_follows.flows.dispatchStep s i stage ret stays
  · unfold dispatchStep
    dsimp only
    split
    · exact (rung_pushPending s i).1.goto _
    · exact (rung_pushWait s i).1.goto _
  · have done := (sameBells_completeMsg s i).rung
    unfold dispatchStep
    dsimp only
    split
    · exact done.goto _
    · exact (done.trans (rung_returnMsg _ i)).goto _
  · exact (rung_returnMsg s i).goto _

theorem rung_popOp (queued : s.tokenOpQ = node :: rest) : Rung s {s with tokenOpQ:=rest} :=
  ⟨Nat.le_refl _,Nat.le_refl _,fun _ => .inl (by rw [queued]; simp),.inl,fun _ => id,fun _ => .inr,
    fun _ member up => .inr ⟨member,up⟩⟩

theorem rung_thread (ret : MdlRet) (pc : s.pc ≠ .wait) (other : s.pc ≠ .fetch) : Rung s (threadStep s ret) := by
  rcases early_cases s.pc with isEarly | waits | fetches | ⟨i,stage,held⟩
  · exact rung_follows.thread s ret isEarly fun _ _ => rung_popOp s
  · exact absurd waits pc
  · exact absurd fetches other
  · rw [threadStep_held held]
    exact rung_dispatchStep s i stage ret

theorem rung_made (call : Call) : Rung s (made s call) := rung_follows.made s call
end

structure Settled (n : Nat) (s : CmdDispatcher) : Prop where
  wait : s.msgWaitQ.length ≤ n
  ops : s.tokenOpQ ≠ [] → 0 < n
  flag : s.status.clrPendMsg = true → 0 < n

theorem Settled.rung (settled : Settled n s) (rung : Rung s t) (units : m + s.msgQSema = n + t.msgQSema) : Settled m t := by
  have rises := rung.sema
  have wait := rung.wait
  have enough := settled.wait
  constructor
  · omega
  · intro queued
    rcases rung.ops queued with queued | more
    · have some := settled.ops queued
      omega
    · omega
  · intro up
    rcases rung.flag up with up | more
    · have some := settled.flag up
      omega
    · omega

-- The dispatcher that is served: its round has taken one unit, and the message
-- for it is still to be fetched or has been.
inductive Serving (n : Nat) (s : CmdDispatcher) : Prop where
  | early (pc : early s.pc = true) (wait : s.msgWaitQ.length ≤ n+1) (flag : s.status.clrPendMsg = true → 0 < n)
  | fetch (pc : s.pc = .fetch) (wait : s.msgWaitQ.length ≤ n+1) (ops : s.tokenOpQ ≠ [] → 0 < n)
      (flag : s.status.clrPendMsg = true → 0 < n)
  | late (pc : ∃ i stage, s.pc = .held i stage) (settled : Settled n s)
  | ended (pc : s.pc = .wait) (settled : Settled n s)

theorem fetch_serving (pc : s.pc = .fetch) (wait : s.msgWaitQ.length ≤ n+1) (ops : s.tokenOpQ ≠ [] → 0 < n)
    (flag : s.status.clrPendMsg → 0 < n) (ret : MdlRet) :
    (threadStep s ret).msgQSema = s.msgQSema ∧ Serving n (threadStep s ret) := by
  unfold threadStep
  rw [pc]
  cases queue : s.msgWaitQ with
  | nil =>
    simp only [popFrontWaitMsg,queue]
    have empty : (s.goto .wait).msgWaitQ.length ≤ n := by simp [goto,queue]
    exact ⟨rfl,.ended rfl ⟨empty,ops,flag⟩⟩
  | cons i rest =>
    simp only [popFrontWaitMsg,queue]
    rw [queue,length_cons] at wait
    exact ⟨rfl,.late ⟨i,.popped,rfl⟩ ⟨le_of_succ_le_succ wait,ops,flag⟩⟩

theorem early_rung (wait : s.msgWaitQ.length ≤ n+1) (flag : s.status.clrPendMsg → 0 < n) (rung : Rung s t)
    (units : m + s.msgQSema = n + t.msgQSema) : t.msgWaitQ.length ≤ m+1 ∧ (t.status.clrPendMsg → 0 < m) := by
  have rises := rung.sema
  have longer := rung.wait
  constructor
  · omega
  · intro up
    rcases rung.flag up with up | more
    · have some := flag up
      omega
    · omega

theorem dispatchStep_late (s : CmdDispatcher) (i : Nat) (stage : Stage) (ret : MdlRet) :
    (∃ stage', (dispatchStep s i stage ret).pc = .held i stage') ∨ (dispatchStep s i stage ret).pc = .wait := by
  cases stage with
  | popped | failReq after | preDone map | postDone =>
    left
    unfold dispatchStep
    dsimp only
    repeat' split
    all_goals exact ⟨_,rfl⟩
  | start | ctrl map | ctrlDone map | failOwner after | postStart | curReq => exact .inl ⟨_,rfl⟩
  | loop phase todo =>
    left
    cases todo with
    | nil => exact ⟨_,rfl⟩
    | cons visit todo =>
      unfold dispatchStep
      dsimp only
      split <;> exact ⟨_,rfl⟩
  | feeding mdl after => cases ret <;> exact .inl ⟨_,rfl⟩
  | reschedule | completing => exact .inr rfl
  | recycle =>
    unfold dispatchStep
    dsimp only
    split
    · exact .inl ⟨_,rfl⟩
    · exact .inr rfl

theorem thread_serving (serving : Serving n s) (pc : s.pc ≠ .wait) (ret : MdlRet)
    (units : m + s.msgQSema = n + (threadStep s ret).msgQSema) : Serving m (threadStep s ret) := by
  cases serving with
  | early isEarly wait flag =>
    have other : s.pc ≠ .fetch := by
      intro here
      rw [here] at isEarly
      cases isEarly
    obtain ⟨wait',flag'⟩ := early_rung wait flag (rung_thread s ret pc other) units
    cases here : s.pc with
    | wait => exact absurd here pc
    | fetch => exact absurd here other
    | held i stage =>
      rw [here] at isEarly
      cases isEarly
    | tokenOps =>
      cases queue : s.tokenOpQ with
      | nil =>
        have next : threadStep s ret = s.goto .fetch := by
          unfold threadStep
          rw [here]
          rw [queue]
        rw [next] at wait' flag' ⊢
        exact .fetch rfl wait' (absurd queue) flag'
      | cons node rest =>
        apply Serving.early _ wait' flag'
        unfold threadStep
        rw [here]
        rw [queue]
        exact handleTokenOp_early _ node
    | process node =>
      apply Serving.early _ wait' flag'
      unfold threadStep
      rw [here]
      exact processTokenReq_early s node
    | acquired node =>
      apply Serving.early _ wait' flag'
      unfold threadStep
      rw [here]
      dsimp only
      split <;> rfl
    | abortWaiting node req =>
      apply Serving.early _ wait' flag'
      unfold threadStep
      rw [here]
      rfl
    | abortCurrent node =>
      apply Serving.early _ wait' flag'
      unfold threadStep
      rw [here]
      dsimp only
      split <;> rfl
  | fetch here wait ops flag =>
    obtain ⟨same,next⟩ := fetch_serving here wait ops flag ret
    have equal : m = n := by omega
    rw [equal]
    exact next
  | late here settled =>
    obtain ⟨i,stage,here⟩ := here
    have other : s.pc ≠ .fetch := by
      rw [here]
      exact nofun
    have settled := settled.rung (rung_thread s ret pc other) units
    have next : threadStep s ret = dispatchStep s i stage ret := by
      unfold threadStep
      rw [here]
    rw [next] at settled ⊢
    rcases dispatchStep_late s i stage ret with held | ended
    · obtain ⟨stage',held⟩ := held
      exact .late ⟨i,stage',held⟩ settled
    · exact .ended ended settled
  | ended here => exact absurd here pc

theorem made_pc (s : CmdDispatcher) (call : Call) : (made s call).pc = s.pc := pc_serves.made s call

theorem made_serving (serving : Serving n s) (call : Call) (units : m + s.msgQSema = n + (made s call).msgQSema) :
    Serving m (made s call) := by
  have rung := rung_made s call
  have same := made_pc s call
  cases serving with
  | early isEarly wait flag =>
    obtain ⟨wait',flag'⟩ := early_rung wait flag rung units
    exact .early (same ▸ isEarly) wait' flag'
  | fetch here wait ops flag =>
    obtain ⟨wait',flag'⟩ := early_rung wait flag rung units
    refine .fetch (same.trans here) wait' ?_ flag'
    intro queued
    have rises := rung.sema
    rcases rung.ops queued with queued | more
    · have some := ops queued
      omega
    · omega
  | late here settled => exact .late (same ▸ here) (settled.rung rung units)
  | ended here settled => exact .ended (same.trans here) (settled.rung rung units)

structure Between (n j k : Nat) (s : CmdDispatcher) : Prop where
  pc : s.pc = .wait
  wait : s.msgWaitQ.length ≤ n+1
  had : k < j → Settled n s

def Share (n : Nat) (turn : Turn) (k : Nat) (s : CmdDispatcher) : Prop :=
  match turn with
  | .wait => s.pc = .wait ∧ Settled n s
  | .next j => Between n j k s
  | .serve j => if k = j then s.pc ≠ .wait ∧ Serving n s else Between n j k s

structure Wakes (e : CmdDispatchEngine) : Prop where
  inside : ∀ j, e.turn = .serve j → j < e.phyNum
  share : ∀ k < e.phyNum, Share (e.msgQSema+e.owed) e.turn k (e.dispatcher k)

theorem Settled.more (settled : Settled n s) (more : n ≤ m) : Settled m s :=
  ⟨Nat.le_trans settled.wait more,fun queued => Nat.lt_of_lt_of_le (settled.ops queued) more,
    fun up => Nat.lt_of_lt_of_le (settled.flag up) more⟩

theorem Settled.lend (settled : Settled n s) (units : Nat) : Settled n (lend units s) := ⟨settled.wait,settled.ops,settled.flag⟩

theorem Serving.lend (serving : Serving n s) (units : Nat) : Serving n (lend units s) := by
  cases serving with
  | early pc wait flag => exact .early pc wait flag
  | fetch pc wait ops flag => exact .fetch pc wait ops flag
  | late pc settled => exact .late pc (settled.lend units)
  | ended pc settled => exact .ended pc (settled.lend units)

theorem Serving.done (serving : Serving n s) (ended : s.pc = .wait) : Settled n s := by
  cases serving with
  | early pc =>
    rw [ended] at pc
    cases pc
  | fetch pc =>
    rw [ended] at pc
    cases pc
  | late pc settled => exact settled
  | ended pc settled => exact settled

theorem thread_sema (s : CmdDispatcher) (pc : s.pc ≠ .wait) (ret : MdlRet) : s.msgQSema ≤ (threadStep s ret).msgQSema := by
  by_cases other : s.pc = .fetch
  · unfold threadStep popFrontWaitMsg
    rw [other]
    cases s.msgWaitQ <;> exact Nat.le_refl _
  · exact (rung_thread s ret pc other).sema

theorem Between.more (between : Between n j k s) (more : n ≤ m) : Between m j k s :=
  ⟨between.pc,Nat.le_trans between.wait (Nat.succ_le_succ more),fun below => (between.had below).more more⟩

theorem Between.made (between : Between n j k s) (call : Call) :
    Between (n + (made (lend 0 s) call).msgQSema) j k (made (lend 0 s) call) := by
  have rung := rung_made (lend 0 s) call
  have longer := rung.wait
  have enough := between.wait
  refine ⟨(made_pc _ call).trans between.pc,?_,fun below => ((between.had below).lend 0).rung rung rfl⟩
  simp only [lend] at longer ⊢
  omega

theorem Share.made (share : Share n turn k s) (call : Call) :
    Share (n + (made (lend 0 s) call).msgQSema) turn k (made (lend 0 s) call) := by
  have pc : (Dispr.made (Dispr.lend 0 s) call).pc = s.pc := made_pc _ call
  cases turn with
  | wait => exact ⟨pc.trans share.1,(share.2.lend 0).rung (rung_made _ call) rfl⟩
  | next j => exact Between.made share call
  | serve j =>
    unfold Share at share ⊢
    dsimp only at share ⊢
    split at share
    · rw [if_pos (by assumption)]
      exact ⟨by rw [pc]; exact share.1,made_serving (share.2.lend 0) call rfl⟩
    · rw [if_neg (by assumption)]
      exact share.made call

theorem Serving.more (serving : Serving n s) (more : n ≤ m) : Serving m s := by
  cases serving with
  | early pc wait flag =>
    exact .early pc (Nat.le_trans wait (Nat.succ_le_succ more)) (fun up => Nat.lt_of_lt_of_le (flag up) more)
  | fetch pc wait ops flag =>
    exact .fetch pc (Nat.le_trans wait (Nat.succ_le_succ more)) (fun queued => Nat.lt_of_lt_of_le (ops queued) more)
      (fun up => Nat.lt_of_lt_of_le (flag up) more)
  | late pc settled => exact .late pc (settled.more more)
  | ended pc settled => exact .ended pc (settled.more more)

theorem Share.more (share : Share n turn k s) (more : n ≤ m) : Share m turn k s := by
  cases turn with
  | wait => exact ⟨share.1,share.2.more more⟩
  | next j => exact Between.more share more
  | serve j =>
    unfold Share at share ⊢
    dsimp only at share ⊢
    split at share
    · rw [if_pos (by assumption)]
      exact ⟨share.1,share.2.more more⟩
    · rw [if_neg (by assumption)]
      exact share.more more

theorem put_same (e : CmdDispatchEngine) (k : Nat) (s : CmdDispatcher) : (e.put k s).dispatcher k = s := by
  simp [CmdDispatchEngine.put]

theorem put_other (e : CmdDispatchEngine) (s : CmdDispatcher) (other : j ≠ k) : (e.put k s).dispatcher j = e.dispatcher j := by
  simp [CmdDispatchEngine.put,other]

theorem round_begins (units owed : Nat) (wait : s.msgWaitQ.length ≤ units + owed + 1) :
    Serving (((clearPendingMsg (lend units s)).goto .tokenOps).msgQSema + owed)
      ((clearPendingMsg (lend units s)).goto .tokenOps) := by
  obtain ⟨rung,down,_⟩ := rung_clearPending (lend units s)
  have longer := rung.wait
  apply Serving.early rfl
  · simp only [lend,goto] at longer ⊢
    omega
  · intro up
    exact absurd (down.symm.trans up) (by decide)

theorem served_wakes {e : CmdDispatchEngine} (wakes : ∀ k < e.phyNum, k ≠ j → Between (e.msgQSema+e.owed) j k (e.dispatcher k))
    (inside : j < e.phyNum) (serving : Serving (s.msgQSema+e.owed) s) (more : e.msgQSema ≤ s.msgQSema) :
    Wakes (e.served j s) := by
  by_cases ended : s.pc = .wait
  · have turn : (e.served j s).turn = .next (j+1) := if_pos ended
    constructor
    · intro i serves
      rw [turn] at serves
      cases serves
    · intro k bounded
      rw [turn]
      change Between (s.msgQSema+e.owed) (j+1) k ((e.put j s).dispatcher k)
      by_cases here : k = j
      · subst here
        rw [put_same]
        have settled := serving.done ended
        exact ⟨ended,le_succ_of_le settled.wait,fun _ => settled⟩
      · rw [put_other e s here]
        have between := (wakes k bounded here).more (Nat.add_le_add_right more e.owed)
        exact ⟨between.pc,between.wait,fun below => between.had (by omega)⟩
  · have turn : (e.served j s).turn = .serve j := if_neg ended
    constructor
    · intro i serves
      rw [turn] at serves
      cases serves
      exact inside
    · intro k bounded
      rw [turn]
      change if k = j then _ else _
      split
      · subst k
        refine ⟨?_,?_⟩
        · exact (put_same e j s).symm ▸ ended
        · exact (put_same e j s).symm ▸ serving
      · rename_i here
        have between := (wakes k bounded here).more (Nat.add_le_add_right more e.owed)
        exact (put_other e s here).symm ▸ between

theorem engineStep_wakes (wakes : Wakes e) (event : EngineEvent) : Wakes (engineStep e event) := by
  cases event with
  | thread ret =>
    change Wakes (shareThreadStep e ret)
    unfold shareThreadStep
    cases turn : e.turn with
    | wait =>
      dsimp only
      split
      · exact wakes
      · rename_i units
        refine ⟨nofun,?_⟩
        intro k bounded
        have share := wakes.share k bounded
        rw [turn] at share
        have enough := share.2.wait
        exact ⟨share.1,by dsimp only; omega,fun below => absurd below (not_lt_zero k)⟩
    | next j =>
      dsimp only
      split
      · rename_i inside
        have there (k : Nat) (bounded : k < e.phyNum) : Between (e.msgQSema+e.owed) j k (e.dispatcher k) := by
          have share := wakes.share k bounded
          rw [turn] at share
          exact share
        apply served_wakes (fun k bounded _ => there k bounded) inside (round_begins _ _ (there j inside).wait)
        exact (rung_clearPending (lend e.msgQSema (e.dispatcher j))).1.sema
      · rename_i beyond
        refine ⟨nofun,?_⟩
        intro k bounded
        have share := wakes.share k bounded
        rw [turn] at share
        exact ⟨share.pc,share.had (Nat.lt_of_lt_of_le bounded (Nat.le_of_not_lt beyond))⟩
    | serve j =>
      have inside := wakes.inside j turn
      have own := wakes.share j inside
      rw [turn] at own
      simp only [Share,if_true] at own
      have other (k : Nat) (bounded : k < e.phyNum) (apart : k ≠ j) : Between (e.msgQSema+e.owed) j k (e.dispatcher k) := by
        have share := wakes.share k bounded
        rw [turn] at share
        simp only [Share,if_neg apart] at share
        exact share
      have pc : (lend e.msgQSema (e.dispatcher j)).pc ≠ .wait := own.1
      have rises := thread_sema _ pc ret
      apply served_wakes other inside _ rises
      apply thread_serving (own.2.lend e.msgQSema) pc ret
      simp only [lend]
      omega
  | call k call =>
    change Wakes (if _ then _ else _)
    split
    · rename_i inside
      refine ⟨wakes.inside,?_⟩
      intro i bounded
      change Share (e.msgQSema + (e.owed+_)) e.turn i ((e.put k _).dispatcher i)
      rw [← Nat.add_assoc]
      have share := wakes.share i bounded
      by_cases here : i = k
      · subst here
        rw [put_same]
        exact share.made call
      · rw [put_other e _ here]
        exact share.more (le_add_right _ _)
    · exact wakes
  | up =>
    change Wakes (if _ then _ else _)
    split
    · exact wakes
    · rename_i owed
      refine ⟨wakes.inside,?_⟩
      intro k bounded
      have same : e.msgQSema + 1 + (e.owed-1) = e.msgQSema + e.owed := by omega
      change Share (e.msgQSema + 1 + (e.owed-1)) e.turn k (e.dispatcher k)
      rw [same]
      exact wakes.share k bounded

structure Steady (s t : CmdDispatcher) (i : Nat) : Prop where
  flag : s.status.clrPendMsg = true → t.status.clrPendMsg = true
  pending : (t.msgExPool i).status.pending = (s.msgExPool i).status.pending

theorem Steady.refl (s : CmdDispatcher) (i : Nat) : Steady s s i := ⟨id,rfl⟩

theorem Steady.trans (one : Steady s t i) (two : Steady t u i) : Steady s u i :=
  ⟨fun up => two.flag (one.flag up),two.pending.trans one.pending⟩

section
variable (s : CmdDispatcher)

theorem steady_setEx (ex : MsgEx) (other : i ≠ j) : Steady s (s.setEx j ex) i := ⟨id,by simp [setEx,other]⟩

theorem steady_pushOp (node : OpNode) (type : OpType) (data i : Nat) :
    Steady s (pushBackTokenOpInfo s node type data).1 i := by
  unfold pushBackTokenOpInfo
  split
  · exact .refl s i
  · cases node <;> exact ⟨id,rfl⟩

theorem steady_completeMsg (other : i ≠ j) : Steady s (completeMsg s j).1 i := by
  unfold completeMsg
  dsimp only
  split
  · split
    · exact (steady_setEx s _ other).trans ⟨id,rfl⟩
    · exact ⟨id,rfl⟩
  · exact .refl s i

theorem steady_returnMsg (other : i ≠ j) : Steady s (returnMsg s j) i := by
  have aborted : Steady s (if (s.msgExPool j).status.forAbort then onAbortMsgComplete s else s) i := by
    split
    · have cleared : Steady s {s with status:={s.status with waitAbortMsgDone:=false}} i := ⟨id,rfl⟩
      exact cleared.trans (steady_pushOp _ _ _ _ i)
    · exact .refl s i
  have cleared (s : CmdDispatcher) (msg : MsgId) : Steady s (clearPendingEvt s msg) i := by
    unfold clearPendingEvt
    split <;> exact ⟨id,rfl⟩
  have stored := (aborted.trans (cleared _ (s.msgExPool j).msg)).trans (steady_setEx _ {s.msgExPool j with status:={},msg:={}} other)
  exact ⟨stored.flag,stored.pending⟩

theorem steady_queueMsg (mdlId : Nat) (other : i ≠ j) : Steady s (queueMsg s j mdlId) i := by
  have stored := steady_setEx s (enqueued (s.msgExPool j)) other
  unfold queueMsg
  split
  · exact ⟨stored.flag,stored.pending⟩
  · exact ⟨stored.flag,stored.pending⟩

theorem steady_waitAbort (abort : Bool) (s : CmdDispatcher) (i : Nat) :
    Steady s (if abort then {s with status:={s.status with waitAbortMsgDone:=true}} else s) i := by
  cases abort <;> exact ⟨id,rfl⟩

theorem steady_send (msg : MsgId) (attr : Option MsgAttr) (out : i ∉ s.msgIdleQ) :
    Steady s (disprSendMsg s msg attr).1 i := by
  unfold disprSendMsg
  split
  · exact .refl s i
  split
  · exact .refl s i
  split
  · exact .refl s i
  cases queue : s.msgIdleQ with
  | nil =>
    simp only [popFrontIdleMsg,queue]
    exact .refl s i
  | cons j rest =>
    have other : i ≠ j := by
      rintro rfl
      exact out (queue ▸ mem_cons_self)
    simp only [popFrontIdleMsg,queue]
    have taken : Steady s ({s with msgIdleQ:=rest,nextSerial:=s.nextSerial + 1}.setEx j {serial:=s.nextSerial}) i :=
      ⟨id,by simp [setEx,other]⟩
    generalize ({s with msgIdleQ:=rest,nextSerial:=s.nextSerial + 1}.setEx j {serial:=s.nextSerial} : CmdDispatcher) = t at taken ⊢
    split
    · exact ((taken.trans (steady_setEx t _ other)).trans (steady_completeMsg _ other)).trans (steady_returnMsg _ other)
    · apply taken.trans
      apply (steady_waitAbort _ t i).trans
      apply (steady_setEx _ _ other).trans
      apply (steady_queueMsg _ msg.mdlId other).trans
      exact ⟨id,rfl⟩

theorem steady_endTokenReq (idx : Nat) (type : OpType) (i : Nat) : Steady s (endTokenReq s idx type).1 i := by
  have marked (ex : TokenReqEx) : Steady s (s.setReq idx ex) i := ⟨id,rfl⟩
  exact (marked _).trans (steady_pushOp _ _ _ _ i)

theorem steady_made (call : Call) (out : i ∉ s.msgIdleQ) : Steady s (made s call) i := by
  have here := Steady.refl s i
  cases call with
  | send msg attr => exact steady_send s msg attr out
  | cancel hdl =>
    change Steady s (disprCancelMsg s hdl).1 i
    unfold disprCancelMsg
    dsimp only
    repeat' split
    · exact here
    · exact here
    · exact here
    · refine ⟨id,?_⟩
      simp only [cancelMsg,setEx,update_apply]
      split
      · rename_i same
        rw [same]
      · rfl
  | clrPending => exact ⟨fun _ => rfl,rfl⟩
  | cannotIo mdlId =>
    change Steady s (disprNotifyDevIoStatus s mdlId false).1 i
    unfold disprNotifyDevIoStatus
    rw [if_pos (by decide : (!false) = true)]
    split
    · have marked : Steady s {s with status:={s.status with cannotIo:=true},exclusiveMdl:=mdlId} i := ⟨id,rfl⟩
      exact marked.trans (steady_send _ _ _ out)
    · exact here
  | resumeIo =>
    change Steady s (resumeIo s) i
    unfold resumeIo
    split
    · have marked : Steady s {s with status:={s.status with cannotIo:=false},exclusiveMdl:=phlMdlIdMax} i := ⟨id,rfl⟩
      exact marked.trans (steady_send _ _ _ out)
    · exact here
  | shallStop =>
    change Steady s (disprNotifyShallStop s) i
    unfold disprNotifyShallStop
    split
    · exact here
    · exact ⟨fun _ => rfl,rfl⟩
  | addTokenReq req =>
    change Steady s (disprAddTokenReq s req).1 i
    unfold disprAddTokenReq
    split
    · exact here
    · cases popped : popFrontIdleReq s with
      | none => exact here
      | some taken =>
        obtain ⟨idx,t⟩ := taken
        have same : Steady s t i := by
          unfold popFrontIdleReq at popped
          split at popped <;> cases popped
          exact ⟨id,rfl⟩
        have waits : Steady t (pushBackWaitReq (t.setReq idx {t.tokenReqExPool idx with req}) idx) i := ⟨id,rfl⟩
        exact (same.trans waits).trans (steady_pushOp _ _ _ _ i)
  | cancelTokenReq hdl =>
    change Steady s (disprCancelTokenReq s hdl).1 i
    unfold disprCancelTokenReq
    dsimp only
    split
    · exact here
    split
    · exact here
    split
    · exact here
    · exact steady_endTokenReq s _ _ i
  | freeToken hdl =>
    change Steady s (disprFreeToken s hdl).1 i
    unfold disprFreeToken
    dsimp only
    split
    · exact here
    split
    · exact here
    split
    · exact here
    · exact steady_endTokenReq s _ _ i
end
section
variable (s : CmdDispatcher) (i : Nat)

def Flagged : Prop := s.status.clrPendMsg = true ∧ Parked s i
def Fetched : Prop := s.pc = .held i .popped

def Canceled : Prop := s.pc = .held i .recycle ∧ ((s.msgExPool i).status.fail = true ∨ (s.msgExPool i).status.cancel = true)
end

theorem Flagged.made (flagged : Flagged s i) (kept : KeptAt s) (call : Call) :
    Flagged (made s call) i ∨ i ∈ (made s call).msgWaitQ := by
  obtain ⟨up,parked⟩ := flagged
  rcases parked with queued | ⟨hands,pending⟩
  · rcases (rung_made s call).due i queued up with moved | ⟨still,up⟩
    · exact .inr moved
    · exact .inl ⟨up,.inl still⟩
  · have held : i ∈ (heldBy s.pc).toList := by
      rcases hands with here | here <;> simp [here,heldBy]
    have steady := steady_made s call (kept.notIdle held)
    refine .inl ⟨steady.flag up,.inr ⟨?_,steady.pending.trans pending⟩⟩
    rw [made_pc]
    exact hands

theorem Flagged.thread (flagged : Flagged s i) (pc : s.pc ≠ .wait) (ret : MdlRet) :
    Flagged (threadStep s ret) i ∨ i ∈ (threadStep s ret).msgWaitQ ∨ Canceled (threadStep s ret) i := by
  obtain ⟨up,parked⟩ := flagged
  rcases parked with queued | ⟨here | here,pending⟩
  · by_cases other : s.pc = .fetch
    · left
      unfold threadStep popFrontWaitMsg
      rw [other]
      cases s.msgWaitQ <;> exact ⟨up,.inl queued⟩
    · rcases (rung_thread s ret pc other).due i queued up with moved | ⟨still,up⟩
      · exact .inr (.inl moved)
      · exact .inl ⟨up,.inl still⟩
  · have next : threadStep s ret = dispatchStep s i .start ret := by
      unfold threadStep
      rw [here]
    have marked : (getMsgBitmap (s.msgExPool i)).1.status = (s.msgExPool i).status := by
      unfold getMsgBitmap
      split <;> rfl
    rw [next]
    by_cases ended : (s.msgExPool i).status.fail ∨ (s.msgExPool i).status.cancel
    · right
      right
      constructor
      · change Pc.held i (redirected (getMsgBitmap (s.msgExPool i)).1 _) = _
        rw [redirected,marked,if_pos (by simpa using ended)]
      · simp only [dispatchStep,goto,setEx,update_self,marked]
        exact ended
    · left
      refine ⟨up,.inr ⟨.inr ?_,?_⟩⟩
      · change Pc.held i (redirected (getMsgBitmap (s.msgExPool i)).1 _) = _
        rw [redirected,marked,if_neg (by simpa using ended),if_pos pending]
      · simp only [dispatchStep,goto,setEx,update_self,marked]
        exact pending
  · left
    unfold threadStep
    rw [here]
    simp only [dispatchStep,pending,if_true]
    obtain ⟨_,there,flag⟩ := rung_pushPending s i
    exact ⟨flag.trans up,.inl there⟩

theorem waiting_thread (waits : i ∈ s.msgWaitQ) (pc : s.pc ≠ .wait) (ret : MdlRet) :
    i ∈ (threadStep s ret).msgWaitQ ∨ Fetched (threadStep s ret) i := by
  by_cases other : s.pc = .fetch
  · unfold threadStep
    rw [other]
    cases queue : s.msgWaitQ with
    | nil =>
      rw [queue] at waits
      cases waits
    | cons j rest =>
      simp only [popFrontWaitMsg,queue]
      rw [queue] at waits
      rcases mem_cons.mp waits with rfl | later
      · exact .inr rfl
      · exact .inl later
  · exact .inl ((rung_thread s ret pc other).kept i waits)

theorem KeptAt.lend (kept : KeptAt s) (units : Nat) : KeptAt (lend units s) := Kept.idle kept ⟨rfl,rfl,rfl,rfl,fun _ => rfl,rfl⟩ rfl

theorem KeptAt.made (kept : KeptAt s) (call : Call) : KeptAt (made s call) := by
  unfold KeptAt
  rw [made_pc]
  exact (kept_follows _ _).made s call kept

inductive Moves (e : CmdDispatchEngine) (k : Nat) (t : CmdDispatcher) : Prop where
  | still (same : t = e.dispatcher k)
  | begun (turn : e.turn = .next k) (same : t = (clearPendingMsg (lend e.msgQSema (e.dispatcher k))).goto .tokenOps)
  | served (turn : e.turn = .serve k) (ret : MdlRet) (same : t = threadStep (lend e.msgQSema (e.dispatcher k)) ret)
  | called (call : Call) (same : t = made (lend 0 (e.dispatcher k)) call)

theorem put_moves (e : CmdDispatchEngine) (s : CmdDispatcher) (own : Moves e j s) (k : Nat) :
    Moves e k ((e.put j s).dispatcher k) := by
  by_cases here : k = j
  · subst here
    rw [put_same]
    exact own
  · rw [put_other e s here]
    exact .still rfl

theorem engineStep_moves (e : CmdDispatchEngine) (event : EngineEvent) (k : Nat) :
    Moves e k ((engineStep e event).dispatcher k) := by
  cases event with
  | thread ret =>
    change Moves e k ((shareThreadStep e ret).dispatcher k)
    unfold shareThreadStep
    cases turn : e.turn with
    | wait =>
      dsimp only
      split <;> exact .still rfl
    | next j =>
      dsimp only
      split
      · exact put_moves e _ (.begun turn rfl) k
      · exact .still rfl
    | serve j => exact put_moves e _ (.served turn ret rfl) k
  | call j call =>
    change Moves e k ((if _ then _ else _ : CmdDispatchEngine).dispatcher k)
    split
    · exact put_moves e _ (.called call rfl) k
    · exact .still rfl
  | up =>
    change Moves e k ((if _ then _ else _ : CmdDispatchEngine).dispatcher k)
    split <;> exact .still rfl

theorem Share.resting (share : Share n turn k s) (other : turn ≠ .serve k) : s.pc = .wait := by
  cases turn with
  | wait => exact share.1
  | next j => exact share.pc
  | serve j =>
    have apart : k ≠ j := by
      rintro rfl
      exact other rfl
    simp only [Share,if_neg apart] at share
    exact share.pc

theorem Share.serving (share : Share n (.serve k) k s) : s.pc ≠ .wait := by
  simp only [Share,if_true] at share
  exact share.1

section
variable (wakes : Wakes e) (bounded : k < e.phyNum)
include wakes bounded

theorem engineStep_kept (kept : KeptAt (e.dispatcher k)) (event : EngineEvent) :
    KeptAt ((engineStep e event).dispatcher k) := by
  cases engineStep_moves e event k with
  | still same => rw [same]; exact kept
  | begun turn same =>
    rw [same]
    have share := wakes.share k bounded
    have resting := share.resting (by rw [turn]; exact nofun)
    have idle := kept.lend e.msgQSema
    unfold KeptAt at idle
    have pc : (lend e.msgQSema (e.dispatcher k)).pc = .wait := resting
    rw [pc] at idle
    exact KeptAt.goto (Kept.clearPending idle) rfl rfl
  | served turn ret same => rw [same]; exact (kept.lend _).thread ret
  | called call same => rw [same]; exact (kept.lend 0).made call

theorem flagged_step (kept : KeptAt (e.dispatcher k))
    (flagged : Flagged (e.dispatcher k) i) (event : EngineEvent) :
    Flagged ((engineStep e event).dispatcher k) i ∨ i ∈ ((engineStep e event).dispatcher k).msgWaitQ ∨
      Canceled ((engineStep e event).dispatcher k) i := by
  have share := wakes.share k bounded
  cases engineStep_moves e event k with
  | still same => rw [same]; exact .inl flagged
  | begun turn same =>
    rw [same]
    have resting := share.resting (by rw [turn]; exact nofun)
    obtain ⟨up,queued | ⟨hands,_⟩⟩ := flagged
    · obtain ⟨_,_,moved⟩ := rung_clearPending (lend e.msgQSema (e.dispatcher k))
      exact .inr (.inl (moved up i queued))
    · rw [resting] at hands
      rcases hands with here | here <;> cases here
  | served turn ret same =>
    rw [same]
    rw [turn] at share
    have pc : (lend e.msgQSema (e.dispatcher k)).pc ≠ .wait := share.serving
    exact Flagged.thread (s := lend e.msgQSema (e.dispatcher k)) flagged pc ret
  | called call same =>
    rw [same]
    rcases Flagged.made (s := lend 0 (e.dispatcher k)) flagged (kept.lend 0) call with still | moved
    · exact .inl still
    · exact .inr (.inl moved)

theorem waiting_step (waits : i ∈ (e.dispatcher k).msgWaitQ) (event : EngineEvent) :
    i ∈ ((engineStep e event).dispatcher k).msgWaitQ ∨ Fetched ((engineStep e event).dispatcher k) i := by
  cases engineStep_moves e event k with
  | still same => rw [same]; exact .inl waits
  | begun turn same =>
    rw [same]
    exact .inl ((rung_clearPending (lend e.msgQSema (e.dispatcher k))).1.kept i waits)
  | served turn ret same =>
    rw [same]
    have share := wakes.share k bounded
    rw [turn] at share
    exact waiting_thread (s := lend e.msgQSema (e.dispatcher k)) waits share.serving ret
  | called call same =>
    rw [same]
    exact .inl ((rung_made (lend 0 (e.dispatcher k)) call).kept i waits)
end

theorem blocked_settled (wakes : Wakes e) (blocked : Blocked e) (bounded : k < e.phyNum) : Settled e.owed (e.dispatcher k) := by
  have share := wakes.share k bounded
  rw [blocked.1,blocked.2,Nat.zero_add] at share
  exact share.2

theorem settled_zero (settled : Settled 0 s) : Drained s := by
  refine ⟨eq_nil_of_length_eq_zero (le_zero.mp settled.wait),?_,?_⟩
  · by_contra queued
    exact absurd (settled.ops queued) (Nat.lt_irrefl 0)
  · cases up : s.status.clrPendMsg with
    | false => rfl
    | true => exact absurd (settled.flag up) (Nat.lt_irrefl 0)

structure Sound (n : Nat) (e : CmdDispatchEngine) : Prop where
  phys : e.phyNum = n
  wakes : Wakes e
  kept : ∀ k < n, KeptAt (e.dispatcher k)

theorem engineStep_phys (e : CmdDispatchEngine) (event : EngineEvent) : (engineStep e event).phyNum = e.phyNum := by
  cases event with
  | thread ret =>
    change (shareThreadStep e ret).phyNum = _
    unfold shareThreadStep
    split
    · split <;> rfl
    · split <;> rfl
    · rfl
  | call k call =>
    change (if _ then _ else _ : CmdDispatchEngine).phyNum = _
    split <;> rfl
  | up =>
    change (if _ then _ else _ : CmdDispatchEngine).phyNum = _
    split <;> rfl

theorem Sound.step (sound : Sound n e) (event : EngineEvent) : Sound n (engineStep e event) :=
  ⟨(engineStep_phys e event).trans sound.phys,engineStep_wakes sound.wakes event,
    fun k bounded => engineStep_kept sound.wakes (sound.phys.symm ▸ bounded) (sound.kept k bounded) event⟩

theorem Sound.drained (sound : Sound n e) (bounded : k < n) (blocked : Blocked e) (none : e.owed = 0) : Drained (e.dispatcher k) :=
  settled_zero (none ▸ blocked_settled sound.wakes blocked (sound.phys.symm ▸ bounded))

theorem waiting_fetched (sound : Sound n e) (bounded : k < n) (waits : i ∈ (e.dispatcher k).msgWaitQ) (events : List EngineEvent)
    (blocked : Blocked (run engineStep e events)) (settled : (run engineStep e events).owed = 0) :
    ∃ before after, events = before ++ after ∧ Fetched ((run engineStep e before).dispatcher k) i := by
  induction events generalizing e with
  | nil =>
    rw [(sound.drained bounded blocked settled).msgs] at waits
    cases waits
  | cons event rest ih =>
    rcases waiting_step sound.wakes (sound.phys.symm ▸ bounded) waits event with waits | fetched
    · obtain ⟨before,after,split,fetched⟩ := ih (sound.step event) waits blocked settled
      exact ⟨event :: before,after,by rw [split,cons_append],fetched⟩
    · exact ⟨[event],rest,rfl,fetched⟩

def Resumed (e : CmdDispatchEngine) (k i : Nat) (events : List EngineEvent) : Prop :=
  (∃ before between after, events = before ++ between ++ after ∧ i ∈ ((run engineStep e before).dispatcher k).msgWaitQ ∧
    Fetched ((run engineStep e (before ++ between)).dispatcher k) i) ∨
  ∃ before after, events = before ++ after ∧ Canceled ((run engineStep e before).dispatcher k) i

theorem flagged_resumed (sound : Sound n e) (bounded : k < n) (flagged : Flagged (e.dispatcher k) i) (events : List EngineEvent)
    (blocked : Blocked (run engineStep e events)) (settled : (run engineStep e events).owed = 0) : Resumed e k i events := by
  induction events generalizing e with
  | nil =>
    exact absurd (flagged.1.symm.trans (sound.drained bounded blocked settled).flag) (by decide)
  | cons event rest ih =>
    rcases flagged_step sound.wakes (sound.phys.symm ▸ bounded) (sound.kept k bounded) flagged event with still | moved | ended
    · rcases ih (sound.step event) still blocked settled with ⟨before,between,after,split,waits,fetched⟩ | ⟨before,after,split,ended⟩
      · exact .inl ⟨event :: before,between,after,by rw [split,cons_append,cons_append],waits,fetched⟩
      · exact .inr ⟨event :: before,after,by rw [split,cons_append],ended⟩
    · obtain ⟨before,after,split,fetched⟩ := waiting_fetched (sound.step event) bounded moved rest blocked settled
      exact .inl ⟨[event],before,after,by rw [split]; rfl,moved,fetched⟩
    · exact .inr ⟨[event],rest,rfl,ended⟩

section
variable {moduleQ : Nat → Priority → List BkModule} {bitmap basemap : Nat → Bitmap} {ctrlPresent : Nat → Bool}

theorem engine_sound (path : Reached engineStep (fun _ _ => True) (engineStart n moduleQ bitmap basemap ctrlPresent) e) :
    Sound n e := by
  apply path.invariant (Sound n)
  · refine ⟨rfl,⟨nofun,?_⟩,fun k _ => kept_start _ _ _ _⟩
    exact fun k _ => ⟨rfl,zero_le _,fun queued => absurd rfl queued,nofun⟩
  · intro e event sound _
    exact sound.step event

-- No wake-up is lost, for any number of dispatchers on the thread: one in solo mode.
theorem no_lost_wakeup (path : Reached engineStep (fun _ _ => True) (engineStart n moduleQ bitmap basemap ctrlPresent) e) :
    (Blocked e → e.owed = 0 → ∀ k < n, Drained (e.dispatcher k)) ∧
    ∀ k < n, ∀ i, Parked (e.dispatcher k) i → ∀ events,
      let resumed := engineStep e (.call k .clrPending)
      Blocked (run engineStep resumed events) → (run engineStep resumed events).owed = 0 → Resumed resumed k i events := by
  have sound := engine_sound path
  constructor
  · intro blocked none k bounded
    exact sound.drained bounded blocked none
  · intro k bounded i parked events resumed blocked none
    apply flagged_resumed (sound.step _) bounded _ events blocked none
    have there : resumed.dispatcher k = disprClrPendingMsg (lend 0 (e.dispatcher k)) := by
      change (if k < e.phyNum then _ else _ : CmdDispatchEngine).dispatcher k = _
      rw [if_pos (sound.phys.symm ▸ bounded)]
      exact put_same e k _
    rw [there]
    exact ⟨rfl,parked⟩
end

def twoDispatchers : CmdDispatchEngine :=
  engineStart 2 (fun _ _ => []) (fun _ => BitVec.twoPow 128 phlMdlPowerMgnt) (fun _ => 0) (fun _ => false)

def rounds (n : Nat) : List EngineEvent := List.replicate n (.thread .success)

def marked : List EngineEvent :=
  [.call 0 (.cannotIo 50),.up] ++ rounds 30 ++
    [.call 0 (.send {mdlId:=phlMdlPowerMgnt,evtId:=5} (some {opt:={pendingDuringCannotIo:=true}})),.up] ++
    rounds 6 ++ [.call 0 .resumeIo]

theorem no_lost_wakeup_marked :
    let e := run engineStep twoDispatchers marked
    let resumed := engineStep e (.call 0 .clrPending)
    let events := [.up,.up] ++ rounds 60
    (e.dispatcher 0).pc = .held 1 .reschedule ∧ e.msgQSema = 0 ∧ Resumed resumed 0 1 events ∧
      ∀ k < 2, Drained ((run engineStep resumed events).dispatcher k) := by
  intro e resumed events
  have path : Reached engineStep (fun _ _ => True) twoDispatchers e := Reached.start.run (by decide +kernel)
  have later : Reached engineStep (fun _ _ => True) twoDispatchers (run engineStep resumed events) :=
    (path.step trivial).run (by decide +kernel)
  have here : (e.dispatcher 0).pc = .held 1 .reschedule := by decide +kernel
  have pending : ((e.dispatcher 0).msgExPool 1).status.pending := by decide +kernel
  have turn : (run engineStep resumed events).turn = .wait := by decide +kernel
  have sema : (run engineStep resumed events).msgQSema = 0 := by decide +kernel
  have owed : (run engineStep resumed events).owed = 0 := by decide +kernel
  have none : e.msgQSema = 0 := by decide +kernel
  have back := (no_lost_wakeup path).2 0 (by decide) 1 (.inr ⟨.inr here,pending⟩) events ⟨turn,sema⟩ owed
  exact ⟨here,none,back,(no_lost_wakeup later).1 ⟨turn,sema⟩ owed⟩

-- Between the push and the raise of the semaphore the queue is not empty.
theorem blocked_not_drained :
    ¬ ∀ e, Reached engineStep (fun _ _ => True) twoDispatchers e → Blocked e → ∀ k < 2, Drained (e.dispatcher k) := by
  intro claim
  have path : Reached engineStep (fun _ _ => True) twoDispatchers
      (run engineStep twoDispatchers [.call 0 (.send {mdlId := phlMdlPowerMgnt,evtId := 5} none)]) :=
    Reached.start.run (by decide +kernel)
  have drained := claim _ path ⟨by decide +kernel,by decide +kernel⟩ 0 (by decide)
  exact absurd drained.msgs (by decide +kernel)
end Rtl8852au.Dispr
