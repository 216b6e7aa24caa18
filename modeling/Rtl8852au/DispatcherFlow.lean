import Rtl8852au.Dispatcher

namespace Rtl8852au.Dispr
variable {R : CmdDispatcher → CmdDispatcher → Prop}

def isStory : Note → Bool
  | .accept _ _ _ | .complete _ _ | .recycle _ _ _ => true
  | _ => false

structure Load where
  serial : Nat
  completion : Option Nat
  notifies : Bool

def MsgEx.load (ex : MsgEx) : Load := ⟨ex.serial,ex.completion,ex.status.notifyComplete⟩
def MsgEx.live (ex : MsgEx) : Bool := ex.status.enq || ex.status.run

structure Mild (ex ex' : MsgEx) : Prop where
  load : ex'.load = ex.load
  live : ex'.live = ex.live
  mdlId : ex'.msg.mdlId = ex.msg.mdlId

theorem Mild.refl (ex : MsgEx) : Mild ex ex := ⟨rfl,rfl,rfl⟩

structure Hushed (s t : CmdDispatcher) : Prop where
  idle : t.msgIdleQ = s.msgIdleQ
  wait : t.msgWaitQ = s.msgWaitQ
  pend : t.msgPendQ = s.msgPendQ
  next : t.nextSerial = s.nextSerial
  log : t.log = s.log
  ops : t.tokenOpQ = s.tokenOpQ
  sema : t.msgQSema = s.msgQSema
  flag : t.status.clrPendMsg = s.status.clrPendMsg
  pc : t.pc = s.pc
  ex : ∀ i, Mild (s.msgExPool i) (t.msgExPool i)

theorem Hushed.refl (s : CmdDispatcher) : Hushed s s := ⟨rfl,rfl,rfl,rfl,rfl,rfl,rfl,rfl,rfl,fun _ => .refl _⟩

theorem Hushed.setEx {ex : MsgEx} (mild : Mild (s.msgExPool i) ex) : Hushed s (s.setEx i ex) := by
  refine ⟨rfl,rfl,rfl,rfl,rfl,rfl,rfl,rfl,rfl,fun j => ?_⟩
  change Mild (s.msgExPool j) (Function.update s.msgExPool i ex j)
  by_cases here : j = i
  · subst here
    rw [Function.update_self]
    exact mild
  · rw [Function.update_of_ne here]
    exact .refl _

theorem Hushed.setOpInfo (s : CmdDispatcher) (node : OpNode) (info : TokenOpInfo) : Hushed s (setOpInfo s node info) := by
  cases node <;> exact ⟨rfl,rfl,rfl,rfl,rfl,rfl,rfl,rfl,rfl,fun _ => .refl _⟩

theorem Hushed.setReq (s : CmdDispatcher) (req : Nat) (ex : TokenReqEx) : Hushed s (s.setReq req ex) :=
  ⟨rfl,rfl,rfl,rfl,rfl,rfl,rfl,rfl,rfl,fun _ => .refl _⟩

theorem Hushed.releaseReq (s : CmdDispatcher) (req : Nat) : Hushed s (releaseReq s req) :=
  ⟨rfl,rfl,rfl,rfl,rfl,rfl,rfl,rfl,rfl,fun _ => .refl _⟩

theorem Hushed.popWaitReq (popped : popFrontWaitReq s = some (req,t)) : Hushed s t := by
  unfold popFrontWaitReq at popped
  split at popped
  · cases popped
  · cases popped
    exact ⟨rfl,rfl,rfl,rfl,rfl,rfl,rfl,rfl,rfl,fun _ => .refl _⟩

structure Flows (R : CmdDispatcher → CmdDispatcher → Prop) : Prop where
  refl : ∀ s, R s s
  trans : ∀ {s t u}, R s t → R t u → R s u
  mild : ∀ s i ex, Mild (s.msgExPool i) ex → R s (s.setEx i ex)
  goto : ∀ s pc, R s (s.goto pc)
  note : ∀ s n, isStory n = false → (∀ req, n ≠ .abort req) → R s (s.note n)

structure Drops (R : CmdDispatcher → CmdDispatcher → Prop) : Prop where
  refl : ∀ s, R s s
  trans : ∀ {s t u}, R s t → R t u → R s u
  mild : ∀ s i ex, Mild (s.msgExPool i) ex → R s (s.setEx i ex)
  clrPending : ∀ s, R s (disprClrPendingMsg s)
  clearPending : ∀ s, R s (clearPendingMsg s)

structure Serves (R : CmdDispatcher → CmdDispatcher → Prop) : Prop where
  calm : ∀ {s t}, Hushed s t → R s t
  trans : ∀ {s t u}, R s t → R t u → R s u
  clrPending : ∀ s, R s (disprClrPendingMsg s)
  send : ∀ s msg attr, R s (disprSendMsg s msg attr).1
  pushOp : ∀ s node type data, R s (pushBackTokenOpInfo s node type data).1

structure Follows (R : CmdDispatcher → CmdDispatcher → Prop) : Prop extends Serves R where
  goto : ∀ s pc, R s (s.goto pc)
  note : ∀ s n, isStory n = false → R s (s.note n)
  clearPending : ∀ s, R s (clearPendingMsg s)

theorem Serves.refl (serves : Serves R) (s : CmdDispatcher) : R s s := serves.calm (.refl s)

theorem Serves.mild (serves : Serves R) (s : CmdDispatcher) (i : Nat) (ex : MsgEx) (mild : Mild (s.msgExPool i) ex) : R s (s.setEx i ex) :=
  serves.calm (.setEx mild)

theorem Follows.flows (follows : Follows R) : Flows R :=
  {follows with refl:=follows.refl,mild:=follows.mild,note:=fun s n other _ => follows.note s n other}

theorem Follows.drops (follows : Follows R) : Drops R := {follows with refl:=follows.refl,mild:=follows.mild}

theorem Flows.isMsgCanceled (flows : Flows R) (s : CmdDispatcher) (i : Nat) : R s (isMsgCanceled s i).1 := by
  have put (ex : MsgEx) := flows.mild s i ex
  unfold Dispr.isMsgCanceled
  dsimp only
  split
  · exact flows.refl s
  split
  · exact put _ ⟨rfl,rfl,rfl⟩
  split
  · exact put _ ⟨rfl,rfl,rfl⟩
  split
  · split
    · exact put _ ⟨rfl,rfl,rfl⟩
    split
    · exact put _ ⟨rfl,rfl,rfl⟩
    · exact put _ ⟨rfl,rfl,rfl⟩
  · exact flows.refl s

theorem Flows.curReqHdl (flows : Flows R) (s : CmdDispatcher) (ex : MsgEx) : R s (curReqHdl s ex) := by
  unfold Dispr.curReqHdl
  split
  · exact flows.refl s
  dsimp only
  split
  · exact flows.refl s
  · exact flows.note s _ rfl nofun

theorem Flows.failOwner (flows : Flows R) (s : CmdDispatcher) (ex : MsgEx) : R s (failOwner s ex) := by
  unfold Dispr.failOwner
  split
  · exact flows.refl s
  split
  · exact flows.note s _ rfl nofun
  · exact flows.refl s

theorem Flows.fedMdlMsg (flows : Flows R) (s : CmdDispatcher) (i mdl : Nat) (after : After) (ret : MdlRet) :
    R s (fedMdlMsg s i mdl after ret) := by
  have put (n : Note) (ex : MsgEx) (pc : Pc) (other : isStory n = false) (calls : ∀ req, n ≠ .abort req)
      (mild : Mild (s.msgExPool i) ex) : R s (((s.note n).setEx i ex).goto pc) :=
    flows.trans (flows.trans (flows.note s n other calls) (flows.mild _ i ex mild)) (flows.goto _ pc)
  have mapped (ex : MsgEx) (phase : Phase) (map : Bitmap) : Mild ex (setMap ex phase map) := by cases phase <;> exact ⟨rfl,rfl,rfl⟩
  cases ret with
  | fail | cannotIo | pending => exact put _ _ _ rfl nofun ⟨rfl,rfl,rfl⟩
  | success | ignore => exact put _ _ _ rfl nofun (mapped _ _ _)

theorem getMsgBitmap_mild (ex : MsgEx) : Mild ex (getMsgBitmap ex).1 := by
  unfold getMsgBitmap
  split <;> exact ⟨rfl,rfl,rfl⟩

def leaves : Stage → Bool
  | .reschedule | .recycle | .completing => true
  | _ => false

theorem leaves_cases (stage : Stage) : leaves stage = false ∨ stage = .reschedule ∨ stage = .recycle ∨ stage = .completing := by
  cases stage <;> simp [leaves]

theorem Flows.dispatchStep (flows : Flows R) (s : CmdDispatcher) (i : Nat) (stage : Stage) (ret : MdlRet)
    (stays : leaves stage = false) : R s (dispatchStep s i stage ret) := by
  have on (t : CmdDispatcher) (pc : Pc) (moves : R s t) : R s (t.goto pc) := flows.trans moves (flows.goto t pc)
  have same := flows.refl s
  have put (ex : MsgEx) := flows.mild s i ex
  cases stage with
  | reschedule | recycle | completing => cases stays
  | popped =>
    have checked := flows.isMsgCanceled s i
    unfold Dispr.dispatchStep
    dsimp only
    split
    · exact on _ _ checked
    · exact on _ _ (flows.trans checked (flows.mild _ i _ ⟨rfl,rfl,rfl⟩))
  | start => exact on _ _ (put _ (getMsgBitmap_mild _))
  | ctrl map | ctrlDone map => exact on _ _ same
  | loop phase todo =>
    cases todo with
    | nil => exact on _ _ same
    | cons visit todo =>
      unfold Dispr.dispatchStep
      dsimp only
      split <;> exact on _ _ same
  | feeding mdl after => exact flows.fedMdlMsg s i mdl after ret
  | failOwner after => exact on _ _ (flows.failOwner s _)
  | failReq after =>
    unfold Dispr.dispatchStep
    dsimp only
    split
    · exact on _ _ (flows.curReqHdl s _)
    · exact on _ _ same
  | preDone map | postDone =>
    unfold Dispr.dispatchStep
    dsimp only
    split
    · exact on _ _ same
    split
    · exact on _ _ (put _ ⟨rfl,rfl,rfl⟩)
    · exact on _ _ same
  | postStart => exact on _ _ (put _ ⟨rfl,rfl,rfl⟩)
  | curReq => exact on _ _ (flows.curReqHdl s _)

theorem dispatchStep_held (s : CmdDispatcher) (i : Nat) (stage : Stage) (ret : MdlRet) (stays : leaves stage = false) :
    ∃ stage', (dispatchStep s i stage ret).pc = .held i stage' ∧ stage' ≠ .completing := by
  have on (ex : MsgEx) (go : Stage) (other : go ≠ .completing) : redirected ex go ≠ .completing := by
    unfold redirected
    split
    · exact nofun
    split
    · exact nofun
    · exact other
  have fed (after : After) (ret : MdlRet) : afterFeed after ret ≠ .completing := by
    unfold afterFeed
    split
    · exact nofun
    split
    · rename_i phase _ _
      cases phase <;> exact nofun
    · exact nofun
  cases stage with
  | reschedule | recycle | completing => cases stays
  | popped =>
    unfold dispatchStep
    dsimp only
    split <;> exact ⟨_,rfl,nofun⟩
  | start => exact ⟨_,rfl,on _ _ nofun⟩
  | ctrl map =>
    refine ⟨_,rfl,?_⟩
    split <;> exact nofun
  | ctrlDone map =>
    refine ⟨_,rfl,on _ _ ?_⟩
    split <;> exact nofun
  | loop phase todo =>
    cases todo with
    | nil => cases phase <;> exact ⟨_,rfl,nofun⟩
    | cons visit todo =>
      unfold dispatchStep
      dsimp only
      split <;> exact ⟨_,rfl,nofun⟩
  | feeding mdl after =>
    cases ret with
    | fail | cannotIo => exact ⟨_,rfl,nofun⟩
    | pending | success | ignore => exact ⟨_,rfl,fed after _⟩
  | failOwner after => exact ⟨_,rfl,nofun⟩
  | failReq after => exact ⟨_,rfl,fed after .fail⟩
  | preDone map | postDone =>
    unfold dispatchStep
    dsimp only
    split
    · exact ⟨_,rfl,on _ _ nofun⟩
    split <;> exact ⟨_,rfl,nofun⟩
  | postStart =>
    refine ⟨_,rfl,?_⟩
    split <;> exact nofun
  | curReq => exact ⟨_,rfl,nofun⟩

theorem Drops.dropReqMsg (drops : Drops R) (mdlId : Nat) (s : CmdDispatcher) (i : Nat) : R s (dropReqMsg mdlId s i) := by
  unfold Dispr.dropReqMsg
  dsimp only
  split
  · exact drops.refl s
  have canceled : R s (cancelMsg (s.setEx i {s.msgExPool i with status:={(s.msgExPool i).status with ownerReq:=false}}) i) :=
    drops.trans (drops.mild s i {s.msgExPool i with status:={(s.msgExPool i).status with ownerReq:=false}} ⟨rfl,rfl,rfl⟩)
      (drops.mild _ i _ ⟨rfl,rfl,rfl⟩)
  split
  · exact drops.trans (drops.trans canceled (drops.clrPending _)) (drops.clearPending _)
  · exact canceled

theorem Drops.dropped (drops : Drops R) (mdlId : Nat) (queue : List Nat) (s : CmdDispatcher) : R s (queue.foldl (Dispr.dropReqMsg mdlId) s) := by
  induction queue generalizing s with
  | nil => exact drops.refl s
  | cons i rest ih => exact drops.trans (drops.dropReqMsg mdlId s i) (ih _)

theorem Follows.dropReqMsgs (follows : Follows R) (s : CmdDispatcher) (req : Nat) : R s (dropReqMsgs s req) := by
  unfold Dispr.dropReqMsgs
  exact follows.trans (follows.calm (.setReq s req _)) (follows.drops.dropped _ _ _)

theorem Follows.deregister (follows : Follows R) (s : CmdDispatcher) : R s (deregisterCurCmdReq s) := by
  unfold deregisterCurCmdReq
  split
  · exact follows.refl s
  · rename_i req _
    exact follows.trans (follows.dropReqMsgs s req) (follows.calm (.releaseReq _ req))

theorem Follows.finishOp (follows : Follows R) (s : CmdDispatcher) (node : OpNode) : R s (finishOp s node) :=
  follows.trans (follows.calm (.setOpInfo s node _)) (follows.goto _ _)

theorem Follows.handleTokenOp (follows : Follows R) (s : CmdDispatcher) (node : OpNode) : R s (handleTokenOpInfo s node) := by
  have on (t : CmdDispatcher) (pc : Pc) (moves : R s t) : R s (t.goto pc) := follows.trans moves (follows.goto t pc)
  have told (t : CmdDispatcher) (req : Nat) (moves : R s t) : R s (t.note (.abort req)) := follows.trans moves (follows.note t _ rfl)
  unfold handleTokenOpInfo
  dsimp only
  split
  · exact on _ _ (follows.refl s)
  · exact on _ _ (follows.refl s)
  · split
    · exact follows.finishOp s node
    · exact on _ _ (follows.deregister s)
  split
  · exact follows.finishOp s node
  split
  · refine on _ _ (told _ _ (follows.calm ?_))
    exact ⟨rfl,rfl,rfl,rfl,rfl,rfl,rfl,rfl,rfl,fun _ => .refl _⟩
  split
  · split
    · exact on _ _ (follows.refl s)
    · rename_i req _
      exact on _ _ (told _ req (follows.trans (follows.dropReqMsgs s req) (follows.calm (.setReq _ req _))))
  · exact follows.finishOp s node

theorem Follows.processTokenReq (follows : Follows R) (s : CmdDispatcher) (node : OpNode) : R s (disprProcessTokenReq s node) := by
  have sent (t : CmdDispatcher) (on : Bool) (mdlId evtId : Nat) :
      R t (sendPlain {t with status:={t.status with notifyIdle:=on}} mdlId evtId).1 := by
    refine follows.trans (follows.calm ?_) (follows.send _ _ _)
    exact ⟨rfl,rfl,rfl,rfl,rfl,rfl,rfl,rfl,rfl,fun _ => .refl _⟩
  unfold disprProcessTokenReq
  split
  · exact follows.finishOp s node
  split
  · refine follows.trans ?_ (follows.finishOp _ node)
    split
    · exact follows.refl s
    · exact sent s true _ _
  · rename_i req t popped
    have woken : R s (if t.status.notifyIdle then sendBkMsgPhyOn {t with status:={t.status with notifyIdle:=false}} else t) := by
      refine follows.trans (follows.calm (.popWaitReq popped)) ?_
      split
      · exact sent t false _ _
      · exact follows.refl t
    dsimp only
    generalize (if t.status.notifyIdle then _ else t) = u at woken
    refine follows.trans (follows.trans woken (follows.calm ?_)) (follows.trans (follows.note _ (.acquire req) rfl) (follows.goto _ _))
    exact ⟨rfl,rfl,rfl,rfl,rfl,rfl,rfl,rfl,rfl,fun _ => .refl _⟩

-- The thread at a token request: neither waiting nor at a message.
def early : Pc → Bool
  | .tokenOps | .process _ | .acquired _ | .abortWaiting _ _ | .abortCurrent _ => true
  | .wait | .fetch | .held _ _ => false

theorem early_cases (pc : Pc) : early pc ∨ pc = .wait ∨ pc = .fetch ∨ ∃ i stage, pc = .held i stage := by
  cases pc <;> simp [early]

theorem handleTokenOp_early (s : CmdDispatcher) (node : OpNode) : early (handleTokenOpInfo s node).pc := by
  unfold handleTokenOpInfo
  dsimp only
  repeat' split
  all_goals rfl

theorem processTokenReq_early (s : CmdDispatcher) (node : OpNode) : early (disprProcessTokenReq s node).pc := by
  unfold disprProcessTokenReq
  repeat' split
  all_goals rfl

theorem threadStep_wait (pc : s.pc = .wait) (ret : MdlRet) :
    threadStep s ret = if s.msgQSema = 0 then s else (clearPendingMsg {s with msgQSema:=s.msgQSema - 1}).goto .tokenOps := by
  unfold threadStep
  rw [pc]

theorem threadStep_fetch (pc : s.pc = .fetch) (ret : MdlRet) :
    threadStep s ret = match popFrontWaitMsg s with
      | none => s.goto .wait
      | some (i,s) => s.goto (.held i .popped) := by
  cases s
  cases pc
  rfl

theorem threadStep_held (pc : s.pc = .held i stage) (ret : MdlRet) : threadStep s ret = dispatchStep s i stage ret := by
  unfold threadStep
  rw [pc]

theorem Follows.thread (follows : Follows R) (s : CmdDispatcher) (ret : MdlRet) (isEarly : early s.pc)
    (taken : ∀ node rest, s.tokenOpQ = node :: rest → R s {s with tokenOpQ:=rest}) : R s (threadStep s ret) := by
  unfold threadStep
  split
  · rename_i pc; rw [pc] at isEarly; cases isEarly
  · split
    · exact follows.goto s _
    · rename_i node rest queue
      exact follows.trans (taken node rest queue) (follows.handleTokenOp _ node)
  · exact follows.processTokenReq s _
  · split
    · exact follows.trans (follows.deregister s) (follows.goto _ _)
    · exact follows.finishOp s _
  · refine follows.trans (follows.calm ?_) (follows.finishOp _ _)
    exact ⟨rfl,rfl,rfl,rfl,rfl,rfl,rfl,rfl,rfl,fun _ => .refl _⟩
  · split
    · exact follows.goto s _
    · rename_i req _
      have released := follows.trans (follows.calm (.setReq s req _)) (follows.calm (.releaseReq (setLastPermit s req false) req))
      exact follows.trans released (follows.goto _ _)
  · rename_i pc; rw [pc] at isEarly; cases isEarly
  · rename_i pc; rw [pc] at isEarly; cases isEarly

theorem Serves.endTokenReq (serves : Serves R) (s : CmdDispatcher) (idx : Nat) (type : OpType) : R s (endTokenReq s idx type).1 :=
  serves.trans (serves.calm (.setReq s idx _)) (serves.pushOp _ _ _ _)

theorem Serves.devIoStatusChange (serves : Serves R) (s : CmdDispatcher) (cannotIo : Bool) (mdlId : Nat) (allowIo : Bool) :
    R s (sendDevIoStatusChange {s with status:={s.status with cannotIo},exclusiveMdl:=mdlId} allowIo).1 := by
  refine serves.trans (serves.calm ?_) (serves.send _ _ _)
  exact ⟨rfl,rfl,rfl,rfl,rfl,rfl,rfl,rfl,rfl,fun _ => .refl _⟩

theorem Serves.step (serves : Serves R) (s : CmdDispatcher) (event : Event) (other : ∀ ret, event ≠ .thread ret) :
    R s (step s event) := by
  have same := serves.refl s
  cases event with
  | thread ret => exact absurd rfl (other ret)
  | send msg attr => exact serves.send s msg attr
  | clrPending => exact serves.clrPending s
  | cancel hdl =>
    unfold Dispr.step disprCancelMsg
    dsimp only
    repeat' split
    any_goals exact same
    exact serves.calm (.setEx ⟨rfl,rfl,rfl⟩)
  | devIoStatus mdlId allowIo =>
    unfold Dispr.step disprNotifyDevIoStatus
    dsimp only
    split
    · split
      · exact serves.devIoStatusChange s true mdlId _
      · exact same
    · split
      · exact serves.trans (serves.devIoStatusChange s false phlMdlIdMax _) (serves.clrPending _)
      · exact same
  | shallStop =>
    unfold Dispr.step disprNotifyShallStop
    dsimp only
    split
    · exact same
    · refine serves.trans (serves.calm ?_) (serves.clrPending _)
      exact ⟨rfl,rfl,rfl,rfl,rfl,rfl,rfl,rfl,rfl,fun _ => .refl _⟩
  | addTokenReq req =>
    unfold Dispr.step disprAddTokenReq popFrontIdleReq
    dsimp only
    split
    · exact same
    cases s.tokenReqIdleQ with
    | nil => exact same
    | cons idx rest =>
      refine serves.trans (serves.calm ?_) (serves.pushOp _ _ _ _)
      exact ⟨rfl,rfl,rfl,rfl,rfl,rfl,rfl,rfl,rfl,fun _ => .refl _⟩
  | cancelTokenReq hdl =>
    unfold Dispr.step disprCancelTokenReq
    dsimp only
    repeat' split
    any_goals exact same
    exact serves.endTokenReq s _ _
  | freeToken hdl =>
    unfold Dispr.step disprFreeToken
    dsimp only
    repeat' split
    any_goals exact same
    exact serves.endTokenReq s _ _
end Rtl8852au.Dispr
