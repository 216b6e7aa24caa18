import Rtl8852au.DispatcherToken

namespace Rtl8852au.Dispr
open Machine CmdDispatcher

inductive Task where
  | rest
  | process (node : OpNode)
  | acquired (node : OpNode)
  | abortWaiting (node : OpNode) (req : Nat)
  | abortCurrent (node : OpNode)
  deriving DecidableEq

structure Tok where
  pool : Nat → TokenReqEx
  waitQ : List Nat
  idleQ : List Nat
  ops : List OpNode
  cnt : Int
  cur : Option Nat
  task : Task
  aborts : Nat → Nat

def taskOf : Pc → Task
  | .wait | .tokenOps | .fetch | .held _ _ => .rest
  | .process node => .process node
  | .acquired node => .acquired node
  | .abortWaiting node req => .abortWaiting node req
  | .abortCurrent node => .abortCurrent node

def tok (d : CmdDispatcher) : Tok where
  pool := d.tokenReqExPool
  waitQ := d.tokenReqWaitQ
  idleQ := d.tokenReqIdleQ
  ops := d.tokenOpQ.filter (· ≠ .renew)
  cnt := d.tokenCnt
  cur := d.curCmdReq
  task := taskOf d.pc
  aborts := fun req => d.log.count (.abort req)

namespace Tok

section
variable (t : Tok)

def goto (task : Task) : Tok := {t with task:=task}
def setReq (req : Nat) (ex : TokenReqEx) : Tok := {t with pool:=Function.update t.pool req ex}
def setStatus (req : Nat) (status : ReqStatus) : Tok := t.setReq req {t.pool req with status:=status}

def info : OpNode → TokenOpInfo
  | .add req => (t.pool req).addReqInfo
  | .free req => (t.pool req).freeReqInfo
  | .renew => {type:=.renewCmdReq}

def setInfo (node : OpNode) (info : TokenOpInfo) : Tok :=
  match node with
  | .add req => t.setReq req {t.pool req with addReqInfo:=info}
  | .free req => t.setReq req {t.pool req with freeReqInfo:=info}
  | .renew => t

def finish (node : OpNode) : Tok := (t.setInfo node {t.info node with used:=false}).goto .rest
def idle (req : Nat) : Tok := {t.setStatus req {} with idleQ:=t.idleQ ++ [req]}

def release : Tok :=
  match t.cur with
  | none => t
  | some req => {t.idle req with cnt:=t.cnt - 1,cur:=none}

def abort (req : Nat) : Tok := {t with aborts:=Function.update t.aborts req (t.aborts req + 1)}

def takeWait (req : Nat) (rest : List Nat) : Tok :=
  {t.setStatus req {(t.pool req).status with prepare:=true,enq:=false} with waitQ:=rest}

def register (req : Nat) (node : OpNode) : Tok :=
  {t.setStatus req {(t.pool req).status with run:=true,prepare:=false} with
    cnt := t.cnt+1
    cur := some req
    task := .acquired node}

def Frees (node : OpNode) : Prop :=
  (t.info node).type = .freeCmdReq ∧ (t.info node).data < maxCmdReqNum ∧ (t.pool (t.info node).data).status.run

def handle (node : OpNode) : Tok :=
  let info := t.info node
  match info.type with
  | .renewCmdReq | .addCmdReq => t.goto (.process node)
  | .freeCmdReq =>
    if maxCmdReqNum ≤ info.data || !(t.pool info.data).status.run then t.finish node
    else t.release.goto (.process node)
  | .cancelCmdReq =>
    if maxCmdReqNum ≤ info.data then t.finish node
    else if (t.pool info.data).status.enq then
      ({t with waitQ:=t.waitQ.erase info.data}.abort info.data).goto (.abortWaiting node info.data)
    else if (t.pool info.data).status.run then
      match t.cur with
      | none => t.goto (.process node)
      | some req =>
        ((t.setStatus req {(t.pool req).status with run:=false,lastPermit:=true}).abort req).goto (.abortCurrent node)
    else t.finish node
end

-- A step of the thread. `pops` is the request it takes from the wait queue,
-- `drops` the one it returns to the idle queue without an abort callback.
inductive Works (t : Tok) (ret : MdlRet) (pops drops : Option Nat) : Tok → Prop where
  | stay : t.Works ret pops drops t
  | renew (rest : t.task = .rest) : t.Works ret pops drops (t.handle .renew)
  | handle (rest : t.task = .rest) (front : t.ops = node :: queue) (free : t.Frees node → drops = t.cur) :
      t.Works ret pops drops ({t with ops:=queue}.handle node)
  | close (task : t.task = .process node) : t.Works ret pops drops (t.finish node)
  | register (task : t.task = .process node) (none_held : ¬ 0 < t.cnt) (front : t.waitQ = req :: queue) (popped : pops = some req) :
      t.Works ret pops drops ((t.takeWait req queue).register req node)
  | acquire (task : t.task = .acquired node) (kept : ret ≠ .fail) : t.Works ret pops drops (t.finish node)
  | refuse (task : t.task = .acquired node) (failed : ret = .fail) (dropped : drops = t.cur) :
      t.Works ret pops drops (t.release.goto (.process node))
  | aborted (task : t.task = .abortWaiting node req) : t.Works ret pops drops ((t.idle req).finish node)
  | ended (task : t.task = .abortCurrent node) : t.Works ret pops drops (t.release.goto (.process node))
end Tok
section
variable (d : CmdDispatcher)

def closed : Bool := !d.status.started || d.status.shallStop || decide (0 < d.tokenCnt) || d.status.waitAbortMsgDone

def popsWait : Option Nat :=
  match d.pc with
  | .process _ => if closed d then none else d.tokenReqWaitQ.head?
  | _ => none

def frees (node : OpNode) : Bool :=
  let info := opInfo d node
  info.type == .freeCmdReq && decide (info.data < maxCmdReqNum) && (d.tokenReqExPool info.data).status.run

def drops (ret : MdlRet) : Option Nat :=
  match d.pc with
  | .tokenOps => if d.tokenOpQ.head?.any (frees d) then d.curCmdReq else none
  | .acquired _ => if ret = .fail then d.curCmdReq else none
  | _ => none

-- The node that is of no request never cancels or frees one.
def Quiet : Prop := d.renewReqInfo.type = .addCmdReq ∨ d.renewReqInfo.type = .renewCmdReq
end

structure SameToken (s t : CmdDispatcher) : Prop where
  tok : tok t = tok s
  quiet : Quiet s → Quiet t

theorem SameToken.refl (s : CmdDispatcher) : SameToken s s := ⟨rfl,id⟩

theorem SameToken.trans (one : SameToken s t) (two : SameToken t u) : SameToken s u :=
  ⟨two.tok.trans one.tok,two.quiet ∘ one.quiet⟩

theorem SameToken.note (same : SameToken s t) (other : ∀ req, n ≠ .abort req) : SameToken s (t.note n) := by
  apply same.trans
  constructor
  · have counts : (fun req => (t.note n).log.count (.abort req)) = fun req => t.log.count (.abort req) := by
      funext req
      simp [CmdDispatcher.note,other req]
    unfold Dispr.tok
    rw [counts]
    rfl
  · exact id

section
variable (s : CmdDispatcher)

theorem sameToken_setEx (i : Nat) (ex : MsgEx) : SameToken s (s.setEx i ex) := ⟨rfl,id⟩

theorem sameToken_pushRenew (data : Nat) : SameToken s (pushBackTokenOpInfo s .renew .renewCmdReq data).1 := by
  unfold pushBackTokenOpInfo
  split
  · exact .refl s
  · constructor
    · simp [tok,setOpInfo,notifyBkThread]
    · exact fun _ => .inr rfl

theorem sameToken_abortComplete : SameToken s (onAbortMsgComplete s) := by
  have cleared : SameToken s {s with status:={s.status with waitAbortMsgDone:=false}} := ⟨rfl,id⟩
  exact cleared.trans (sameToken_pushRenew _ _)

theorem sameToken_completeMsg (i : Nat) : SameToken s (completeMsg s i).1 := by
  unfold completeMsg
  dsimp only
  split
  · apply SameToken.note _ (by nofun)
    split <;> exact ⟨rfl,id⟩
  · exact .refl s

theorem sameToken_returnMsg (i : Nat) : SameToken s (returnMsg s i) := by
  have aborted : SameToken s (if (s.msgExPool i).status.forAbort then onAbortMsgComplete s else s) := by
    split
    · exact sameToken_abortComplete s
    · exact .refl s
  have cleared (t : CmdDispatcher) (msg : MsgId) : SameToken t (clearPendingEvt t msg) := by
    unfold clearPendingEvt
    split <;> exact ⟨rfl,id⟩
  have stored (t : CmdDispatcher) (ex : MsgEx) : SameToken t {t.setEx i ex with msgIdleQ:=t.msgIdleQ ++ [i]} := ⟨rfl,id⟩
  unfold returnMsg
  apply SameToken.note _ (by nofun)
  exact (aborted.trans (cleared _ _)).trans (stored _ _)

theorem sameToken_requeues (queue : List Nat) (s : CmdDispatcher) : SameToken s (queue.foldl requeueMsg s) := by
  induction queue generalizing s with
  | nil => exact .refl s
  | cons i rest ih =>
    have first : SameToken s (requeueMsg s i) := by
      unfold requeueMsg
      split <;> exact ⟨rfl,id⟩
    exact first.trans (ih _)

theorem sameToken_clearPending : SameToken s (clearPendingMsg s) := by
  unfold clearPendingMsg
  split
  · have emptied : SameToken s {s with status:={s.status with clrPendMsg:=false},msgPendQ:=[]} := ⟨rfl,id⟩
    exact emptied.trans (sameToken_requeues _ _)
  · exact .refl s

theorem sameToken_send (msg : MsgId) (attr : Option MsgAttr) : SameToken s (disprSendMsg s msg attr).1 := by
  unfold disprSendMsg
  split
  · exact .refl s
  split
  · exact .refl s
  split
  · exact .refl s
  cases popped : popFrontIdleMsg s with
  | none => exact .refl s
  | some taken =>
    obtain ⟨i,t⟩ := taken
    have same : SameToken s t := by
      unfold popFrontIdleMsg at popped
      split at popped
      · cases popped
      · cases popped
        exact ⟨rfl,id⟩
    apply same.trans
    dsimp only
    split
    · apply SameToken.trans (sameToken_setEx t i _)
      unfold pushBackIdleMsg
      exact (sameToken_completeMsg _ i).trans (sameToken_returnMsg _ i)
    · apply SameToken.note _ (by nofun)
      unfold queueMsg
      repeat' split
      all_goals exact ⟨rfl,id⟩

theorem sameToken_sendPlain (mdlId evtId : Nat) : SameToken s (sendPlain s mdlId evtId).1 := sameToken_send s _ _

theorem sameToken_clrPending : SameToken s (disprClrPendingMsg s) := ⟨rfl,id⟩

theorem sameToken_drops : Drops SameToken where
  refl := .refl
  trans := .trans
  mild s i ex _ := sameToken_setEx s i ex
  clrPending := sameToken_clrPending
  clearPending := sameToken_clearPending

theorem sameToken_dropReqMsgs (req : Nat) :
    SameToken (s.setReq req {s.tokenReqExPool req with status:={(s.tokenReqExPool req).status with run:=false}})
      (dropReqMsgs s req) := sameToken_drops.dropped _ _ _

theorem sameToken_phyIdle :
    SameToken s (if s.status.notifyIdle then s else sendBkMsgPhyIdle {s with status:={s.status with notifyIdle:=true}}) := by
  split
  · exact .refl s
  · have marked : SameToken s {s with status:={s.status with notifyIdle:=true}} := ⟨rfl,id⟩
    exact marked.trans (sameToken_sendPlain _ _ _)

theorem sameToken_phyOn :
    SameToken s (if s.status.notifyIdle then sendBkMsgPhyOn {s with status:={s.status with notifyIdle:=false}} else s) := by
  split
  · have marked : SameToken s {s with status:={s.status with notifyIdle:=false}} := ⟨rfl,id⟩
    exact marked.trans (sameToken_sendPlain _ _ _)
  · exact .refl s

theorem sameToken_pushPending (i : Nat) : SameToken s (pushBackPendingMsg s i) := by
  unfold pushBackPendingMsg
  dsimp only
  split <;> exact ⟨rfl,id⟩
end

theorem tok_rest (rest : (tok s).task = .rest) : tok (s.goto .wait) = tok s := by
  have stays : tok (s.goto .wait) = {tok s with task:=.rest} := rfl
  rw [stays,← rest]

theorem SameToken.rested (same : SameToken (s.goto .wait) (t.goto .wait)) (rest : (Dispr.tok s).task = .rest)
    (also : (Dispr.tok t).task = .rest) : SameToken s t := by
  constructor
  · rw [← tok_rest rest,← tok_rest also]
    exact same.tok
  · exact same.quiet

theorem SameToken.away (same : SameToken s t) (pc : Pc) (rest : (Dispr.tok s).task = .rest) (also : taskOf pc = .rest) :
    SameToken s (t.goto pc) := by
  have task : (Dispr.tok t).task = .rest := by rw [same.tok,rest]
  have moved : SameToken t (t.goto pc) := .rested ⟨rfl,id⟩ task also
  exact same.trans moved

theorem rested_flows : Flows fun s t => SameToken (s.goto .wait) (t.goto .wait) where
  refl _ := .refl _
  trans := .trans
  mild _ _ _ _ := ⟨rfl,id⟩
  goto _ _ := ⟨rfl,id⟩
  note s _ _ other := (SameToken.refl (s.goto .wait)).note other

section
variable (s : CmdDispatcher)

theorem sameToken_dispatchStep (i : Nat) (stage : Stage) (ret : MdlRet) (rest : (tok s).task = .rest) :
    SameToken s (dispatchStep s i stage ret) := by
  have away {t : CmdDispatcher} (same : SameToken s t) (pc : Pc) (also : taskOf pc = .rest) : SameToken s (t.goto pc) :=
    same.away pc rest also
  rcases leaves_cases stage with stays | rfl | rfl | rfl
  · obtain ⟨_,here,_⟩ := dispatchStep_held s i stage ret stays
    exact (rested_flows.dispatchStep s i stage ret stays).rested rest (congrArg taskOf here)
  · unfold dispatchStep
    dsimp only
    split
    · exact away (sameToken_pushPending s i) _ rfl
    · have waits : SameToken s (pushBackWaitMsg s i) := ⟨rfl,id⟩
      exact away waits _ rfl
  · unfold dispatchStep
    dsimp only
    split
    · exact away (sameToken_completeMsg s i) _ rfl
    · exact away ((sameToken_completeMsg s i).trans (sameToken_returnMsg _ i)) _ rfl
  · exact away (sameToken_returnMsg s i) _ rfl

theorem opInfo_tok (other : node ≠ .renew) : opInfo s node = (tok s).info node := by
  cases node with
  | add req => rfl
  | free req => rfl
  | renew => exact absurd rfl other

theorem tok_goto (pc : Pc) : tok (s.goto pc) = (tok s).goto (taskOf pc) := rfl

theorem tok_finishOp (node : OpNode) : tok (finishOp s node) = (tok s).finish node := by cases node <;> rfl
end

theorem quiet_finishOp (quiet : Quiet s) (node : OpNode) : Quiet (finishOp s node) := by cases node <;> exact quiet

theorem Tok.idle_setStatus (t : Tok) (req : Nat) (status : ReqStatus) : (t.setStatus req status).idle req = t.idle req := by
  simp [Tok.idle,Tok.setStatus,Tok.setReq]

theorem tok_releaseReq (s : CmdDispatcher) (req : Nat) :
    tok (releaseReq s req) = {(tok s).idle req with cnt:=s.tokenCnt - 1,cur:=none} := rfl

theorem tok_dropReqMsgs (s : CmdDispatcher) (req : Nat) :
    tok (dropReqMsgs s req) = (tok s).setStatus req {(s.tokenReqExPool req).status with run:=false} :=
  (sameToken_dropReqMsgs s req).tok

theorem tok_deregister (s : CmdDispatcher) : tok (deregisterCurCmdReq s) = (tok s).release := by
  unfold deregisterCurCmdReq Tok.release
  have cur : (tok s).cur = s.curCmdReq := rfl
  rw [cur]
  cases s.curCmdReq with
  | none => rfl
  | some req =>
    have cnt : (dropReqMsgs s req).tokenCnt = s.tokenCnt := congrArg Tok.cnt (tok_dropReqMsgs s req)
    dsimp only
    rw [tok_releaseReq,tok_dropReqMsgs,Tok.idle_setStatus,cnt]
    rfl

theorem quiet_releaseReq (quiet : Quiet s) (req : Nat) : Quiet (releaseReq s req) := quiet

theorem quiet_deregister (quiet : Quiet s) : Quiet (deregisterCurCmdReq s) := by
  unfold deregisterCurCmdReq
  cases s.curCmdReq with
  | none => exact quiet
  | some req =>
    have dropped : Quiet (dropReqMsgs s req) := (sameToken_dropReqMsgs s req).quiet quiet
    exact quiet_releaseReq dropped req

section
variable (s : CmdDispatcher) (req : Nat)

theorem tok_abort : tok (s.note (.abort req)) = (tok s).abort req := by
  have counts : (fun other => (s.note (.abort req)).log.count (.abort other)) =
      Function.update (fun other => s.log.count (.abort other)) req (s.log.count (.abort req) + 1) := by
    funext other
    by_cases same : other = req
    · subst same
      simp [note]
    · have differ : (Note.abort req == Note.abort other) = false := by simpa using Ne.symm same
      simp [note,List.count_singleton,same,differ]
  unfold tok
  rw [counts]
  rfl

theorem Tok.setStatus_setStatus (t : Tok) (req : Nat) (one two : ReqStatus) :
    (t.setStatus req one).setStatus req two = t.setStatus req two := by
  simp [Tok.setStatus,Tok.setReq]

theorem tok_setLastPermit (on : Bool) :
    tok (setLastPermit s req on) = (tok s).setStatus req {((tok s).pool req).status with lastPermit:=on} := rfl

theorem tok_abortCurrent : tok ((setLastPermit (dropReqMsgs s req) req true).note (.abort req)) =
    ((tok s).setStatus req {((tok s).pool req).status with run:=false,lastPermit:=true}).abort req := by
  rw [tok_abort,tok_setLastPermit,tok_dropReqMsgs,Tok.setStatus_setStatus]
  simp [Tok.setStatus,Tok.setReq,tok]
end

theorem tok_handle (s : CmdDispatcher) (other : node ≠ .renew) : tok (handleTokenOpInfo s node) = (tok s).handle node := by
  unfold handleTokenOpInfo Tok.handle
  rw [opInfo_tok s other]
  dsimp only
  have pool : (tok s).pool = s.tokenReqExPool := rfl
  have cur : (tok s).cur = s.curCmdReq := rfl
  cases ((tok s).info node).type with
  | renewCmdReq => rfl
  | addCmdReq => rfl
  | freeCmdReq =>
    dsimp only
    rw [pool]
    split
    · exact tok_finishOp s node
    · exact congrArg (Tok.goto · (.process node)) (tok_deregister s)
  | cancelCmdReq =>
    dsimp only
    rw [pool,cur]
    split
    · exact tok_finishOp s node
    split
    · exact congrArg (Tok.goto · (.abortWaiting node _)) (tok_abort {s with tokenReqWaitQ:=s.tokenReqWaitQ.erase _} _)
    split
    · cases s.curCmdReq with
      | none => rfl
      | some req => exact congrArg (Tok.goto · (.abortCurrent node)) (tok_abortCurrent s req)
    · exact tok_finishOp s node

theorem handle_renew (quiet : Quiet s) : tok (handleTokenOpInfo s .renew) = (tok s).handle .renew := by
  unfold handleTokenOpInfo opInfo
  dsimp only
  cases quiet with
  | inl type => rw [type]; rfl
  | inr type => rw [type]; rfl

theorem quiet_handle (quiet : Quiet s) (node : OpNode) : Quiet (handleTokenOpInfo s node) := by
  unfold handleTokenOpInfo
  dsimp only
  split
  · exact quiet
  · exact quiet
  · split
    · exact quiet_finishOp quiet node
    · exact quiet_deregister quiet
  · split
    · exact quiet_finishOp quiet node
    split
    · exact quiet
    split
    · split
      · exact quiet
      · rename_i req _
        have permitted (t : CmdDispatcher) (still : Quiet t) :
            Quiet (((setLastPermit t req true).note (.abort req)).goto (.abortCurrent node)) := still
        have dropped : Quiet (dropReqMsgs s req) := (sameToken_dropReqMsgs s req).quiet quiet
        exact permitted _ dropped
    · exact quiet_finishOp quiet node

theorem frees_tok (s : CmdDispatcher) (other : node ≠ .renew) (free : (tok s).Frees node) : frees s node := by
  obtain ⟨type,inside,running⟩ := free
  have run : (s.tokenReqExPool ((tok s).info node).data).status.run := running
  simp [frees,opInfo_tok s other,type,inside,run]

theorem popWaitReq_parts (popped : popFrontWaitReq s = some (req,t)) : ∃ rest, s.tokenReqWaitQ = req :: rest ∧
    tok t = (tok s).takeWait req rest ∧ (Quiet s → Quiet t) := by
  unfold popFrontWaitReq at popped
  split at popped
  · cases popped
  · rename_i rest queue
    cases popped
    exact ⟨rest,queue,rfl,id⟩

def registerReq (s : CmdDispatcher) (req : Nat) (node : OpNode) : CmdDispatcher :=
  let ex := s.tokenReqExPool req
  let s := s.setReq req {ex with status:={ex.status with run:=true,prepare:=false}}
  ({s with curCmdReq:=some req,tokenCnt:=s.tokenCnt + 1}.note (.acquire req)).goto (.acquired node)

theorem tok_registerReq (s : CmdDispatcher) (req : Nat) (node : OpNode) :
    tok (registerReq s req node) = (tok s).register req node := by
  have noted (t : CmdDispatcher) : tok (t.note (.acquire req)) = tok t := ((SameToken.refl t).note (by nofun)).tok
  exact congrArg (Tok.goto · (.acquired node)) (noted _)

theorem processTokenReq_works (s : CmdDispatcher) (node : OpNode) (here : s.pc = .process node) (quiet : Quiet s) (ret : MdlRet)
    (drops : Option Nat) :
    (tok s).Works ret (popsWait s) drops (tok (disprProcessTokenReq s node)) ∧ Quiet (disprProcessTokenReq s node) := by
  have task : (tok s).task = .process node := congrArg taskOf here
  have ends {t : CmdDispatcher} (same : SameToken s t) :
      (tok s).Works ret (popsWait s) drops (tok (finishOp t node)) ∧ Quiet (finishOp t node) := by
    rw [tok_finishOp,same.tok]
    exact ⟨.close task,quiet_finishOp (same.quiet quiet) node⟩
  unfold disprProcessTokenReq
  split
  · exact ends (.refl s)
  · rename_i opened
    cases popped : popFrontWaitReq s with
    | none => exact ends (sameToken_phyIdle s)
    | some taken =>
      obtain ⟨req,t⟩ := taken
      obtain ⟨rest,queue,view,still⟩ := popWaitReq_parts popped
      have pops : popsWait s = some req := by
        unfold popsWait closed
        rw [here]
        dsimp only
        rw [if_neg opened,queue]
        rfl
      have none_held : ¬ 0 < (tok s).cnt := by
        intro held
        apply opened
        have decided : decide (0 < s.tokenCnt) := decide_eq_true held
        simp [decided]
      have registered (u : CmdDispatcher) (same : SameToken t u) :
          (tok s).Works ret (popsWait s) drops (tok (registerReq u req node)) ∧ Quiet (registerReq u req node) := by
        refine ⟨?_,same.quiet (still quiet)⟩
        rw [tok_registerReq,same.tok,view]
        exact .register task none_held queue pops
      exact registered _ (sameToken_phyOn t)

theorem worked_same (quiet : Quiet s) (same : SameToken s t) (ret : MdlRet) (pops drops : Option Nat) :
    (tok s).Works ret pops drops (tok t) ∧ Quiet t := by
  rw [same.tok]
  exact ⟨.stay,same.quiet quiet⟩

theorem tokenOps_works (here : s.pc = .tokenOps) (quiet : Quiet s) (ret : MdlRet) :
    (tok s).Works ret (popsWait s) (drops s ret) (tok (threadStep s ret)) ∧ Quiet (threadStep s ret) := by
  have rest : (tok s).task = .rest := congrArg taskOf here
  cases queue : s.tokenOpQ with
  | nil =>
    have step : threadStep s ret = s.goto .fetch := by simp only [threadStep,here,queue]
    rw [step]
    exact worked_same quiet ((SameToken.refl s).away .fetch rest rfl) _ _ _
  | cons node left =>
    have step : threadStep s ret = handleTokenOpInfo {s with tokenOpQ:=left} node := by simp only [threadStep,here,queue]
    rw [step]
    refine ⟨?_,quiet_handle (s := {s with tokenOpQ:=left}) quiet node⟩
    by_cases own : node = .renew
    · subst own
      have same : tok {s with tokenOpQ:=left} = tok s := by simp [tok,queue]
      rw [handle_renew (s := {s with tokenOpQ:=left}) quiet,same]
      exact .renew rest
    · have front : (tok s).ops = node :: left.filter (· ≠ .renew) := by simp [tok,queue,own]
      rw [tok_handle {s with tokenOpQ:=left} own]
      apply Tok.Works.handle rest front
      intro free
      unfold drops
      rw [here,queue]
      simp [frees_tok s own free]
      rfl

theorem acquired_works (here : s.pc = .acquired node) (quiet : Quiet s) (ret : MdlRet) :
    (tok s).Works ret (popsWait s) (drops s ret) (tok (threadStep s ret)) ∧ Quiet (threadStep s ret) := by
  have task : (tok s).task = .acquired node := congrArg taskOf here
  by_cases failed : ret = .fail
  · have step : threadStep s ret = (deregisterCurCmdReq s).goto (.process node) := by simp [threadStep,here,failed]
    rw [step,tok_goto,tok_deregister]
    refine ⟨?_,quiet_deregister quiet⟩
    apply Tok.Works.refuse task failed
    unfold drops
    rw [here]
    exact if_pos failed
  · have step : threadStep s ret = finishOp s node := by simp [threadStep,here,failed]
    rw [step,tok_finishOp]
    exact ⟨.acquire task failed,quiet_finishOp quiet node⟩

theorem release_held (t : Tok) (holds : t.cur = some req) : t.release = {t.idle req with cnt:=t.cnt - 1,cur:=none} := by
  unfold Tok.release
  rw [holds]

theorem abortCurrent_works (here : s.pc = .abortCurrent node) (quiet : Quiet s) (ret : MdlRet) (pops drops : Option Nat) :
    (tok s).Works ret pops drops (tok (threadStep s ret)) ∧ Quiet (threadStep s ret) := by
  have task : (tok s).task = .abortCurrent node := congrArg taskOf here
  have ended : (tok s).Works ret pops drops ((tok s).release.goto (.process node)) := .ended task
  cases holds : s.curCmdReq with
  | none =>
    have step : threadStep s ret = s.goto (.process node) := by simp only [threadStep,here,holds]
    have same : (tok s).release = tok s := by
      have cur : (tok s).cur = none := holds
      unfold Tok.release
      rw [cur]
    rw [same] at ended
    rw [step]
    exact ⟨ended,quiet⟩
  | some req =>
    have step : threadStep s ret = (releaseReq (setLastPermit s req false) req).goto (.process node) := by
      simp only [threadStep,here,holds]
    have released := tok_releaseReq (setLastPermit s req false) req
    rw [tok_setLastPermit,Tok.idle_setStatus] at released
    rw [release_held (tok s) holds] at ended
    rw [step,tok_goto,released]
    exact ⟨ended,quiet_releaseReq (s := setLastPermit s req false) quiet req⟩

theorem thread_works (quiet : Quiet s) (ret : MdlRet) :
    (tok s).Works ret (popsWait s) (drops s ret) (tok (threadStep s ret)) ∧ Quiet (threadStep s ret) := by
  cases here : s.pc with
  | wait =>
    have rest : (tok s).task = .rest := congrArg taskOf here
    apply worked_same quiet
    by_cases asleep : s.msgQSema = 0
    · have step : threadStep s ret = s := by simp [threadStep,here,asleep]
      rw [step]
      exact .refl s
    · have step : threadStep s ret = (clearPendingMsg {s with msgQSema:=s.msgQSema - 1}).goto .tokenOps := by
        simp [threadStep,here,asleep]
      have took : SameToken s {s with msgQSema:=s.msgQSema - 1} := ⟨rfl,id⟩
      rw [step]
      exact (took.trans (sameToken_clearPending _)).away .tokenOps rest rfl
  | tokenOps => exact tokenOps_works here quiet ret
  | process node =>
    have step : threadStep s ret = disprProcessTokenReq s node := by simp only [threadStep,here]
    rw [step]
    exact processTokenReq_works s node here quiet ret _
  | acquired node => exact acquired_works here quiet ret
  | abortWaiting node req =>
    have step : threadStep s ret = finishOp (pushBackIdleReq s req) node := by simp only [threadStep,here]
    rw [step,tok_finishOp]
    exact ⟨.aborted (congrArg taskOf here),quiet_finishOp (s := pushBackIdleReq s req) quiet node⟩
  | abortCurrent node => exact abortCurrent_works here quiet ret _ _
  | fetch =>
    have rest : (tok s).task = .rest := congrArg taskOf here
    apply worked_same quiet
    cases popped : popFrontWaitMsg s with
    | none =>
      have step : threadStep s ret = s.goto .wait := by simp only [threadStep,here,popped]
      rw [step]
      exact (SameToken.refl s).away .wait rest rfl
    | some taken =>
      obtain ⟨i,t⟩ := taken
      have step : threadStep s ret = t.goto (.held i .popped) := by simp only [threadStep,here,popped]
      have same : SameToken s t := by
        unfold popFrontWaitMsg at popped
        split at popped
        · cases popped
        · cases popped
          exact ⟨rfl,id⟩
      rw [step]
      exact same.away _ rest rfl
  | held i stage =>
    have step : threadStep s ret = dispatchStep s i stage ret := by simp only [threadStep,here]
    rw [step]
    exact worked_same quiet (sameToken_dispatchStep s i stage ret (congrArg taskOf here)) _ _ _

section
variable (s : CmdDispatcher)

theorem sameToken_cancelMsg (hdl : BitVec 32) : SameToken s (disprCancelMsg s hdl).1 := by
  unfold disprCancelMsg
  dsimp only
  split
  · exact .refl s
  split
  · exact .refl s
  split
  · exact .refl s
  · exact ⟨rfl,id⟩

theorem sameToken_cannotIo (mdlId : Nat) : SameToken s (disprNotifyDevIoStatus s mdlId false).1 := by
  unfold disprNotifyDevIoStatus
  rw [if_pos (by decide : (!false) = true)]
  split
  · have marked : SameToken s {s with status:={s.status with cannotIo:=true},exclusiveMdl:=mdlId} := ⟨rfl,id⟩
    exact marked.trans (sameToken_sendPlain _ _ _)
  · exact .refl s

theorem sameToken_resumeIo : SameToken s (resumeIo s) := by
  unfold resumeIo
  split
  · have marked : SameToken s {s with status:={s.status with cannotIo:=false},exclusiveMdl:=phlMdlIdMax} := ⟨rfl,id⟩
    exact marked.trans (sameToken_sendPlain _ _ _)
  · exact .refl s

theorem sameToken_shallStop : SameToken s (disprNotifyShallStop s) := by
  unfold disprNotifyShallStop
  split
  · exact .refl s
  · exact ⟨rfl,id⟩
end

def popsIdle (d : CmdDispatcher) (req : CmdTokenReq) : Option Nat :=
  if !d.status.started || !chkCmdReqOps req then none else d.tokenReqIdleQ.head?

def Tok.take (t : Tok) (idx : Nat) (rest : List Nat) (req : CmdTokenReq) : Tok := {t.setReq idx {req} with idleQ:=rest}

inductive Taken (s : TokenSys) (req : CmdTokenReq) : TokenSys → Prop where
  | refused : Taken s req s
  | taken (pops : popsIdle s.dispr req = some idx) (front : s.dispr.tokenReqIdleQ = idx :: rest)
      (view : tok d = (tok s.dispr).take idx rest req) (quiet : Quiet s.dispr → Quiet d) :
      Taken s req {s with
        dispr := d
        calls := s.calls ++ [⟨idx,s.life idx + 1,.taken⟩]
        life := Function.update s.life idx (s.life idx + 1)
        canceled := Function.update s.canceled idx false
        base := Function.update s.base idx (s.dispr.log.count (.abort idx))}

theorem addTokenReq_taken (s : TokenSys) (req : CmdTokenReq) : Taken s req (s.addTokenReq req) := by
  unfold TokenSys.addTokenReq
  split
  · exact .refused
  · rename_i passed
    cases popped : popFrontIdleReq s.dispr with
    | none => exact .refused
    | some taken =>
      obtain ⟨idx,d⟩ := taken
      unfold popFrontIdleReq at popped
      split at popped
      · cases popped
      · rename_i rest queue
        cases popped
        apply Taken.taken _ queue
        · simp [tok,Tok.take,Tok.setReq,setReq]
        · exact id
        · unfold popsIdle
          rw [if_neg passed,queue]
          rfl

def Tok.pushWait (t : Tok) (req : Nat) : Tok := {t with waitQ:=t.waitQ ++ [req]}

theorem tok_setEnq (d : CmdDispatcher) (req : Nat) :
    tok (setEnq d req) = (tok d).setStatus req {((tok d).pool req).status with enq:=true} := rfl

theorem tok_setCancel (d : CmdDispatcher) (req : Nat) :
    tok (setCancel d req) = (tok d).setStatus req {((tok d).pool req).status with cancel:=true} := rfl

-- A node that is not in use enters the queue.
def Tok.link (t : Tok) (node : OpNode) (type : OpType) (data : Nat) : Tok :=
  {t.setInfo node {used:=true,type,data} with ops:=t.ops ++ [node]}

inductive Pushed (s : TokenSys) (call : TokenCall) (node : OpNode) (type : OpType) : TokenSys → Prop where
  | refused (used : ((tok s.dispr).info node).used) : Pushed s call node type s
  | pushed (unused : ((tok s.dispr).info node).used = false) (view : tok d = (tok s.dispr).link node type call.req)
      (quiet : Quiet s.dispr → Quiet d) :
      Pushed s call node type {s with
        dispr := d
        stamp := Function.update s.stamp node call.life
        canceled :=
          if type = .cancelCmdReq ∧ call.life = s.life call.req then Function.update s.canceled call.req true else s.canceled}

theorem pushOp_pushed (s : TokenSys) (call : TokenCall) (node : OpNode) (type : OpType) (other : node ≠ .renew) :
    Pushed s call node type (s.pushOp call node type) := by
  unfold TokenSys.pushOp pushBackTokenOpInfo
  rw [opInfo_tok s.dispr other]
  cases used : ((tok s.dispr).info node).used with
  | true => exact .refused used
  | false =>
    apply Pushed.pushed used
    · cases node with
      | add req => simp [tok,setOpInfo,notifyBkThread,Tok.link,Tok.setInfo,setReq,Tok.setReq]
      | free req => simp [tok,setOpInfo,notifyBkThread,Tok.link,Tok.setInfo,setReq,Tok.setReq]
      | renew => exact absurd rfl other
    · cases node with
      | add req => exact id
      | free req => exact id
      | renew => exact absurd rfl other
end Rtl8852au.Dispr
