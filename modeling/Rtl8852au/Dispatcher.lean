import Rtl8852au.Machine

namespace Rtl8852au.Dispr

def maxPhlMsgNum : Nat := 24
def maxCmdReqNum : Nat := 8
def phlMdlPhyMgnt : Nat := 1
def phlBkMdlRoleStart : Nat := 10
def phlMdlPowerMgnt : Nat := 41
def phlBkMdlEnd : Nat := 128
def phlFgMdlStart : Nat := 129
def phlMdlIdMax : Nat := 255
def msgEvtPhyOn : Nat := 1
def msgEvtPhyIdle : Nat := 2
def msgEvtDevCannotIo : Nat := 59
def msgEvtDevResumeIo : Nat := 60
def msgEvtMax : Nat := 0x7fff

inductive MdlRet where
  | success | fail | ignore | pending | cannotIo
  deriving DecidableEq

inductive PhlStatus where
  | success | failure | resource | invalidParam | unexpectedError | pending
  deriving DecidableEq

inductive Priority where
  | role | optional | mandatory
  deriving DecidableEq

def isDisprCtrl (mdlId : Nat) : Bool := mdlId < phlBkMdlRoleStart

def getMdlPriority (id : Nat) : Option Priority :=
  if id < phlBkMdlRoleStart then none
  else if id ≤ 40 then some .role
  else if id ≤ 70 then some .mandatory
  else if id ≤ 127 then some .optional
  else none

-- `u8 map[MODL_MASK_LEN]`: bit `id % 8` of byte `id / 8` is bit `id`. No bit
-- stands for an id from 128 on.
abbrev Bitmap := BitVec 128
def Bitmap.add (map : Bitmap) (ids : List Nat) : Bitmap := ids.foldl (fun map id => map ||| BitVec.twoPow 128 id) map
def Bitmap.clr (map : Bitmap) (id : Nat) : Bitmap := map &&& ~~~BitVec.twoPow 128 id
def Bitmap.chk (map : Bitmap) (id : Nat) : Bool := map.getLsbD id

structure MsgStatus where
  enq : Bool := false
  run : Bool := false
  notifyComplete : Bool := false
  cancel : Bool := false
  prePhase : Bool := false
  fail : Bool := false
  ownerBkMdl : Bool := false
  ownerReq : Bool := false
  clrSndrMsgIfPending : Bool := false
  pending : Bool := false
  forAbort : Bool := false
  pendingDuringCannotIo : Bool := false
  deriving DecidableEq

structure MsgId where
  mdlId : Nat := 0
  evtId : Nat := 0
  prePhase : Bool := false
  fail : Bool := false
  cancel : Bool := false
  cannotIo : Bool := false
  deriving DecidableEq

-- `completion` stands for the routine with its context. The serial number is
-- not in the source: it tells the uses of an extension apart.
structure MsgEx where
  status : MsgStatus := {}
  msg : MsgId := {}
  premap : Bitmap := 0
  postmap : Bitmap := 0
  completion : Option Nat := none
  module : Option Nat := none
  serial : Nat := 0
  deriving DecidableEq

structure MsgOpt where
  skipNotifyOptMdl : Bool := false
  blistPresent : Bool := false
  clrSndrMsgIfPending : Bool := false
  sendInAbort : Bool := false
  pendingDuringCannotIo : Bool := false

structure MsgAttr where
  opt : MsgOpt := {}
  idArr : Option (List Nat) := none
  len : Nat := 0
  completion : Option Nat := none

structure BkModule where
  id : Nat
  init : Bool
  started : Bool
  deriving DecidableEq

inductive OpType where
  | addCmdReq | freeCmdReq | cancelCmdReq | renewCmdReq
  deriving DecidableEq

structure TokenOpInfo where
  used : Bool := false
  type : OpType := .addCmdReq
  data : Nat := 0
  deriving DecidableEq

-- Which `phl_token_op_info` a node of `token_op_q` is.
inductive OpNode where
  | add (req : Nat)
  | free (req : Nat)
  | renew
  deriving DecidableEq

structure ReqStatus where
  enq : Bool := false
  run : Bool := false
  cancel : Bool := false
  lastPermit : Bool := false
  prepare : Bool := false
  deriving DecidableEq

structure CmdTokenReq where
  moduleId : Nat := 0
  opsOk : Bool := false
  deriving DecidableEq

structure TokenReqEx where
  status : ReqStatus := {}
  req : CmdTokenReq := {}
  addReqInfo : TokenOpInfo := {}
  freeReqInfo : TokenOpInfo := {}
  deriving DecidableEq

structure DisprStatus where
  started : Bool := false
  shallStop : Bool := false
  notifyIdle : Bool := false
  clrPendMsg : Bool := false
  ctrlPresent : Bool := false
  waitAbortMsgDone : Bool := false
  cannotIo : Bool := false
  deriving DecidableEq

inductive Phase where
  | pre | post
  deriving DecidableEq

-- A place of the two phase loops where a module can be fed: the owner before
-- the queue of its priority, and each module of the queue.
inductive Visit where
  | owner (priority : Priority)
  | mdl (module : BkModule)
  deriving DecidableEq

-- Where `msg_dispatch` goes on when `feed_mdl_msg` is through. `map` is its
-- local `bitmap`.
inductive After where
  | ctrl (map : Phase)
  | loop (phase : Phase) (todo : List Visit)
  deriving DecidableEq

-- What is left of the iteration for the message in hand. In `feeding` and
-- `completing` the thread is inside a handler or a completion routine.
inductive Stage where
  | popped
  | start
  | ctrl (map : Phase)
  | ctrlDone (map : Phase)
  | loop (phase : Phase) (todo : List Visit)
  | feeding (mdl : Nat) (after : After)
  | failOwner (after : After)
  | failReq (after : After)
  | preDone (map : Phase)
  | postStart
  | postDone
  | curReq
  | reschedule
  | recycle
  | completing
  deriving DecidableEq

-- Where the background thread is. `acquired`, `abortWaiting` and
-- `abortCurrent` are inside a callback of a token request.
inductive Pc where
  | wait
  | tokenOps
  | process (node : OpNode)
  | acquired (node : OpNode)
  | abortWaiting (node : OpNode) (req : Nat)
  | abortCurrent (node : OpNode)
  | fetch
  | held (i : Nat) (stage : Stage)
  deriving DecidableEq

inductive Note where
  | accept (serial i : Nat) (completion : Option Nat)
  | complete (serial completion : Nat)
  | recycle (serial i : Nat) (status : MsgStatus)
  | fed (serial mdl : Nat) (phase : Phase) (ret : MdlRet)
  | tell (serial mdl : Nat)
  | tellReq (serial req : Nat)
  | acquire (req : Nat)
  | abort (req : Nat)
  deriving DecidableEq

structure CmdDispatcher where
  status : DisprStatus
  moduleQ : Priority → List BkModule
  msgExPool : Nat → MsgEx
  msgQSema : Nat
  msgWaitQ : List Nat
  msgIdleQ : List Nat
  msgPendQ : List Nat
  tokenReqExPool : Nat → TokenReqEx
  tokenReqWaitQ : List Nat
  tokenReqIdleQ : List Nat
  tokenOpQ : List OpNode
  tokenCnt : Int
  curCmdReq : Option Nat
  bitmap : Bitmap
  basemap : Bitmap
  pendingEvt : Nat → Nat
  renewReqInfo : TokenOpInfo
  exclusiveMdl : Nat
  pc : Pc
  nextSerial : Nat
  log : List Note

section
variable (s : CmdDispatcher)

def CmdDispatcher.note (n : Note) : CmdDispatcher := {s with log:=s.log ++ [n]}
def CmdDispatcher.goto (pc : Pc) : CmdDispatcher := {s with pc:=pc}

def CmdDispatcher.setEx (i : Nat) (ex : MsgEx) : CmdDispatcher := {s with msgExPool:=Function.update s.msgExPool i ex}

def CmdDispatcher.setReq (req : Nat) (ex : TokenReqEx) : CmdDispatcher :=
  {s with tokenReqExPool:=Function.update s.tokenReqExPool req ex}

def CmdDispatcher.setPendingEvt (mdlId evt : Nat) : CmdDispatcher := {s with pendingEvt:=Function.update s.pendingEvt mdlId evt}

def genValidHdl (idx : Nat) : BitVec 32 := BitVec.twoPow 32 31 ||| BitVec.ofNat 32 idx

section
variable (hdl : BitVec 32)

def isHdlValid : Bool := hdl.getLsbD 31
def getIdxFromHdl : Nat := (hdl.setWidth 8).toNat

def notifyBkThread : CmdDispatcher := {s with msgQSema:=s.msgQSema + 1}

def opInfo : OpNode → TokenOpInfo
  | .add req => (s.tokenReqExPool req).addReqInfo
  | .free req => (s.tokenReqExPool req).freeReqInfo
  | .renew => s.renewReqInfo

def setOpInfo (node : OpNode) (info : TokenOpInfo) : CmdDispatcher :=
  match node with
  | .add req => s.setReq req {s.tokenReqExPool req with addReqInfo:=info}
  | .free req => s.setReq req {s.tokenReqExPool req with freeReqInfo:=info}
  | .renew => {s with renewReqInfo:=info}

def pushBackTokenOpInfo (node : OpNode) (type : OpType) (data : Nat) : CmdDispatcher × Bool :=
  if (opInfo s node).used then (s,false)
  else
    let s := setOpInfo s node {used:=true,type,data}
    (notifyBkThread {s with tokenOpQ:=s.tokenOpQ ++ [node]},true)

def onAbortMsgComplete : CmdDispatcher :=
  let s := {s with status:={s.status with waitAbortMsgDone:=false}}
  (pushBackTokenOpInfo s .renew .renewCmdReq 0xff).1

def popFrontIdleMsg : Option (Nat × CmdDispatcher) :=
  match s.msgIdleQ with
  | [] => none
  | i :: rest => some (i,{s with msgIdleQ:=rest,nextSerial:=s.nextSerial + 1}.setEx i {serial:=s.nextSerial})

def completeMsg (i : Nat) : CmdDispatcher × Bool :=
  let ex := s.msgExPool i
  match ex.status.notifyComplete,ex.completion with
  | true,some routine =>
    let s := if ex.status.cancel then s.setEx i {ex with msg:={ex.msg with cancel:=true}} else s
    (s.note (.complete ex.serial routine),true)
  | _,_ => (s,false)

def clearPendingEvt (msg : MsgId) : CmdDispatcher :=
  if s.pendingEvt msg.mdlId = msg.evtId then s.setPendingEvt msg.mdlId msgEvtMax else s

def returnMsg (i : Nat) : CmdDispatcher :=
  let ex := s.msgExPool i
  let s := if ex.status.forAbort then onAbortMsgComplete s else s
  let s := clearPendingEvt s ex.msg
  let s := s.setEx i {ex with status:={},msg:={}}
  {s with msgIdleQ:=s.msgIdleQ ++ [i]}.note (.recycle ex.serial i ex.status)

def pushBackIdleMsg (i : Nat) : CmdDispatcher := returnMsg (completeMsg s i).1 i

def popFrontWaitMsg : Option (Nat × CmdDispatcher) :=
  match s.msgWaitQ with
  | [] => none
  | i :: rest =>
    let ex := s.msgExPool i
    some (i,{s with msgWaitQ:=rest}.setEx i {ex with status:={ex.status with run:=true,enq:=false,pending:=false}})

def enqueued (ex : MsgEx) : MsgEx := {ex with status:={ex.status with enq:=true,run:=false}}

def pushBackWaitMsg (i : Nat) : CmdDispatcher :=
  let s := s.setEx i (enqueued (s.msgExPool i))
  notifyBkThread {s with msgWaitQ:=s.msgWaitQ ++ [i]}

def isHigherPriority (input obj : MsgEx) : Bool := isDisprCtrl input.msg.mdlId && !isDisprCtrl obj.msg.mdlId

def pqInsert (before : Nat → Bool) (i : Nat) : List Nat → List Nat
  | [] => [i]
  | j :: rest => if before j then i :: j :: rest else j :: pqInsert before i rest

def insertMsgByPriority (i : Nat) : CmdDispatcher :=
  let s := s.setEx i (enqueued (s.msgExPool i))
  let before j := isHigherPriority (s.msgExPool i) (s.msgExPool j)
  notifyBkThread {s with msgWaitQ:=pqInsert before i s.msgWaitQ}

def pushBackPendingMsg (i : Nat) : CmdDispatcher :=
  let ex := enqueued (s.msgExPool i)
  let s := s.setEx i ex
  let s := if ex.status.clrSndrMsgIfPending then s.setPendingEvt ex.msg.mdlId ex.msg.evtId else s
  {s with msgPendQ:=s.msgPendQ ++ [i]}

-- The test is on the event id, as in the source.
def requeueMsg (i : Nat) : CmdDispatcher :=
  if isDisprCtrl (s.msgExPool i).msg.evtId then insertMsgByPriority s i else pushBackWaitMsg s i

def clearPendingMsg : CmdDispatcher :=
  if s.status.clrPendMsg then
    s.msgPendQ.foldl requeueMsg {s with status:={s.status with clrPendMsg:=false},msgPendQ:=[]}
  else s

def isSpecialMsg (msg : MsgId) : Bool :=
  s.status.cannotIo && (s.exclusiveMdl == msg.mdlId || msg.evtId == msgEvtDevCannotIo || msg.evtId == msgEvtDevResumeIo ||
    msg.evtId == msgEvtPhyOn || msg.evtId == msgEvtPhyIdle)

def isMsgCanceled (i : Nat) : CmdDispatcher × Bool :=
  let ex := s.msgExPool i
  let pendingEvt := s.pendingEvt ex.msg.mdlId
  if !s.status.started || ex.status.cancel then (s,true)
  else if pendingEvt != msgEvtMax && pendingEvt != ex.msg.evtId then
    (s.setEx i {ex with status:={ex.status with cancel:=true}},true)
  else if s.status.shallStop then
    (s.setEx i {ex with status:={ex.status with cancel:=true},msg:={ex.msg with cannotIo:=true}},true)
  else if s.status.cannotIo then
    if isSpecialMsg s ex.msg then (s.setEx i {ex with msg:={ex.msg with cannotIo:=true}},false)
    else if !ex.status.pendingDuringCannotIo then
      (s.setEx i {ex with status:={ex.status with cancel:=true},msg:={ex.msg with cannotIo:=true}},true)
    else (s.setEx i {ex with status:={ex.status with pending:=true}},false)
  else (s,false)

def cancelMsg (i : Nat) : CmdDispatcher :=
  let ex := s.msgExPool i
  s.setEx i {ex with premap:=0,postmap:=0,status:={ex.status with cancel:=true}}

def ownBit (mdlId : Nat) (map : Bitmap) : Bitmap := if s.bitmap.chk mdlId then map.add [mdlId] else map

def setMsgBitmap (ex : MsgEx) (mdlId : Nat) : MsgEx :=
  {ex with premap:=ownBit s mdlId s.bitmap,postmap:=ownBit s mdlId s.bitmap}

def setMsgCustomBitmap (ex : MsgEx) (opt : MsgOpt) (idArr : List Nat) (mdlId : Nat) : MsgEx :=
  let custom (map : Bitmap) : Bitmap :=
    let map := if opt.skipNotifyOptMdl then s.basemap else map
    ownBit s mdlId (if opt.blistPresent then idArr.foldl Bitmap.clr map else map.add idArr)
  {ex with premap:=custom ex.premap,postmap:=custom ex.postmap}

def getModuleById (id : Nat) : Option Nat :=
  if isDisprCtrl id then (if s.status.ctrlPresent then some phlMdlPhyMgnt else none)
  else if !s.bitmap.chk id then none
  else if [Priority.role,.optional,.mandatory].any fun p => (s.moduleQ p).any fun mdl => mdl.id == id then some id
  else none

-- `get_cur_cmd_req_id` with the status it writes out; `none` is a status of 0.
def getCurCmdReqId : Nat × Option ReqStatus :=
  match s.curCmdReq with
  | none => (phlMdlIdMax,none)
  | some req =>
    let ex := s.tokenReqExPool req
    (if !ex.status.run || ex.status.cancel then phlMdlIdMax else ex.req.moduleId,some ex.status)

def lastPermit : Option ReqStatus → Bool
  | some status => status.lastPermit
  | none => false

def attrEx (ex : MsgEx) (mdlId : Nat) : Option MsgAttr → MsgEx
  | none => ex
  | some attr =>
    let ex := setMsgCustomBitmap s ex attr.opt ((attr.idArr.getD []).take attr.len) mdlId
    {ex with
      completion := attr.completion
      status := {ex.status with
        notifyComplete := attr.completion.isSome
        clrSndrMsgIfPending := attr.opt.clrSndrMsgIfPending
        pendingDuringCannotIo := attr.opt.pendingDuringCannotIo}}

def ownEx (ex : MsgEx) (mdlId : Nat) : MsgEx :=
  let (curReqId,reqStatus) := getCurCmdReqId s
  match getModuleById s mdlId with
  | some mdl => {ex with module:=some mdl,status:={ex.status with ownerBkMdl:=true}}
  | none =>
    if curReqId = mdlId || (curReqId = phlMdlIdMax && lastPermit reqStatus) then
      {ex with status:={ex.status with ownerReq:=true}}
    else ex

def mayNotSend (mdlId : Nat) : Bool :=
  let (curReqId,reqStatus) := getCurCmdReqId s
  !isDisprCtrl mdlId && !s.bitmap.chk mdlId &&
    ((curReqId != phlMdlIdMax && curReqId != mdlId) || (curReqId == phlMdlIdMax && reqStatus.all (· = {})) ||
      (curReqId == phlMdlIdMax && !lastPermit reqStatus))

def badAttr : Option MsgAttr → Bool
  | some attr => attr.idArr.isNone && attr.len != 0
  | none => false

def sendInAbort : Option MsgAttr → Bool
  | some attr => attr.opt.sendInAbort
  | none => false

-- The message as `dispr_send_msg` has filled it in, before it is queued.
def sentEx (ex : MsgEx) (msg : MsgId) (attr : Option MsgAttr) : MsgEx :=
  ownEx s (attrEx s (setMsgBitmap s {ex with msg} msg.mdlId) msg.mdlId attr) msg.mdlId

def queueMsg (i : Nat) (mdlId : Nat) : CmdDispatcher :=
  if isDisprCtrl mdlId then insertMsgByPriority s i else pushBackWaitMsg s i

def disprSendMsg (msg : MsgId) (attr : Option MsgAttr) : CmdDispatcher × PhlStatus × BitVec 32 :=
  if !s.status.started then (s,.unexpectedError,0)
  else if badAttr attr then (s,.invalidParam,0)
  else if mayNotSend s msg.mdlId then (s,.invalidParam,0)
  else
    match popFrontIdleMsg s with
    | none => (s,.resource,0)
    | some (i,s) =>
      let ex := sentEx s (s.msgExPool i) msg attr
      let abort := ex.status.ownerReq && lastPermit (getCurCmdReqId s).2
      if abort && !sendInAbort attr then
        (pushBackIdleMsg (s.setEx i {ex with msg:={ex.msg with fail:=true}}) i,.failure,0)
      else
        let s := if abort then {s with status:={s.status with waitAbortMsgDone:=true}} else s
        let s := s.setEx i {ex with status:={ex.status with forAbort:=abort,prePhase:=true}}
        ((queueMsg s i msg.mdlId).note (.accept ex.serial i ex.completion),.success,genValidHdl i)

def disprCancelMsg : CmdDispatcher × PhlStatus :=
  if !s.status.started then (s,.unexpectedError)
  else if !isHdlValid hdl || maxPhlMsgNum ≤ getIdxFromHdl hdl then (s,.failure)
  else
    let ex := s.msgExPool (getIdxFromHdl hdl)
    if !ex.status.enq && !ex.status.run then (s,.failure) else (cancelMsg s (getIdxFromHdl hdl),.success)

-- SET_STATUS_FLAG and CLEAR_STATUS_FLAG load the status word, change a bit and
-- store it, without a lock; here, as for every flag, that is one step.
def disprClrPendingMsg : CmdDispatcher := notifyBkThread {s with status:={s.status with clrPendMsg:=true}}

def sendPlain (mdlId evtId : Nat) : CmdDispatcher × PhlStatus :=
  let (s,ret,_) := disprSendMsg s {mdlId,evtId} (some {})
  (s,ret)

def sendBkMsgPhyOn : CmdDispatcher := (sendPlain s phlMdlPowerMgnt msgEvtPhyOn).1
def sendBkMsgPhyIdle : CmdDispatcher := (sendPlain s phlMdlPowerMgnt msgEvtPhyIdle).1

def sendDevIoStatusChange (allowIo : Bool) : CmdDispatcher × PhlStatus :=
  sendPlain s phlMdlPhyMgnt (if allowIo then msgEvtDevResumeIo else msgEvtDevCannotIo)

def disprNotifyDevIoStatus (mdlId : Nat) (allowIo : Bool) : CmdDispatcher × PhlStatus :=
  if !allowIo then
    if !s.status.cannotIo then
      sendDevIoStatusChange {s with status:={s.status with cannotIo:=true},exclusiveMdl:=mdlId} allowIo
    else (s,.success)
  else
    if s.status.cannotIo then
      let (s,ret) := sendDevIoStatusChange {s with status:={s.status with cannotIo:=false},exclusiveMdl:=phlMdlIdMax} allowIo
      (disprClrPendingMsg s,ret)
    else (s,.success)

def disprNotifyShallStop : CmdDispatcher :=
  if s.status.shallStop then s else disprClrPendingMsg {s with status:={s.status with shallStop:=true}}

def popFrontIdleReq : Option (Nat × CmdDispatcher) :=
  match s.tokenReqIdleQ with
  | [] => none
  | req :: rest => some (req,{s with tokenReqIdleQ:=rest}.setReq req {})

def pushBackIdleReq (req : Nat) : CmdDispatcher :=
  let ex := s.tokenReqExPool req
  let s := (s.setReq req {ex with status:={}}).setPendingEvt ex.req.moduleId msgEvtMax
  {s with tokenReqIdleQ:=s.tokenReqIdleQ ++ [req]}

def popFrontWaitReq : Option (Nat × CmdDispatcher) :=
  match s.tokenReqWaitQ with
  | [] => none
  | req :: rest =>
    let ex := s.tokenReqExPool req
    some (req,{s with tokenReqWaitQ:=rest}.setReq req {ex with status:={ex.status with prepare:=true,enq:=false}})

def pushBackWaitReq (req : Nat) : CmdDispatcher :=
  let ex := s.tokenReqExPool req
  {s with tokenReqWaitQ:=s.tokenReqWaitQ ++ [req]}.setReq req {ex with status:={ex.status with enq:=true}}

def chkCmdReqOps (req : CmdTokenReq) : Bool := decide (phlFgMdlStart ≤ req.moduleId) && req.opsOk

def disprAddTokenReq (req : CmdTokenReq) : CmdDispatcher × PhlStatus × BitVec 32 :=
  if !s.status.started || !chkCmdReqOps req then (s,.unexpectedError,0)
  else
    match popFrontIdleReq s with
    | none => (s,.resource,0)
    | some (idx,s) =>
      let s := pushBackWaitReq (s.setReq idx {s.tokenReqExPool idx with req}) idx
      let stat := if s.tokenOpQ.isEmpty && s.tokenCnt == 0 then PhlStatus.success else .pending
      ((pushBackTokenOpInfo s (.add idx) .addCmdReq idx).1,stat,genValidHdl idx)

def endTokenReq (idx : Nat) (type : OpType) : CmdDispatcher × PhlStatus :=
  let ex := s.tokenReqExPool idx
  let s := s.setReq idx {ex with status:={ex.status with cancel:=true}}
  let (s,queued) := pushBackTokenOpInfo s (.free idx) type idx
  (s,if queued then .success else .failure)

def disprCancelTokenReq : CmdDispatcher × PhlStatus :=
  if !s.status.started then (s,.unexpectedError)
  else if !isHdlValid hdl || maxCmdReqNum ≤ getIdxFromHdl hdl then (s,.failure)
  else
    let status := (s.tokenReqExPool (getIdxFromHdl hdl)).status
    if !status.enq && !status.run && !status.prepare then (s,.failure)
    else endTokenReq s (getIdxFromHdl hdl) .cancelCmdReq

def disprFreeToken : CmdDispatcher × PhlStatus :=
  if !s.status.started then (s,.unexpectedError)
  else if s.curCmdReq.isNone || s.tokenCnt == 0 || !isHdlValid hdl || maxCmdReqNum ≤ getIdxFromHdl hdl then (s,.failure)
  else
    let status := (s.tokenReqExPool (getIdxFromHdl hdl)).status
    if !status.run && !status.prepare then (s,.failure)
    else endTokenReq s (getIdxFromHdl hdl) .freeCmdReq
end

def dropReqMsg (mdlId : Nat) (s : CmdDispatcher) (i : Nat) : CmdDispatcher :=
  let ex := s.msgExPool i
  if mdlId ≠ ex.msg.mdlId then s
  else
    let s := cancelMsg (s.setEx i {ex with status:={ex.status with ownerReq:=false}}) i
    if ex.status.pending then clearPendingMsg (disprClrPendingMsg s) else s

def dropReqMsgs (req : Nat) : CmdDispatcher :=
  let ex := s.tokenReqExPool req
  let s := s.setReq req {ex with status:={ex.status with run:=false}}
  (List.range maxPhlMsgNum).foldl (dropReqMsg ex.req.moduleId) s

def releaseReq (req : Nat) : CmdDispatcher :=
  let s := pushBackIdleReq s req
  {s with tokenCnt:=s.tokenCnt - 1,curCmdReq:=none}

def deregisterCurCmdReq : CmdDispatcher :=
  match s.curCmdReq with
  | none => s
  | some req => releaseReq (dropReqMsgs s req) req

def setLastPermit (req : Nat) (on : Bool) : CmdDispatcher :=
  let ex := s.tokenReqExPool req
  s.setReq req {ex with status:={ex.status with lastPermit:=on}}

def finishOp (node : OpNode) : CmdDispatcher := (setOpInfo s node {opInfo s node with used:=false}).goto .tokenOps

def handleTokenOpInfo (node : OpNode) : CmdDispatcher :=
  let info := opInfo s node
  match info.type with
  | .renewCmdReq | .addCmdReq => s.goto (.process node)
  | .freeCmdReq =>
    if maxCmdReqNum ≤ info.data || !(s.tokenReqExPool info.data).status.run then finishOp s node
    else (deregisterCurCmdReq s).goto (.process node)
  | .cancelCmdReq =>
    if maxCmdReqNum ≤ info.data then finishOp s node
    else if (s.tokenReqExPool info.data).status.enq then
      ({s with tokenReqWaitQ:=s.tokenReqWaitQ.erase info.data}.note (.abort info.data)).goto (.abortWaiting node info.data)
    else if (s.tokenReqExPool info.data).status.run then
      match s.curCmdReq with
      | none => s.goto (.process node)
      | some req => ((setLastPermit (dropReqMsgs s req) req true).note (.abort req)).goto (.abortCurrent node)
    else finishOp s node

def disprProcessTokenReq (node : OpNode) : CmdDispatcher :=
  if !s.status.started || s.status.shallStop || decide (0 < s.tokenCnt) || s.status.waitAbortMsgDone then finishOp s node
  else
    match popFrontWaitReq s with
    | none =>
      finishOp (if s.status.notifyIdle then s else sendBkMsgPhyIdle {s with status:={s.status with notifyIdle:=true}}) node
    | some (req,s) =>
      let s := if s.status.notifyIdle then sendBkMsgPhyOn {s with status:={s.status with notifyIdle:=false}} else s
      let ex := s.tokenReqExPool req
      let s := s.setReq req {ex with status:={ex.status with run:=true,prepare:=false}}
      ({s with curCmdReq:=some req,tokenCnt:=s.tokenCnt + 1}.note (.acquire req)).goto (.acquired node)

def mapOf (ex : MsgEx) : Phase → Bitmap
  | .pre => ex.premap
  | .post => ex.postmap

def setMap (ex : MsgEx) (phase : Phase) (map : Bitmap) : MsgEx :=
  match phase with
  | .pre => {ex with premap:=map}
  | .post => {ex with postmap:=map}

def getMsgBitmap (ex : MsgEx) : MsgEx × Phase :=
  if ex.status.prePhase then ({ex with msg:={ex.msg with prePhase:=true}},.pre)
  else ({ex with msg:={ex.msg with prePhase:=false}},.post)

def curReqHdl (ex : MsgEx) : CmdDispatcher :=
  match s.curCmdReq with
  | none => s
  | some req =>
    let status := (s.tokenReqExPool req).status
    if !status.run || status.cancel || ex.status.forAbort then s else s.note (.tellReq ex.serial req)

section
variable (moduleQ : Priority → List BkModule)

def preVisits : List Visit := [Priority.mandatory,.optional,.role].flatMap fun p => .owner p :: (moduleQ p).map .mdl

def postVisits : List Visit := [Priority.role,.optional,.mandatory].flatMap fun p => .owner p :: (moduleQ p).reverse.map .mdl

def visits : Phase → List Visit
  | .pre => preVisits moduleQ
  | .post => postVisits moduleQ
end

def fedAt (ex : MsgEx) (map : Phase) : Visit → Option Nat
  | .owner p =>
    match ex.module with
    | none => none
    | some id => if id ≤ phlBkMdlEnd ∧ getMdlPriority id = some p ∧ (mapOf ex map).chk id then some id else none
  | .mdl module => if (mapOf ex map).chk module.id && module.started then some module.id else none

def stopDispatchMsg (ret : MdlRet) : Bool := ret != .success && ret != .ignore

def redirected (ex : MsgEx) (go : Stage) : Stage :=
  if ex.status.fail || ex.status.cancel then .recycle
  else if ex.status.pending then .reschedule
  else go

def canceledMsg (i : Nat) : CmdDispatcher :=
  let ex := s.msgExPool i
  s.setEx i {ex with status:={ex.status with cancel:=true}}

def loopEnd : Phase → Stage
  | .pre => .preDone .pre
  | .post => .postDone

def afterFeed (after : After) (ret : MdlRet) : Stage :=
  match after with
  | .ctrl map => .ctrlDone map
  | .loop phase todo => if stopDispatchMsg ret then loopEnd phase else .loop phase todo

-- `feed_mdl_msg` once the handler has returned. `notify_msg_fail` sets the
-- flags here and calls the owner and the request in the next two stages.
def fedMdlMsg (i mdl : Nat) (after : After) (ret : MdlRet) : CmdDispatcher :=
  let ex := s.msgExPool i
  let phase := if ex.msg.prePhase then Phase.pre else .post
  let s := s.note (.fed ex.serial mdl phase ret)
  match ret with
  | .fail | .cannotIo =>
    (s.setEx i {ex with
      status := {ex.status with fail:=true}
      msg := {ex.msg with fail:=true,cannotIo:=ex.msg.cannotIo || ret == .cannotIo}}).goto (.held i (.failOwner after))
  | .pending => (s.setEx i {ex with status:={ex.status with pending:=true}}).goto (.held i (afterFeed after ret))
  | .success | .ignore => (s.setEx i (setMap ex phase ((mapOf ex phase).clr mdl))).goto (.held i (afterFeed after ret))

def failOwner (ex : MsgEx) : CmdDispatcher :=
  match ex.module with
  | none => s
  | some id => if ex.status.ownerBkMdl && (isDisprCtrl ex.msg.mdlId || s.bitmap.chk id) then s.note (.tell ex.serial id) else s

-- One step of `msg_dispatch`, from one point where another thread can come
-- between to the next.
def dispatchStep (i : Nat) (stage : Stage) (ret : MdlRet) : CmdDispatcher :=
  let ex := s.msgExPool i
  match stage with
  | .popped =>
    let (s,canceled) := isMsgCanceled s i
    let ex := s.msgExPool i
    if canceled then s.goto (.held i .recycle)
    else (s.setEx i {ex with premap:=ex.premap &&& s.bitmap,postmap:=ex.postmap &&& s.bitmap}).goto (.held i .start)
  | .start =>
    let (ex,map) := getMsgBitmap ex
    (s.setEx i ex).goto (.held i (redirected ex (.ctrl map)))
  | .ctrl map => s.goto (.held i (if s.status.ctrlPresent then .feeding phlMdlPhyMgnt (.ctrl map) else .ctrlDone map))
  | .ctrlDone map =>
    s.goto (.held i (redirected ex (if ex.msg.prePhase && mapOf ex map != 0 then .loop .pre (visits s.moduleQ .pre) else .preDone map)))
  | .loop phase [] => s.goto (.held i (loopEnd phase))
  | .loop phase (visit :: todo) =>
    match fedAt ex phase visit with
    | some mdl => s.goto (.held i (.feeding mdl (.loop phase todo)))
    | none => s.goto (.held i (.loop phase todo))
  | .feeding mdl after => fedMdlMsg s i mdl after ret
  | .failOwner after => (failOwner s ex).goto (.held i (.failReq after))
  | .failReq after => (if ex.status.ownerReq then curReqHdl s ex else s).goto (.held i (afterFeed after .fail))
  | .preDone map =>
    if redirected ex .postStart ≠ .postStart then s.goto (.held i (redirected ex .postStart))
    else if mapOf ex map != 0 then (canceledMsg s i).goto (.held i .recycle)
    else s.goto (.held i .postStart)
  | .postStart =>
    let (ex,map) := getMsgBitmap {ex with status:={ex.status with prePhase:=false}}
    (s.setEx i ex).goto (.held i (if mapOf ex map != 0 then .loop .post (visits s.moduleQ .post) else .postDone))
  | .postDone =>
    if redirected ex .curReq ≠ .curReq then s.goto (.held i (redirected ex .curReq))
    else if ex.postmap != 0 then (canceledMsg s i).goto (.held i .recycle)
    else s.goto (.held i .curReq)
  | .curReq => (curReqHdl s ex).goto (.held i .recycle)
  | .reschedule => (if ex.status.pending then pushBackPendingMsg s i else pushBackWaitMsg s i).goto .wait
  | .recycle =>
    let (s,called) := completeMsg s i
    if called then s.goto (.held i .completing) else (returnMsg s i).goto .wait
  | .completing => (returnMsg s i).goto .wait

-- One step of `dispr_thread_loop_hdl`. `ret` is what a callback returns, where
-- the thread is in one.
def threadStep (ret : MdlRet) : CmdDispatcher :=
  match s.pc with
  | .wait => if s.msgQSema = 0 then s else (clearPendingMsg {s with msgQSema:=s.msgQSema - 1}).goto .tokenOps
  | .tokenOps =>
    match s.tokenOpQ with
    | [] => s.goto .fetch
    | node :: rest => handleTokenOpInfo {s with tokenOpQ:=rest} node
  | .process node => disprProcessTokenReq s node
  | .acquired node => if ret = .fail then (deregisterCurCmdReq s).goto (.process node) else finishOp s node
  | .abortWaiting node req => finishOp (pushBackIdleReq s req) node
  | .abortCurrent node =>
    match s.curCmdReq with
    | none => s.goto (.process node)
    | some req => (releaseReq (setLastPermit s req false) req).goto (.process node)
  | .fetch =>
    match popFrontWaitMsg s with
    | none => s.goto .wait
    | some (i,s) => s.goto (.held i .popped)
  | .held i stage => dispatchStep s i stage ret

inductive Event where
  | thread (ret : MdlRet)
  | send (msg : MsgId) (attr : Option MsgAttr)
  | cancel (hdl : BitVec 32)
  | clrPending
  | devIoStatus (mdlId : Nat) (allowIo : Bool)
  | shallStop
  | addTokenReq (req : CmdTokenReq)
  | cancelTokenReq (hdl : BitVec 32)
  | freeToken (hdl : BitVec 32)

def step : Event → CmdDispatcher
  | .thread ret => threadStep s ret
  | .send msg attr => (disprSendMsg s msg attr).1
  | .cancel hdl => (disprCancelMsg s hdl).1
  | .clrPending => disprClrPendingMsg s
  | .devIoStatus mdlId allowIo => (disprNotifyDevIoStatus s mdlId allowIo).1
  | .shallStop => disprNotifyShallStop s
  | .addTokenReq req => (disprAddTokenReq s req).1
  | .cancelTokenReq hdl => (disprCancelTokenReq s hdl).1
  | .freeToken hdl => (disprFreeToken s hdl).1
end

def disprStart (moduleQ : Priority → List BkModule) (bitmap basemap : Bitmap) (ctrlPresent : Bool) : CmdDispatcher where
  status := {started:=true,notifyIdle:=true,ctrlPresent}
  moduleQ
  msgExPool := fun _ => {}
  msgQSema := 0
  msgWaitQ := []
  msgIdleQ := List.range maxPhlMsgNum
  msgPendQ := []
  tokenReqExPool := fun _ => {}
  tokenReqWaitQ := []
  tokenReqIdleQ := List.range maxCmdReqNum
  tokenOpQ := []
  tokenCnt := 0
  curCmdReq := none
  bitmap
  basemap
  pendingEvt := fun _ => msgEvtMax
  renewReqInfo := {}
  exclusiveMdl := phlMdlIdMax
  pc := .wait
  nextSerial := 0
  log := []
end Rtl8852au.Dispr
