import Rtl8852au.DispatcherEngine

namespace Rtl8852au.Dispr
open Machine Function

-- How far a call about a request has come. An add has the request in its hands,
-- has put it in the wait queue, and has set `REQ_STATUS_ENQ`; a cancel or a free
-- has passed its checks and set `REQ_STATUS_CANCEL`.
inductive CallStage where
  | taken
  | pushed
  | marked
  | ending (type : OpType)
  deriving DecidableEq

structure TokenCall where
  req : Nat
  life : Nat
  stage : CallStage
  deriving DecidableEq

-- The last four fields are not in the source. `life` counts the times a request
-- was taken from the idle queue, `stamp` is the life a node was queued for, and
-- for the present life `canceled` says whether a cancel was accepted and `base`
-- how many abort callbacks there had been before.
structure TokenSys where
  dispr : CmdDispatcher
  calls : List TokenCall
  life : Nat → Nat
  stamp : OpNode → Nat
  canceled : Nat → Bool
  base : Nat → Nat

section
variable (s : TokenSys)

def TokenSys.aborts (req : Nat) : Nat := s.dispr.log.count (.abort req) - s.base req

-- `dispr_add_token_req` up to the copy of the caller's request.
def TokenSys.addTokenReq (req : CmdTokenReq) : TokenSys :=
  if !s.dispr.status.started || !chkCmdReqOps req then s
  else
    match popFrontIdleReq s.dispr with
    | none => s
    | some (idx,d) =>
      {s with
        dispr := d.setReq idx {d.tokenReqExPool idx with req}
        calls := s.calls ++ [⟨idx,s.life idx + 1,.taken⟩]
        life := update s.life idx (s.life idx + 1)
        canceled := update s.canceled idx false
        base := update s.base idx (s.dispr.log.count (.abort idx))}

section
variable (d : CmdDispatcher)

def cancelChecked (hdl : BitVec 32) : Bool :=
  let status := (d.tokenReqExPool (getIdxFromHdl hdl)).status
  d.status.started && isHdlValid hdl && decide (getIdxFromHdl hdl < maxCmdReqNum) && (status.enq || status.run || status.prepare)

def freeChecked (hdl : BitVec 32) : Bool :=
  let status := (d.tokenReqExPool (getIdxFromHdl hdl)).status
  d.status.started && d.curCmdReq.isSome && d.tokenCnt != 0 && isHdlValid hdl && decide (getIdxFromHdl hdl < maxCmdReqNum) &&
    (status.run || status.prepare)

def setCancel (req : Nat) : CmdDispatcher :=
  let ex := d.tokenReqExPool req
  d.setReq req {ex with status:={ex.status with cancel:=true}}

def TokenSys.endTokenReq (req : Nat) (type : OpType) : TokenSys :=
  {s with dispr:=setCancel s.dispr req,calls:=s.calls ++ [⟨req,s.life req,.ending type⟩]}

def pushWaitReq (req : Nat) : CmdDispatcher := {d with tokenReqWaitQ:=d.tokenReqWaitQ ++ [req]}

def setEnq (req : Nat) : CmdDispatcher :=
  let ex := d.tokenReqExPool req
  d.setReq req {ex with status:={ex.status with enq:=true}}
end

def TokenSys.pushOp (call : TokenCall) (node : OpNode) (type : OpType) : TokenSys :=
  let (d,queued) := pushBackTokenOpInfo s.dispr node type call.req
  let s := {s with dispr:=d}
  if queued then
    {s with
      stamp := update s.stamp node call.life
      canceled := if type = .cancelCmdReq ∧ call.life = s.life call.req then update s.canceled call.req true else s.canceled}
  else s

def TokenSys.proceed (call : TokenCall) : TokenSys :=
  match call.stage with
  | .taken => {s with dispr:=pushWaitReq s.dispr call.req,calls:=s.calls ++ [{call with stage:=.pushed}]}
  | .pushed => {s with dispr:=setEnq s.dispr call.req,calls:=s.calls ++ [{call with stage:=.marked}]}
  | .marked => s.pushOp call (.add call.req) .addCmdReq
  | .ending type => s.pushOp call (.free call.req) type

inductive TokenEvent where
  | thread (ret : MdlRet)
  | call (call : Call)
  | go (k : Nat)

-- A call that is not about a request is made in one step.
def tokenStep : TokenEvent → TokenSys
  | .thread ret => {s with dispr:=threadStep s.dispr ret}
  | .call (.addTokenReq req) => s.addTokenReq req
  | .call (.cancelTokenReq hdl) => if cancelChecked s.dispr hdl then s.endTokenReq (getIdxFromHdl hdl) .cancelCmdReq else s
  | .call (.freeToken hdl) => if freeChecked s.dispr hdl then s.endTokenReq (getIdxFromHdl hdl) .freeCmdReq else s
  | .call call => {s with dispr:=made s.dispr call}
  | .go k =>
    match s.calls[k]? with
    | some call => {s with calls:=s.calls.eraseIdx k}.proceed call
    | none => s

def tokenStart (d : CmdDispatcher) : TokenSys := ⟨d,[],fun _ => 0,fun _ => 0,fun _ => false,fun _ => 0⟩

theorem go_cases (k : Nat) : tokenStep s (.go k) = s ∨
    ∃ call, s.calls[k]? = some call ∧ tokenStep s (.go k) = {s with calls:=s.calls.eraseIdx k}.proceed call := by
  cases there : s.calls[k]? with
  | none =>
    left
    simp only [tokenStep,there]
  | some call =>
    right
    refine ⟨call,rfl,?_⟩
    simp only [tokenStep,there]

theorem pushOp_dispr (call : TokenCall) (node : OpNode) (type : OpType) :
    (s.pushOp call node type).dispr = (pushBackTokenOpInfo s.dispr node type call.req).1 ∧
      (s.pushOp call node type).calls = s.calls := by
  unfold TokenSys.pushOp
  dsimp only
  split <;> exact ⟨rfl,rfl⟩
end

end Rtl8852au.Dispr
