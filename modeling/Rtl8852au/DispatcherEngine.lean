import Rtl8852au.DispatcherPool

namespace Rtl8852au.Dispr
open Machine

-- A call of another thread. `resumeIo` is `dispr_notify_dev_io_status` with
-- `allow_io` up to its call of `dispr_clr_pending_msg`, which is a call of its own.
inductive Call where
  | send (msg : MsgId) (attr : Option MsgAttr)
  | cancel (hdl : BitVec 32)
  | clrPending
  | cannotIo (mdlId : Nat)
  | resumeIo
  | shallStop
  | addTokenReq (req : CmdTokenReq)
  | cancelTokenReq (hdl : BitVec 32)
  | freeToken (hdl : BitVec 32)

def resumeIo (s : CmdDispatcher) : CmdDispatcher :=
  if s.status.cannotIo then
    (sendDevIoStatusChange {s with status:={s.status with cannotIo:=false},exclusiveMdl:=phlMdlIdMax} true).1
  else s

def made (s : CmdDispatcher) : Call → CmdDispatcher
  | .send msg attr => (disprSendMsg s msg attr).1
  | .cancel hdl => (disprCancelMsg s hdl).1
  | .clrPending => disprClrPendingMsg s
  | .cannotIo mdlId => (disprNotifyDevIoStatus s mdlId false).1
  | .resumeIo => resumeIo s
  | .shallStop => disprNotifyShallStop s
  | .addTokenReq req => (disprAddTokenReq s req).1
  | .cancelTokenReq hdl => (disprCancelTokenReq s hdl).1
  | .freeToken hdl => (disprFreeToken s hdl).1

theorem Serves.made (serves : Serves R) (s : CmdDispatcher) (call : Call) : R s (made s call) := by
  have on (event : Event) := serves.step s event
  cases call with
  | send msg attr => exact on (.send msg attr) nofun
  | cancel hdl => exact on (.cancel hdl) nofun
  | clrPending => exact on .clrPending nofun
  | cannotIo mdlId => exact on (.devIoStatus mdlId false) nofun
  | resumeIo =>
    change R s (resumeIo s)
    unfold resumeIo
    split
    · exact serves.devIoStatusChange s false phlMdlIdMax true
    · exact serves.refl s
  | shallStop => exact on .shallStop nofun
  | addTokenReq req => exact on (.addTokenReq req) nofun
  | cancelTokenReq hdl => exact on (.cancelTokenReq hdl) nofun
  | freeToken hdl => exact on (.freeToken hdl) nofun

-- Where `share_thread_hdl` is: at `_os_sema_down`, before the round of a
-- dispatcher, or in it.
inductive Turn where
  | wait
  | next (k : Nat)
  | serve (k : Nat)
  deriving DecidableEq

-- `owed` counts the calls that have pushed, or set the flag, and have yet to
-- raise the semaphore. In solo mode each dispatcher has a semaphore and a thread
-- to itself: an engine of one dispatcher.
structure CmdDispatchEngine where
  phyNum : Nat
  dispatcher : Nat → CmdDispatcher
  msgQSema : Nat
  owed : Nat
  turn : Turn

-- `notify_bk_thread` counts on the semaphore that is lent to the dispatcher.
def lend (units : Nat) (s : CmdDispatcher) : CmdDispatcher := {s with msgQSema:=units}

section
variable (e : CmdDispatchEngine)

def CmdDispatchEngine.put (k : Nat) (s : CmdDispatcher) : CmdDispatchEngine :=
  {e with dispatcher:=Function.update e.dispatcher k s}

def CmdDispatchEngine.served (k : Nat) (s : CmdDispatcher) : CmdDispatchEngine :=
  {e.put k s with msgQSema:=s.msgQSema,turn:=if s.pc = .wait then .next (k+1) else .serve k}

def shareThreadStep (ret : MdlRet) : CmdDispatchEngine :=
  match e.turn with
  | .wait => if e.msgQSema = 0 then e else {e with msgQSema:=e.msgQSema - 1,turn:=.next 0}
  | .next k =>
    if k < e.phyNum then e.served k ((clearPendingMsg (lend e.msgQSema (e.dispatcher k))).goto .tokenOps)
    else {e with turn:=.wait}
  | .serve k => e.served k (threadStep (lend e.msgQSema (e.dispatcher k)) ret)

inductive EngineEvent where
  | thread (ret : MdlRet)
  | call (k : Nat) (call : Call)
  | up

def engineStep : EngineEvent → CmdDispatchEngine
  | .thread ret => shareThreadStep e ret
  | .call k call =>
    if k < e.phyNum then
      let s := made (lend 0 (e.dispatcher k)) call
      {e.put k s with owed:=e.owed + s.msgQSema}
    else e
  | .up => if e.owed = 0 then e else {e with owed:=e.owed - 1,msgQSema:=e.msgQSema + 1}

def engineStart (phyNum : Nat) (moduleQ : Nat → Priority → List BkModule) (bitmap basemap : Nat → Bitmap)
    (ctrlPresent : Nat → Bool) : CmdDispatchEngine :=
  ⟨phyNum,fun k => disprStart (moduleQ k) (bitmap k) (basemap k) (ctrlPresent k),0,0,.wait⟩

def Blocked : Prop := e.turn = .wait ∧ e.msgQSema = 0
end

structure Drained (s : CmdDispatcher) : Prop where
  msgs : s.msgWaitQ = []
  ops : s.tokenOpQ = []
  flag : s.status.clrPendMsg = false

def Parked (s : CmdDispatcher) (i : Nat) : Prop :=
  i ∈ s.msgPendQ ∨ (s.pc = .held i .start ∨ s.pc = .held i .reschedule) ∧ (s.msgExPool i).status.pending
end Rtl8852au.Dispr
