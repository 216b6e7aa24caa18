import Mathlib.Data.Finset.Erase
import Mathlib.Data.Finset.Insert
import Rtl8852au.Machine

namespace Rtl8852au.DataCtrl
open Machine

-- The module ids that may control the datapath; the others are not told apart.
inductive ModuleId where
  | phyMgnt | powerMgnt | ser
  | other (id : Nat)
  deriving DecidableEq

inductive CtrlMdl where
  | cmdCtrler | ser | ps
  deriving DecidableEq

-- DATA_CTRL_MDL_NONE, which has no bit, is `none`.
def phlGetCtrlMdl : ModuleId → Option CtrlMdl
  | .phyMgnt => some .cmdCtrler
  | .ser => some .ser
  | .powerMgnt => some .ps
  | .other _ => none

section
variable (pauseId : Finset CtrlMdl)

def testStatusFlag : Option CtrlMdl → Bool
  | none => true
  | some mdl => mdl ∈ pauseId

def setStatusFlag : Option CtrlMdl → Finset CtrlMdl
  | none => pauseId
  | some mdl => insert mdl pauseId

def clearStatusFlag : Option CtrlMdl → Finset CtrlMdl
  | none => pauseId
  | some mdl => pauseId.erase mdl
end

inductive SwSts where
  | running | stopInprogress | swPause
  deriving DecidableEq

inductive Status where
  | success | failure | cmdTimeout
  deriving DecidableEq

inductive CtrlErr where
  | swTxPausePollto | swTxPauseFail | swTxResumeFail
  | swRxPausePollto | swRxPauseFail | swRxResumeFail
  | hwTrxPauseFail | hwTrxResumeFail
  deriving DecidableEq

inductive Dir where
  | tx | rx
  deriving DecidableEq

structure Path where
  sts : SwSts
  pauseId : Finset CtrlMdl
  deriving DecidableEq

inductive Op where
  | pause (d : Dir)
  | resume (d : Dir)
  | hwTrxPause
  | hwTrxRstResume
  | reset (d : Dir)
  deriving DecidableEq

inductive Cmd where
  | hwTrxRstResume | hwTrxPause | swTxResume | swRxResume | swTxPause | swRxPause | swTxReset | swRxReset
  | trxSwPause | trxSwResume | trxPauseWRst | trxResumeWRst | max
  deriving DecidableEq

-- What a command calls, one after the other up to the first that fails.
def ops : Cmd → List Op
  | .hwTrxRstResume => [.hwTrxRstResume]
  | .hwTrxPause => [.hwTrxPause]
  | .swTxResume => [.resume .tx]
  | .swRxResume => [.resume .rx]
  | .swTxPause => [.pause .tx]
  | .swRxPause => [.pause .rx]
  | .swTxReset => [.reset .tx]
  | .swRxReset => [.reset .rx]
  | .trxSwPause => [.pause .tx,.pause .rx]
  | .trxSwResume => [.resume .tx,.resume .rx]
  | .trxPauseWRst => [.pause .tx,.hwTrxPause,.pause .rx,.reset .tx,.reset .rx]
  | .trxResumeWRst => [.resume .rx,.hwTrxRstResume,.resume .tx]
  | .max => []

-- How far _phl_sw_tx_pause and _phl_sw_tx_resume, or those of RX, have come: a
-- pause reads the status twice, asks for the stop, notifies the handler and
-- polls; a resume tests and clears its bit, sets the status and notifies.
inductive Stage where
  | pauseChk (d : Dir)
  | pauseChkStop (d : Dir)
  | pauseReq (d : Dir)
  | pauseNotify (d : Dir)
  | pausePoll (d : Dir) (i : Nat)
  | resumeChk (d : Dir)
  | resumeTrx (d : Dir)
  | resumeNotify (d : Dir)
  | hwTrxPause
  | hwTrxRstResume
  | reset (d : Dir)

def Op.first : Op → Stage
  | .pause d => .pauseChk d
  | .resume d => .resumeChk d
  | .hwTrxPause => .hwTrxPause
  | .hwTrxRstResume => .hwTrxRstResume
  | .reset d => .reset d

def pollCnt : Nat := 100

structure Call where
  cmd : Cmd
  mdl : Option CtrlMdl
  stage : Stage
  rest : List Op

-- _phl_tx_callback_usb: idle, past the check of the pause, or about to answer a stop.
inductive TxHandler where
  | idle | begun | stopping
  deriving DecidableEq

structure Datapath where
  path : Dir → Path
  isHwTrxPause : Bool
  handler : TxHandler
  call : Option Call
  before : Dir → Path
  ret : Option Status
  errSts : Option CtrlErr

section
variable (s : Datapath)

def Datapath.setPath (d : Dir) (path : Path) : Datapath := {s with path:=Function.update s.path d path}
def Datapath.onSts (d : Dir) (sts : SwSts) : Datapath := s.setPath d {s.path d with sts}

def Datapath.setFlag (d : Dir) (mdl : Option CtrlMdl) : Datapath :=
  s.setPath d {s.path d with pauseId:=setStatusFlag (s.path d).pauseId mdl}

def Datapath.clearFlag (d : Dir) (mdl : Option CtrlMdl) : Datapath :=
  s.setPath d {s.path d with pauseId:=clearStatusFlag (s.path d).pauseId mdl}

@[simp] theorem setPath_self (d : Dir) (path : Path) : (s.setPath d path).path d = path := by simp [Datapath.setPath]

@[simp] theorem setPath_other (path : Path) (apart : e ≠ d) : (s.setPath d path).path e = s.path e := by
  simp [Datapath.setPath,apart]

@[simp] theorem setPath_same (d : Dir) : s.setPath d (s.path d) = s := by
  unfold Datapath.setPath
  rw [Function.update_eq_self]

def pauseErr : Dir → Status → CtrlErr
  | .tx,.cmdTimeout => .swTxPausePollto
  | .tx,_ => .swTxPauseFail
  | .rx,.cmdTimeout => .swRxPausePollto
  | .rx,_ => .swRxPauseFail

def stageErr (status : Status) : Stage → Option CtrlErr
  | .pauseChk d | .pauseChkStop d | .pauseReq d | .pauseNotify d | .pausePoll d _ => some (pauseErr d status)
  | .resumeChk .tx | .resumeTrx .tx | .resumeNotify .tx => some .swTxResumeFail
  | .resumeChk .rx | .resumeTrx .rx | .resumeNotify .rx => some .swRxResumeFail
  | .hwTrxPause => some .hwTrxPauseFail
  | .hwTrxRstResume => some .hwTrxResumeFail
  | .reset _ => none

section
variable (call : Call)

def errCode (status : Status) : Option CtrlErr :=
  match call.cmd with
  | .trxPauseWRst | .trxResumeWRst => stageErr status call.stage
  | _ => none

def Datapath.fail (status : Status) : Datapath := {s with call:=none,ret:=some status,errSts:=errCode call status}

def Datapath.succeed : Datapath :=
  match call.rest with
  | [] => {s with call:=none,ret:=some .success}
  | op :: rest => {s with call:=some {call with stage:=op.first,rest}}

def Datapath.goto (stage : Stage) : Datapath := {s with call:=some {call with stage}}

-- `ok` is what the scheduler or the HAL says, where one of them is asked.
def advance (ok : Bool) : Datapath :=
  match call.stage with
  | .pauseChk d => if (s.path d).sts = .swPause then (s.setFlag d call.mdl).succeed call else s.goto call (.pauseChkStop d)
  | .pauseChkStop d =>
    if (s.path d).sts = .stopInprogress then (s.setFlag d call.mdl).succeed call else s.goto call (.pauseReq d)
  | .pauseReq d => (s.onSts d .stopInprogress).goto call (.pauseNotify d)
  | .pauseNotify d => if ok then s.goto call (.pausePoll d 0) else s.fail call .failure
  | .pausePoll d i =>
    if (s.path d).sts = .swPause then (s.setFlag d call.mdl).succeed call
    else if i + 1 < pollCnt then s.goto call (.pausePoll d (i+1))
    else (s.setFlag d call.mdl).fail call .cmdTimeout
  | .resumeChk d =>
    if testStatusFlag (s.path d).pauseId call.mdl then
      let s := s.clearFlag d call.mdl
      if (s.path d).pauseId ≠ ∅ then s.succeed call else s.goto call (.resumeTrx d)
    else s.fail call .failure
  | .resumeTrx d => (s.onSts d .running).goto call (.resumeNotify d)
  | .resumeNotify _ => if ok then s.succeed call else s.fail call .failure
  | .hwTrxPause => if ok then {s with isHwTrxPause:=true}.succeed call else s.fail call .failure
  | .hwTrxRstResume => if ok then {s with isHwTrxPause:=false}.succeed call else s.fail call .failure
  | .reset _ => s.succeed call
end

def phlDataCtrler (id : ModuleId) (cmd : Cmd) : Datapath :=
  match ops cmd with
  | [] => {s with before:=s.path,ret:=some .failure,errSts:=none}
  | op :: rest => {s with before:=s.path,ret:=none,errSts:=none,call:=some ⟨cmd,phlGetCtrlMdl id,op.first,rest⟩}

-- The test and the write of the handshake are two steps.
def phlTxCallbackUsb : Datapath :=
  match s.handler with
  | .idle => if (s.path .tx).sts = .swPause then s else {s with handler:=.begun}
  | .begun => {s with handler:=if (s.path .tx).sts = .stopInprogress then .stopping else .idle}
  | .stopping => {s.onSts .tx .swPause with handler:=.idle}

-- Commands come one after the other; `advance` is a step of the one under way.
-- The RX handler reads its status and writes none.
inductive Event where
  | cmd (id : ModuleId) (cmd : Cmd)
  | advance (ok : Bool)
  | txHandler
  | rxHandler

def dataStep : Event → Datapath
  | .cmd id cmd => if s.call.isSome then s else phlDataCtrler s id cmd
  | .advance ok =>
    match s.call with
    | none => s
    | some call => advance s call ok
  | .txHandler => phlTxCallbackUsb s
  | .rxHandler => s

def Datapath.init : Datapath := ⟨fun _ => ⟨.running,∅⟩,false,.idle,none,fun _ => ⟨.running,∅⟩,none,none⟩

structure Owned (s : Datapath) : Prop where
  owners : s.call = none → ∀ d, (s.path d).sts ≠ .running ↔ (s.path d).pauseId ≠ ∅
  failed : s.call = none → ∀ status, s.ret = some status → status ≠ .success → s.path = s.before

def RestartsUnowned (event : Event) : Prop :=
  ∀ d, (s.path d).sts ≠ .running → ((dataStep s event).path d).sts = .running → ((dataStep s event).path d).pauseId = ∅

-- The caller is not told from nobody, or has its bit in the set.
def Marked (pauseId : Finset CtrlMdl) (mdl : Option CtrlMdl) : Prop := ∀ m, mdl = some m → m ∈ pauseId
def Unmarked (pauseId : Finset CtrlMdl) (mdl : Option CtrlMdl) : Prop := ∀ m, mdl = some m → m ∉ pauseId

def StepGuard (call : Call) (ok : Bool) : Prop :=
  match call.stage with
  | .pauseNotify _ => ok
  | .pausePoll d i => (s.path d).sts = .swPause ∨ i+1 < pollCnt
  | .resumeNotify _ => ok ∨ call.mdl = none
  | .hwTrxPause => call.rest.head? = some (.pause .rx) → (s.path .rx).sts = .running → ok = false
  | _ => True

-- A TX pause of running TX comes from a known module, its notification is
-- accepted and the handler has answered when the last poll looks. No RX pause
-- comes while RX runs, unless with a reset by a module that has paused TX
-- before, when the hardware pause then fails. A combined resume comes from a
-- module that has not paused TX, and a resume that restarts is notified.
def Guard : Event → Prop
  | .cmd id .swTxPause => s.call = none → (s.path .tx).sts = .running → phlGetCtrlMdl id ≠ none
  | .cmd _ .swRxPause | .cmd _ .trxSwPause => s.call = none → (s.path .rx).sts ≠ .running
  | .cmd id .trxPauseWRst => s.call = none → (s.path .rx).sts = .running →
    (s.path .tx).sts = .swPause ∧ Marked (s.path .tx).pauseId (phlGetCtrlMdl id)
  | .cmd id .trxSwResume => s.call = none → Unmarked (s.path .tx).pauseId (phlGetCtrlMdl id)
  | .advance ok => ∀ call ∈ s.call, StepGuard s call ok
  | _ => True
end

end Rtl8852au.DataCtrl
