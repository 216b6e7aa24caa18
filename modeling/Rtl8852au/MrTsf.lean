import Mathlib.Data.List.FinRange
import Rtl8852au.Machine

namespace Rtl8852au.MrTsf
open List

inductive RoleType where
  | none
  | station
  | ap
  | vap
  | adhoc
  | adhocMaster
  | mesh
  | monitor
  | p2pDevice
  | p2pGc
  | p2pGo
  | tdls
  | nan
  deriving DecidableEq,Repr

inductive MlmeState where
  | noLink
  | linking
  | linked
  deriving DecidableEq,Repr

inductive MrOpMode where
  | non
  | scc
  | mcc
  deriving DecidableEq,Repr

inductive MrOpType where
  | none
  | stationOnly
  | stationAp
  deriving DecidableEq,Repr

structure WifiRole where
  type : RoleType
  mstate : MlmeState
  hwPort : Nat
  assocStaCnt : Nat
  chanctx : Bool
  deriving DecidableEq,Repr

structure MrInfo where
  staNum : Nat
  ldStaNum : Nat
  lgStaNum : Nat
  apNum : Nat
  ldApNum : Nat
  p2pDeviceNum : Nat
  p2pGcNum : Nat
  p2pGoNum : Nat
  deriving DecidableEq,Repr

def noInfo : MrInfo := ⟨0,0,0,0,0,0,0,0⟩
def hwPortMax : Nat := 5

structure Band (n : Nat) where
  roles : Fin n → WifiRole
  roleMap : Fin n → Bool
  ctxRoleMap : Fin n → Bool
  chanctxNum : Nat
  mccSup : Bool
  curInfo : MrInfo
  opMode : MrOpMode
  opType : MrOpType
  tsfSyncPort : Nat
  syncSource : Nat → Option Nat

variable {n : Nat}

section
variable (info : MrInfo) (wr : WifiRole)

def staInfo : MrInfo :=
  {info with
    staNum := info.staNum+1
    ldStaNum := if wr.mstate = .linked then info.ldStaNum + 1 else info.ldStaNum
    lgStaNum := if wr.mstate = .linking then info.lgStaNum + 1 else info.lgStaNum
    p2pGcNum := if wr.type = .p2pGc then info.p2pGcNum + 1 else info.p2pGcNum
    p2pDeviceNum := if wr.type = .p2pDevice then info.p2pDeviceNum + 1 else info.p2pDeviceNum}

def apInfo : MrInfo :=
  {info with
    apNum := if wr.mstate = .linked then info.apNum + 1 else info.apNum
    ldApNum := if 2 ≤ wr.assocStaCnt then info.ldApNum + 1 else info.ldApNum
    p2pGoNum := if wr.type = .p2pGo then info.p2pGoNum + 1 else info.p2pGoNum}

def roleInfo : MrInfo :=
  match wr.type with
  | .station | .p2pGc | .p2pDevice | .tdls => staInfo info wr
  | .ap | .vap | .p2pGo | .mesh => apInfo info wr
  | _ => info
end

def countEach (s : Band n) (info : MrInfo) (ridx : Fin n) : MrInfo :=
  if s.roleMap ridx then roleInfo info (s.roles ridx) else info

def opTypeOf (mode : MrOpMode) (info : MrInfo) : MrOpType :=
  match mode with
  | .non => .none
  | _ => if info.ldStaNum ≠ 0 ∧ info.apNum ≠ 0 then .stationAp
    else if info.ldStaNum ≠ 0 then .stationOnly else .stationAp

def infoUpt (s : Band n) : Band n :=
  let info := (finRange n).foldl (countEach s) noInfo
  {s with curInfo:=info,opType:=opTypeOf s.opMode info}

-- The loop leaves `wr` at the last role it looked at when it does not break.
def searchLoop (s : Band n) (self : Fin n) (excludeSelf : Bool) : List (Fin n) → Option (Fin n) → Option (Fin n)
  | [],wr => wr
  | ridx :: rest,wr =>
    if s.ctxRoleMap ridx then
      if excludeSelf ∧ ridx = self then searchLoop s self excludeSelf rest (some ridx)
      else if (s.roles ridx).type = .station ∨ (s.roles ridx).type = .tdls then some ridx
      else searchLoop s self excludeSelf rest (some ridx)
    else searchLoop s self excludeSelf rest wr

def searchLdStaWrole (s : Band n) (wrole : Fin n) (excludeSelf : Bool) : Option (Fin n) :=
  if (s.roles wrole).chanctx then searchLoop s wrole excludeSelf (finRange n) none else none

inductive TsfSyncAct where
  | enSyncAuto
  | disSyncAuto
  deriving DecidableEq,Repr

-- A call that fails leaves the port as it is.
def halTsfSync (s : Band n) (ok : Bool) (source target : Nat) (act : TsfSyncAct) : Band n :=
  if ok then
    {s with syncSource:=Function.update s.syncSource target (match act with | .enSyncAuto => some source | .disSyncAuto => none)}
  else s

def apType : RoleType → Bool
  | .ap | .vap | .p2pGo | .mesh => true
  | _ => false

def enableEach (hal : Fin n → Bool) (source : Fin n) (acc : Bool × Band n) (ridx : Fin n) : Bool × Band n :=
  if acc.2.ctxRoleMap ridx ∧ ridx ≠ source ∧ apType (acc.2.roles ridx).type then
    (hal ridx,halTsfSync acc.2 (hal ridx) (acc.2.roles source).hwPort (acc.2.roles ridx).hwPort .enSyncAuto)
  else acc

def enableAll (s : Band n) (hal : Fin n → Bool) (source : Fin n) : Bool × Band n :=
  let acc := (finRange n).foldl (enableEach hal source) (true,s)
  (acc.1,{acc.2 with tsfSyncPort:=if acc.1 then (s.roles source).hwPort else hwPortMax})

def disableEach (hal : Fin n → Bool) (port : Nat) (acc : Bool × Band n) (ridx : Fin n) : Bool × Band n :=
  if acc.2.ctxRoleMap ridx ∧ apType (acc.2.roles ridx).type ∧ (acc.2.roles ridx).mstate = .linked then
    (hal ridx,halTsfSync acc.2 (hal ridx) port (acc.2.roles ridx).hwPort .disSyncAuto)
  else acc

def disableAll (ret : Bool) (s : Band n) (hal : Fin n → Bool) : Bool × Band n :=
  let acc := (finRange n).foldl (disableEach hal s.tsfSyncPort) (ret,s)
  (acc.1,if acc.1 then {acc.2 with tsfSyncPort:=hwPortMax} else acc.2)

section
variable (s : Band n) (wrole : Fin n) (hal : Fin n → Bool)

def staConnEnd : Bool × Band n :=
  if (s.roles wrole).chanctx then
    if 1 ≤ s.curInfo.apNum ∧ s.tsfSyncPort = hwPortMax then enableAll s hal wrole else (true,s)
  else (false,s)

def resync : Bool × Band n :=
  match searchLdStaWrole s wrole true with
  | some source => enableAll s hal source
  | none => (true,s)

def staDisConn : Bool × Band n :=
  if (s.roles wrole).chanctx then
    if s.tsfSyncPort = hwPortMax then (true,s)
    else
      let first := if (s.roles wrole).hwPort = s.tsfSyncPort ∧ 1 ≤ s.curInfo.apNum ∧ 0 < s.curInfo.ldStaNum then
        resync s wrole hal else (true,s)
      if (s.roles wrole).hwPort = first.2.tsfSyncPort ∧ s.curInfo.ldStaNum = 0 then disableAll first.1 first.2 hal else first
  else (false,s)

def apStart : Bool × Band n :=
  if (s.roles wrole).chanctx then
    if s.curInfo.ldStaNum = 0 then (true,s)
    else if s.tsfSyncPort = hwPortMax then
      match searchLdStaWrole s wrole true with
      | some source =>
        let synced := halTsfSync s (hal wrole) (s.roles source).hwPort (s.roles wrole).hwPort .enSyncAuto
        (hal wrole,if hal wrole then {synced with tsfSyncPort:=(s.roles source).hwPort} else synced)
      | none => (true,s)
    else (hal wrole,halTsfSync s (hal wrole) s.tsfSyncPort (s.roles wrole).hwPort .enSyncAuto)
  else (false,s)

def apStop : Bool × Band n :=
  if s.tsfSyncPort = hwPortMax then (true,s)
  else
    let synced := halTsfSync s (hal wrole) s.tsfSyncPort (s.roles wrole).hwPort .disSyncAuto
    (hal wrole,if s.curInfo.apNum = 0 then {synced with tsfSyncPort:=hwPortMax} else synced)
end

inductive RoleState where
  | staConnEnd
  | staDisConn
  | apStart
  | apStop
  deriving DecidableEq,Repr

-- With several channel contexts the call leaves everything to MCC.
def tsfSync (s : Band n) (wrole : Fin n) (state : RoleState) (hal : Fin n → Bool) : Bool × Band n :=
  if 1 < s.chanctxNum then (s.mccSup,s)
  else
    match state with
    | .staConnEnd => staConnEnd s wrole hal
    | .staDisConn => staDisConn s wrole hal
    | .apStart => apStart s wrole hal
    | .apStop => apStop s wrole hal

def RoleState.mstate : RoleState → MlmeState
  | .staConnEnd | .apStart => .linked
  | .staDisConn | .apStop => .noLink

def setMstate (s : Band n) (wrole : Fin n) (mstate : MlmeState) : Band n :=
  {s with roles:=Function.update s.roles wrole {s.roles wrole with mstate}}

structure Event (n : Nat) where
  wrole : Fin n
  state : RoleState
  hal : Fin n → Bool

def step (s : Band n) (event : Event n) : Band n :=
  (tsfSync (infoUpt (setMstate s event.wrole event.state.mstate)) event.wrole event.state event.hal).2
end Rtl8852au.MrTsf
