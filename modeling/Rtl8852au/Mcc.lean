import Rtl8852au.ChanCtx
import Rtl8852au.WifiRole

namespace Rtl8852au.Mcc
open Function
open Chan (BandType)
open WifiRole (RoleType)

def u8 (x : Int) : Nat := (x % 2 ^ 8).toNat
def u16 (x : Int) : Nat := (x % 2 ^ 16).toNat
def u32 (x : Int) : Nat := (x % 2 ^ 32).toNat
def u64 (x : Int) : Nat := (x % 2 ^ 64).toNat
def s16 (x : Int) : Int := x.bmod (2 ^ 16)

def tu : Nat := 1024
def maxWifiRoleNumber : Nat := 5
def mccRoleNum : Nat := 2
def maxMccGroupRole : Nat := 2
def slotNum : Nat := 4
def minTdmraSlotNum : Nat := 2
def nonspecificSetting : Nat := 0xff
def earlyRxBcnT : Nat := 5
def minRxBcnT : Nat := 10
def minClientDur : Nat := 15
def minApDur : Nat := 20
def minBcnsOffset : Nat := 15
def defaultApDur : Nat := 60
def defaultClientDur : Nat := 40
def mccDurNonspecific : Nat := 0xff
def clientsWorsecaseRefToa : Nat := 30
def clientsWorsecaseLargeDur : Nat := 90
def worsecaseIntvl : Nat := 150
def handleBcnIntvl : Nat := 100
def minTriggerMccTime : Nat := 300
def apClientOffset : Nat := 40
def btDurMax2ws : Nat := 33

inductive HwBand where
  | band0 | band1
  deriving DecidableEq

-- Where a struct phl_mcc_info lies: the one of a band, or new_minfo in the frame
-- of a change. The frame is gone when the change returns.
inductive Place where
  | stored (band : HwBand)
  | copy
  deriving DecidableEq

structure RoleRef where
  place : Place
  idx : Fin 2
  deriving DecidableEq

inductive DurLimTag where
  | none | noa
  deriving DecidableEq

structure DurLim where
  enable : Bool
  tag : DurLimTag
  maxTob : Nat
  maxToa : Nat
  maxDur : Nat
  deriving DecidableEq

structure DurInfo where
  dur : Nat
  durLimit : DurLim
  deriving DecidableEq

structure Policy where
  c2hRpt : Nat
  txNullEarly : Nat
  disTxNull : Nat
  inCurrCh : Nat
  disSwRetry : Nat
  swRetryCount : Nat
  durInfo : DurInfo
  rfkChk : Bool
  courtesyEn : Bool
  courtesyNum : Nat
  courtesyTarget : Nat
  deriving DecidableEq

structure MccRole where
  wrole : Option Nat
  chandef : Option Nat
  policy : Policy
  macid : Nat
  bcnIntvl : Nat
  group : Nat
  deriving DecidableEq

structure SyncTsfInfo where
  syncEn : Bool
  source : Nat
  target : Nat
  offset : Nat
  deriving DecidableEq

structure Courtesy where
  cEn : Bool
  cNum : Bool
  srcRole : Option RoleRef
  tgtRole : Option RoleRef
  deriving DecidableEq

-- bt_role is which of the two a slot is; the mrole of a BT slot is NULL.
inductive SlotInfo where
  | wifi (slot : Nat) (mrole : Option RoleRef)
  | bt (slot : Nat)
  deriving DecidableEq

def SlotInfo.mrole : SlotInfo → Option RoleRef
  | .wifi _ mrole => mrole
  | .bt _ => none

structure Pattern where
  slotOrder : {slots : List SlotInfo // slots.length ≤ slotNum}
  btSlotNum : Nat
  roleRef : Option RoleRef
  roleAno : Option RoleRef
  tobR : Int
  toaR : Int
  tobA : Int
  toaA : Int
  bcnsOffset : Nat
  calcFail : Bool
  dRDASpacingMax : Nat
  courtesy : Courtesy
  deriving DecidableEq

structure EnInfo where
  mccRole : Fin 2 → MccRole
  syncTsf : SyncTsfInfo
  pattern : Pattern
  refRoleIdx : Fin 2
  mroleMap : Nat
  mroleNum : Nat
  group : Nat
  mccIntvl : Nat
  tsf : Nat

inductive TdmraMode where
  | none | apClient | twoClients | ap | unknown
  deriving DecidableEq

inductive MccState where
  | none | cfgEnInfo | triggerFwEn | fwEnFail | runing | triggerFwDis | fwDisFail | stop
  deriving DecidableEq

inductive CoexMode where
  | none | btMaster | wifiMaster | btWifiBalance
  deriving DecidableEq

structure BtInfo where
  btDur : Nat
  btSeg : Fin 2 → Nat
  btSegNum : Nat
  addBtRole : Bool

structure FwLogInfo where
  enFwMccLog : Bool
  fwMccLogLv : Nat
  update : Bool
  deriving DecidableEq

structure MccInfo where
  enInfo : EnInfo
  mccMode : TdmraMode
  roleMap : Nat
  state : MccState
  coexMode : CoexMode
  btInfo : BtInfo
  fwLog : FwLogInfo

-- What memory set to 0 reads as.
def zeroPolicy : Policy := ⟨0,0,0,0,0,0,⟨0,⟨false,.none,0,0,0⟩⟩,false,false,0,0⟩
def zeroRole : MccRole := ⟨none,none,zeroPolicy,0,0,0⟩
def zeroPattern : Pattern := ⟨⟨[],by decide⟩,0,none,none,0,0,0,0,0,false,0,⟨false,false,none,none⟩⟩
def zeroEnInfo : EnInfo := ⟨fun _ => zeroRole,⟨false,0,0,0⟩,zeroPattern,0,0,0,0,0,0⟩
def zeroBtInfo : BtInfo := ⟨0,fun _ => 0,0,false⟩
def zeroInfo : MccInfo := ⟨zeroEnInfo,.none,0,.none,.none,zeroBtInfo,⟨false,0,false⟩⟩
abbrev Mem := Place → MccInfo

def MccInfo.onRole (i : MccInfo) (idx : Fin 2) (change : MccRole → MccRole) : MccInfo :=
  {i with enInfo.mccRole:=update i.enInfo.mccRole idx (change (i.enInfo.mccRole idx))}

def MccInfo.onPattern (i : MccInfo) (change : Pattern → Pattern) : MccInfo := {i with enInfo.pattern:=change i.enInfo.pattern}

def Mem.modify (m : Mem) (p : Place) (change : MccInfo → MccInfo) : Mem := update m p (change (m p))
def Mem.role (m : Mem) (r : RoleRef) : MccRole := (m r.place).enInfo.mccRole r.idx

def Mem.onRole (m : Mem) (r : RoleRef) (change : MccRole → MccRole) : Mem := m.modify r.place (fun i => i.onRole r.idx change)

structure SelfSta where
  macid : Nat
  bcnInterval : Nat
  bcnOffset : Nat

structure Wrole where
  type : RoleType
  hwBand : HwBand
  hwPort : Nat
  band : BandType
  bcnCmnInterval : Nat
  sta : Option SelfSta

structure DurLimReq where
  tag : DurLimTag
  enable : Bool
  startTH : Nat
  startTL : Nat
  dur : Nat
  intvl : Nat

structure Setting where
  txNullEarly : Nat
  dur : Nat
  enFwMccLog : Bool
  fwMccLogLv : Nat

structure MacReplies where
  getMccGroup : Option Nat
  addMcc : Nat → Bool
  macidBitmap : Nat → Bool
  syncEnable : Bool
  syncAgain : Bool
  startMcc : Bool
  setDuration : Bool
  stopMcc : Bool
  delMccGroup : Bool

structure Env where
  wrole : Nat → Wrole
  roleMap : HwBand → Nat
  chanctxNum : Nat
  apNum : Nat
  p2pGoNum : Nat
  ldStaNum : Nat
  lgStaNum : Nat
  roleTimeSlotLim : Nat → DurLimReq
  getSetting : Nat → Nat → Option Setting
  chRfk : Nat → Bool
  btcReqSlot : Nat
  portsTsf : Option (Nat × Nat)
  trackTsf : Option (Nat × Nat)
  syncTsf : Option Nat
  tsfSync : Bool
  startTsf : Option Nat
  pktOfld : Nat → Bool
  mac : MacReplies

def isApCategory (type : RoleType) : Bool := type = .ap || type = .p2pGo
def isClientCategory (type : RoleType) : Bool := type = .station || type = .p2pGc || type = .tdls

section
variable (env : Env)

-- A pointer to a role that was never filled in is NULL; nothing is read there.
def Env.typeOf (wrole : Option Nat) : RoleType := (wrole.map fun w => (env.wrole w).type).getD .none
def Env.bandOf (chandef : Option Nat) : BandType := (chandef.map fun w => (env.wrole w).band).getD .max

section
variable (i : MccInfo)

def MccInfo.used (idx : Fin 2) : Bool := i.enInfo.mroleMap.testBit idx

def mccGetMroleIdxByWrole (wrole : Nat) : Option (Fin 2) :=
  [0,1].find? (fun idx => i.used idx && (i.enInfo.mccRole idx).wrole == some wrole)

def mccGetMroleByCategory (category : RoleType → Bool) : Option (Fin 2) :=
  [0,1].find? (fun idx => i.used idx && category (env.typeOf (i.enInfo.mccRole idx).wrole))

def rolesOf (roleMap : Nat) : List Nat := (List.range maxWifiRoleNumber).filter roleMap.testBit

def mccTransferMode (roleMap : Nat) : Bool × MccInfo :=
  let types := (rolesOf roleMap).map (fun w => (env.wrole w).type)
  let clientNum := types.countP isClientCategory
  let apNum := types.countP isApCategory
  if types.any (fun type => !isClientCategory type && !isApCategory type) then (false,i)
  else if maxMccGroupRole < clientNum + apNum then (false,i)
  else if apNum = 1 ∧ clientNum = 1 then (true,{i with mccMode:=.apClient})
  else if apNum = 0 ∧ clientNum = 2 then (true,{i with mccMode:=.twoClients})
  else if apNum = 1 ∧ clientNum = 0 then (true,{i with mccMode:=.ap})
  else (false,{i with mccMode:=.unknown})

def mccSetFwLogInfo (log : FwLogInfo) (enFwMccLog : Bool) (fwMccLogLv : Nat) : FwLogInfo :=
  let log := if log.enFwMccLog ≠ enFwMccLog then {log with enFwMccLog,update:=true} else log
  if log.fwMccLogLv ≠ fwMccLogLv then {log with fwMccLogLv,update:=true} else log

def mccUpFwLogSetting : MccInfo := {i with fwLog.update:=false}

def mccSetUnspecificDur : MccInfo :=
  {i with enInfo.mccRole:=fun idx =>
    if i.used idx then {i.enInfo.mccRole idx with policy.durInfo.dur:=mccDurNonspecific} else i.enInfo.mccRole idx}
end

def mccFillDurLimInfo (mrole : MccRole) (req : DurLimReq) : MccRole :=
  let bcnIntvl := mrole.bcnIntvl*tu
  let maxToa := u16 ((req.startTH*2 ^ 32 + req.startTL) % bcnIntvl : Nat)
  let maxDur := u32 (req.intvl-req.dur) / tu
  if !req.enable ∨ bcnIntvl ≠ req.intvl ∨ u32 (bcnIntvl-req.dur) ≤ maxToa ∨ maxToa = 0 then
    {mrole with policy.durInfo.durLimit.enable:=false}
  else
    {mrole with policy.durInfo.durLimit :=
      ⟨true,req.tag,u16 (u32 (maxDur - (maxToa / tu : Nat))),u16 (maxToa / tu : Nat),u16 maxDur⟩}

section
variable (wrole : Nat)

def mccFillDefaultPolicy (mrole : MccRole) : MccRole :=
  let client := isClientCategory (env.wrole wrole).type
  let mrole := {mrole with policy := {mrole.policy with
    c2hRpt := 2,txNullEarly := 3,disTxNull := if client then 0 else 1,inCurrCh := 0,disSwRetry := 1,swRetryCount := 0
    durInfo.dur := if client then defaultClientDur else defaultApDur}}
  {mccFillDurLimInfo mrole (env.roleTimeSlotLim wrole) with policy.rfkChk:=env.chRfk wrole}

def applySetting (param : Setting) (mrole : MccRole) : MccRole :=
  let mrole := if nonspecificSetting ≠ param.txNullEarly then {mrole with policy.txNullEarly:=param.txNullEarly} else mrole
  if nonspecificSetting ≠ param.dur then {mrole with policy.durInfo.dur:=param.dur} else mrole

-- The log setting goes to the stored information of the role's band, also when
-- `r` is an entry of a copy.
def mccFillMccRolePolicyInfo (r : RoleRef) (m : Mem) : Mem :=
  let band := (env.wrole wrole).hwBand
  let m := m.onRole r (mccFillDefaultPolicy env wrole)
  match env.getSetting wrole (m (.stored band)).roleMap with
  | none => m
  | some param =>
    (m.onRole r (applySetting param)).modify (.stored band)
      (fun i => {i with fwLog:=mccSetFwLogInfo i.fwLog param.enFwMccLog param.fwMccLogLv})

def roleBcnIntvl (sta : SelfSta) : Nat :=
  if isApCategory (env.wrole wrole).type then u16 (env.wrole wrole).bcnCmnInterval else sta.bcnInterval

def mccFillMccRoleBasicInfo (mrole : MccRole) : Bool × MccRole :=
  match (env.wrole wrole).sta with
  | none => (false,mrole)
  | some sta =>
    let mrole := {mrole with wrole:=some wrole,macid:=sta.macid,bcnIntvl:=roleBcnIntvl env wrole sta}
    if mrole.bcnIntvl = 0 then (false,mrole) else (true,{mrole with chandef:=some wrole})

def countEntry (idx : Fin 2) (i : MccInfo) : MccInfo :=
  {i with enInfo := {i.enInfo with
    mroleMap := i.enInfo.mroleMap ||| 1 <<< idx.val,mroleNum := i.enInfo.mroleNum + 1}}

def fillEntry (r : RoleRef) (m : Mem) : Bool × Mem :=
  match mccFillMccRoleBasicInfo env wrole (m.role r) with
  | (false,mrole) => (false,m.onRole r (fun _ => mrole))
  | (true,mrole) =>
    (true,(mccFillMccRolePolicyInfo env wrole r (m.onRole r (fun _ => mrole))).modify r.place (countEntry r.idx))
end

-- The loop over the other roles. phl_get_wrole_by_ridx has an object for every
-- index here; at MCC_ROLE_NUM the loop leaves with the status of the round before.
def fillOthers (env : Env) (p : Place) (roleMap : Nat) : List Nat → Bool → Nat → Mem → Bool × Mem
  | [],_,_,m => (true,m)
  | ridx :: rest,status,mccIdx,m =>
    if roleMap.testBit ridx then
      if room : mccIdx < 2 then
        match fillEntry env ridx ⟨p,⟨mccIdx,room⟩⟩ m with
        | (false,m) => (false,m)
        | (true,m) => fillOthers env p roleMap rest true (mccIdx+1) m
      else (status,m)
    else fillOthers env p roleMap rest status mccIdx m

def withoutRole (roleMap curRole : Nat) : Nat := roleMap &&& (0xff ^^^ 1 <<< curRole)

def mccFillRoleInfo (p : Place) (roleMap : Nat) (curRole : Nat) (m : Mem) : Bool × Mem :=
  match fillEntry env curRole ⟨p,0⟩ m with
  | (false,m) => (false,m)
  | (true,m) => fillOthers env p (withoutRole roleMap curRole) (List.range maxWifiRoleNumber) false (m p).enInfo.mroleNum m

section
variable (i : MccInfo)

def mccFillBtDur : MccInfo :=
  {i with btInfo := {i.btInfo with
    btDur := u16 env.btcReqSlot,btSegNum := 1,btSeg := update i.btInfo.btSeg 0 (u16 env.btcReqSlot)}}

section
variable (idx : Fin 2)

def durMax : Nat :=
  let dur := (i.enInfo.mccRole idx).policy.durInfo
  if dur.durLimit.enable then dur.durLimit.maxDur else i.enInfo.mccIntvl

def durMin : Nat := if isApCategory (env.typeOf (i.enInfo.mccRole idx).wrole) then minApDur else minClientDur

def adjustLoop (intvl d1Min d1Max d2Min d2Max : Nat) : Nat → Nat → Nat → Nat → Option (Nat × Nat × Nat)
  | 0,_,_,_ => none
  | rounds+1,d1,d2,btDur =>
    let wifiDur := u16 (intvl-btDur)
    let d1 := u16 (d1*100 / (d1+d2) * wifiDur / 100 : Nat)
    let d1 := if d1 < d1Min then d1Min else if d1Max < d1 then d1Max else d1
    let d2 := u16 (wifiDur-d1)
    let (d1,d2) :=
      if d2 < d2Min then (u16 (wifiDur-d2Min),d2Min)
      else if d2Max < d2 then (u16 (wifiDur-d2Max),d2Max) else (d1,d2)
    if d1Min ≤ d1 ∧ d1 ≤ d1Max ∧ d2Min ≤ d2 ∧ d2 ≤ d2Max then some (d1,d2,btDur)
    else adjustLoop intvl d1Min d1Max d2Min d2Max rounds d1 d2 (u16 (btDur-1))

def MccInfo.dur : Nat := (i.enInfo.mccRole idx).policy.durInfo.dur

def MccInfo.setDur (dur : Nat) : MccInfo := i.onRole idx (fun mrole => {mrole with policy.durInfo.dur:=dur})

def mccAdjustDurFor2gMcc2roleBt : MccInfo :=
  match adjustLoop i.enInfo.mccIntvl (durMin env i 0) (durMax i 0) (durMin env i 1) (durMax i 1)
      i.enInfo.mccIntvl (i.dur 0) (i.dur 1) i.btInfo.btDur with
  | none => i
  | some (d1,d2,btDur) =>
    let i := (i.setDur 0 d1).setDur 1 d2
    {i.onPattern (fun pattern => {pattern with dRDASpacingMax:=btDur}) with btInfo.btDur:=btDur}

def mccAdjustDurFor2BandMcc2roleBt (role2g roleNon2g : Fin 2) : MccInfo :=
  let non2g := (i.enInfo.mccRole roleNon2g).policy.durInfo
  let lim2g := (i.enInfo.mccRole role2g).policy.durInfo.durLimit
  let btDur := i.btInfo.btDur
  if btDur ≤ non2g.dur then i
  else if non2g.durLimit.enable ∧ non2g.durLimit.maxDur < btDur then i
  else if i.coexMode ≠ .btMaster then i
  else
    let dur2g := u16 (i.enInfo.mccIntvl-btDur)
    let (dur2g,durNon2g) :=
      if lim2g.enable ∧ lim2g.maxDur < dur2g then (lim2g.maxDur,u16 (i.enInfo.mccIntvl-lim2g.maxDur)) else (dur2g,btDur)
    (i.setDur roleNon2g durNon2g).setDur role2g dur2g

-- _mcc_need_to_seg_bt_dur is constantly false.
def mccDiscisionDurFor2gMcc2roleBt : MccInfo :=
  let i := if btDurMax2ws < i.btInfo.btDur then
    {i with btInfo:={i.btInfo with btDur:=btDurMax2ws,btSeg:=update i.btInfo.btSeg 0 btDurMax2ws}} else i
  mccAdjustDurFor2gMcc2roleBt env i

def MccInfo.on24g : Bool := env.bandOf (i.enInfo.mccRole idx).chandef = .on24g
end

-- add_extra_bt_role, and the durations.
def mccDiscisionDurationFor2roleBt : Bool × MccInfo :=
  if i.btInfo.btDur = 0 then (false,i)
  else match i.on24g env 0,i.on24g env 1 with
    | true,true => (true,mccDiscisionDurFor2gMcc2roleBt env i)
    | false,false => (false,i)
    | true,false => (false,mccAdjustDurFor2BandMcc2roleBt i 0 1)
    | false,true => (false,mccAdjustDurFor2BandMcc2roleBt i 1 0)

-- phl_calc_offset_from_tbtt; the offset stays 0 where it returns false.
def calcOffsetFromTbtt (wrole : Option Nat) (curT : Nat) : Nat :=
  match wrole.bind (fun w => (env.wrole w).sta.map (fun sta => (roleBcnIntvl env w sta,sta.bcnOffset))) with
  | none => 0
  | some (bIntvl,bOfst) =>
    if bIntvl = 0 then 0
    else
      let mod := curT % (bIntvl*tu) / tu
      if mod < bOfst then u16 (mod + (bIntvl - bOfst : Int)) else u16 (mod - bOfst : Nat)

-- The loop of _mcc_calculate_start_tsf: `rounds` additions at most.
def startTsfLoop (goal step : Nat) : Nat → Nat → Option Nat
  | 0,_ => none
  | rounds+1,start => if start < goal then startTsfLoop goal step rounds (u64 (start+step)) else some start

-- The start time, where the port is read and the loop comes to its goal.
def startTsfFor : Option Nat :=
  let refRole := i.enInfo.mccRole i.enInfo.refRoleIdx
  env.startTsf.bind (fun tsf =>
    let offset := calcOffsetFromTbtt env refRole.wrole tsf
    let start := u64 (tsf - (offset+i.enInfo.pattern.tobR) * tu)
    startTsfLoop (u64 (tsf + minTriggerMccTime*tu)) (refRole.bcnIntvl*tu) 10 start)

def mccCalculateStartTsf : Bool × MccInfo :=
  match startTsfFor env i with
  | none => (false,i)
  | some start => (true,{i with enInfo.tsf:=start})
end
end

end Rtl8852au.Mcc
