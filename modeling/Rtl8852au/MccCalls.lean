import Rtl8852au.MccMode

namespace Rtl8852au.Mcc

section
variable (env : Env)

def mccPktOffload (i : MccInfo) : Bool :=
  [0,1].all (fun idx => !i.used idx || !isClientCategory (env.typeOf (i.enInfo.mccRole idx).wrole) ||
    env.pktOfld (u8 (i.enInfo.mccRole idx).macid))

-- A slot of a WiFi role writes the group into the role it refers to, wherever that is.
def fillRoleSlots (mac : MacReplies) (group : Nat) : List SlotInfo → Nat → Mem → Bool × Mem
  | [],_,m => (true,m)
  | .bt _ :: rest,i,m => if mac.addMcc i then fillRoleSlots mac group rest (i+1) m else (false,m)
  | .wifi _ none :: _,_,m => (false,m)
  | .wifi _ (some r) :: rest,i,m =>
    let m := m.onRole r (fun mrole => {mrole with group})
    if mac.addMcc i && mac.macidBitmap i then fillRoleSlots mac group rest (i+1) m else (false,m)

section
variable (mac : MacReplies) (p : Place) (m : Mem)

def mccFillRoleSetting : Bool × Mem :=
  let slots := (m p).enInfo.pattern.slotOrder.val
  if slotNum < slots.length then (false,m)
  else if slots.length < minTdmraSlotNum then (false,m)
  else fillRoleSlots mac (m p).enInfo.group slots 0 m

def grouped (p : Place) (group : Nat) (m : Mem) : Mem := m.modify p (fun i => {i with enInfo.group:=group})

-- What rtw_hal_mcc_enable and _mcc_replace_pattern have in common: the group, the
-- slots, the sync and the start.
def startMcc : Bool × Mem :=
  match mac.getMccGroup with
  | none => (false,m)
  | some group =>
    let (filled,m) := mccFillRoleSetting mac p (grouped p group m)
    (filled && (!(m p).enInfo.syncTsf.syncEn || mac.syncEnable) && mac.startMcc,m)

def rtwHalMccEnable : Bool × Mem := startMcc mac p m
def mccReplacePattern : Bool × Mem := startMcc mac p m
end

def twoWifiSlots (pattern : Pattern) : Bool := pattern.slotOrder.val.length = 2 && pattern.btSlotNum = 0

def rtwHalMccChangePattern (mac : MacReplies) (ori : MccInfo) (p : Place) (m : Mem) : Bool × Mem :=
  if twoWifiSlots (m p).enInfo.pattern && twoWifiSlots ori.enInfo.pattern then (mac.setDuration,m)
  else mccReplacePattern mac p m

def rtwHalMccDisable (mac : MacReplies) : Bool := mac.stopMcc && mac.delMccGroup

-- The second sync is asked for in AP-client mode only, when the offset moved.
def syncAgain (mac : MacReplies) (mode : TdmraMode) (ori new : MccInfo) : Bool :=
  !(mode = .apClient && new.enInfo.syncTsf.syncEn && new.enInfo.syncTsf.offset ≠ ori.enInfo.syncTsf.offset) || mac.syncAgain

-- _mcc_update_2_clients_pattern, _mcc_update_ap_client_pattern and _mcc_update_ap_bt_pattern.
def mccUpdatePattern (mode : TdmraMode) (ori : MccInfo) (m : Mem) : Bool × Mem :=
  match mccFillInfo env mode .copy m with
  | (false,m) => (false,m)
  | (true,m) =>
    match rtwHalMccChangePattern env.mac ori .copy m with
    | (false,m) => (false,m)
    | (true,m) => (syncAgain env.mac mode ori (m .copy),m)

section
variable (band : HwBand) (m : Mem)

def copyBack : Mem := m.modify (.stored band) (fun _ => m .copy)
def copyOut : Mem := m.modify .copy (fun _ => m (.stored band))

def mccDurationChange : Bool × Mem :=
  match mccUpdatePattern env (m (.stored band)).mccMode (m (.stored band)) m with
  | (false,m) => (false,m)
  | (true,m) => (true,copyBack band m)

def resetBtAndPattern (i : MccInfo) : MccInfo := {i with btInfo:=zeroBtInfo,enInfo.pattern:=zeroPattern}

def refillPolicy (m : Mem) (r : RoleRef) : Mem :=
  match (m.role r).wrole with
  | none => m
  | some wrole => mccFillMccRolePolicyInfo env wrole r m

def MccInfo.roles (i : MccInfo) : List (Fin 2) := [0,1].filter (fun idx => idx.val < i.enInfo.mroleNum && i.used idx)

def refillPolicies (p : Place) (m : Mem) : Mem := ((m p).roles.map (fun idx => ⟨p,idx⟩)).foldl (refillPolicy env) m

def trackingTol (i : MccInfo) (negativeSign : Bool) : Nat :=
  let pattern := i.enInfo.pattern
  let (time,limit) : Int × Nat := if negativeSign then (pattern.tobA,earlyRxBcnT) else (pattern.toaA,minRxBcnT)
  if pattern.courtesy.cEn then 3
  else if i.enInfo.mccIntvl = worsecaseIntvl then 3
  else if time ≤ limit then 2
  else if (2*limit : Nat) ≤ time then u16 (time - (3*limit / 2 : Nat)) else 3

def drifted (i : MccInfo) : Bool :=
  match mccGet2ClientsBcnOffset env env.trackTsf i with
  | none => false
  | some bcnsOffset =>
    let last := i.enInfo.pattern.bcnsOffset
    if last < bcnsOffset then trackingTol i false ≤ bcnsOffset - last else trackingTol i true ≤ last - bcnsOffset

def refillBoth (m : Mem) : Mem :=
  let ref := (m .copy).enInfo.refRoleIdx
  refillPolicy env (refillPolicy env m ⟨.copy,ref⟩) ⟨.copy,other ref⟩

def trackingCopy (m : Mem) : Mem := refillBoth env (m.modify .copy (fun i => mccFillBtDur env (resetBtAndPattern i)))

def mcc2ClientsTracking : Mem :=
  let ori := m (.stored band)
  let m := copyOut band m
  if drifted env (m .copy) then
    match mccUpdatePattern env .twoClients ori (trackingCopy env m) with
    | (false,m) => m
    | (true,m) => copyBack band m
  else m

def wifiCopy (role : Fin 2) (dur : Nat) (band : HwBand) (m : Mem) : Mem :=
  (copyOut band m).modify .copy (fun i => (mccSetUnspecificDur i).setDur role dur)

def btCopy : Mem := refillPolicies env .copy ((copyOut band m).modify .copy (fun i => mccFillBtDur env (resetBtAndPattern i)))
end

def limCopy (role : Fin 2) (limReq : DurLimReq) (band : HwBand) (m : Mem) : Mem :=
  (btCopy env band m).modify .copy (fun i => i.onRole role (fun mrole => mccFillDurLimInfo mrole limReq))

def rtwPhlMccDurationChange (band : HwBand) (wrole : Nat) (dur : Nat) (m : Mem) : Bool × Mem :=
  match mccGetMroleIdxByWrole (m (.stored band)) wrole with
  | none => (false,(copyOut band m).modify .copy mccSetUnspecificDur)
  | some role => mccDurationChange env band (wifiCopy role dur band m)

def exist2g (i : MccInfo) : Bool := i.roles.any (i.on24g env)

def rtwPhlMccBtDurationChange (band : HwBand) (dur : Nat) (m : Mem) : Bool × Mem :=
  if dur = (m (.stored band)).btInfo.btDur then (true,m)
  else if !exist2g env (m (.stored band)) then (true,btCopy env band m)
  else mccDurationChange env band (btCopy env band m)

structure MccCtl where
  initMcc : Bool
  mem : Mem

structure DurChangeInfo where
  btRole : Bool
  hwBand : HwBand
  role : Nat
  dur : Nat

def MccCtl.info (s : MccCtl) (band : HwBand) : MccInfo := s.mem (.stored band)

def rtwPhlTdmraDurationChange (info : DurChangeInfo) (s : MccCtl) : Bool × Mem :=
  if !s.initMcc then (false,s.mem)
  else if (s.info info.hwBand).state ≠ .runing then (false,s.mem)
  else if info.btRole then rtwPhlMccBtDurationChange env info.hwBand info.dur s.mem
  else rtwPhlMccDurationChange env info.hwBand info.role info.dur s.mem

def rtwPhlMccDurLimChange (wrole : Nat) (limReq : DurLimReq) (s : MccCtl) : Bool × Mem :=
  let band := (env.wrole wrole).hwBand
  if !s.initMcc then (false,s.mem)
  else if (s.info band).state ≠ .runing then (false,s.mem)
  else match mccGetMroleIdxByWrole (s.info band) wrole with
    | none => (false,copyOut band s.mem)
    | some role => mccDurationChange env band (limCopy env role limReq band s.mem)

def rtwPhlMccWatchdog (band : HwBand) (s : MccCtl) : Mem :=
  if !s.initMcc then s.mem
  else if (s.info band).state ≠ .runing then s.mem
  else if (s.info band).mccMode = .twoClients then mcc2ClientsTracking env band s.mem
  else s.mem

def Mem.setState (m : Mem) (band : HwBand) (state : MccState) : Mem := m.modify (.stored band) (fun i => {i with state})
def resetForEnable (i : MccInfo) : MccInfo := {zeroInfo with state:=i.state,fwLog:=i.fwLog}

section
variable (band : HwBand) (coex : Bool) (curRole : Nat) (m : Mem)

-- The roles and the reference index. rtw_phl_mcc_ap_bt_coex_enable (`coex`) asks for
-- the AP mode before it looks at the roles.
def cfgRoles : Bool × Mem :=
  let p := Place.stored band
  let roleMap := env.roleMap band
  let m := m.modify p (fun i => {resetForEnable i with roleMap})
  let (known,i) := mccTransferMode env (m p) roleMap
  let m := m.modify p (fun _ => i)
  if !known then (false,m)
  else if coex && i.mccMode ≠ .ap then (false,m)
  else match mccFillRoleInfo env p roleMap curRole m with
    | (false,m) => (false,m)
    | (true,m) =>
      let m := m.modify p (fun i => mccFillBtDur env {i with coexMode:=.btMaster})
      match mccGetMroleIdxByWrole (m p) curRole with
      | none => (false,m)
      | some idx => (true,m.modify p (fun i => {i with enInfo.refRoleIdx:=idx}))

def cfgInfo : Bool × Mem :=
  match cfgRoles env band coex curRole m with
  | (false,m) => (false,m)
  | (true,m) =>
    let mode := (m (.stored band)).mccMode
    if !coex && mode = .ap then (false,m)
    else match mccFillInfo env mode (.stored band) m with
      | (false,m) => (false,m)
      | (true,m) => (coex || mccPktOffload env (m (.stored band)),m)
end

def enableMcc (coex : Bool) (curRole : Nat) (s : MccCtl) : Bool × Mem :=
  let band := (env.wrole curRole).hwBand
  if !s.initMcc then (false,s.mem)
  else if (s.info band).state ≠ .none ∧ (s.info band).state ≠ .stop then (false,s.mem)
  else
    match cfgInfo env band coex curRole (s.mem.setState band .cfgEnInfo) with
    | (false,m) => (false,m.setState band .none)
    | (true,m) =>
      match rtwHalMccEnable env.mac (.stored band) (m.setState band .triggerFwEn) with
      | (false,m) => (false,m.setState band .fwEnFail)
      | (true,m) => (true,(m.setState band .runing).modify (.stored band) mccUpFwLogSetting)

section
variable (curRole : Nat) (s : MccCtl)

def rtwPhlMccEnable : Bool × Mem := enableMcc env false curRole s
def rtwPhlMccApBtCoexEnable : Bool × Mem := enableMcc env true curRole s

def rtwPhlTdmraEnable : Bool × Mem :=
  if env.chanctxNum = 2 then rtwPhlMccEnable env curRole s
  else if env.chanctxNum = 1 ∧ (env.apNum = 1 ∨ env.p2pGoNum = 1) ∧ (env.ldStaNum = 0 ∨ env.lgStaNum = 0) then
    rtwPhlMccApBtCoexEnable env curRole s
  else (false,s.mem)
end

def rtwPhlTdmraDisable (specRole : Nat) (s : MccCtl) : Bool × Mem :=
  let band := (env.wrole specRole).hwBand
  if !s.initMcc then (false,s.mem)
  else if (s.info band).state ≠ .runing then (false,s.mem)
  else match mccGetMroleIdxByWrole (s.info band) specRole with
    | none => (false,s.mem)
    | some _ => if rtwHalMccDisable env.mac then (true,s.mem.setState band .stop) else (false,s.mem.setState band .fwDisFail)
end

inductive Event where
  | enable (env : Env) (curRole : Nat)
  | disable (env : Env) (specRole : Nat)
  | durationChange (env : Env) (info : DurChangeInfo)
  | durLimChange (env : Env) (wrole : Nat) (limReq : DurLimReq)
  | watchdog (env : Env) (band : HwBand)

-- What the call returns, and the memory after it; the watchdog returns nothing.
def call (s : MccCtl) : Event → Bool × Mem
  | .enable env curRole => rtwPhlTdmraEnable env curRole s
  | .disable env specRole => rtwPhlTdmraDisable env specRole s
  | .durationChange env info => rtwPhlTdmraDurationChange env info s
  | .durLimChange env wrole limReq => rtwPhlMccDurLimChange env wrole limReq s
  | .watchdog env band => (true,rtwPhlMccWatchdog env band s)

def mccStep (s : MccCtl) (event : Event) : MccCtl := {s with mem:=(call s event).2}

def origin (initMcc : Bool) : MccCtl := ⟨initMcc,fun _ => zeroInfo⟩
end Rtl8852au.Mcc
