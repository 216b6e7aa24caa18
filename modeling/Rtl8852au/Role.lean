import Rtl8852au.Machine

namespace Rtl8852au.Role
open Machine List

inductive MacRet where
  | success
  | nptr
  | noItem
  | bufAlloc
  | saMacid
  | macidFl
  | funcInput
  | addrCamFl
  | bssidCamFl
  | roleInitFl
  | wngKeyType
  | keyNotExt
  | secCamFl
  | addrCamKeyFl
  | noRole
  -- whatever else a transfer to the firmware returns
  | h2c
  deriving DecidableEq,Repr

inductive SelfRole where
  | client
  | ap
  | apClient
  deriving DecidableEq,Repr

inductive NetType where
  | noLink
  | adhoc
  | infra
  | ap
  deriving DecidableEq,Repr

-- `other` is a value outside the enumeration.
inductive UpdMode where
  | create
  | remove
  | typeChange
  | infoChange
  | conDisconn
  | other
  deriving DecidableEq,Repr

inductive OpMode where
  | connect
  | disconn
  deriving DecidableEq,Repr

inductive AddrMskSel where
  | noMsk
  | smaMsk
  | tmaMsk
  | bssidMsk
  deriving DecidableEq,Repr

abbrev MacAddr := Fin 6 → UInt8
def memEq (a b : MacAddr) (len : Nat) : Bool := decide (∀ k : Fin 6, k.val < len → a k = b k)

structure AddrCamInfo where
  addrCamIdx : Nat := 0
  valid : Bool := false
  addrMask : Nat := 0
  maskSel : AddrMskSel := .noMsk
  bssidCamIdx : Nat := 0
  secEntMode : Fin 4 := 0
  secEntKeyid : Nat → Nat := fun _ => 0
  secEntValid : Nat → Bool := fun _ => false
  secEnt : Nat → Nat := fun _ => 0

structure BssidCamInfo where
  bssidCamIdx : Nat := 0
  valid : Bool := false
  bbSel : Nat := 0
  bssid : MacAddr := fun _ => 0

structure RoleInfo where
  selfRole : SelfRole
  netType : NetType
  updMode : UpdMode
  opmode : OpMode
  band : Fin 2 := 0
  maskSel : AddrMskSel := .noMsk
  addrMask : Nat := 0
  macid : Nat
  wmm : Fin 4 := 0
  selfMac : MacAddr
  targetMac : MacAddr
  bssid : MacAddr
  isMulEnt : Bool
  secEntMode : Fin 4 := 0
  aInfo : AddrCamInfo := {}
  bInfo : BssidCamInfo := {}

structure RoleTbl where
  macid : Nat
  wmm : Fin 4
  info : RoleInfo

structure SecCamInfo where
  type : Nat := 0
  extKey : Bool := false
  sppMode : Bool := false
  key : Nat → Nat := fun _ => 0

structure SecCamEntry where
  valid : Bool
  macId : Nat
  keyId : Nat
  keyType : Nat
  secCamInfo : SecCamInfo

structure SecCamTable where
  secCamEntry : Nat → SecCamEntry
  nextCamStorageIdx : Nat

structure HwInfo where
  macidNum : Nat
  bssidNum : Nat
  secCamEntryNum : Nat
  is8852b : Bool := false

structure Adapter where
  hw : HwInfo
  pool : Nat
  roles : List RoleTbl
  secCamTable : SecCamTable

inductive H2cRet where
  | success
  | fwNonRdy
  | fail
  deriving DecidableEq,Repr

-- A failing address-CAM transfer fails before its buffer is there or after the
-- BSSID entry was chosen.
inductive AddrCamTx where
  | sent
  | noBuffer
  | lost
  deriving DecidableEq,Repr

structure H2c where
  macidPause : Bool := true
  roleMaintain : H2cRet := .success
  joinInfo : H2cRet := .success
  addrCam : AddrCamTx := .sent
  secCam : Bool := true

def macRoleSrch (roles : List RoleTbl) (macid : Nat) : Option RoleTbl := roles.find? (fun role => macid == role.macid)

def macRoleSrchByAddrCam (roles : List RoleTbl) (addrCamIdx : Nat) : Option RoleTbl :=
  roles.find? (fun role => addrCamIdx == role.info.aInfo.addrCamIdx && role.info.aInfo.valid)

def macRoleSrchByBssid (roles : List RoleTbl) (bssidCamIdx : Nat) : Option RoleTbl :=
  roles.find? (fun role => bssidCamIdx == role.info.bInfo.bssidCamIdx && role.info.aInfo.valid)

-- A write through the pointer `mac_role_srch` returns.
def updateRole (macid : Nat) (change : RoleTbl → RoleTbl) : List RoleTbl → List RoleTbl
  | [] => []
  | role :: rest => if macid == role.macid then change role :: rest else role :: updateRole macid change rest

def Adapter.onRole (a : Adapter) (macid : Nat) (change : RoleTbl → RoleTbl) : Adapter :=
  {a with roles:=updateRole macid change a.roles}

inductive RoleOpmode where
  | add
  | chg
  deriving DecidableEq,Repr

def roleInfoValid (a : Adapter) (info : RoleInfo) (op : RoleOpmode) : MacRet :=
  if op = .add ∧ info.opmode ≠ .disconn then .funcInput
  else if op = .add ∧ info.updMode ≠ .create then .funcInput
  else if op = .add ∧ (macRoleSrch a.roles info.macid).isSome then .saMacid
  else if op = .chg ∧ info.updMode = .create then .funcInput
  else if op = .chg ∧ (macRoleSrch a.roles info.macid).isNone then .noItem
  else if info.netType = .infra ∧ (info.selfRole = .ap ∨ info.selfRole = .apClient) then .funcInput
  else if info.netType = .ap ∧ info.selfRole = .client then .funcInput
  else if info.selfRole = .ap ∧ info.netType = .ap ∧
      (!memEq info.selfMac info.bssid 6 || !memEq info.targetMac info.bssid 6) then .funcInput
  else if !(info.isMulEnt ^^ ((info.netType ≠ .ap ∧ info.selfMac 0 &&& 1 = 0) ∨
      (info.netType = .ap ∧ info.bssid 0 &&& 1 = 0))) then .funcInput
  else if a.hw.is8852b ∧ 2 ≤ info.wmm.val then .funcInput
  else if a.hw.is8852b ∧ info.band = 1 then .funcInput
  else .success

def roleInfoInit (info : RoleInfo) : RoleInfo :=
  {info with
    aInfo := {info.aInfo with maskSel:=info.maskSel,addrMask:=info.addrMask,secEntMode:=info.secEntMode}
    bInfo := {info.bInfo with valid:=true,bbSel:=info.band,bssid:=info.bssid}}

def noKeys (aInfo : AddrCamInfo) : AddrCamInfo :=
  {aInfo with secEntValid:=fun _ => false,secEntKeyid:=fun _ => 0,secEnt:=fun _ => 0}

def secInfoInit (info : RoleInfo) : RoleInfo := {info with aInfo:=noKeys info.aInfo}

-- `clear` leaves the last of the four key words alone.
def mSecurityCamHal (table : SecCamTable) (secCamInfo : SecCamInfo) (macId keyId keyType secCamIdx : Nat)
    (clear : Bool) : SecCamTable :=
  let entry : SecCamEntry := if clear then
      ⟨false,0,0,0,⟨0,false,false,fun i => if i < 3 then 0 else (table.secCamEntry secCamIdx).secCamInfo.key i⟩⟩
    else ⟨true,macId,keyId,keyType,secCamInfo⟩
  {table with secCamEntry:=Function.update table.secCamEntry secCamIdx entry}

-- The MAC id it passes is the valid byte; clearing an entry does not read it.
def disconnectFlushKey (table : SecCamTable) (role : RoleTbl) : SecCamTable :=
  (range 7).foldl (fun table keyIndex => if role.info.aInfo.secEntValid keyIndex then
      mSecurityCamHal table {} 0 (role.info.aInfo.secEntKeyid keyIndex) 3 (role.info.aInfo.secEnt keyIndex) true
    else table) table

def secInfoDeinit (a : Adapter) (macid : Nat) (role : RoleTbl) : Adapter :=
  {a.onRole macid (fun role => {role with info:={role.info with aInfo:={noKeys role.info.aInfo with secEntMode:=0}}})
    with secCamTable := disconnectFlushKey a.secCamTable role}

def getSetBitsOfMsk (msk : Nat) : Nat := go 8 msk
where
  go : Nat → Nat → Nat
  | 0,_ => 0
  | fuel+1,msk => if msk = 0 then 0 else if msk &&& (msk-1) = 0 then 1 else go fuel (msk &&& (msk-1)) + 1

section
variable (hw : HwInfo) (roles : List RoleTbl)

def findAvailAddrCamEntry : Option Nat := (range hw.macidNum).find? (fun i => (macRoleSrchByAddrCam roles i).isNone)

structure BssidPick where
  idx : Nat
  copied : Option MacAddr

def bssidScan (hw : HwInfo) (roles : List RoleTbl) (info : RoleInfo) (cmpLen : Nat) : List Nat → Nat → BssidPick
  | [],found => ⟨found,none⟩
  | i :: rest,found =>
    match macRoleSrchByBssid roles i with
    | some role =>
      if memEq info.bssid role.info.bssid cmpLen && info.band == role.info.band then
        ⟨role.info.aInfo.bssidCamIdx,if cmpLen < 6 then some role.info.bInfo.bssid else none⟩
      else bssidScan hw roles info cmpLen rest found
    | none => bssidScan hw roles info cmpLen rest (if found = hw.bssidNum then i else found)

def resetBssid (hw : HwInfo) (info : RoleInfo) : RoleInfo :=
  {info with
    aInfo := {info.aInfo with bssidCamIdx:=hw.bssidNum}
    bInfo := {info.bInfo with bssidCamIdx:=hw.bssidNum}}

def giveUpBssid (hw : HwInfo) (role : RoleTbl) : RoleTbl := {role with info:=resetBssid hw role.info}

def bssidPick (info : RoleInfo) : BssidPick :=
  bssidScan hw roles info (if info.aInfo.maskSel = .bssidMsk then getSetBitsOfMsk info.aInfo.addrMask else 6)
    (range hw.bssidNum) hw.bssidNum

-- `roles` is the list as it is once the entry of `info` itself is given up.
def findAvailBssidCamEntry (info : RoleInfo) : MacRet × RoleInfo :=
  let pick := bssidPick hw roles info
  let info := {resetBssid hw info with aInfo:={info.aInfo with bssidCamIdx:=pick.idx}}
  let info := match pick.copied with
    | none => info
    | some bssid => {info with bInfo:={info.bInfo with bssid:=bssid}}
  if pick.idx = hw.bssidNum then (.bssidCamFl,info)
  else (.success,{info with bInfo:={info.bInfo with bssidCamIdx:=pick.idx}})
end

def addrCamRet : AddrCamTx → MacRet
  | .sent => .success
  | .noBuffer => .nptr
  | .lost => .h2c

def macUpdAddrCamChg (tx : AddrCamTx) (a : Adapter) (macid : Nat) : MacRet × Adapter :=
  if tx = .noBuffer then (addrCamRet tx,a)
  else
    let given := a.onRole macid (giveUpBssid a.hw)
    match macRoleSrch given.roles macid with
    | none => (addrCamRet tx,a)
    | some role =>
      let (ret,info) := findAvailBssidCamEntry a.hw given.roles role.info
      let a := given.onRole macid (fun role => {role with info:=info})
      if ret = .success then (addrCamRet tx,a) else (ret,a)

def macUpdAddrCamAdd (tx : AddrCamTx) (a : Adapter) (info : RoleInfo) : MacRet × RoleInfo :=
  if tx = .noBuffer then (addrCamRet tx,info)
  else
    match findAvailAddrCamEntry a.hw a.roles with
    | none => (.addrCamFl,info)
    | some i =>
      let (ret,info) := findAvailBssidCamEntry a.hw a.roles {info with aInfo:={info.aInfo with addrCamIdx:=i}}
      if ret = .success then (addrCamRet tx,info) else (ret,info)

def newRoleInfo (info : RoleInfo) : RoleInfo := roleInfoInit (secInfoInit {info with aInfo:={info.aInfo with valid:=true}})

section
variable (h2c : H2c) (a : Adapter)

-- A failing `mac_h2c_join_info` returns at once: the node is in neither list.
def macAddRole (info : RoleInfo) : MacRet × Adapter :=
  if a.pool = 0 then (.bufAlloc,a)
  else
    let valid := roleInfoValid a info .add
    if valid ≠ .success then (valid,a)
    else if a.hw.macidNum < a.roles.length then (.macidFl,a)
    else if !h2c.macidPause then (.roleInitFl,a)
    else
      let info := newRoleInfo info
      if h2c.roleMaintain = .fail then (.h2c,a)
      else if info.selfRole = .ap ∧ h2c.joinInfo = .fail then (.h2c,{a with pool:=a.pool - 1})
      else
        let (ret,info) := macUpdAddrCamAdd h2c.addrCam a info
        if ret = .addrCamFl ∨ ret = .bssidCamFl then (ret,a)
        else (.success,{a with pool:=a.pool - 1,roles:=a.roles ++ [⟨info.macid,info.wmm,info⟩]})

def changedRole (role : RoleTbl) (info : RoleInfo) : RoleTbl :=
  let info := roleInfoInit {info with aInfo:=role.info.aInfo}
  ⟨info.macid,info.wmm,info⟩

def applyChange (role : RoleTbl) : MacRet × Adapter :=
  match role.info.updMode with
  | .typeChange =>
    if h2c.roleMaintain = .fail then (.h2c,a)
    else if role.info.selfRole = .ap ∧ h2c.joinInfo = .fail then (.h2c,a)
    else macUpdAddrCamChg h2c.addrCam a role.macid
  | .remove => if h2c.roleMaintain = .fail then (.h2c,a) else macUpdAddrCamChg h2c.addrCam a role.macid
  | .conDisconn =>
    let a := if role.info.opmode = .disconn then secInfoDeinit a role.macid role else a
    if h2c.joinInfo = .fail then (.h2c,a) else macUpdAddrCamChg h2c.addrCam a role.macid
  | .infoChange => if h2c.joinInfo = .fail then (.h2c,a) else macUpdAddrCamChg h2c.addrCam a role.macid
  -- only reported; `ret` still holds the success of the validation
  | .create | .other => (.success,a)

def macChangeRole (info : RoleInfo) : MacRet × Adapter :=
  let valid := roleInfoValid a info .chg
  if valid ≠ .success then (valid,a)
  else
    match macRoleSrch a.roles info.macid with
    | none => (.noItem,a)
    | some role => applyChange h2c (a.onRole info.macid (fun _ => changedRole role info)) (changedRole role info)

-- The first listed node of this `macid` is the one `mac_role_srch` found.
def roleReturn (a : Adapter) (macid : Nat) : Adapter :=
  {a with pool:=a.pool+1,roles:=a.roles.eraseP (fun role => macid == role.macid)}

def removalInfo (role : RoleTbl) : RoleInfo :=
  {role.info with aInfo:={role.info.aInfo with valid:=false},updMode:=.remove,opmode:=.disconn}

def releasedBssid (a : Adapter) (info : RoleInfo) : RoleInfo :=
  if (macRoleSrchByBssid a.roles info.aInfo.bssidCamIdx).isNone then {info with bInfo:={info.bInfo with valid:=false}}
  else info

def macRemoveRole (macid : Nat) : MacRet × Adapter :=
  match macRoleSrch a.roles macid with
  | none => (.noRole,a)
  | some role =>
    let a := a.onRole macid (fun role => {role with info:=removalInfo role})
    let info := releasedBssid a (removalInfo role)
    let a := a.onRole macid (fun role => {role with info:=info})
    let (ret,a) := macChangeRole h2c a info
    if ret ≠ .success then (ret,a) else (.success,roleReturn a macid)
end

def Adapter.init (hw : HwInfo) : Adapter := ⟨hw,hw.macidNum,[],⟨fun _ => ⟨false,0,0,0,{}⟩,0⟩⟩
end Rtl8852au.Role
