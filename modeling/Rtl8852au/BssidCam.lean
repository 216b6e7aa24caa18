import Rtl8852au.SecurityCamKeys

namespace Rtl8852au.Role
open Machine

structure BssidCamEntry where
  valid : Bool
  bbSel : Nat
  bssid : MacAddr

abbrev BssidCam := Nat → BssidCamEntry

-- Dwords 12 to 14 of the address-CAM H2C.
def fillBssidCamInfo (bInfo : BssidCamInfo) : BssidCamEntry := ⟨bInfo.valid,bInfo.bbSel,bInfo.bssid⟩

def writeBssidCam (cam : BssidCam) : Option RoleInfo → BssidCam
  | none => cam
  | some info => Function.update cam info.bInfo.bssidCamIdx (fillBssidCamInfo info.bInfo)

structure Nic where
  adapter : Adapter
  bssidCam : BssidCam

-- The record a call's address-CAM H2C carries when no transfer fails. A
-- successful add has sent the one of the role it enqueues.
def addRoleH2c (a : Adapter) (info : RoleInfo) : Option RoleInfo :=
  let (ret,a) := macAddRole {} a info
  if ret = .success then a.roles.getLast?.map RoleTbl.info else none

-- A change of an invalid kind succeeds before the update of the CAM.
def changeRoleH2c (a : Adapter) (info : RoleInfo) : Option RoleInfo :=
  let (ret,a) := macChangeRole {} a info
  if ret = .success ∧ info.updMode ≠ .other then (macRoleSrch a.roles info.macid).map RoleTbl.info else none

def removeRoleH2c (a : Adapter) (macid : Nat) : Option RoleInfo :=
  match macRoleSrch a.roles macid with
  | none => none
  | some role =>
    let a := a.onRole macid (fun role => {role with info:=removalInfo role})
    let info := releasedBssid a (removalInfo role)
    changeRoleH2c (a.onRole macid (fun role => {role with info:=info})) info

inductive RoleEvent where
  | addRole (info : RoleInfo)
  | changeRole (info : RoleInfo)
  | removeRole (macid : Nat)

def nicStep (nic : Nic) : RoleEvent → Nic
  | .addRole info => ⟨(macAddRole {} nic.adapter info).2,writeBssidCam nic.bssidCam (addRoleH2c nic.adapter info)⟩
  | .changeRole info => ⟨(macChangeRole {} nic.adapter info).2,writeBssidCam nic.bssidCam (changeRoleH2c nic.adapter info)⟩
  | .removeRole macid => ⟨(macRemoveRole {} nic.adapter macid).2,writeBssidCam nic.bssidCam (removeRoleH2c nic.adapter macid)⟩

def Nic.init (hw : HwInfo) : Nic := ⟨.init hw,fun _ => ⟨false,0,fun _ => 0⟩⟩

-- How many bytes of the BSSID the choice of an entry compares.
def cmpLen (info : RoleInfo) : Nat := if info.maskSel = .bssidMsk then getSetBitsOfMsk info.addrMask else 6

structure MirrorsRoles (nic : Nic) : Prop where
  valid : ∀ i, (nic.bssidCam i).valid ↔
    ∃ role ∈ nic.adapter.roles, role.info.aInfo.valid ∧ role.info.aInfo.bssidCamIdx = i
  shows : ∀ role ∈ nic.adapter.roles, role.info.aInfo.valid →
    (nic.bssidCam role.info.aInfo.bssidCamIdx).bssid = role.info.bInfo.bssid ∧
      memEq role.info.bInfo.bssid role.info.bssid (cmpLen role.info)
  shared : ∀ role ∈ nic.adapter.roles, ∀ other ∈ nic.adapter.roles,
    role.info.aInfo.valid → other.info.aInfo.valid →
    6 ≤ cmpLen role.info → 6 ≤ cmpLen other.info → role.info.aInfo.bssidCamIdx = other.info.aInfo.bssidCamIdx →
    role.info.bssid = other.info.bssid ∧ role.info.band = other.info.band
  apart : ((nic.adapter.roles.filter (·.info.aInfo.valid)).map (·.info.aInfo.addrCamIdx)).Nodup

-- The scan takes entry `i` for the record: its first holder has the BSSID and the band.
def Joins (roles : List RoleTbl) (info : RoleInfo) (i : Nat) : Prop :=
  ∃ role ∈ macRoleSrchByBssid roles i,
    memEq info.bssid role.info.bssid (cmpLen info) ∧ info.band = role.info.band

def Free (roles : List RoleTbl) (i : Nat) : Prop := (macRoleSrchByBssid roles i).isNone

-- Whoever the record would join is compared by the BSSID its entry shows.
def Candid (hw : HwInfo) (roles : List RoleTbl) (info : RoleInfo) : Prop :=
  ∀ i < hw.bssidNum, ∀ role ∈ macRoleSrchByBssid roles i,
    memEq info.bssid role.info.bssid (cmpLen info) → info.band = role.info.band →
    memEq role.info.bInfo.bssid role.info.bssid (cmpLen info)

instance (roles : List RoleTbl) (info : RoleInfo) (i : Nat) : Decidable (Joins roles info i) :=
  inferInstanceAs (Decidable (∃ role ∈ macRoleSrchByBssid roles i, _))

instance (roles : List RoleTbl) (i : Nat) : Decidable (Free roles i) := inferInstanceAs (Decidable (_ = true))

instance (hw : HwInfo) (roles : List RoleTbl) (info : RoleInfo) : Decidable (Candid hw roles info) :=
  inferInstanceAs (Decidable (∀ i < hw.bssidNum, ∀ role ∈ macRoleSrchByBssid roles i, _ → _ → _))

section
variable (hw : HwInfo) (others : List RoleTbl) (info : RoleInfo)

def Hides : Prop := (∃ i < hw.bssidNum, Joins others info i) ∨ ∀ i < hw.bssidNum, ¬ Free others i

-- A valid role leaves entry `i` to others and finds one, or gets it back.
def Moves (i : Nat) : Prop :=
  if Free others i then (∀ j < hw.bssidNum, ¬ Joins others info j) ∧ ∀ j < i, ¬ Free others j
  else ∃ j < hw.bssidNum, Joins others info j ∨ Free others j
end

instance (hw : HwInfo) (others : List RoleTbl) (info : RoleInfo) : Decidable (Hides hw others info) :=
  inferInstanceAs (Decidable ((∃ i < hw.bssidNum, Joins others info i) ∨ ∀ i < hw.bssidNum, ¬ Free others i))

instance (hw : HwInfo) (others : List RoleTbl) (info : RoleInfo) (i : Nat) : Decidable (Moves hw others info i) :=
  inferInstanceAs (Decidable (if Free others i then
    (∀ j < hw.bssidNum, ¬ Joins others info j) ∧ ∀ j < i, ¬ Free others j
    else ∃ j < hw.bssidNum, Joins others info j ∨ Free others j))

def Adapter.others (a : Adapter) (macid : Nat) : List RoleTbl := a.roles.eraseP (fun role => macid == role.macid)

def RoleGuard (nic : Nic) : RoleEvent → Prop
  | .addRole info => roleInfoValid nic.adapter info .add = .success → Candid nic.adapter.hw nic.adapter.roles info
  | .changeRole info =>
    roleInfoValid nic.adapter info .chg = .success → info.updMode ≠ .other ∧
      ∀ role ∈ macRoleSrch nic.adapter.roles info.macid,
        Candid nic.adapter.hw (nic.adapter.others info.macid) info ∧
        if role.info.aInfo.valid then
          Moves nic.adapter.hw (nic.adapter.others info.macid) info role.info.aInfo.bssidCamIdx
        else Hides nic.adapter.hw (nic.adapter.others info.macid) info
  | .removeRole macid =>
    ∀ role ∈ macRoleSrch nic.adapter.roles macid,
      Candid nic.adapter.hw (nic.adapter.others macid) role.info ∧
      (role.info.aInfo.valid → ¬ Free (nic.adapter.others macid) role.info.aInfo.bssidCamIdx) ∧
      Hides nic.adapter.hw (nic.adapter.others macid) role.info

instance (nic : Nic) : (event : RoleEvent) → Decidable (RoleGuard nic event)
  | .addRole info => inferInstanceAs (Decidable (roleInfoValid nic.adapter info .add = .success → _))
  | .changeRole info => inferInstanceAs (Decidable (roleInfoValid nic.adapter info .chg = .success →
      info.updMode ≠ .other ∧ ∀ role ∈ macRoleSrch nic.adapter.roles info.macid, _ ∧ if role.info.aInfo.valid
        then Moves nic.adapter.hw (nic.adapter.others info.macid) info role.info.aInfo.bssidCamIdx
        else Hides nic.adapter.hw (nic.adapter.others info.macid) info))
  | .removeRole macid => inferInstanceAs (Decidable (∀ role ∈ macRoleSrch nic.adapter.roles macid, _ ∧ (_ → _) ∧ _))
end Rtl8852au.Role
