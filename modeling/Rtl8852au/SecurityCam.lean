import Rtl8852au.Role
import Rtl8852au.Slots

namespace Rtl8852au.Role
open Machine Slots Function

def hwSupportEncTypeNum : Nat := 0x0A

-- Key types: 0 unicast, 1 group, 2 BIP; anything else is refused.
def checkKeyIndex (mode : Fin 4) (keyType keyIndex : Nat) : Bool :=
  match mode,keyType with
  | 0,0 | 1,0 => keyIndex ≤ 6
  | 2,0 | 3,0 => keyIndex ≤ 1
  | 2,1 => 2 ≤ keyIndex && keyIndex ≤ 4
  | 2,2 => 5 ≤ keyIndex && keyIndex ≤ 6
  | 3,1 => 2 ≤ keyIndex && keyIndex ≤ 5
  | 3,2 => keyIndex = 6
  | _,_ => false

-- `none` is `MACWNGKEYTYPE`.
def decideKeyIndex (mode : Fin 4) (keyType : Nat) : Option Nat :=
  match mode,keyType with
  | 0,1 | 0,2 | 1,1 | 1,2 => none
  | 2,1 | 3,1 => some 2
  | 2,2 => some 5
  | 3,2 => some 6
  | _,_ => some 0

-- The slot a key operation works on: the first one from the first slot of its
-- type that fits, refused when that is not a slot of its type.
def keySlot (mode : Fin 4) (keyType : Nat) (fits : Nat → Bool) (missing : MacRet) : Except MacRet Nat :=
  match decideKeyIndex mode keyType with
  | none => .error .wngKeyType
  | some keyIndex =>
    match (List.range' keyIndex (7 - keyIndex)).find? fits with
    | none => .error missing
    | some i => if checkKeyIndex mode keyType i then .ok i else .error .addrCamKeyFl

def insertSlot (aInfo : AddrCamInfo) (keyType : Nat) : Except MacRet Nat :=
  keySlot aInfo.secEntMode keyType (fun i => !aInfo.secEntValid i) .addrCamKeyFl

def deleteSlot (aInfo : AddrCamInfo) (keyType keyId : Nat) : Except MacRet Nat :=
  keySlot aInfo.secEntMode keyType (fun i => aInfo.secEntKeyid i == keyId && aInfo.secEntValid i) .keyNotExt

def writeSlot (i keyId : Nat) (valid : Bool) (secCamIdx : Nat) (role : RoleTbl) : RoleTbl :=
  {role with info := {role.info with aInfo := {role.info.aInfo with
    secEntKeyid := update role.info.aInfo.secEntKeyid i keyId
    secEntValid := update role.info.aInfo.secEntValid i valid
    secEnt := update role.info.aInfo.secEnt i secCamIdx}}}

section
variable (tx : AddrCamTx) (a : Adapter)

-- Of the results of the address-CAM update only a full BSSID CAM is looked at.
def writeAddrCam (macid : Nat) : MacRet × Adapter :=
  let (ret,a) := macUpdAddrCamChg tx a macid
  (if ret = .bssidCamFl then .bssidCamFl else .success,a)

def insertKeyToAddrCam (role : RoleTbl) (macId keyType keyId secCamIdx : Nat) :
    MacRet × Adapter :=
  match insertSlot role.info.aInfo keyType with
  | .error ret => (ret,a)
  | .ok i => writeAddrCam tx (a.onRole macId (writeSlot i keyId true secCamIdx)) macId

def deleteKeyFromAddrCam (role : RoleTbl) (macId keyType keyId : Nat) :
    MacRet × Nat × Adapter :=
  match deleteSlot role.info.aInfo keyType keyId with
  | .error ret => (ret,0,a)
  | .ok i =>
    let (ret,a) := writeAddrCam tx (a.onRole macId (writeSlot i 0 false 0)) macId
    (ret,role.info.aInfo.secEnt i,a)
end

def secCamSearch (table : SecCamTable) (entryNum : Nat) : Nat → Nat → Option Nat
  | 0,_ => none
  | fuel+1,secIdx =>
    if (table.secCamEntry secIdx).valid then secCamSearch table entryNum fuel ((secIdx+1) % entryNum) else some secIdx

def decideSecCamIndex (hw : HwInfo) (table : SecCamTable) : Option Nat :=
  secCamSearch table hw.secCamEntryNum hw.secCamEntryNum table.nextCamStorageIdx

def macStaDelKey (h2c : H2c) (a : Adapter) (macId keyId keyType : Nat) : MacRet × Adapter :=
  match macRoleSrch a.roles macId with
  | none => (.noRole,a)
  | some role =>
    let (ret,secCamIdx,a) := deleteKeyFromAddrCam h2c.addrCam a role macId keyType keyId
    if ret ≠ .success then (ret,a)
    else if !h2c.secCam then (.h2c,a)
    else (.success,{a with secCamTable:=mSecurityCamHal a.secCamTable {} macId keyId keyType secCamIdx true})

def addKeyAt (h2c : H2c) (a : Adapter) (role : RoleTbl) (secCamInfo : SecCamInfo)
    (macId keyId keyType secCamIdx : Nat) : MacRet × Adapter :=
  let (ret,a) := insertKeyToAddrCam h2c.addrCam a role macId keyType keyId secCamIdx
  if ret ≠ .success then (ret,a)
  else if !h2c.secCam then (.h2c,a)
  else (.success,{a with secCamTable:=mSecurityCamHal a.secCamTable secCamInfo macId keyId keyType secCamIdx false})

def macStaAddKey (h2c : H2c) (a : Adapter) (secCamInfo : SecCamInfo) (macId keyId keyType : Nat) : MacRet × Adapter :=
  if secCamInfo.type > hwSupportEncTypeNum then (.wngKeyType,a)
  else
    match macRoleSrch a.roles macId with
    | none => (.noRole,a)
    | some role =>
      match decideSecCamIndex a.hw a.secCamTable with
      | none => (.secCamFl,a)
      | some secCamIdx =>
        addKeyAt h2c {a with secCamTable := {a.secCamTable with
          nextCamStorageIdx := (secCamIdx+1) % a.hw.secCamEntryNum}} role secCamInfo macId keyId keyType secCamIdx

inductive CamEvent where
  | addRole (h2c : H2c) (info : RoleInfo)
  | changeRole (h2c : H2c) (info : RoleInfo)
  | removeRole (h2c : H2c) (macid : Nat)
  | addKey (h2c : H2c) (secCamInfo : SecCamInfo) (macId keyId keyType : Nat)
  | delKey (h2c : H2c) (macId keyId keyType : Nat)

def camStep (a : Adapter) : CamEvent → Adapter
  | .addRole h2c info => (macAddRole h2c a info).2
  | .changeRole h2c info => (macChangeRole h2c a info).2
  | .removeRole h2c macid => (macRemoveRole h2c a macid).2
  | .addKey h2c secCamInfo macId keyId keyType => (macStaAddKey h2c a secCamInfo macId keyId keyType).2
  | .delKey h2c macId keyId keyType => (macStaDelKey h2c a macId keyId keyType).2
end Rtl8852au.Role
