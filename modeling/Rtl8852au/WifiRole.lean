import Mathlib.Data.Fintype.Basic
import Rtl8852au.Bitmap
import Rtl8852au.Machine

namespace Rtl8852au.WifiRole
open Bitmap Machine

inductive RoleType where
  | none | station | ap | vap | adhoc | adhocMaster | mesh | monitor | p2pDevice | p2pGc | p2pGo | tdls | nan | mlmeMax
  deriving DecidableEq

structure HalSpec where
  portNum : Nat
  wmmNum : Nat
  wmm : 0 < wmmNum

def rtl8852a : HalSpec := ⟨5,2,Nat.two_pos⟩
abbrev MacAddr := BitVec 48

structure Role where
  type : RoleType
  active : Bool
  hwWmm : Nat
  hwWmm0RefCnt : Int
  macAddr : MacAddr
  hwPort : Nat

structure MrCtl (n : Nat) where
  roleMap : Nat
  bandRoleMap : Nat
  portMap : Nat
  wmmMap : Nat
  roles : Fin n → Role

variable {n : Nat}

def MrCtl.onRole (s : MrCtl n) (r : Fin n) (change : Role → Role) : MrCtl n :=
  {s with roles:=Function.update s.roles r (change (s.roles r))}

section
variable (spec : HalSpec)

def allocWmm (wmmMap : Nat) : Nat × Nat :=
  match firstFree wmmMap spec.wmmNum with
  | some wmmNum => (mark wmmMap wmmNum,wmmNum)
  | none => (wmmMap,0)

section
variable (s : MrCtl n)

def phlAllocHwResource (r : Fin n) : Bool × MrCtl n :=
  match firstFree s.portMap spec.portNum with
  | none => (false,s)
  | some hwPort =>
    let (wmmMap,hwWmm) := allocWmm spec s.wmmMap
    let s := s.onRole r fun role => {role with
      hwPort,hwWmm,hwWmm0RefCnt := if hwWmm = 0 then role.hwWmm0RefCnt + 1 else role.hwWmm0RefCnt}
    (true,{s with portMap:=mark s.portMap hwPort,wmmMap,bandRoleMap:=mark s.bandRoleMap r})

def phlFreeHwResource (r : Fin n) : MrCtl n :=
  let role := s.roles r
  let portMap := clear s.portMap role.hwPort
  let bandRoleMap := clear s.bandRoleMap r
  if role.hwWmm = 0 then
    let hwWmm0RefCnt := role.hwWmm0RefCnt - 1
    let wmmMap := if hwWmm0RefCnt = 0 then clear s.wmmMap role.hwWmm else s.wmmMap
    {s.onRole r (fun role => {role with hwWmm0RefCnt}) with portMap,wmmMap,bandRoleMap}
  else {s with portMap,wmmMap:=clear s.wmmMap role.hwWmm,bandRoleMap}

-- MAX_WIFI_ROLE_NUMBER, which is also INVALID_WIFI_ROLE_IDX, is `none`.
def phlSearchRoleidxByAddr (macAddr : MacAddr) : Option (Fin n) :=
  (List.finRange n).find? (fun r => s.roleMap.testBit r && (s.roles r).macAddr == macAddr)

-- UNSPECIFIED_ROLE_ID is `none` on the way in.
def newRoleIdx : Option (Fin n) → Option (Fin n)
  | none => (List.finRange n).find? (fun r => !s.roleMap.testBit r)
  | some r => if s.roleMap.testBit r then none else some r

def phlWifiRoleAllocSw (macAddr : MacAddr) (type : RoleType) (ridx : Option (Fin n)) :
    Option (Fin n) × MrCtl n :=
  match newRoleIdx s ridx with
  | none => (none,s)
  | some r =>
    let s := {s with roleMap:=mark s.roleMap r}.onRole r (fun role => {role with type})
    match phlAllocHwResource spec s r with
    | (false,s) => (none,s)
    | (true,s) => (some r,s.onRole r (fun role => {role with macAddr}))

def phlWifiRoleFreeSw (r : Fin n) : MrCtl n :=
  let s := (phlFreeHwResource s r).onRole r (fun role => {role with macAddr:=0,active:=false})
  {s with roleMap:=clear s.roleMap r}

structure AllocEnv where
  stainfo : Bool
  start : Bool

def rtwPhlWifiRoleAlloc (macAddr : Option MacAddr) (type : RoleType)
    (ridx : Option (Fin n)) (env : AllocEnv) : Option (Fin n) × MrCtl n :=
  match macAddr with
  | none => (none,s)
  | some macAddr =>
    match phlSearchRoleidxByAddr s macAddr with
    | some r => (some r,s)
    | none =>
      match phlWifiRoleAllocSw spec s macAddr type ridx with
      | (none,s) => (none,s)
      | (some r,s) =>
        if !env.stainfo then (none,phlWifiRoleFreeSw s r)
        else if !env.start then (none,phlWifiRoleFreeSw s r)
        else (some r,s.onRole r (fun role => {role with active:=true}))

-- What role_stop and the release of the stations return changes nothing here.
def rtwPhlWifiRoleFree (roleIdx : Nat) : MrCtl n := if bound : roleIdx < n then phlWifiRoleFreeSw s ⟨roleIdx,bound⟩ else s
end

structure Sys (n : Nat) where
  mr : MrCtl n
  live : Finset (Fin n)

inductive Event (n : Nat) where
  | alloc (macAddr : Option MacAddr) (type : RoleType) (ridx : Option (Fin n)) (env : AllocEnv)
  | free (roleIdx : Nat)

section
variable (x : Sys n)

def Sys.step : Event n → Sys n
  | .alloc macAddr type ridx env =>
    match rtwPhlWifiRoleAlloc spec x.mr macAddr type ridx env with
    | (none,mr) => {x with mr}
    | (some r,mr) => {mr,live:=insert r x.live}
  | .free roleIdx => {mr:=rtwPhlWifiRoleFree x.mr roleIdx,live:=x.live.filter (fun r => r.val ≠ roleIdx)}

def Sys.init (n : Nat) : Sys n where
  mr := ⟨0,0,0,0,fun _ => ⟨.none,false,0,0,0,0⟩⟩
  live := ∅

def Sys.port (r : Fin n) : Nat := (x.mr.roles r).hwPort
def Sys.wmm (r : Fin n) : Nat := (x.mr.roles r).hwWmm
def Sys.addr (r : Fin n) : MacAddr := (x.mr.roles r).macAddr

structure Sound (x : Sys n) : Prop where
  roles : Holds x.mr.roleMap (Fin.val '' (x.live : Set (Fin n)))
  band : Holds x.mr.bandRoleMap (Fin.val '' (x.live : Set (Fin n)))
  ports : Holds x.mr.portMap (x.port '' (x.live : Set (Fin n)))
  wmms : Holds x.mr.wmmMap (x.wmm '' (x.live : Set (Fin n)))
  portsApart : Set.InjOn x.port (x.live : Set (Fin n))
  addrsApart : Set.InjOn x.addr (x.live : Set (Fin n))

-- An allocation that cannot succeed: no address, or a new address with no
-- index, no port, no self station or no start.
def Fails : Event n → Prop
  | .alloc none _ _ _ => True
  | .alloc (some macAddr) _ ridx env => (∀ r ∈ x.live, x.addr r ≠ macAddr) ∧
    (newRoleIdx x.mr ridx = none ∨ firstFree x.mr.portMap spec.portNum = none ∨ env.stainfo = false ∨ env.start = false)
  | .free _ => False

def SameMaps (s s' : MrCtl n) : Prop :=
  s'.roleMap = s.roleMap ∧ s'.bandRoleMap = s.bandRoleMap ∧ s'.portMap = s.portMap ∧ s'.wmmMap = s.wmmMap

def returned : Event n → Option (Fin n)
  | .alloc macAddr type ridx env => (rtwPhlWifiRoleAlloc spec x.mr macAddr type ridx env).1
  | .free _ => none

def Kept (event : Event n) : Prop :=
  Sound (x.step spec event) ∧
  (Fails spec x event → returned spec x event = none ∧ SameMaps x.mr (x.step spec event).mr)

def Proper : Event n → Prop
  | .alloc .. => True
  | .free roleIdx => ∀ r : Fin n, r.val = roleIdx → r ∈ x.live

-- A new role finds a port, and if it then fails it finds a wmm of its own; and
-- no other live role has wmm 0 when a role that has it is freed.
def Guard : Event n → Prop
  | .alloc none _ _ _ => True
  | .alloc (some macAddr) _ ridx env => (∀ r ∈ x.live, x.addr r ≠ macAddr) → newRoleIdx x.mr ridx ≠ none →
    firstFree x.mr.portMap spec.portNum ≠ none ∧
    (env.stainfo = false ∨ env.start = false → firstFree x.mr.wmmMap spec.wmmNum ≠ none)
  | .free roleIdx => ∀ r : Fin n, r.val = roleIdx → r ∈ x.live ∧ (x.wmm r = 0 → ∀ q ∈ x.live, q ≠ r → x.wmm q ≠ 0)
end
end

instance (spec : HalSpec) (x : Sys n) (event : Event n) : Decidable (Guard spec x event) :=
  match event with
  | .alloc none _ _ _ => inferInstanceAs (Decidable True)
  | .alloc (some macAddr) _ ridx env => inferInstanceAs (Decidable ((∀ r ∈ x.live, x.addr r ≠ macAddr) →
    newRoleIdx x.mr ridx ≠ none → firstFree x.mr.portMap spec.portNum ≠ none ∧
    (env.stainfo = false ∨ env.start = false → firstFree x.mr.wmmMap spec.wmmNum ≠ none)))
  | .free roleIdx => inferInstanceAs (Decidable (∀ r : Fin n, r.val = roleIdx → r ∈ x.live ∧
    (x.wmm r = 0 → ∀ q ∈ x.live, q ≠ r → x.wmm q ≠ 0)))

instance (x : Sys n) (event : Event n) : Decidable (Proper x event) :=
  match event with
  | .alloc .. => inferInstanceAs (Decidable True)
  | .free roleIdx => inferInstanceAs (Decidable (∀ r : Fin n, r.val = roleIdx → r ∈ x.live))
end Rtl8852au.WifiRole
