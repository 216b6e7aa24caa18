import Rtl8852au.WifiRole

namespace Rtl8852au.Macid
open Bitmap Machine Function
open WifiRole (RoleType MacAddr)

def bcAddr : MacAddr := BitVec.allOnes 48

structure StaInfo where
  macid : Nat
  macAddr : MacAddr
  wrole : Nat
  active : Bool

structure Ctl where
  maxNum : Nat
  usedMap : Nat
  wifiRoleUsedmap : Nat → Nat
  bmcMap : Nat
  wroleBmc : Nat → Nat
  sta : Nat → Option Nat
  stas : Nat → StaInfo
  freeStaQueue : List Nat
  assocStaQueue : Nat → List Nat

structure Wrole where
  type : RoleType
  macAddr : MacAddr

section
variable (s : Ctl)

def Ctl.onSta (sta : Nat) (change : StaInfo → StaInfo) : Ctl := {s with stas:=update s.stas sta (change (s.stas sta))}

def phlAllocMacid (sta : Nat) : Bool × Ctl :=
  match firstFree s.usedMap s.maxNum with
  | none => (false,s.onSta sta (fun info => {info with macid:=s.maxNum}))
  | some mid =>
    let info := s.stas sta
    let bmc := info.macAddr == bcAddr
    (true,{s.onSta sta (fun info => {info with macid:=mid}) with
      usedMap := mark s.usedMap mid
      wifiRoleUsedmap := update s.wifiRoleUsedmap info.wrole (mark (s.wifiRoleUsedmap info.wrole) mid)
      sta := update s.sta mid (some sta)
      bmcMap := if bmc then mark s.bmcMap mid else s.bmcMap
      wroleBmc := if bmc then update s.wroleBmc info.wrole mid else s.wroleBmc})

def phlReleaseMacid (sta : Nat) : Bool × Ctl :=
  let info := s.stas sta
  if s.maxNum ≤ info.macid ∨ s.usedMap.testBit info.macid = false then
    (false,s.onSta sta (fun info => {info with macid:=s.maxNum}))
  else (true,{s.onSta sta (fun info => {info with macid:=s.maxNum}) with
    usedMap := clear s.usedMap info.macid
    wifiRoleUsedmap := update s.wifiRoleUsedmap info.wrole (clear (s.wifiRoleUsedmap info.wrole) info.macid)
    sta := update s.sta info.macid none
    bmcMap := if info.macAddr == bcAddr then clear s.bmcMap info.macid else s.bmcMap})

-- The macid and the tx ring of a new station; `ring` is what phl_register_tx_ring
-- says. When it refuses, the macid is released and its success is still returned.
def allocMacidRing (sta : Nat) (ring : Bool) : Bool × Ctl :=
  match phlAllocMacid s sta with
  | (false,s) => (false,s)
  | (true,s) => (true,if ring then s else (phlReleaseMacid s sta).2)

def getStainfoByAddr (role : Nat) (addr : MacAddr) : Option Nat :=
  if addr = bcAddr then
    if s.maxNum ≤ s.wroleBmc role then none else s.sta (s.wroleBmc role)
  else (s.assocStaQueue role).find? (fun sta => (s.stas sta).macAddr == addr)

section
variable (roles : Nat → Wrole)

section
variable (role : Nat) (addr : MacAddr)

-- A station role has one station, its self station, the first of its queue;
-- only for the broadcast address it gets another.
def selfStainfo : Option Nat := if (roles role).type = .station ∧ addr ≠ bcAddr then (s.assocStaQueue role).head? else none

def newStainfo (ring : Bool) : Option Nat × Ctl :=
  match s.freeStaQueue with
  | [] => (none,s)
  | sta :: rest =>
    let s := {s with freeStaQueue:=rest}.onSta sta (fun info => {info with macAddr:=addr,wrole:=role})
    match allocMacidRing s sta ring with
    | (false,s) => (none,{s with freeStaQueue:=s.freeStaQueue ++ [sta]})
    | (true,s) => (some sta,{s with assocStaQueue:=update s.assocStaQueue role (s.assocStaQueue role ++ [sta])})

def phlAllocStainfoSw (ring : Bool) : Option Nat × Ctl :=
  match selfStainfo s roles role addr with
  | some self => (some self,s.onSta self (fun info => {info with macAddr:=addr}))
  | none =>
    match getStainfoByAddr s role addr with
    | some sta => (some sta,s)
    | none => newStainfo s role addr ring
end

def phlSelfStainfoChk (wrole : Wrole) (sta : Nat) : Bool × Ctl :=
  match wrole.type with
  | .station | .p2pGc => (true,s.onSta sta (fun info => {info with macAddr:=wrole.macAddr}))
  | .ap | .mesh | .p2pGo | .tdls => (wrole.macAddr == (s.stas sta).macAddr,s)
  | _ => (false,s)

def chkUnlessBroadcast (sta : Nat) : Bool × Ctl :=
  if (s.stas sta).macAddr = bcAddr then (false,s) else phlSelfStainfoChk s (roles (s.stas sta).wrole) sta

-- The station leaves the queue of its role, gives its macid back and is queued
-- as free; that deregistering its tx ring may fail changes nothing.
def freeSta (sta : Nat) : Ctl :=
  let role := (s.stas sta).wrole
  let s := {s with assocStaQueue:=update s.assocStaQueue role ((s.assocStaQueue role).erase sta)}
  let s := (phlReleaseMacid s sta).2
  {s with freeStaQueue:=s.freeStaQueue ++ [sta]}

def phlFreeStainfoSw (sta : Nat) : Ctl :=
  match chkUnlessBroadcast s roles sta with
  | (true,s) => s
  | (false,s) => freeSta s sta

-- __phl_free_stainfo_hw; what the HAL says is only printed.
def phlFreeStainfoHw (sta : Nat) : Ctl :=
  match chkUnlessBroadcast s roles sta with
  | (true,s) => s
  | (false,s) => s.onSta sta (fun info => {info with active:=false})

structure AllocEnv where
  ring : Bool
  hw : Bool

def phlAllocStainfo (role : Nat) (addr : MacAddr) (env : AllocEnv) : Option Nat × Ctl :=
  match phlAllocStainfoSw s roles role addr env.ring with
  | (none,s) => (none,s)
  | (some sta,s) =>
    if (s.stas sta).active then (some sta,s)
    else if env.hw then (some sta,s.onSta sta (fun info => {info with active:=true}))
    else (none,phlFreeStainfoSw s roles sta)

def phlFreeStainfo (sta : Nat) : Ctl := phlFreeStainfoSw (phlFreeStainfoHw s roles sta) roles sta
end

inductive Event where
  | alloc (roles : Nat → Wrole) (role : Nat) (addr : MacAddr) (env : AllocEnv)
  | free (roles : Nat → Wrole) (sta : Nat)

def macidStep : Event → Ctl
  | .alloc roles role addr env => (phlAllocStainfo s roles role addr env).2
  | .free roles sta => phlFreeStainfo s roles sta

def init (maxNum staNum : Nat) : Ctl where
  maxNum
  usedMap := 0
  wifiRoleUsedmap := fun _ => 0
  bmcMap := 0
  wroleBmc := fun _ => maxNum
  sta := fun _ => none
  stas := fun _ => ⟨0,0,0,false⟩
  freeStaQueue := List.range staNum
  assocStaQueue := fun _ => []

def Ctl.macid (sta : Nat) : Nat := (s.stas sta).macid
def Ctl.wrole (sta : Nat) : Nat := (s.stas sta).wrole
def Ctl.live : Set Nat := {sta | ∃ role, sta ∈ s.assocStaQueue role}

structure Consistent (s : Ctl) : Prop where
  used : Holds s.usedMap (s.macid '' s.live)
  once : Set.InjOn s.macid s.live
  perRole : ∀ role, Holds (s.wifiRoleUsedmap role) (s.macid '' {sta ∈ s.live | s.wrole sta = role})
  stations : ∀ mid sta, s.sta mid = some sta ↔ sta ∈ s.live ∧ s.macid sta = mid
  bmc : ∀ role, s.wroleBmc role = s.maxNum ∨
    ∃ sta ∈ s.live, s.wrole sta = role ∧ (s.stas sta).macAddr = bcAddr ∧ s.macid sta = s.wroleBmc role

def allocated : Event → Option Nat
  | .alloc roles role addr env => (phlAllocStainfo s roles role addr env).1
  | .free .. => none

-- A station that was not live before has a macid that was not used before.
def Kept (event : Event) : Prop :=
  Consistent (macidStep s event) ∧ ∀ sta, allocated s event = some sta → sta ∉ s.live →
    s.usedMap.testBit ((macidStep s event).macid sta) = false

def Proper : Event → Prop
  | .alloc .. => True
  | .free _ sta => sta ∈ s.assocStaQueue (s.wrole sta)

-- The station that wrole_bmc of its role names.
def Ctl.Named (sta : Nat) : Prop := s.wroleBmc (s.wrole sta) = s.macid sta

def Refused (sta : Nat) (hw : Bool) : Prop := (s.stas sta).active = false ∧ hw = false

instance (sta : Nat) (hw : Bool) : Decidable (Refused s sta hw) := inferInstanceAs (Decidable (_ ∧ _))
instance (sta : Nat) : Decidable (s.Named sta) := inferInstanceAs (Decidable (_ = _))

-- The free station that the allocation makes live.
def newSta (roles : Nat → Wrole) (role : Nat) (addr : MacAddr) : Option Nat :=
  if selfStainfo s roles role addr = none ∧ getStainfoByAddr s role addr = none ∧ firstFree s.usedMap s.maxNum ≠ none then
    s.freeStaQueue.head?
  else none

-- The roles whose self-station check keeps a station with this address.
def keepsSelf (wrole : Wrole) (addr : MacAddr) : Bool :=
  match wrole.type with
  | .station | .p2pGc => true
  | .ap | .mesh | .p2pGo | .tdls => wrole.macAddr == addr
  | _ => false

-- A new station without a tx ring has no macid: the HAL must refuse it, and the
-- role let it go. The broadcast station of a role keeps its address and is never
-- released: it is not freed, the HAL and the tx ring take it, and no station
-- role that has it first gives it an address of its own.
def AllocGuard (roles : Nat → Wrole) (role : Nat) (addr : MacAddr) (env : AllocEnv) : Prop :=
  (∀ sta ∈ newSta s roles role addr,
    if addr = bcAddr then env.ring ∧ ¬ Refused s sta env.hw
    else env.ring ∨ Refused s sta env.hw ∧ keepsSelf (roles role) addr = false) ∧
  (if addr = bcAddr then ∀ sta ∈ getStainfoByAddr s role addr, ¬ Refused s sta env.hw
   else ∀ self ∈ selfStainfo s roles role addr, s.Named self → Refused s self env.hw ∧ (roles role).macAddr = bcAddr)

instance (roles : Nat → Wrole) (role : Nat) (addr : MacAddr) (env : AllocEnv) : Decidable (AllocGuard s roles role addr env) :=
  inferInstanceAs (Decidable (_ ∧ _))

def Guard : Event → Prop
  | .alloc roles role addr env => AllocGuard s roles role addr env
  | .free _ sta => sta ∈ s.assocStaQueue (s.wrole sta) ∧ ¬ s.Named sta
end

instance (s : Ctl) (event : Event) : Decidable (Guard s event) :=
  match event with
  | .alloc roles role addr env => inferInstanceAs (Decidable (AllocGuard s roles role addr env))
  | .free _ sta => inferInstanceAs (Decidable (sta ∈ s.assocStaQueue (s.wrole sta) ∧ ¬ s.Named sta))

instance (s : Ctl) (event : Event) : Decidable (Proper s event) :=
  match event with
  | .alloc .. => inferInstanceAs (Decidable True)
  | .free _ sta => inferInstanceAs (Decidable (sta ∈ s.assocStaQueue (s.wrole sta)))
end Rtl8852au.Macid
