import Mathlib.Algebra.BigOperators.Fin
import Rtl8852au.Role

namespace Rtl8852au.Sta
open Function List
open Role (MacAddr)

abbrev numSta : Nat := 32
abbrev StaIdx := Fin numSta

inductive RoleType where
  | none | station | ap | vap | adhoc | adhocMaster | mesh | monitor | p2pDevice | p2pGc | p2pGo | tdls | nan
  deriving DecidableEq

def isMcast (addr : MacAddr) : Bool := addr 0 &&& 1 == 1
def bcAddr : MacAddr := fun _ => 0xff

-- `NUM_STA` is a power of two, so the mask keeps the index in the table and the
-- test `index >= NUM_STA` of the callers never holds.
def wifiMacHash (mac : MacAddr) : StaIdx :=
  let x := (range 5).foldl (fun x i => (x <<< 2) ^^^ (mac (Fin.ofNat 6 (i+1))).toNat) (mac 0).toNat
  let x := x ^^^ (x >>> 8)
  ⟨x &&& (numSta-1),Nat.lt_of_le_of_lt Nat.and_le_right (by decide)⟩

structure PhlSta where
  macAddr : MacAddr
  active : Bool
  macid : Nat

structure Phl where
  sta : Nat → PhlSta
  freeStaQueue : List Nat
  assocStaQueue : List Nat
  maxNum : Nat
  macidSta : Nat → Option Nat
  wroleBmc : Nat

section
variable (p : Phl)

def Phl.onSta (id : Nat) (change : PhlSta → PhlSta) : Phl := {p with sta:=update p.sta id (change (p.sta id))}

def Phl.setMac (id : Nat) (addr : MacAddr) : Phl := p.onSta id (fun sta => {sta with macAddr:=addr})
def phlGetStainfoSelf : Option Nat := p.assocStaQueue.head?

def phlGetStainfoByAddr (addr : MacAddr) : Option Nat :=
  if addr = bcAddr then
    if p.maxNum ≤ p.wroleBmc then none else p.macidSta p.wroleBmc
  else p.assocStaQueue.find? (fun id => (p.sta id).macAddr = addr)

def phlUnusedMacid : Option Nat := (range p.maxNum).find? (fun mid => (p.macidSta mid).isNone)

def phlAllocMacid (id : Nat) : Phl × Bool :=
  match phlUnusedMacid p with
  | none => (p.onSta id (fun sta => {sta with macid:=p.maxNum}),false)
  | some mid =>
    ({p.onSta id (fun sta => {sta with macid:=mid}) with
      macidSta := update p.macidSta mid (some id)
      wroleBmc := if (p.sta id).macAddr = bcAddr then mid else p.wroleBmc},true)

def phlReleaseMacid (id : Nat) : Phl :=
  let mid := (p.sta id).macid
  let released := if p.maxNum ≤ mid then p else {p with macidSta:=update p.macidSta mid none}
  released.onSta id (fun sta => {sta with macid:=p.maxNum})
end

structure PhlAnswer where
  ring : Bool
  hal : Bool

-- The station an allocation for `addr` finds instead of taking a free one: in
-- station mode the self station, which is also the AP's.
def phlExisting (type : RoleType) (p : Phl) (addr : MacAddr) : Option Nat :=
  if type = .station ∧ addr ≠ bcAddr then
    match phlGetStainfoSelf p with
    | some id => some id
    | none => phlGetStainfoByAddr p addr
  else phlGetStainfoByAddr p addr

def phlAllocStainfoSw (type : RoleType) (p : Phl) (addr : MacAddr) (answer : PhlAnswer) : Phl × Option Nat :=
  match phlExisting type p addr with
  | some id =>
    if type = .station ∧ addr ≠ bcAddr ∧ (phlGetStainfoSelf p).isSome then (p.setMac id addr,some id) else (p,some id)
  | none =>
    match p.freeStaQueue with
    | [] => (p,none)
    | id :: rest =>
      let taken := {p with freeStaQueue:=rest}.setMac id addr
      match phlAllocMacid taken id with
      | (failed,false) => ({failed with freeStaQueue:=failed.freeStaQueue ++ [id]},none)
      | (numbered,true) =>
        -- A station whose ring is refused is kept, with its macid released.
        let ready := if answer.ring then numbered else phlReleaseMacid numbered id
        ({ready with assocStaQueue:=ready.assocStaQueue ++ [id]},some id)

section
variable (type : RoleType) (self : MacAddr) (p : Phl)

-- `_phl_self_stainfo_chk`; in the client modes it also writes the address.
def phlSelfStainfoChk (id : Nat) : Phl × Bool :=
  match type with
  | .station | .p2pGc => (p.setMac id self,true)
  | .ap | .mesh | .p2pGo | .tdls => (p,self = (p.sta id).macAddr)
  | _ => (p,false)

def phlSelfChecked (id : Nat) : Phl × Bool :=
  if (p.sta id).macAddr = bcAddr then (p,false) else phlSelfStainfoChk type self p id

def phlFreeStainfoSw (id : Nat) : Phl :=
  match phlSelfChecked type self p id with
  | (kept,true) => kept
  | (p,false) =>
    let freed := phlReleaseMacid {p with assocStaQueue:=p.assocStaQueue.erase id} id
    {freed with freeStaQueue:=freed.freeStaQueue ++ [id]}

def phlFreeStainfoHw (id : Nat) : Phl :=
  match phlSelfChecked type self p id with
  | (kept,true) => kept
  | (p,false) => p.onSta id (fun sta => {sta with active:=false})

def phlFreeStainfo (id : Nat) : Phl := phlFreeStainfoSw type self (phlFreeStainfoHw type self p id) id

def phlAllocStainfo (addr : MacAddr) (answer : PhlAnswer) : Phl × Option Nat :=
  match phlAllocStainfoSw type p addr answer with
  | (p,none) => (p,none)
  | (p,some id) =>
    if (p.sta id).active then (p,some id)
    else if answer.hal then (p.onSta id (fun sta => {sta with active:=true}),some id)
    else (phlFreeStainfoSw type self p id,none)
end

structure Sweep where
  kept : Option (StaIdx × Nat)
  since : Nat
  todo : List StaIdx

inductive Stage where
  | unhashed
  | listed
  deriving DecidableEq

inductive Call where
  | alloc (sta : StaIdx) (addr : MacAddr)
  | release (sta : StaIdx) (stage : Stage) (rest : Option Sweep)
  | found (kept : Option (StaIdx × Nat))
  | counted (kept : Option (StaIdx × Nat))
  | sweep (left : Sweep)

structure StaPriv (threads : Nat) where
  freeStaQueue : List StaIdx
  staHash : StaIdx → List StaIdx
  asocStaCount : Int
  phlSta : StaIdx → Option Nat
  roleType : RoleType
  macAddr : MacAddr
  phl : Phl
  calls : Fin threads → Option Call
  hwaddr : StaIdx → MacAddr
  born : StaIdx → Nat
  uses : Nat

def staIndex (type : RoleType) (self addr : MacAddr) : StaIdx :=
  match type with
  | .none | .station | .adhoc | .p2pDevice | .p2pGc => wifiMacHash self
  | _ => wifiMacHash addr

variable {threads : Nat}

section
variable (s : StaPriv threads) (t : Fin threads)

def StaPriv.setCall (call : Option Call) : StaPriv threads := {s with calls:=update s.calls t call}

def staMatches (s : StaPriv threads) (self : Option Nat) (addr : MacAddr) (sta : StaIdx) : Bool :=
  match s.phlSta sta with
  | none => false
  | some id => (isMcast addr && some id == self) || (s.phl.sta id).macAddr == addr

def rtwGetStainfo (s : StaPriv threads) (addr : MacAddr) : Option StaIdx :=
  let self := phlGetStainfoSelf s.phl
  if isMcast addr then
    if self.isNone then none else (s.staHash (wifiMacHash s.macAddr)).find? (staMatches s self addr)
  else (s.staHash (staIndex s.roleType s.macAddr addr)).find? (staMatches s self addr)

def rtwGetBcmcStainfo (s : StaPriv threads) : Option StaIdx := rtwGetStainfo s bcAddr

def rtwAllocCoreStainfo (addr : MacAddr) : StaPriv threads :=
  match s.freeStaQueue with
  | [] => s
  | sta :: rest =>
    let index := staIndex s.roleType s.macAddr addr
    {s with
      freeStaQueue := rest
      phlSta := update s.phlSta sta none
      staHash := update s.staHash index (s.staHash index ++ [sta])
      asocStaCount := s.asocStaCount+1
      calls := update s.calls t (some (.alloc sta addr))
      hwaddr := update s.hwaddr sta addr
      born := update s.born sta s.uses
      uses := s.uses + 1}

def rtwAllocPhlStainfo (sta : StaIdx) (addr : MacAddr) (answer : PhlAnswer) :
    StaPriv threads :=
  match phlAllocStainfo s.roleType s.macAddr s.phl addr answer with
  | (phl,station) => {s with phl:=phl, phlSta:=update s.phlSta sta station, calls:=update s.calls t none}

-- `rtw_list_delete` takes an entry out of the chain it is in, and does nothing
-- to one that is in none.
def unhash (s : StaPriv threads) (sta : StaIdx) : StaPriv threads :=
  {s with staHash:=fun index => (s.staHash index).erase sta, asocStaCount:=s.asocStaCount - 1}

section
variable (sta : StaIdx) (rest : Option Sweep)

-- The three lock sections of `rtw_free_stainfo`.
def rtwFreeStainfo : StaPriv threads := (unhash s sta).setCall t (some (.release sta .unhashed rest))

def rtwRelistStainfo : StaPriv threads :=
  {s with
    freeStaQueue := s.freeStaQueue ++ [sta]
    calls := update s.calls t (some (.release sta .listed rest))}

-- Without a PHL station the driver dereferences NULL here: the thread is gone.
def rtwFreePhlStainfo : StaPriv threads :=
  match s.phlSta sta with
  | none => s
  | some id =>
    {s with
      phl := phlFreeStainfo s.roleType s.macAddr s.phl id
      phlSta := update s.phlSta sta none
      calls := update s.calls t (rest.map .sweep)}
end

-- The sections of `rtw_free_all_stainfo`: the look-up of the broadcast station,
-- the test of the count, the scan, and the loop over what the scan listed.
def rtwFindBcmc : StaPriv threads := s.setCall t (some (.found ((rtwGetBcmcStainfo s).map (fun sta => (sta,s.born sta)))))

section
variable (kept : Option (StaIdx × Nat))

def rtwCountStainfo : StaPriv threads :=
  s.setCall t (some (if s.asocStaCount = 1 then .sweep ⟨kept,s.uses,[]⟩ else .counted kept))

def spared (sta : StaIdx) : Bool := kept.map Prod.fst == some sta

def rtwScanStainfo : StaPriv threads :=
  {s with
    staHash := fun index => (s.staHash index).filter (spared kept)
    calls := update s.calls t (some (.sweep
      ⟨kept,s.uses,(finRange numSta).flatMap (fun index => (s.staHash index).filter (fun sta => !spared kept sta))⟩))}
end

def rtwSweepStainfo (left : Sweep) : StaPriv threads :=
  match left.todo with
  | [] => s.setCall t none
  | sta :: todo => rtwFreeStainfo s t sta (some {left with todo:=todo})
end

inductive Event (threads : Nat) where
  | alloc (t : Fin threads) (addr : MacAddr)
  | free (t : Fin threads) (sta : StaIdx)
  | freeAll (t : Fin threads)
  | resume (t : Fin threads) (answer : PhlAnswer)
  | changeType (type : RoleType)

def resumeCall (s : StaPriv threads) (t : Fin threads) (answer : PhlAnswer) : Call → StaPriv threads
  | .alloc sta addr => rtwAllocPhlStainfo s t sta addr answer
  | .release sta .unhashed rest => rtwRelistStainfo s t sta rest
  | .release sta .listed rest => rtwFreePhlStainfo s t sta rest
  | .found kept => rtwCountStainfo s t kept
  | .counted kept => rtwScanStainfo s t kept
  | .sweep left => rtwSweepStainfo s t left

def step (s : StaPriv threads) : Event threads → StaPriv threads
  | .alloc t addr => if (s.calls t).isNone then rtwAllocCoreStainfo s t addr else s
  | .free t sta => if (s.calls t).isNone then rtwFreeStainfo s t sta none else s
  | .freeAll t => if (s.calls t).isNone then rtwFindBcmc s t else s
  | .resume t answer =>
    match s.calls t with
    | some call => resumeCall s t answer call
    | none => s
  | .changeType type => {s with roleType:=type}

def phlStart (num maxNum bmc : Nat) (sta : Nat → PhlSta) (macidSta : Nat → Option Nat) : Phl where
  sta := sta
  freeStaQueue := (range num).map (· + 1)
  assocStaQueue := [0]
  maxNum := maxNum
  macidSta := macidSta
  wroleBmc := bmc

def initStaPriv (type : RoleType) (self : MacAddr) (phl : Phl) : StaPriv threads where
  freeStaQueue := finRange numSta
  staHash := fun _ => []
  asocStaCount := 0
  phlSta := fun _ => none
  roleType := type
  macAddr := self
  phl := phl
  calls := fun _ => none
  hwaddr := fun _ => self
  born := fun _ => 0
  uses := 0

end Rtl8852au.Sta
