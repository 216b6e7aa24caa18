import Mathlib.Data.List.FinRange
import Rtl8852au.UsbTxAgg

namespace Rtl8852au.TxFlow
open UsbTx Function

def maxPhlRingStatusNumber : Nat := 64
def maxPhlRingCatNum : Nat := 10

abbrev StsId := Fin maxPhlRingStatusNumber
abbrev Cat := Fin maxPhlRingCatNum

def rtwPhlRingCatMgnt : Cat := ⟨8,by decide⟩
def rtwPhlRingCatHiq : Cat := ⟨9,by decide⟩

structure RingSts extends RingStatus where
  ringPtr : Option (Nat × Cat)

def RingSts.zero : RingSts := ⟨⟨0,0,0,0,0⟩,none⟩

structure TxPlan where
  sleep : Bool
  hasMgnt : Bool
  hasHiq : Bool
  sortedRing : List StsId

def TxPlan.init : TxPlan := ⟨false,false,false,[]⟩

structure TringList where
  macid : Nat
  band : Nat
  wmm : Nat
  port : Nat
  phlRing : Cat → TxRing
  txPlan : TxPlan

structure PhlInfo where
  idle : List StsId
  ringSts : StsId → RingSts
  tring : Nat → TringList
  tRingList : List Nat
  tRingFreeList : List Nat
  tFctrlResult : List StsId
  bufs : TxBufs

section
variable (s : PhlInfo)

def PhlInfo.setPlan (key : Nat) (plan : TxPlan) : PhlInfo := {s with tring:=update s.tring key {s.tring key with txPlan:=plan}}

def PhlInfo.setRing (key : Nat) (cat : Cat) (ring : TxRing) : PhlInfo :=
  {s with tring:=update s.tring key {s.tring key with phlRing:=update (s.tring key).phlRing cat ring}}

def phlAllocRingSts : Option StsId × PhlInfo :=
  match s.idle with
  | [] => (none,s)
  | id :: rest => (some id,{s with idle:=rest})

def phlReleaseRingSts (id : StsId) : PhlInfo := {s with ringSts:=update s.ringSts id .zero, idle:=s.idle ++ [id]}

def PhlInfo.tid (id : StsId) : Option Nat := (s.ringSts id).ringPtr.map (fun ptr => ((s.tring ptr.1).phlRing ptr.2).tid)

def phlCheckRingStatus (key : Nat) (cat : Cat) : Option StsId × PhlInfo :=
  let ring := (s.tring key).phlRing cat
  if ring.avail.val = 0 then (none,s)
  else
    match phlAllocRingSts s with
    | (none,s) => (none,s)
    | (some id,s) =>
      let list := s.tring key
      let sts := ⟨⟨list.macid,list.band,list.wmm,list.port,ring.avail⟩,some (key,cat)⟩
      (some id,{s with ringSts:=update s.ringSts id sts}.setRing key cat ring.checked)

-- What the flow control does with lists: none where it would take the first of an
-- empty list, put something behind an entry that is not in the list, or follow NULL.
def insertAfter (pos new : StsId) : List StsId → Option (List StsId)
  | [] => none
  | id :: rest => if id = pos then some (id :: new :: rest) else (insertAfter pos new rest).map (id :: ·)

def phlSortRingByTid (id : StsId) (cat : Cat) (plan : TxPlan) : Option TxPlan := do
  let tid ← s.tid id
  if tid = 1 then some {plan with sortedRing:=plan.sortedRing ++ [id]}
  else if tid = 2 then
    match plan.sortedRing.getLast? with
    | none => some {plan with sortedRing:=plan.sortedRing ++ [id]}
    | some lastSts => do
      let last ← s.tid lastSts
      if last = 1 then some {plan with sortedRing:=plan.sortedRing.dropLast ++ [id,lastSts]}
      else some {plan with sortedRing:=plan.sortedRing ++ [id]}
  else
    let plan := {plan with sortedRing:=id :: plan.sortedRing}
    if cat = rtwPhlRingCatMgnt then some {plan with hasMgnt:=true}
    else if cat = rtwPhlRingCatHiq then some {plan with hasHiq:=true}
    else some plan

def checkCat (key : Nat) (s : PhlInfo) (cat : Cat) : Option PhlInfo :=
  match phlCheckRingStatus s key cat with
  | (none,s) => some s
  | (some id,s) => do
    let plan ← phlSortRingByTid s id cat (s.tring key).txPlan
    some (s.setPlan key plan)

def phlCheckTringList (staList : List Nat) (s : PhlInfo) (key : Nat) : Option (List Nat × PhlInfo) := do
  let s ← (List.finRange maxPhlRingCatNum).foldlM (checkCat key) s
  if (s.tring key).txPlan.sortedRing = [] then some (staList,s) else some (staList ++ [key],s)

def phlCheckXmitRingResource : Option (List Nat × PhlInfo) :=
  s.tRingList.foldlM (fun acc key => phlCheckTringList acc.1 acc.2 key) ([],s)

def phlResetTxPlan (key : Nat) : PhlInfo := ((s.tring key).txPlan.sortedRing.foldl phlReleaseRingSts s).setPlan key .init
end

def takeFirst (flag : Bool) (lists : List StsId × List StsId) : Option (List StsId × List StsId) :=
  if flag then
    match lists.1 with
    | [] => none
    | id :: rest => some (rest,id :: lists.2)
  else some lists

def placeRing (id : StsId) (result : List StsId) : Option StsId → Option (List StsId)
  | none => some (result ++ [id])
  | some pos => insertAfter pos id result

def placeRings (tid : StsId → Option Nat) : List StsId → List StsId × (Nat → Option StsId) → Option (List StsId × (Nat → Option StsId))
  | [],lists => some lists
  | id :: rest,(result,tidEntry) => do
    let t ← tid id
    let result ← placeRing id result (tidEntry t)
    placeRings tid rest (result,update tidEntry t (some id))

def flowPlan (acc : (Nat → Option StsId) × PhlInfo) (key : Nat) : Option ((Nat → Option StsId) × PhlInfo) :=
  let s := acc.2
  let plan := (s.tring key).txPlan
  if plan.sleep then some (acc.1,phlResetTxPlan s key)
  else do
    let lists ← takeFirst plan.hasHiq (plan.sortedRing,s.tFctrlResult)
    let lists ← takeFirst plan.hasMgnt lists
    let (result,tidEntry) ← placeRings s.tid lists.1 (lists.2,acc.1)
    some (tidEntry,phlResetTxPlan ({s with tFctrlResult:=result}.setPlan key {plan with sortedRing:=[]}) key)

def phlTxFlowCtrl (s : PhlInfo) (staList : List Nat) : Option PhlInfo :=
  (staList.foldlM flowPlan (fun _ => none,s)).map Prod.snd

def txCallbackCollect (s : PhlInfo) : Option PhlInfo := do
  let (staList,s) ← phlCheckXmitRingResource s
  if staList = [] then some s else phlTxFlowCtrl s staList

-- One round of that loop: the buffer of _phl_tx_flow_ctrl_usb, and the handler if
-- there is one.
def txCallbackHandle (bus : Bus) (answers : Answers) (s : PhlInfo) (id : StsId) (rest : List StsId) : Option PhlInfo := do
  let s := {s with tFctrlResult:=rest}
  let (key,cat) ← (s.ringSts id).ringPtr
  let ring := (s.tring key).phlRing cat
  match s.bufs.dequeue ring.tid with
  | (none,bufs) => some (phlReleaseRingSts {s with bufs:=bufs} id)
  | (some txBuf,bufs) =>
    let handled := phlHandleXmitRingUsb bus answers (s.ringSts id).toRingStatus ring txBuf bufs
    some (phlReleaseRingSts ({s with bufs:=handled.bufs}.setRing key cat handled.tring) id)

-- The callback is run a round at a time. Between rounds the core layer fills the
-- rings and writes to stations that sleep, stations come and go, and the buffers
-- that were sent come back; a tring list that is taken out is freed when the
-- callback ends.
inductive Event where
  | collect
  | handle (answers : Answers)
  | fill (key : Nat) (cat : Cat) (ring : TxRing)
  | sleep (key : Nat) (sleep : Bool)
  | register (key : Nat) (list : TringList)
  | deregister (key : Nat)
  | recycle (bufs : TxBufs)

def PhlInfo.step (bus : Bus) (s : PhlInfo) : Event → Option PhlInfo
  | .collect =>
    match s.tFctrlResult with
    | [] => txCallbackCollect s
    | _ => some s
  | .handle answers =>
    match s.tFctrlResult with
    | [] => some {s with tRingFreeList:=[]}
    | id :: rest => txCallbackHandle bus answers s id rest
  | .fill key cat ring => some (s.setRing key cat ring)
  | .sleep key sleep => some (s.setPlan key {(s.tring key).txPlan with sleep:=sleep})
  | .register key list =>
    if key ∈ s.tRingList ∨ key ∈ s.tRingFreeList then some s
    else some {s with
      tring := update s.tring key {list with txPlan:=.init}
      tRingList := s.tRingList ++ [key]}
  | .deregister key =>
    if key ∈ s.tRingList then some {s with tRingList:=s.tRingList.erase key, tRingFreeList:=s.tRingFreeList ++ [key]}
    else some s
  | .recycle bufs => some {s with bufs:=bufs}

def PhlInfo.run (bus : Bus) (s : PhlInfo) (events : List Event) : Option PhlInfo := events.foldlM (PhlInfo.step bus) s

def PhlInfo.init (list : TringList) (bufs : TxBufs) : PhlInfo :=
  {idle := List.finRange maxPhlRingStatusNumber, ringSts := fun _ => .zero, tring := fun _ => {list with txPlan:=.init}
   tRingList := [], tRingFreeList := [], tFctrlResult := [], bufs := bufs}

end Rtl8852au.TxFlow
