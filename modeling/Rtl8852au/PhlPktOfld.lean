import Mathlib.Data.Finset.Erase
import Mathlib.Data.Finset.Insert
import Mathlib.Data.Fintype.Defs
import Rtl8852au.Machine

namespace Rtl8852au.PktOfld
open Machine

inductive PktType where
  | probeRsp | psPoll | nullData | qosNull | cts2self | arpRsp | ndp | eapolKey | saQuery
  deriving DecidableEq

instance : Fintype PktType :=
  ⟨{.probeRsp,.psPoll,.nullData,.qosNull,.cts2self,.arpRsp,.ndp,.eapolKey,.saQuery},by
    intro type
    cases type <;> decide⟩

inductive PhlStatus where
  | success | failure | resource
  deriving DecidableEq

abbrev notUsed : UInt8 := 0xFF

structure PktInfo where
  reqQ : List UInt32
  reqCnt : UInt32
  id : UInt8

structure Entry where
  macid : Nat
  pktInfo : PktType → PktInfo

-- `slots` are the packet slots the firmware has in use.
structure OfldObj where
  entryQ : List Entry
  entryCnt : Nat
  curSeq : UInt32
  slots : Finset UInt8

structure HalAdd where
  success : Bool
  id : UInt8
  stored : Bool

structure HalDel where
  success : Bool
  freed : Bool

structure ReqEnv where
  req : Bool := true
  name : Bool := true
  constructed : Bool := true
  add : HalAdd
  updated : Bool := true

def isPktOfld (info : PktInfo) : Bool := info.id != notUsed

def Entry.upd (entry : Entry) (type : PktType) (change : PktInfo → PktInfo) : Entry :=
  {entry with pktInfo:=Function.update entry.pktInfo type (change (entry.pktInfo type))}

def updInfo (entryQ : List Entry) (macid : Nat) (type : PktType) (change : PktInfo → PktInfo) : List Entry :=
  entryQ.map (fun entry => if entry.macid = macid then entry.upd type change else entry)

section
variable (s : OfldObj) (macid : Nat)

def OfldObj.onInfo (type : PktType) (change : PktInfo → PktInfo) : OfldObj :=
  {s with entryQ:=updInfo s.entryQ macid type change}

def addReq (token : UInt32) (info : PktInfo) : PktInfo := {info with reqQ:=token :: info.reqQ,reqCnt:=info.reqCnt + 1}

def delReq (token : UInt32) (info : PktInfo) : PktInfo := {info with reqQ:=info.reqQ.erase token,reqCnt:=info.reqCnt - 1}

def setId (id : UInt8) (info : PktInfo) : PktInfo := {info with id}
def getEntry : Option Entry := s.entryQ.find? (fun entry => entry.macid == macid)
def isEntryExist : Bool := s.entryQ.any (fun entry => entry.macid == macid)
def initEntry (macid : Nat) : Entry := ⟨macid,fun _ => ⟨[],0,notUsed⟩⟩

-- A failing update of the general ids is only reported.
def phlPktOfldAddEntry (alloc : Bool) : PhlStatus × OfldObj :=
  if isEntryExist s macid then (.failure,s)
  else if !alloc then (.resource,s)
  else (.success,{s with entryQ:=initEntry macid :: s.entryQ,entryCnt:=s.entryCnt + 1})

def halDel (slots : Finset UInt8) (id : UInt8) (del : HalDel) : Finset UInt8 := if del.freed then slots.erase id else slots

-- The ids of the entry the firmware gives up; what the HAL answers is only reported.
def delOfldType (slots : Finset UInt8) (entry : Entry) (dels : PktType → HalDel) : Finset UInt8 :=
  slots.filter (fun slot => ¬ ∃ type, isPktOfld (entry.pktInfo type) ∧ (entry.pktInfo type).id = slot ∧
    (dels type).freed)

def phlPktOfldDelEntry (dels : PktType → HalDel) : PhlStatus × OfldObj :=
  match getEntry s macid with
  | none => (.failure,s)
  | some entry => (.success,{s with
      entryQ := s.entryQ.filter (fun other => other.macid ≠ macid),entryCnt := s.entryCnt - 1
      slots := delOfldType s.slots entry dels})

-- The types _phl_pkt_ofld_construct_packet has a case for.
def constructible : PktType → Bool
  | .nullData | .arpRsp | .ndp | .eapolKey | .saQuery => true
  | _ => false

def halAdd (slots : Finset UInt8) (add : HalAdd) : Finset UInt8 := if add.stored then insert add.id slots else slots

def reqType (s : OfldObj) (entry : Entry) (type : PktType) (env : ReqEnv) : PhlStatus × OfldObj :=
  if isPktOfld (entry.pktInfo type) then (.success,s)
  else if !(constructible type && env.constructed) then (.failure,s)
  else
    let s := {s.onInfo entry.macid type (setId env.add.id) with slots:=halAdd s.slots env.add}
    if !env.add.success then (.failure,s.onInfo entry.macid type (setId notUsed))
    else if !env.updated then (.failure,s.onInfo entry.macid type (setId notUsed))
    else (.success,s)

def phlPktOfldRequest (type : PktType) (env : ReqEnv) : PhlStatus × Option UInt32 × OfldObj :=
  match getEntry s macid with
  | none => (.failure,none,s)
  | some entry =>
    if !env.req then (.resource,none,s)
    else
      let token := s.curSeq
      let s := {s with curSeq:=s.curSeq + 1}
      if !env.name then (.resource,none,s)
      else
        let (ret,s) := reqType (s.onInfo macid type (addReq token)) entry type env
        if ret = .success then (.success,some token,s) else (.failure,none,s.onInfo macid type (delReq token))

def cancelType (s : OfldObj) (entry : Entry) (type : PktType) (del : HalDel) : PhlStatus × OfldObj :=
  let info := entry.pktInfo type
  if !isPktOfld info then (.failure,s)
  else if info.reqCnt - 1 ≠ 0 then (.success,s)
  else
    let s := {s with slots:=halDel s.slots info.id del}
    if !del.success then (.failure,s) else (.success,s.onInfo entry.macid type (setId notUsed))

def phlPktOfldCancel (type : PktType) (token : UInt32) (del : HalDel) : PhlStatus × OfldObj :=
  match getEntry s macid with
  | none => (.failure,s)
  | some entry =>
    if token ∉ (entry.pktInfo type).reqQ then (.failure,s)
    else
      let (ret,s) := cancelType s entry type del
      if ret = .success then (.success,s.onInfo macid type (delReq token)) else (.failure,s)
end

inductive OfldEvent where
  | addEntry (macid : Nat) (alloc : Bool)
  | delEntry (macid : Nat) (dels : PktType → HalDel)
  | request (macid : Nat) (type : PktType) (env : ReqEnv)
  | cancel (macid : Nat) (type : PktType) (token : UInt32) (del : HalDel)

def ofldStep (s : OfldObj) : OfldEvent → PhlStatus × OfldObj
  | .addEntry macid alloc => phlPktOfldAddEntry s macid alloc
  | .delEntry macid dels => phlPktOfldDelEntry s macid dels
  | .request macid type env => ((phlPktOfldRequest s macid type env).1,(phlPktOfldRequest s macid type env).2.2)
  | .cancel macid type token del => phlPktOfldCancel s macid type token del

def OfldObj.init : OfldObj := ⟨[],0,0,∅⟩

structure Right (info : PktInfo) : Prop where
  counted : info.reqCnt.toNat = info.reqQ.length
  offloaded : info.id ≠ notUsed ↔ 0 < info.reqCnt

def Recorded (entryQ : List Entry) (slot : UInt8) : Prop :=
  slot ≠ notUsed ∧ ∃ entry ∈ entryQ, ∃ type, (entry.pktInfo type).id = slot

structure Sound (s : OfldObj) : Prop where
  apart : (s.entryQ.map Entry.macid).Nodup
  right : ∀ entry ∈ s.entryQ, ∀ type, Right (entry.pktInfo type)
  recorded : ∀ slot ∈ s.slots, Recorded s.entryQ slot

def OfldEvent.Asks : OfldEvent → Prop
  | .request .. | .cancel .. => True
  | _ => False

structure Kept (s : OfldObj) (event : OfldEvent) : Prop where
  sound : Sound (ofldStep s event).2
  failing : event.Asks → (ofldStep s event).1 ≠ .success →
    (ofldStep s event).2.entryQ = s.entryQ ∧ (ofldStep s event).2.slots = s.slots

def Elsewhere (s : OfldObj) (macid : Nat) (type : PktType) (slot : UInt8) : Prop :=
  ∃ entry ∈ s.entryQ, ∃ other, (entry.macid ≠ macid ∨ other ≠ type) ∧ (entry.pktInfo other).id = slot

instance (s : OfldObj) (macid : Nat) (type : PktType) (slot : UInt8) : Decidable (Elsewhere s macid type slot) := by
  unfold Elsewhere
  infer_instance

section
variable (s : OfldObj) (macid : Nat)

-- The first request of a type: what was stored is recorded in the end. A
-- further one: the counter has room.
def RequestGuard (type : PktType) (env : ReqEnv) : Prop :=
  match getEntry s macid with
  | none => True
  | some entry => env.req → env.name →
    if isPktOfld (entry.pktInfo type) then (entry.pktInfo type).reqQ.length + 1 < 2 ^ 32
    else constructible type → env.constructed →
      if env.add.success && env.updated then env.add.id ≠ notUsed else env.add.stored → env.add.id ∈ s.slots

-- The last request of a type: a success means the slot is free, a failure that it is not.
def CancelGuard (type : PktType) (token : UInt32) (del : HalDel) : Prop :=
  match getEntry s macid with
  | none => True
  | some entry => token ∈ (entry.pktInfo type).reqQ → (entry.pktInfo type).reqQ.length = 1 →
    (entry.pktInfo type).id ∈ s.slots →
    if del.success then del.freed ∨ Elsewhere s macid type (entry.pktInfo type).id else del.freed = false

def DelEntryGuard (dels : PktType → HalDel) : Prop :=
  match getEntry s macid with
  | none => True
  | some entry => ∀ type, (entry.pktInfo type).id ∈ s.slots →
    (∃ other, (entry.pktInfo other).id = (entry.pktInfo type).id ∧ (dels other).freed) ∨
    ∃ entry' ∈ s.entryQ, entry'.macid ≠ macid ∧ ∃ other, (entry'.pktInfo other).id = (entry.pktInfo type).id
end

def OfldGuard (s : OfldObj) : OfldEvent → Prop
  | .addEntry .. => True
  | .delEntry macid dels => DelEntryGuard s macid dels
  | .request macid type env => RequestGuard s macid type env
  | .cancel macid type token del => CancelGuard s macid type token del

instance (s : OfldObj) (event : OfldEvent) : Decidable (OfldGuard s event) := by
  unfold OfldGuard
  split
  · infer_instance
  · unfold DelEntryGuard
    split <;> infer_instance
  · unfold RequestGuard
    split <;> infer_instance
  · unfold CancelGuard
    split <;> infer_instance
end Rtl8852au.PktOfld
