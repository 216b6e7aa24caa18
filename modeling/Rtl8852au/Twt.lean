import Rtl8852au.Bitmap
import Rtl8852au.Machine

namespace Rtl8852au.Twt
open Function
variable {σ : Type u} {ρ : Type v}

def maxNumHwTwtConfig : Nat := 4
def deleteAll : UInt8 := 0xff

inductive Status where
  | success | failure | resource
  deriving DecidableEq

inductive TwtConfigState where
  | free | idle | enable | error
  deriving DecidableEq

inductive TwtAction where
  | free | alloc | enable | disable | upError
  deriving DecidableEq

inductive NegoType where
  | indivTwt | wakeTbttInr | bcastTwt | manageBcastTwt
  deriving DecidableEq

inductive WakeDurUnit where
  | wake256us | wake1tu
  deriving DecidableEq

inductive FlowType where
  | announcedTwt | unannouncedTwt
  deriving DecidableEq

structure TwtInfo where
  wakeDurUnit : WakeDurUnit
  negoType : NegoType
  flowType : FlowType
  twtId : Nat
  responderPmMode : UInt8
  trigger : UInt8
  implicitLastbcast : UInt8
  twtProtection : UInt8
  twtWakeIntExp : UInt8
  nomMinTwtWakeDur : UInt8
  twtWakeIntMantissa : UInt16
  targetWakeTimeH : UInt32
  targetWakeTimeL : UInt32

def zeroInfo : TwtInfo := ⟨.wake256us,.indivTwt,.announcedTwt,0,0,0,0,0,0,0,0,0,0⟩

structure TwtSta (σ : Type u) where
  phlSta : σ
  id : UInt8

structure TwtConfig (σ : Type u) (ρ : Type v) where
  state : TwtConfigState
  role : Option ρ
  twtInfo : TwtInfo
  twtStaQueue : List (TwtSta σ)

abbrev Ring (σ : Type u) (ρ : Type v) := Nat → TwtConfig σ ρ

-- The loops start at the head and take the next one until they are back at the head.
def configs : List Nat := List.range maxNumHwTwtConfig

structure ReqTypeIndiv where
  flowType : FlowType
  trigger : UInt8
  implicit : UInt8
  twtFlowId : UInt8
  twtWakeIntExp : UInt8
  twtProtection : UInt8

structure IndivTwtParaSet where
  reqType : ReqTypeIndiv
  targetWakeTH : UInt32
  targetWakeTL : UInt32
  twtWakeIntMantissa : UInt16
  nomMinTwtWakeDur : UInt8

structure TwtSetupInfo where
  negoType : NegoType
  wakeDurUnit : WakeDurUnit
  responderPmMode : UInt8
  para : IndivTwtParaSet

structure TwtFlowField where
  negoType : NegoType
  id : UInt8
  teardownAll : Bool

def transferConfigState : TwtAction → TwtConfigState
  | .free => .free
  | .alloc => .idle
  | .enable => .enable
  | .disable => .idle
  | .upError => .error

def fillConfigInfoIndiv (info : TwtInfo) (para : IndivTwtParaSet) : TwtInfo :=
  {info with
    trigger := para.reqType.trigger,flowType := para.reqType.flowType,
    implicitLastbcast := para.reqType.implicit,twtProtection := para.reqType.twtProtection,
    twtWakeIntExp := para.reqType.twtWakeIntExp,twtWakeIntMantissa := para.twtWakeIntMantissa,
    nomMinTwtWakeDur := para.nomMinTwtWakeDur,
    targetWakeTimeH := para.targetWakeTH,targetWakeTimeL := para.targetWakeTL}

def fillConfigInfo (info : TwtInfo) (setup : TwtSetupInfo) : TwtInfo :=
  let filled := {info with
    responderPmMode := setup.responderPmMode,negoType := setup.negoType,wakeDurUnit := setup.wakeDurUnit}
  if filled.negoType = .indivTwt then fillConfigInfoIndiv filled setup.para else filled

def resetConfigInfo (c : TwtConfig σ ρ) : TwtConfig σ ρ := {c with role:=none,twtInfo:=zeroInfo}

-- The cases of _twt_operate_twt_config that change the ring or search it.
def renewed (c : TwtConfig σ ρ) (i : Nat) : TwtConfig σ ρ :=
  let blank := resetConfigInfo c
  {blank with state:=transferConfigState .alloc,twtInfo:={blank.twtInfo with twtId:=i}}

def getNewConfig (r : Ring σ ρ) : Option (Nat × Ring σ ρ) :=
  (configs.find? fun i => (r i).state = .free).map fun i => (i,update r i (renewed (r i) i))

def getConfigById (r : Ring σ ρ) (id : Nat) : Option Nat :=
  if maxNumHwTwtConfig ≤ id then none
  else if (r id).state = .free then none
  else some id

def freeConfig (r : Ring σ ρ) (id : Nat) : Ring σ ρ :=
  if maxNumHwTwtConfig ≤ id then r
  else if (r id).state = .free then r
  else update r id {r id with state:=transferConfigState .free}

def getConfigByRole [DecidableEq ρ] (r : Ring σ ρ) (role : ρ) : Option Nat :=
  configs.find? fun i => (r i).state ≠ .free ∧ (r i).role = some role

-- The state of the entry follows what the firmware answers.
def twtInfoUpdate (ok : Bool) (c : TwtConfig σ ρ) (action : TwtAction) : Status × TwtConfig σ ρ :=
  if ok then (.success,{c with state:=transferConfigState action})
  else (.failure,{c with state:=transferConfigState .upError})

def twtDeleteAllSta : List (TwtSta σ) → List (TwtSta σ)
  | [] => []
  | _ :: rest => twtDeleteAllSta rest

section
variable [DecidableEq σ]

def twtStaHit (sta : σ) (id : UInt8) (x : TwtSta σ) : Bool := sta = x.phlSta && (deleteAll = id || id = x.id)

-- `passed` are the nodes that have been put back at the tail. When the first one comes
-- round again it is put back once more.
def twtDeleteStaLoop (sta : σ) (id : UInt8) : List (TwtSta σ) → List (TwtSta σ) → Status × List (TwtSta σ) × Nat
  | [],passed => (.failure,passed.rotate 1,(passed.length-1) % 65536)
  | x :: rest,passed =>
    if twtStaHit sta id x then (.success,rest ++ passed,(rest ++ passed).length % 65536)
    else twtDeleteStaLoop sta id rest (passed ++ [x])

def twtDeleteSta (sta : σ) (id : UInt8) (q : List (TwtSta σ)) : Status × List (TwtSta σ) × Nat := twtDeleteStaLoop sta id q []

def twtStaExist (sta : σ) (id : UInt8) (q : List (TwtSta σ)) : Bool := q.any (twtStaHit sta id)
def twtGetStaInfo (sta : σ) (q : List (TwtSta σ)) : Option (TwtSta σ) := q.find? fun x => sta = x.phlSta

def twtAddSta (node : Bool) (sta : σ) (id : UInt8) (q : List (TwtSta σ)) : Option (List (TwtSta σ)) :=
  if node then some (q ++ [⟨sta,id⟩]) else none

def twtAllStaUpdate (ok : σ → Bool) : List (TwtSta σ) → Status → Status
  | [],st => st
  | x :: rest,_ => if ok x.phlSta then twtAllStaUpdate ok rest .success else .failure
end

structure Deleting (σ : Type u) (ρ : Type v) where
  ring : Ring σ ρ
  bitmap : Nat
  deleteError : Bool
  done : Bool

section
variable [DecidableEq σ] [DecidableEq ρ]

def deleteAt (del : Nat → Bool) (sta : σ) (wrole : ρ) (ignoreType : Bool) (type : NegoType) (deleteId : UInt8)
    (d : Deleting σ ρ) (i : Nat) : Deleting σ ρ :=
  if d.done then d
  else if (d.ring i).state = .free then d
  else if (d.ring i).role ≠ some wrole then d
  else if ignoreType = false ∧ (d.ring i).twtInfo.negoType ≠ type then d
  else if twtStaExist sta deleteId (d.ring i).twtStaQueue = false then d
  else if del i = false then {d with deleteError:=true}
  else match twtDeleteSta sta deleteId (d.ring i).twtStaQueue with
    | (.success,q,cnt) =>
      {d with
        ring := update d.ring i {d.ring i with twtStaQueue:=q},
        bitmap := if cnt = 0 then Bitmap.mark d.bitmap (d.ring i).twtInfo.twtId % 256 else d.bitmap,
        done := deleteId ≠ deleteAll}
    | (_,q,_) => {d with ring:=update d.ring i {d.ring i with twtStaQueue:=q},deleteError:=true}

def storedType (negoType : NegoType) : NegoType := if negoType = .manageBcastTwt then .bcastTwt else negoType

def twtDeleteStaInfo (del : Nat → Bool) (r : Ring σ ρ) (sta : σ) (wrole : ρ) (ignoreType : Bool) (negoType : NegoType)
    (id : UInt8) : Status × Ring σ ρ × Nat :=
  let deleteId := if ignoreType then deleteAll else id
  let d := configs.foldl (deleteAt del sta wrole ignoreType (storedType negoType) deleteId) ⟨r,0,false,false⟩
  (if d.deleteError then .failure else .success,d.ring,d.bitmap)

def allocTwtConfig (enable : Bool) (r : Ring σ ρ) (role : ρ) (setup : TwtSetupInfo) (benable : Bool) :
    Status × Ring σ ρ × Option Nat :=
  match getNewConfig r with
  | none => (.resource,r,none)
  | some (i,t) =>
    let c := {t i with role:=some role,twtInfo:=fillConfigInfo (t i).twtInfo setup}
    if benable then
      let (st,c') := twtInfoUpdate enable c .enable
      (st,update t i c',some (t i).twtInfo.twtId)
    else (.success,update t i c,some (t i).twtInfo.twtId)

def dismissed (disable : Bool) (c : TwtConfig σ ρ) : TwtConfig σ ρ :=
  let c' := (twtInfoUpdate disable c .disable).2
  {c' with twtStaQueue:=twtDeleteAllSta c'.twtStaQueue}

def freeTwtConfig (disable : Bool) (r : Ring σ ρ) (id : Nat) : Status × Ring σ ρ :=
  match getConfigById r id with
  | none => (.failure,r)
  | some i => (.success,freeConfig (update r i (dismissed disable (r i))) id)

def addStaInfo (node add : Bool) (r : Ring σ ρ) (sta : σ) (configId : Nat) (id : UInt8) : Status × Ring σ ρ :=
  match getConfigById r configId with
  | none => (.failure,r)
  | some i =>
    match twtAddSta node sta id (r i).twtStaQueue with
    | none => (.failure,r)
    | some q =>
      if add then (.success,update r i {r i with twtStaQueue:=q})
      else (.failure,update r i {r i with twtStaQueue:=(twtDeleteSta sta id q).2.1})

def twtFlowIdExist (r : Ring σ ρ) (sta : σ) (wrole : ρ) (id : UInt8) : Bool :=
  configs.any fun i => (r i).state ≠ .free && (r i).role = some wrole && (r i).twtInfo.negoType = .indivTwt &&
    (twtGetStaInfo sta (r i).twtStaQueue).any fun x => id = x.id

structure AcceptEnv where
  del : Nat → Bool
  disable : Bool
  enable : Bool
  node : Bool
  add : Bool
  undo : Bool

def lowestBit (bitmap : Nat) : Option Nat := (List.range 8).find? bitmap.testBit

section
variable (env : AcceptEnv) (r : Ring σ ρ) (sta : σ) (wrole : ρ)

def giveUp (negoType : NegoType) (id : UInt8) : Ring σ ρ :=
  if twtFlowIdExist r sta wrole id then
    match twtDeleteStaInfo env.del r sta wrole false negoType id with
    | (.success,t,bitmap) =>
      match lowestBit bitmap with
      | none => t
      | some i => (freeTwtConfig env.disable t i).2
    | (_,t,_) => t
  else r

def acceptNew (setup : TwtSetupInfo) : Status × Ring σ ρ × Option Nat :=
  match allocTwtConfig env.enable r wrole setup true with
  | (.success,t,some id) =>
    match addStaInfo env.node env.add t sta id setup.para.reqType.twtFlowId with
    | (.success,u) => (.success,u,some id)
    | (st,u) => (st,(freeTwtConfig env.undo u id).2,none)
  | (st,t,_) => (st,t,none)

def twtAcceptIndivBySta (setup : TwtSetupInfo) :
    Status × Ring σ ρ × Option Nat :=
  acceptNew env (giveUp env r sta wrole setup.negoType setup.para.reqType.twtFlowId) sta wrole setup

def twtAcceptBcastBySta (r : Ring σ ρ) : Status × Ring σ ρ × Option Nat := (.failure,r,none)

def twtAcceptForStaMode (setup : TwtSetupInfo) :
    Status × Ring σ ρ × Option Nat :=
  if setup.negoType = .indivTwt then twtAcceptIndivBySta env r sta wrole setup else twtAcceptBcastBySta r
end

def twtTeardownSta (del : Nat → Bool) (r : Ring σ ρ) (sta : σ) (wrole : ρ) (flow : TwtFlowField) : Status × Ring σ ρ × Nat :=
  match flow.negoType with
  | .bcastTwt => (.failure,r,0)
  | type => twtDeleteStaInfo del r sta wrole false type (if flow.teardownAll then deleteAll else flow.id)

section
variable (disable : Nat → Bool)

def freeEmptied (bitmap : Nat) (acc : Status × Ring σ ρ) (i : Nat) : Status × Ring σ ρ :=
  if bitmap.testBit i then freeTwtConfig (disable i) acc.2 i else acc

def twtTeardownForStaMode (del disable : Nat → Bool) (r : Ring σ ρ) (sta : σ) (wrole : ρ) (flow : TwtFlowField) :
    Status × Ring σ ρ :=
  match twtTeardownSta del r sta wrole flow with
  | (.success,t,bitmap) => (List.range 8).foldl (freeEmptied disable bitmap) (.success,t)
  | (st,t,_) => (st,t)

section
variable (r : Ring σ ρ)

-- A new entry is taken and freed again, which clears what the entry said before.
def twtNewConfigIsAvailable : Bool × Ring σ ρ :=
  match getNewConfig r with
  | none => (false,r)
  | some (i,t) => (true,freeConfig t (t i).twtInfo.twtId)

-- The map is a byte, so an id from 8 on leaves no mark in it.
def useMark (sta : σ) (wrole : ρ) (useMap : Nat) (i : Nat) : Nat :=
  if (r i).state = .free then useMap
  else if (r i).role ≠ some wrole ∨ (r i).twtInfo.negoType ≠ .indivTwt then useMap
  else match twtGetStaInfo sta (r i).twtStaQueue with
    | none => useMap
    | some x => Bitmap.mark useMap x.id.toNat % 256

def twtGetNewFlowId (sta : σ) (wrole : ρ) : Option Nat × Ring σ ρ :=
  match twtNewConfigIsAvailable r with
  | (false,t) => (none,t)
  | (true,t) => (Bitmap.firstFree (configs.foldl (useMark t sta wrole) 0) 8,t)

def freeByRole (role : ρ) (r : Ring σ ρ) : Ring σ ρ :=
  match getConfigByRole r role with
  | none => r
  | some i => freeConfig (update r i (dismissed (disable i) (r i))) (r i).twtInfo.twtId

-- The loop is cut off after as many rounds as there are entries; `freeAll_ends` shows
-- that it has ended by then.
def twtFreeAllTwtByRole (role : ρ) : Status × Ring σ ρ :=
  (if (getConfigByRole r role).isSome then .success else .failure,
    Machine.iterate (fun r => (getConfigByRole r role).isSome) (freeByRole disable role) maxNumHwTwtConfig r)

def disableAt (role : ρ) (r : Ring σ ρ) (i : Nat) : Ring σ ρ :=
  if (r i).state = .free then r
  else if (r i).role = some role then update r i (twtInfoUpdate (disable i) (r i) .disable).2
  else r

def twtDisableAllTwtByRole (role : ρ) : Status × Ring σ ρ := (.success,configs.foldl (disableAt disable role) r)
end
end

-- The status of the call is the last one, or a failure when an entry had an error. It starts as a failure.
def enableAt (enable : Nat → Bool) (add : Nat → σ → Bool) (role : ρ) (acc : Status × Bool × Ring σ ρ) (i : Nat) :
    Status × Bool × Ring σ ρ :=
  let (st,error,r) := acc
  if (r i).state = .free then (st,error,r)
  else if (r i).role ≠ some role then (st,error,r)
  else match twtInfoUpdate (enable i) (r i) .enable with
    | (.success,c) =>
      let st := twtAllStaUpdate (add i) c.twtStaQueue .failure
      (st,error || st ≠ .success,update r i c)
    | (st,c) => (st,true,update r i c)

def twtEnableAllTwtByRole (enable : Nat → Bool) (add : Nat → σ → Bool) (r : Ring σ ρ) (role : ρ) : Status × Ring σ ρ :=
  let (st,error,t) := configs.foldl (enableAt enable add role) (.failure,false,r)
  (if error then .failure else st,t)
end

structure PhlTwt (σ : Type u) (ρ : Type v) where
  twtSup : Bool
  twtInit : Bool
  ring : Ring σ ρ

inductive Call (σ : Type u) (ρ : Type v) where
  | accept (sta : σ) (wrole : ρ) (setup : TwtSetupInfo) (env : AcceptEnv)
  | getNewFlowId (sta : σ) (wrole : ρ)
  | teardown (sta : σ) (wrole : ρ) (flow : TwtFlowField) (del disable : Nat → Bool)
  | freeAll (role : ρ) (disable : Nat → Bool)
  | disableAll (role : ρ) (disable : Nat → Bool)
  | enableAll (role : ρ) (enable : Nat → Bool) (add : Nat → σ → Bool)

structure Outcome where
  status : Status
  id : Option Nat

section
variable [DecidableEq σ] [DecidableEq ρ]

def exec (s : PhlTwt σ ρ) (call : Call σ ρ) : Outcome × PhlTwt σ ρ :=
  if s.twtSup && s.twtInit then
    match call with
    | .accept sta wrole setup env =>
      let (st,t,id) := twtAcceptForStaMode env s.ring sta wrole setup
      (⟨st,id⟩,{s with ring:=t})
    | .getNewFlowId sta wrole =>
      let (id,t) := twtGetNewFlowId s.ring sta wrole
      (⟨if id.isSome then .success else .resource,id⟩,{s with ring:=t})
    | .teardown sta wrole flow del disable =>
      let (st,t) := twtTeardownForStaMode del disable s.ring sta wrole flow
      (⟨st,none⟩,{s with ring:=t})
    | .freeAll role disable =>
      let (st,t) := twtFreeAllTwtByRole disable s.ring role
      (⟨st,none⟩,{s with ring:=t})
    | .disableAll role disable =>
      let (st,t) := twtDisableAllTwtByRole disable s.ring role
      (⟨st,none⟩,{s with ring:=t})
    | .enableAll role enable add =>
      let (st,t) := twtEnableAllTwtByRole enable add s.ring role
      (⟨st,none⟩,{s with ring:=t})
  else (⟨match call with
    | .getNewFlowId .. => .resource
    | _ => .failure,none⟩,s)

def step (s : PhlTwt σ ρ) (call : Call σ ρ) : PhlTwt σ ρ := (exec s call).2
end

def phlTwtInit (twtSup twtInit : Bool) : PhlTwt σ ρ := ⟨twtSup,twtInit,fun _ => ⟨.free,none,zeroInfo,[]⟩⟩
end Rtl8852au.Twt
