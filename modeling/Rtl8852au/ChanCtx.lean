import Mathlib.Data.Finset.Card
import Rtl8852au.Machine

namespace Rtl8852au.Chan
open Machine Function

inductive BandType where
  | on24g | on5g | on6g | max
  deriving DecidableEq

inductive ChannelWidth where
  | w20 | w40 | w80 | w160 | w80And80 | w5 | w10 | max
  deriving DecidableEq

def ChannelWidth.toNat : ChannelWidth → Nat
  | .w20 => 0
  | .w40 => 1
  | .w80 => 2
  | .w160 => 3
  | .w80And80 => 4
  | .w5 => 5
  | .w10 => 6
  | .max => 7

inductive ChanOffset where
  | noExt | upper | noDef | lower
  deriving DecidableEq

structure ChanDef where
  band : BandType
  chan : Nat
  bw : ChannelWidth
  offset : ChanOffset
  deriving DecidableEq

structure ChanCtx (n : Nat) where
  addr : Nat
  chanDef : ChanDef
  roleMap : Finset (Fin n)

inductive MrOp where
  | non | scc | mcc
  deriving DecidableEq

structure Band (n : Nat) where
  isSb : Bool
  bandIdx : Nat
  mccSup : Bool
  queue : List (ChanCtx n)
  cnt : Nat
  opMode : MrOp
  chanctx : Fin n → Option Nat
  chandef : Fin n → ChanDef

variable {n : Nat}

section
variable (s : Band n)

def Band.onCtx (addr : Nat) (change : ChanCtx n → ChanCtx n) : Band n :=
  {s with queue:=s.queue.map (fun ctx => if ctx.addr = addr then change ctx else ctx)}

def chanctxAdd (ctx : ChanCtx n) : Band n := {s with queue:=s.queue ++ [ctx],cnt:=s.cnt + 1}

def chanctxDel (addr : Nat) : Band n :=
  if s.cnt ≠ 0 then {s with queue:=s.queue.filter (fun ctx => ctx.addr ≠ addr),cnt:=s.cnt - 1} else s

def chanctxRmapSet (r : Fin n) (addr : Nat) : Band n :=
  {s.onCtx addr (fun ctx => {ctx with roleMap:=insert r ctx.roleMap}) with
    chanctx := update s.chanctx r (some addr)}

def chanctxRmapClr (r : Fin n) (addr : Nat) : Band n :=
  {s.onCtx addr (fun ctx => {ctx with roleMap:=ctx.roleMap.erase r}) with chanctx:=update s.chanctx r none}

def ChanCtx.rnum (ctx : ChanCtx n) : Nat := ctx.roleMap.card

def isChbwGrouped (a : ChanDef) (chan : Nat) (bw : ChannelWidth) (offset : ChanOffset) : Bool :=
  if a.chan ≠ chan then false
  else !((a.bw = .w40 || a.bw = .w80) && (bw = .w40 || bw = .w80) && a.offset ≠ offset)

def upperChans : List Nat := [36,44,52,60,100,108,116,124,132,140,149,157,165,173]
def lowerChans : List Nat := [40,48,56,64,104,112,120,128,136,144,153,161,169,177]

-- The offset that stands after the call; an invalid pair leaves the given one.
def getOffsetByChbw (ch : Nat) (bw : ChannelWidth) (offset : ChanOffset) : ChanOffset :=
  if bw = .w20 then .noExt
  else if 2 ≤ bw.toNat ∧ ch ≤ 14 then offset
  else if 1 ≤ ch ∧ ch ≤ 4 then .upper
  else if 5 ≤ ch ∧ ch ≤ 9 then (if offset = .upper ∨ offset = .lower then offset else .lower)
  else if 10 ≤ ch ∧ ch ≤ 13 then .lower
  else if ch ∈ upperChans then .upper
  else if ch ∈ lowerChans then .lower
  else offset

section
variable (bw : ChannelWidth) (offset : ChanOffset) (g : ChanDef)

-- The width and offset of a request that joins the group `g`.
def narrow : ChannelWidth × ChanOffset :=
  match bw with
  | .w80 | .w40 =>
    let offset := if g.bw = .w40 ∨ g.bw = .w80 then g.offset
      else if g.bw = .w20 then getOffsetByChbw g.chan bw offset else offset
    (if offset = .noExt then .w20 else bw,offset)
  | .w20 => (bw,.noExt)
  | _ => (bw,offset)

-- What `_phl_adjust_chandef` makes of the definition of the group.
def adjustChandef : ChanDef :=
  let bw := if bw = .w80 ∧ g.chan ≤ 14 then .w40 else bw
  let (bw,offset) := narrow bw offset g
  if g.bw.toNat < bw.toNat then {g with bw,offset} else g
end

def kmemAlloc (alloc : Option Nat) : Option Nat := alloc.filter (fun addr => !s.queue.any (fun ctx => ctx.addr == addr))

def chanctxCreate (r : Fin n) (chanDef : ChanDef) (alloc : Option Nat) : Bool × Band n :=
  match kmemAlloc s alloc with
  | none => (false,s)
  | some addr => (true,chanctxRmapSet (chanctxAdd s ⟨addr,chanDef,∅⟩) r addr)

def bandOf (chan : Nat) : BandType := if 14 < chan then .on5g else .on24g

section
variable (r : Fin n) (chan : Nat) (bw : ChannelWidth) (offset : ChanOffset) (alloc : Option Nat)

-- Also hands back the channel definition the request became. Without DBCC a
-- context of another band is created like one of the same band.
def phlChanctxAdd :
    Bool × (Nat × ChannelWidth × ChanOffset) × Band n :=
  let create := chanctxCreate s r ⟨bandOf chan,chan,bw,offset⟩ alloc
  if s.cnt = 0 then (create.1,(chan,bw,offset),create.2)
  else
    match s.queue.find? (fun ctx => isChbwGrouped ctx.chanDef chan bw offset) with
    | some ctx =>
      let g := adjustChandef bw offset ctx.chanDef
      (true,(g.chan,g.bw,g.offset),chanctxRmapSet (s.onCtx ctx.addr (fun ctx => {ctx with chanDef:=g})) r ctx.addr)
    | none => if !s.mccSup ∨ 2 ≤ s.cnt then (false,(chan,bw,offset),s) else (create.1,(chan,bw,offset),create.2)

def addMode : MrOp :=
  match s.cnt with
  | 2 => .mcc
  | 1 => match s.queue.head? with
    | some ctx => if 2 ≤ ctx.rnum then .scc else .non
    | none => s.opMode
  | _ => s.opMode

def rtwPhlChanctxAdd : Bool × (Nat × ChannelWidth × ChanOffset) × Band n :=
  if chan = 0 then (false,(chan,bw,offset),s)
  else if s.isSb ∧ s.bandIdx = 1 then (false,(chan,bw,offset),s)
  else
    let (grouped,chandef,s) := phlChanctxAdd s r chan bw offset alloc
    (grouped,chandef,if grouped then {s with opMode:=addMode s} else s)
end

-- The roles of a context in the order of their index: same band and channel,
-- the widest of their widths, one offset for each width.
def chandefSync (chandef : Fin n → ChanDef) : List (Fin n) → Option ChanDef
  | [] => none
  | r :: rest => go (chandef r) rest
where
  go (ret : ChanDef) : List (Fin n) → Option ChanDef
    | [] => some ret
    | r :: rest =>
      if ret.band ≠ (chandef r).band then none
      else if ret.chan ≠ (chandef r).chan then none
      else if ret.bw.toNat < (chandef r).bw.toNat then go {ret with bw:=(chandef r).bw,offset:=(chandef r).offset} rest
      else if ret.bw = (chandef r).bw ∧ ret.offset ≠ (chandef r).offset then none
      else go ret rest

def ChanCtx.roles (ctx : ChanCtx n) : List (Fin n) := (List.finRange n).filter (fun r => r ∈ ctx.roleMap)
def Band.ctxAt (addr : Nat) : Option (ChanCtx n) := s.queue.find? (fun ctx => ctx.addr == addr)

def chandefUpt (addr : Nat) : Option (Band n) :=
  match s.ctxAt addr with
  | none => none
  | some ctx => (chandefSync s.chandef ctx.roles).map
      (fun chanDef => s.onCtx addr (fun ctx => {ctx with chanDef:=chanDef}))

-- The end of a removal: the number of contexts left, the channel definition for
-- the caller, and the mode.
def delMode (out : Option ChanDef) (addr : Nat) : Nat × Option ChanDef × Band n :=
  match s.cnt with
  | 0 => (0,out,{s with opMode:=.non})
  | 1 => match s.queue.head? with
    | some ctx => (1,out.map (fun _ => ctx.chanDef),{s with opMode:=if ctx.rnum = 1 then .non else .scc})
    | none => (1,out,s)
  | 2 => match s.ctxAt addr with
    | some ctx => (2,out.map (fun _ => ctx.chanDef),{s with opMode:=.mcc})
    | none => (2,out,{s with opMode:=.mcc})
  | cnt => (cnt,out,s)

def rtwPhlChanctxDel (r : Fin n) (chanDef : Option ChanDef) : Nat × Option ChanDef × Band n :=
  match s.chanctx r with
  | none => (0,chanDef,s)
  | some addr =>
    let out := chanDef.map (fun chanDef => {chanDef with chan:=0})
    match s.ctxAt addr with
    | none => (s.cnt,out,s)
    | some target =>
      if s.cnt = 0 ∨ target.rnum = 0 ∨ 2 < s.cnt then (s.cnt,out,s)
      else
        let left := chanctxRmapClr s r addr
        if target.rnum = 1 then delMode (chanctxDel left addr) out addr
        else
          match chandefUpt left addr with
          -- leaves before the mode is computed
          | none => (s.cnt,out,left)
          | some left => delMode left out addr

inductive BandEvent (n : Nat) where
  | add (r : Fin n) (chan : Nat) (bw : ChannelWidth) (offset : ChanOffset) (alloc : Option Nat)
  | del (r : Fin n) (chanDef : Option ChanDef)
  | setChandef (r : Fin n) (chanDef : ChanDef)

def bandStep : BandEvent n → Band n
  | .add r chan bw offset alloc => (rtwPhlChanctxAdd s r chan bw offset alloc).2.2
  | .del r chanDef => (rtwPhlChanctxDel s r chanDef).2.2
  | .setChandef r chanDef => {s with chandef:=update s.chandef r chanDef}

def Band.init (isSb : Bool) (bandIdx : Nat) (mccSup : Bool) (chandef : Fin n → ChanDef) : Band n :=
  ⟨isSb,bandIdx,mccSup,[],0,.non,fun _ => none,chandef⟩

-- The callers' side: a role is added when it has no context.
def AddsFree : BandEvent n → Prop
  | .add r .. => s.chanctx r = none
  | _ => True
end

instance (s : Band n) (event : BandEvent n) : Decidable (AddsFree s event) := by
  unfold AddsFree
  split <;> infer_instance

def modeOf : List (ChanCtx n) → MrOp
  | [_,_] => .mcc
  | [ctx] => if 2 ≤ ctx.rnum then .scc else .non
  | _ => .non

structure Tied (s : Band n) : Prop where
  addrs : (s.queue.map ChanCtx.addr).Nodup
  mapped : ∀ r, ∀ ctx ∈ s.queue, r ∈ ctx.roleMap ↔ s.chanctx r = some ctx.addr
  pointed : ∀ r addr, s.chanctx r = some addr → ∃ ctx ∈ s.queue, ctx.addr = addr
  counted : s.cnt = s.queue.length
  few : s.queue.length ≤ 2

structure Linked (s : Band n) : Prop extends Tied s where
  used : ∀ ctx ∈ s.queue, ctx.roleMap.Nonempty

structure Consistent (s : Band n) : Prop extends Linked s where
  mode : s.opMode = modeOf s.queue
end Rtl8852au.Chan
