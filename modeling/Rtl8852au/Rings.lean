import Rtl8852au.Machine

namespace Rtl8852au.Rings
open Function

def maxPhlRingEntryNum : Nat := 4096
def u16 (value : Int) : Nat := (value % 65536).toNat

def phlCalcAvailRptr (rptr wptr bndy : Nat) : Nat := if wptr ≥ rptr then u16 (wptr-rptr) else u16 (wptr + (bndy-rptr))

def phlCalcAvailWptr (rptr wptr bndy : Nat) : Nat :=
  if rptr > wptr then u16 (rptr - wptr - 1) else u16 (rptr + (bndy-wptr) - 1)

-- The wrap written with a comparison, as against the `%` of the core layer.
def bump (idx : Nat) : Nat := if idx + 1 ≥ maxPhlRingEntryNum then 0 else idx + 1

structure TxRing (α : Type) where
  coreIdx : Nat
  phlIdx : Nat
  phlNextIdx : Nat
  entry : Nat → Option α

inductive AddTxReq (α : Type) where
  | idle
  | locked (txReq : α)
  | room (txReq : α) (rptr : Nat)
  | moved (txReq : α)

inductive Xmit (α : Type) where
  | idle
  | busy (reqBusy : Nat)
  | fetched (reqBusy rptr : Nat) (txReq : α)

structure Verdict where
  fits : Bool
  prepared : Bool
  last : Bool
  deriving DecidableEq

structure Tx (α : Type) where
  ring : TxRing α
  producer : AddTxReq α
  consumer : Xmit α
  added : List α
  handled : List (α × Bool)

inductive TxEvent (α : Type) where
  | rtwPhlAddTxReq (txReq : α)
  | produce
  | phlCheckRingStatus (ringSts : Bool)
  | skip
  | consume (verdict : Verdict)

def addTxReqStep (s : Tx α) : Tx α :=
  match s.producer with
  | .idle => s
  | .locked txReq => {s with producer:=.room txReq s.ring.phlIdx}
  | .room txReq rptr =>
    let ringRes := phlCalcAvailWptr rptr s.ring.coreIdx maxPhlRingEntryNum
    if ringRes > 0 then
      {s with
        ring := {s.ring with coreIdx:=(s.ring.coreIdx+1) % maxPhlRingEntryNum}
        producer := .moved txReq}
    else {s with producer:=.idle}
  | .moved txReq =>
    {s with
      ring := {s.ring with entry:=update s.ring.entry s.ring.coreIdx (some txReq)}
      producer := .idle
      added := s.added ++ [txReq]}

-- One turn under t_ring_list_lock. `ringSts` is whether a ring status is free.
def phlCheckRingStatus (s : Tx α) (ringSts : Bool) : Tx α :=
  let rptr := s.ring.phlIdx
  let avail := phlCalcAvailRptr rptr s.ring.coreIdx maxPhlRingEntryNum
  if avail = 0 then s
  else if ringSts then
    {s with ring:={s.ring with phlNextIdx:=bump rptr}, consumer:=.busy avail}
  else s

def phlHandleXmitRing (s : Tx α) (verdict : Verdict) : Tx α :=
  match s.consumer with
  | .idle => s
  | .busy reqBusy =>
    let rptr := s.ring.phlNextIdx
    if reqBusy = 0 then {s with consumer:=.idle}
    else
      match s.ring.entry rptr with
      | none => {s with consumer:=.idle}
      | some txReq => {s with consumer:=.fetched reqBusy rptr txReq}
  | .fetched reqBusy rptr txReq =>
    if ¬ verdict.fits then {s with consumer:=.idle}
    else
      let taken := {s with
        ring := {s.ring with phlIdx:=rptr}
        handled := s.handled ++ [(txReq,verdict.prepared)]}
      if ¬ verdict.prepared ∨ verdict.last then {taken with consumer:=.idle}
      else if reqBusy - 1 ≠ 0 then
        {taken with ring:={taken.ring with phlNextIdx:=bump rptr}, consumer:=.busy (reqBusy-1)}
      else {taken with consumer:=.busy 0}

-- The ring is checked under the lock that the producer holds from `locked` on.
-- `skip` is a ring status given back with no buffer for it.
def Tx.step (s : Tx α) : TxEvent α → Tx α
  | .rtwPhlAddTxReq txReq =>
    match s.producer with
    | .idle => {s with producer:=.locked txReq}
    | _ => s
  | .produce => addTxReqStep s
  | .phlCheckRingStatus ringSts =>
    match s.producer,s.consumer with
    | .idle,.idle => phlCheckRingStatus s ringSts
    | _,_ => s
  | .skip =>
    match s.consumer with
    | .busy _ => {s with consumer:=.idle}
    | _ => s
  | .consume verdict => phlHandleXmitRing s verdict

def Tx.start (base phlNextIdx : Nat) (entry : Nat → Option α) : Tx α :=
  {ring:=⟨base,base,phlNextIdx,entry⟩, producer:=.idle, consumer:=.idle, added:=[], handled:=[]}

structure RxRing (α : Type) where
  coreIdx : Nat
  phlIdx : Nat
  entry : Nat → Option α

inductive AddRxPkt (α : Type) where
  | idle
  | begun (recvpkt : α)
  | wptr (recvpkt : α) (wptr : Nat)
  | room (recvpkt : α) (wptr rptr : Nat)
  | stored (recvpkt : α) (wptr : Nat)

inductive QueryRxPkt (α : Type) where
  | idle
  | begun
  | wptr (wptr : Nat)
  | room (wptr rptr : Nat)
  | taken (recvpkt : Option α) (rptr : Nat)
  | cleared (recvpkt : Option α) (rptr : Nat)

structure Rx (α : Type) where
  ring : RxRing α
  producer : AddRxPkt α
  consumer : QueryRxPkt α
  added : List α
  got : List (Option α)

inductive RxEvent (α : Type) where
  | phlAddRxPkt (recvpkt : α)
  | produce
  | rtwPhlQueryRxPkt
  | consume

def phlAddRxPktStep (s : Rx α) : Rx α :=
  match s.producer with
  | .idle => s
  | .begun recvpkt => {s with producer:=.wptr recvpkt s.ring.phlIdx}
  | .wptr recvpkt wptr => {s with producer:=.room recvpkt wptr s.ring.coreIdx}
  | .room recvpkt wptr rptr =>
    let ringRes := phlCalcAvailWptr rptr wptr maxPhlRingEntryNum
    if ringRes ≤ 0 then {s with producer:=.idle}
    else
      {s with
        ring := {s.ring with entry:=update s.ring.entry (bump wptr) (some recvpkt)}
        producer := .stored recvpkt (bump wptr)}
  | .stored recvpkt wptr =>
    {s with
      ring := {s.ring with phlIdx:=if wptr ≠ 0 then s.ring.phlIdx + 1 else 0}
      producer := .idle
      added := s.added ++ [recvpkt]}

def rtwPhlQueryRxPktStep (s : Rx α) : Rx α :=
  match s.consumer with
  | .idle => s
  | .begun => {s with consumer:=.wptr s.ring.phlIdx}
  | .wptr wptr => {s with consumer:=.room wptr s.ring.coreIdx}
  | .room wptr rptr =>
    let ringRes := phlCalcAvailRptr rptr wptr maxPhlRingEntryNum
    if ringRes > 0 then {s with consumer:=.taken (s.ring.entry (bump rptr)) (bump rptr)}
    else {s with consumer:=.idle}
  | .taken recvpkt rptr =>
    {s with
      ring := {s.ring with entry:=update s.ring.entry rptr none}
      consumer := .cleared recvpkt rptr}
  | .cleared recvpkt rptr =>
    {s with
      ring := {s.ring with coreIdx:=if rptr ≠ 0 then s.ring.coreIdx + 1 else 0}
      consumer := .idle
      got := s.got ++ [recvpkt]}

def Rx.step (s : Rx α) : RxEvent α → Rx α
  | .phlAddRxPkt recvpkt =>
    match s.producer with
    | .idle => {s with producer:=.begun recvpkt}
    | _ => s
  | .produce => phlAddRxPktStep s
  | .rtwPhlQueryRxPkt =>
    match s.consumer with
    | .idle => {s with consumer:=.begun}
    | _ => s
  | .consume => rtwPhlQueryRxPktStep s

def Rx.start (base : Nat) (entry : Nat → Option α) : Rx α :=
  {ring:=⟨base,base,entry⟩, producer:=.idle, consumer:=.idle, added:=[], got:=[]}
end Rtl8852au.Rings
