import Mathlib.Data.List.Basic
import Rtl8852au.Words

namespace Rtl8852au.H2cAgg

abbrev fwcmdHdrLen : Nat := 8
abbrev wdBodyLen : Nat := 24
abbrev h2cLongDataLen : Nat := 2048
abbrev h2cAggSubHdrLen : Nat := 4

structure H2cPkt where
  name : Nat
  data : List UInt8
  admitted : data.length ≤ fwcmdHdrLen + h2cLongDataLen

def H2cPkt.dataLen (pkt : H2cPkt) : Nat := pkt.data.length
def align4Byte (len : Nat) : Nat := (len+3) % 2 ^ 32 / 4*4

def h2cPktAggregatable (len : Nat) : Prop := align4Byte len + wdBodyLen + fwcmdHdrLen + h2cAggSubHdrLen < h2cLongDataLen

instance : DecidablePred h2cPktAggregatable := fun _ => Nat.decLt _ _

structure SubH2c where
  len : Nat
  body : List UInt8
  src : H2cPkt

inductive Frame where
  | normal (pkt : H2cPkt)
  | agg (subs : List SubH2c)

def Frame.pkts : Frame → List H2cPkt
  | .normal pkt => [pkt]
  | .agg subs => subs.map SubH2c.src

def subsLen (subs : List SubH2c) : Nat := (subs.map (fun sub => sub.len + h2cAggSubHdrLen)).sum

inductive MacRet where
  | success | noBuf | noItem | bufAlloc | other
  deriving DecidableEq

-- What an allocation, a header, a descriptor or a transmission answers. A
-- transmission that the bus refuses gives the packet back to its pool itself.
inductive Answer where
  | ok | fail | failRecycled
  deriving DecidableEq

-- `rtlRecycleH2c` is whether that entry of the callback table is set, `signal`
-- whether a signal ends the wait for a mutex that its owner asks for again.
structure Platform where
  answer : Nat → Answer
  rtlRecycleH2c : Bool
  signal : Bool

-- rtw_plt_cb_init sets `tx` and `rtl_query_h2c` and leaves this one out.
def rtwPltCbInit (answer : Nat → Answer) (signal : Bool) : Platform := ⟨answer,false,signal⟩

inductive Buf where
  | pkt (name : Nat)
  | agg
  deriving DecidableEq

-- `asked` counts the answers taken, `sent` and `recycled` are what has left for the
-- chip and what has gone back to the pools, `unlocks` the releases of h2c_agg_lock.
structure Agg where
  h2cAggEn : Bool
  h2cAggPktNum : Nat
  queue : List H2cPkt
  locked : Bool
  aggH2cb : Option (List SubH2c)
  aggLen : Nat
  asked : Nat
  sent : List Frame
  recycled : List Buf
  unlocks : Nat

inductive Call where
  | enable (on : Bool)
  | enqueue (pkt : H2cPkt) (malloc : Bool)

def Agg.init : Agg :=
  {h2cAggEn := false, h2cAggPktNum := 0, queue := [], locked := false, aggH2cb := none, aggLen := 0
   asked := 0, sent := [], recycled := [], unlocks := 0}

def h2cAggEnqueue (s : Agg) (pkt : H2cPkt) (malloc : Bool) : Agg × MacRet :=
  if ¬ s.h2cAggEn then (s,.noItem)
  else if ¬ malloc then (s,.bufAlloc)
  else ({s with h2cAggPktNum:=s.h2cAggPktNum+1, queue:=s.queue ++ [pkt]},.success)

def Agg.call (s : Agg) : Call → Agg
  | .enable on => {s with h2cAggEn:=on}
  | .enqueue pkt malloc => (h2cAggEnqueue s pkt malloc).1

-- One round of the loop: go on, leave with a status, or call through a callback that
-- is not there.
inductive Turn where
  | next (s : Agg)
  | leave (ret : MacRet) (s : Agg)
  | nullCall

def Agg.ask (s : Agg) : Agg := {s with asked:=s.asked + 1}

section
variable (plat : Platform)

def Agg.query (s : Agg) (ret : MacRet) (onOk : Agg → Turn) : Turn :=
  match plat.answer s.asked with
  | .ok => onOk s.ask
  | _ => .leave ret s.ask

def pltfmTx (s : Agg) (frame : Frame) (buf : Buf) (onOk : Agg → Turn) : Turn :=
  match plat.answer s.asked with
  | .ok => onOk {s.ask with sent:=s.sent ++ [frame]}
  | .fail => .leave .other s.ask
  | .failRecycled => .leave .other {s.ask with recycled:=s.recycled ++ [buf]}

def macH2cAggTxSingleNormalH2c (s : Agg) (pkt : H2cPkt) (onOk : Agg → Turn) : Turn :=
  s.query plat .other (fun s => pltfmTx plat s (.normal pkt) (.pkt pkt.name) onOk)

def macH2cAggTxSingleAggH2c (s : Agg) (subs : List SubH2c) (onOk : Agg → Turn) : Turn :=
  s.query plat .other (fun s => s.query plat .other (fun s => pltfmTx plat s (.agg subs) .agg onOk))

def nextLen : List H2cPkt → Nat
  | [] => 0
  | next :: _ => next.dataLen

def alone (cur : H2cPkt) (rest : List H2cPkt) : Prop :=
  ¬ h2cPktAggregatable cur.dataLen ∨ rest = [] ∨ ¬ h2cPktAggregatable (nextLen rest)

instance : Decidable (alone cur rest) := inferInstanceAs (Decidable (_ ∨ _ ∨ _))

def closes (aggLen : Nat) (rest : List H2cPkt) : Prop :=
  rest = [] ∨ aggLen + align4Byte (nextLen rest) + h2cAggSubHdrLen ≥ h2cLongDataLen

instance : Decidable (closes aggLen rest) := inferInstanceAs (Decidable (_ ∨ _))

def subH2cLen (cur : H2cPkt) : Nat := align4Byte cur.dataLen + h2cAggSubHdrLen

def putSubH2c (s : Agg) (subs : List SubH2c) (cur : H2cPkt) (rest : List H2cPkt) : Turn :=
  if subsLen subs + subH2cLen cur > h2cLongDataLen then .leave .noItem s
  else
    let subs := subs ++ [⟨align4Byte cur.dataLen,cur.data,cur⟩]
    if ¬ plat.rtlRecycleH2c then .nullCall
    else
      let s := {s with
        aggH2cb := some subs
        aggLen := s.aggLen + subH2cLen cur
        queue := rest
        recycled := s.recycled ++ [.pkt cur.name]}
      if closes s.aggLen rest then
        macH2cAggTxSingleAggH2c plat s subs (fun s => .next {s with aggH2cb:=none, aggLen:=0})
      else .next s

def aggNode (s : Agg) (cur : H2cPkt) (rest : List H2cPkt) : Turn :=
  match s.aggH2cb with
  | some subs => putSubH2c plat s subs cur rest
  | none =>
    if alone cur rest then
      macH2cAggTxSingleNormalH2c plat s cur (fun s => .next {s with queue:=rest})
    else
      s.query plat .noBuf (fun s => putSubH2c plat {s with aggH2cb:=some [], aggLen:=wdBodyLen + fwcmdHdrLen} [] cur rest)

def aggLoop (plat : Platform) (s : Agg) : List H2cPkt → Turn
  | [] => .leave .success s
  | cur :: rest =>
    match aggNode plat s cur rest with
    | .next s => aggLoop plat s rest
    | stop => stop

inductive Out where
  | done (ret : MacRet) (s : Agg)
  | deadlock
  | nullCall

def Agg.emptied (s : Agg) : Agg := {s with queue:=[], h2cAggPktNum:=0}
def Agg.unlock (s : Agg) : Agg := {s with locked:=false, unlocks:=s.unlocks + 1}
def Agg.recycle (s : Agg) (bufs : List Buf) : Agg := {s with recycled:=s.recycled ++ bufs}

def macH2cAggFlush (s : Agg) : Out :=
  if s.locked ∧ ¬ plat.signal then .deadlock
  else if s.queue ≠ [] ∧ ¬ plat.rtlRecycleH2c then .nullCall
  else .done .success (s.recycle (s.queue.map (fun pkt => .pkt pkt.name))).emptied.unlock

def leaveTx (ret : MacRet) (s : Agg) : Out :=
  if ret = .success then .done ret s.emptied.unlock
  else
    match macH2cAggFlush plat s with
    | .done _ s =>
      if s.aggH2cb.isSome then
        if plat.rtlRecycleH2c then .done ret (s.recycle [.agg]).unlock else .nullCall
      else .done ret s.unlock
    | stop => stop

-- Taken with the lock free: the other takers of it hold it for one call each.
def macH2cAggTx (s : Agg) : Out :=
  let s := {s with locked:=true, aggH2cb:=none, aggLen:=0}
  match aggLoop plat s s.queue with
  | .leave ret s => leaveTx plat ret s
  | _ => .nullCall
end

end Rtl8852au.H2cAgg
