import Rtl8852au.CmdOfld
import Rtl8852au.Machine

namespace Rtl8852au.OfldAck
open CmdOfld

abbrev cmdOfldPollCnt : Nat := 1000

-- Where mac_add_cmd_ofld stands. `first` is a batch sent to make room for `cmd`.
inductive Pc where
  | away
  | room (cmd : RtwMacCmd)
  | begin (cmd : RtwMacCmd) (first : Bool)
  | mark (cmd : RtwMacCmd) (first : Bool)
  | poll (cmd : RtwMacCmd) (first : Bool) (cnt : Nat)
  | add (cmd : RtwMacCmd)
  | finish

-- `flying` are the batches handed to the bus and not answered yet, `checks` what the
-- checks of the answers returned, `lost` the answers the handler dropped.
structure Cmd where
  o : Ofld
  result : Bool
  pc : Pc
  flying : Nat
  checks : List MacRet
  lost : Nat

inductive CmdEvent where
  | macAddCmdOfld (cmd : RtwMacCmd) (ready : Bool)
  | go (plat : Platform) (drvRm : Bool)
  | rsp (result : Bool)

def Cmd.state (s : Cmd) (state : CmdState) : Cmd := {s with o:={s.o with cmdState:=state}}

-- chk_cmd_ofld_pkt is done, and cmd_ofld frees its buffer.
def Cmd.checked (s : Cmd) (ret : MacRet) (next : Pc) : Cmd := {s with o:=s.o.freeBuf, checks:=s.checks ++ [ret], pc:=next}

def chkCmdOfldPkt (s : Cmd) (cmd : RtwMacCmd) (first : Bool) (cnt : Nat) (drvRm : Bool) : Cmd :=
  if cnt - 1 = 0 then s.checked .pollTo .finish
  else if s.o.cmdState = .rcvd then
    if s.result then s.checked .fioOfld .finish
    else s.checked .success (if first then .add cmd else .finish)
  else if drvRm then s.checked .drvRm .finish
  else {s with pc:=.poll cmd first (cnt-1)}

def Cmd.go (s : Cmd) (plat : Platform) (drvRm : Bool) : Cmd :=
  match s.pc with
  | .away => s
  | .room cmd =>
    match s.o.room with
    | .fits => {s with pc:=.add cmd}
    | .full o => {s with o:=o, pc:=.begin cmd true}
    | .broken => {s with pc:=.finish}
  | .begin cmd first =>
    match transmit plat s.o with
    | (o,.success) => {s with o:=o, pc:=.mark cmd first, flying:=s.flying + 1}
    | (o,_) => {s with o:=o, pc:=.finish}
  -- The state the handler tests is written only here.
  | .mark cmd first => {s.state .sending with pc:=.poll cmd first cmdOfldPollCnt}
  | .poll cmd first cnt => chkCmdOfldPkt s cmd first cnt drvRm
  | .add cmd =>
    match addCmd plat s.o cmd with
    | (o,.success) => {s with o:=o, pc:=if cmd.lc = 0 then .finish else .begin cmd false}
    | (o,_) => {s with o:=o, pc:=.finish}
  | .finish => {s.state .idle with pc:=.away}

def c2hCmdOfldRspHdl (s : Cmd) (result : Bool) : Cmd :=
  let s := {s with result:=result}
  if s.o.cmdState ≠ .sending then {s with lost:=s.lost + 1} else s.state .rcvd

-- The firmware answers a batch that was sent, once.
def Cmd.step (s : Cmd) : CmdEvent → Cmd
  | .macAddCmdOfld cmd ready =>
    match s.pc with
    | .away => if cmd.misplaced ∨ ¬ ready ∨ s.o.cmdState ≠ .idle then s else {s.state .proc with pc:=.room cmd}
    | _ => s
  | .go plat drvRm => s.go plat drvRm
  | .rsp result => if s.flying = 0 then s else c2hCmdOfldRspHdl {s with flying:=s.flying - 1} result

def Cmd.init : Cmd := ⟨.init,false,.away,0,[],0⟩

inductive PktOp where
  | add | del | read
  deriving DecidableEq

inductive H2cState where
  | idle | sending | rcvd | done | error
  deriving DecidableEq

inductive PktPc where
  | away
  | begun (op : PktOp)
  | mark (op : PktOp)
  deriving DecidableEq

-- Both are asked for with each packet, and come in this order.
inductive Ack where
  | rcv
  | done (op : PktOp)
  deriving DecidableEq

-- `flight` are the acknowledgements still to come, `settled` what a done-ack left for
-- which command and which return value of the firmware.
structure Pkt where
  state : H2cState
  lastOp : Option PktOp
  idBitmap : Nat → Bool
  freeIdCount : Nat
  usedIdCount : Nat
  pc : PktPc
  flight : List Ack
  settled : List (PktOp × Bool × H2cState)
  lost : Nat

abbrev pktOfldMaxCount : Nat := 256

-- What follows PLTFM_TX or stands before it.
inductive Tx where
  | ok | noPacket | refused
  deriving DecidableEq

inductive PktEvent where
  | call (op : PktOp) (name : Nat) (ready : Bool)
  | go (tx : Tx)
  | rsp (op : PktOp) (name : Nat) (len : Nat)
  | ack (ret : Bool)
  | macPktOfldPacket (malloc : Bool)

section
variable (s : Pkt)

def admitted (op : PktOp) (name : Nat) (ready : Bool) : Bool :=
  ready && (match op with
    | .add => s.freeIdCount != 0
    | .del => name != pktOfldMaxCount - 1 && s.idBitmap name && s.usedIdCount != 0
    | .read => name != pktOfldMaxCount - 1 && s.idBitmap name) && s.state == .idle

def Pkt.go (tx : Tx) : Pkt :=
  match s.pc with
  | .away => s
  | .begun op =>
    match tx with
    | .ok => {s with flight:=s.flight ++ [.rcv,.done op], pc:=.mark op}
    | .noPacket => {s with pc:=.away}
    | .refused => {s with state:=.idle, pc:=.away}
  | .mark op => {s with lastOp:=some op, pc:=.away}

def c2hPktOfldRspHdl (op : PktOp) (name len : Nat) : Pkt :=
  if len = 0 then s
  else
    match op with
    | .add => {s with
        idBitmap := Function.update s.idBitmap name true
        freeIdCount := u16Sub s.freeIdCount 1
        usedIdCount := u16Add s.usedIdCount 1}
    | .del => {s with
        idBitmap := Function.update s.idBitmap name false
        freeIdCount := u16Add s.freeIdCount 1
        usedIdCount := u16Sub s.usedIdCount 1}
    | .read => s

def c2hFwofldRcvAckHdl : Pkt := if s.state = .sending then {s with state:=.rcvd} else {s with lost:=s.lost + 1}

def doneState (ret : Bool) : H2cState := if ¬ ret then .error else if s.lastOp = some .read then .done else .idle

def c2hFwofldDoneAckHdl (op : PktOp) (ret : Bool) : Pkt :=
  if s.state = .rcvd then {s with state:=doneState s ret, settled:=s.settled ++ [(op,ret,doneState s ret)]}
  else {s with lost:=s.lost+1, settled:=s.settled ++ [(op,ret,s.state)]}

def Pkt.step : PktEvent → Pkt
  | .call op name ready =>
    match s.pc with
    | .away => if admitted s op name ready then {s with state:=.sending, pc:=.begun op} else s
    | _ => s
  | .go tx => s.go tx
  | .rsp op name len => c2hPktOfldRspHdl s op name len
  | .ack ret =>
    match s.flight with
    | [] => s
    | .rcv :: rest => c2hFwofldRcvAckHdl {s with flight:=rest}
    | .done op :: rest => c2hFwofldDoneAckHdl {s with flight:=rest} op ret
  | .macPktOfldPacket malloc => if s.state = .done ∧ malloc then {s with state:=.idle} else s
end

def Pkt.init : Pkt where
  state := .idle
  lastOp := none
  idBitmap := fun _ => false
  freeIdCount := pktOfldMaxCount - 1
  usedIdCount := 0
  pc := .away
  flight := []
  settled := []
  lost := 0
end Rtl8852au.OfldAck
