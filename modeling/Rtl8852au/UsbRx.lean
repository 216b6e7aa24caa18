import Rtl8852au.Machine
import Rtl8852au.PhlQueue

namespace Rtl8852au.UsbRx
open PhlQueue

def wlanInMpduPipeIdx : Nat := 0

inductive RxType where
  | wifi
  | ppduStatus
  | other
  deriving DecidableEq

structure PhlRx where
  type : RxType
  rxbufPtr : Option Nat
  deriving DecidableEq

structure RxBuf where
  transferLen : Nat
  pipeIdx : Nat
  pktcnt : Nat

-- `urbs` are the buffers a bulk-in URB is in flight for, `out` the packets that
-- were handed over and are not recycled yet, `idleCnt` counts the packets of the
-- pool. `taken` and `returned` count how often a buffer left idle_rxbuf_list and
-- how often it was put back.
structure Ring where
  idle : PhlQueue Nat
  busy : PhlQueue Nat
  pend : PhlQueue Nat
  rxBuf : Nat → RxBuf
  idleCnt : Nat
  urbs : List Nat
  out : List PhlRx
  taken : Nat → Nat
  returned : Nat → Nat

def Ring.setBuf (s : Ring) (b : Nat) (f : RxBuf → RxBuf) : Ring := {s with rxBuf:=Function.update s.rxBuf b (f (s.rxBuf b))}
def bump (f : Nat → Nat) (b : Nat) : Nat → Nat := Function.update f b (f b + 1)

-- phl_release_rxbuf_usb: what it does under the lock of the buffer, and the push
-- behind it. Where it is called by phl_recycle_rx_buf (`rx`) the packet is put back
-- into its pool after that.
inductive Release where
  | count (b : Nat) (rx : Bool)
  | push (b : Nat) (rx : Bool)
  | freeRx

def Release.next (s : Ring) : Release → Ring × Option Release
  | .count b rx =>
    let left := (s.rxBuf b).pktcnt - 1
    let s := s.setBuf b fun buf => {buf with pktcnt:=left}
    if left = 0 then (s,some (.push b rx)) else (s,if rx then some .freeRx else none)
  | .push b rx => ({s with idle:=s.idle.pqPush b .tail,returned:=bump s.returned b},if rx then some .freeRx else none)
  | .freeRx => ({s with idleCnt:=s.idleCnt + 1},none)

def phlRecycleRxBuf (p : PhlRx) : Release :=
  match p.rxbufPtr with
  | some b => .count b true
  | none => .freeRx

-- Calls in progress, each before its next list move or call. `take` to `unsent` are
-- `_phl_in_token_usb`, `complete` to `again` are phl_pend_rxbuf_usb.
inductive Call where
  | take (pipe : Nat)
  | query (b pipe : Nat)
  | send (b : Nat)
  | unsent (b : Nat)
  | complete (b len : Nat) (ok : Bool)
  | pend (b len : Nat) (ok : Bool)
  | again (b : Nat)
  | back (r : Release)

-- `hal` tells whether rtw_hal_query_info succeeds, `urb` whether os_send_usb_in_token
-- does.
def Call.next (s : Ring) (hal urb : Bool) : Call → Ring × Option Call
  | .take pipe =>
    match s.idle.pqPop .first with
    | some (b,rest) => ({s with idle:=rest,taken:=bump s.taken b},some (.query b pipe))
    | none => (s,none)
  | .query b pipe =>
    if hal then
      ({s.setBuf b fun buf => {buf with pipeIdx:=pipe} with busy:=s.busy.pqPush b .tail},some (.send b))
    else (s,none)
  | .send b => if urb then ({s with urbs:=b :: s.urbs},none) else (s,some (.unsent b))
  | .unsent b => ({s with busy:=s.busy.pqDelNode b},some (.back (.count b false)))
  | .complete b len ok =>
    if s.busy.queue ≠ [] then ({s with busy:=s.busy.pqDelNode b},some (.pend b len ok))
    else (s,some (.pend b len ok))
  | .pend b len ok =>
    if ok then
      ({s.setBuf b fun buf => {buf with transferLen:=len} with pend:=s.pend.pqPush b .tail},some (.again b))
    else (s,some (.back (.count b false)))
  | .again b => (s,some (.take (s.rxBuf b).pipeIdx))
  | .back r => ((r.next s).1,(r.next s).2.map .back)

structure Piece where
  ok : Bool
  type : RxType
  alignOffset : Int
  alloc : Bool

-- The receive tasklet: in the loop of phl_rx_usb (`phlRx` tells whether its variable
-- phl_rx is not NULL), in phl_get_single_rx, in phl_rx_process_usb.
inductive Pc where
  | sleep
  | check (phlRx : Bool)
  | got (b : Nat) (phlRx : Bool)
  | parse (b : Nat) (len : Int) (head : List PhlRx) (refCnt : Nat) (brel : Bool)
  | parsed (b : Nat) (head : List PhlRx) (refCnt : Nat) (brel : Bool)
  | process (pkts : List PhlRx)
  | back (r : Release) (pkts : List PhlRx)
  | drop (r : Release)

def keeps (piece : Piece) : Bool := !(decide (piece.type = .wifi) && piece.alloc)

-- One round of the loop of phl_get_single_rx. `ref_cnt` is a u8.
def phlGetSingleRx (s : Ring) (piece : Piece) (b : Nat) (len : Int) (head : List PhlRx) (refCnt : Nat) (brel : Bool) :
    Ring × Pc :=
  if s.idleCnt = 0 ∨ piece.ok = false then (s,.parsed b head refCnt brel)
  else
    let head := head ++ [⟨piece.type,if keeps piece then some b else none⟩]
    let refCnt := if keeps piece then (refCnt+1) % 256 else refCnt
    let brel := brel && !keeps piece
    ({s with idleCnt:=s.idleCnt - 1},
      if len - piece.alignOffset > 0 then .parse b (len-piece.alignOffset) head refCnt brel
      else .parsed b head refCnt brel)

def Pc.next (s : Ring) (piece : Piece) : Pc → Ring × Pc
  | .sleep => (s,.check false)
  | .check phlRx =>
    if s.pend.cnt = 0 then (s,.sleep)
    else
      match s.pend.pqPop .first with
      | some (b,rest) => ({s with pend:=rest},.got b phlRx)
      | none => (s,.sleep)
  | .got b phlRx =>
    if (s.rxBuf b).pipeIdx = wlanInMpduPipeIdx then (s,.parse b (s.rxBuf b).transferLen [] 0 true)
    else if phlRx then (s,.check true)
    else (s,.drop (.count b false))
  | .parse b len head refCnt brel => phlGetSingleRx s piece b len head refCnt brel
  | .parsed b head refCnt brel =>
    if head = [] then (s,.drop (.count b false))
    else if brel then (s,.back (.count b false) head)
    else (s.setBuf b fun buf => {buf with pktcnt:=refCnt},.process head)
  | .process [] => (s,.check true)
  | .process (p :: rest) =>
    match p.type with
    | .wifi => ({s with out:=s.out ++ [p]},.process rest)
    | _ => (s,.back (phlRecycleRxBuf p) rest)
  | .back r pkts =>
    match r.next s with
    | (s,some r) => (s,.back r pkts)
    | (s,none) => (s,.process pkts)
  | .drop r =>
    match r.next s with
    | (s,some r) => (s,.drop r)
    | (s,none) => (s,.check false)

structure Usb where
  ring : Ring
  calls : List Call
  pc : Pc

-- The start and the deferred timer call `_phl_in_token_usb`, a URB in flight completes,
-- somebody recycles a packet it was handed, a call or the tasklet goes on.
inductive Event where
  | inToken (pipe : Nat)
  | complete (b len : Nat) (ok : Bool)
  | recycle (i : Nat)
  | advance (j : Nat) (hal urb : Bool)
  | tasklet (piece : Piece)

def Usb.step (s : Usb) : Event → Usb
  | .inToken pipe => {s with calls:=s.calls ++ [.take pipe]}
  | .complete b len ok =>
    if b ∈ s.ring.urbs then
      {s with ring:={s.ring with urbs:=s.ring.urbs.erase b},calls:=s.calls ++ [.complete b len ok]}
    else s
  | .recycle i =>
    match s.ring.out[i]? with
    | some p => {s with ring:={s.ring with out:=s.ring.out.eraseIdx i},calls:=s.calls ++ [.back (phlRecycleRxBuf p)]}
    | none => s
  | .advance j hal urb =>
    match s.calls[j]? with
    | some call =>
      let next := call.next s.ring hal urb
      {s with ring:=next.1,calls:=s.calls.eraseIdx j ++ next.2.toList}
    | none => s
  | .tasklet piece =>
    let next := s.pc.next s.ring piece
    {s with ring:=next.1,pc:=next.2}

def Usb.init (n pool : Nat) : Usb :=
  ⟨⟨⟨List.range n,n⟩,.init,.init,fun _ => ⟨0,0,0⟩,pool,[],[],fun _ => 0,fun _ => 0⟩,[],.sleep⟩
end Rtl8852au.UsbRx
