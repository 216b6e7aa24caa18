import Mathlib.Data.List.FinRange
import Rtl8852au.Machine
import Rtl8852au.Slots

namespace Rtl8852au.Reorder
open Machine Function List

def seqModulo : Nat := 0x1000
def phlMaxAggWsize : Nat := 32
def htRxReorderBufTimeoutMs : Nat := 100

-- `u16` arguments are promoted to `int`, so the masked difference is the
-- mathematical difference modulo 4096 also where it is negative.
def seqSub (sq1 sq2 : Nat) : Nat := (((sq1 : Int) - sq2) % 4096).toNat
def seqInc (sq : Nat) : Nat := (sq+1) % seqModulo
def seqLess (sq1 sq2 : Nat) : Bool := decide (seqSub sq1 sq2 > seqModulo/2)

structure RMetaData where
  seq : Fin 4096
  tid : Nat := 0
  bc : Bool := false
  mc : Bool := false
  qos : Bool := true
  qNull : Bool := false
  moreFrag : Bool := false
  fragNum : Nat := 0
  amsduCut : Bool := false
  lastMsdu : Bool := false
  deriving DecidableEq,Repr

-- `arrival` is the identity of the packet: two arrivals are never the same
-- packet, also when the driver reuses the buffer of the first.
structure RxPkt where
  arrival : Nat
  mdata : RMetaData
  length : Nat := 0
  deriving DecidableEq,Repr

def RxPkt.seq (pkt : RxPkt) : Nat := pkt.mdata.seq.val

structure TidAmpduRx where
  reorderBuf : Nat → Option RxPkt
  reorderTime : Nat → Nat
  headSeqNum : Nat
  storedMpduNum : Nat
  ssn : Nat
  bufSize : Nat
  tid : Nat
  started : Bool
  removed : Bool

def reorderIndex (r : TidAmpduRx) (seq : Nat) : Nat := seqSub seq r.ssn % r.bufSize

-- What a call made under `tid_rx_lock` can change: the session, the packets
-- put on a `frames` list and those given back for recycling (both oldest
-- first), and whether the station's reorder timer is armed.
structure Ctx where
  r : TidAmpduRx
  frames : List RxPkt
  recycled : List RxPkt
  reorderTimer : Bool

def Ctx.setHead (c : Ctx) (head : Nat) : Ctx := {c with r:={c.r with headSeqNum:=head}}
def Ctx.start (c : Ctx) : Ctx := {c with r:={c.r with started:=true}}
def Ctx.recycle (c : Ctx) (pkt : RxPkt) : Ctx := {c with recycled:=c.recycled ++ [pkt]}

def phlReleaseReorderFrame (c : Ctx) (index : Nat) : Ctx :=
  let c := match c.r.reorderBuf index with
    | none => c
    | some pkt =>
      {c with
        r := {c.r with
          storedMpduNum := (c.r.storedMpduNum + 0xffff) % 0x10000
          reorderBuf := update c.r.reorderBuf index none}
        frames := c.frames ++ [pkt]}
  c.setHead (seqInc c.r.headSeqNum)

-- `phl_recycle_rx_buf` only warns on NULL.
def phlRecycleRxBuf (c : Ctx) : Option RxPkt → Ctx
  | none => c
  | some pkt => c.recycle pkt

-- The slots strictly between `index` and `j`, whose packets the timeout branch
-- recycles before it releases slot `j`.
def recycleBetween (c : Ctx) (index j : Nat) : Ctx :=
  (iterate (fun w : Ctx × Nat => w.2 != j)
    (fun w => (phlRecycleRxBuf w.1 (w.1.r.reorderBuf w.2),(w.2+1) % w.1.r.bufSize))
    c.r.bufSize (c,(index+1) % c.r.bufSize)).1

structure Walk where
  c : Ctx
  j : Nat
  skipped : Nat
  pending : Bool

def Walk.more (index : Nat) (w : Walk) : Bool := !w.pending && w.j != index

def Walk.body (index curTime : Nat) (w : Walk) : Walk :=
  let next := (w.j+1) % w.c.r.bufSize
  match w.c.r.reorderBuf w.j with
  | none => {w with skipped:=w.skipped+1,j:=next}
  | some _ =>
    if w.skipped ≠ 0 ∧ curTime < (w.c.r.reorderTime w.j + htRxReorderBufTimeoutMs) % 0x100000000 then
      {w with pending:=true}
    else
      let c := phlReleaseReorderFrame (recycleBetween w.c index w.j) w.j
      {w with c:=c.setHead ((c.r.headSeqNum+w.skipped) % seqModulo),skipped:=0,j:=next}

def timeoutWalk (c : Ctx) (index curTime : Nat) : Walk :=
  iterate (Walk.more index) (Walk.body index curTime) c.r.bufSize ⟨c,(index+1) % c.r.bufSize,1,false⟩

-- `while (r->reorder_buf[index])` with `index` recomputed from the moving head.
def releaseReady (c : Ctx) : Ctx :=
  iterate (fun c => (c.r.reorderBuf (reorderIndex c.r c.r.headSeqNum)).isSome)
    (fun c => phlReleaseReorderFrame c (reorderIndex c.r c.r.headSeqNum)) c.r.bufSize c

-- The search for a packet left in the buffer. `(index - 1) % buf_size` is a C
-- remainder: it is -1 when `index` is 0, so only a stored packet stops it then.
def searchMore (r : TidAmpduRx) (j : Nat) : Bool :=
  let index : Nat := r.headSeqNum % r.bufSize
  decide ((j : Int) ≠ Int.tmod ((index : Int) - 1) r.bufSize) && (r.reorderBuf j).isNone

def searchStored (r : TidAmpduRx) : Nat :=
  iterate (searchMore r) (fun j => (j+1) % r.bufSize) r.bufSize (r.headSeqNum % r.bufSize)

def setReleaseTimer (c : Ctx) : Ctx := if c.r.removed then c else {c with reorderTimer:=true}

def phlReorderRelease (curTime : Nat) (c : Ctx) : Ctx :=
  let index := reorderIndex c.r c.r.headSeqNum
  let finish (c : Ctx) : Ctx :=
    if c.r.storedMpduNum ≠ 0 then
      -- the timer is reached only when the search stops
      if searchMore c.r (searchStored c.r) then c else setReleaseTimer c
    else {c with reorderTimer:=false}
  if (c.r.reorderBuf index).isNone ∧ c.r.storedMpduNum ≠ 0 then
    let w := timeoutWalk c index curTime
    if w.pending then setReleaseTimer w.c else finish w.c
  else finish (releaseReady c)

def phlReleaseReorderFrames (c : Ctx) (headSeqNum : Nat) : Ctx :=
  (iterate (fun c => seqLess c.r.headSeqNum headSeqNum && c.r.storedMpduNum != 0)
    (fun c => phlReleaseReorderFrame c (reorderIndex c.r c.r.headSeqNum)) seqModulo c).setHead headSeqNum

section
variable (storeTime releaseTime : Nat) (pkt : RxPkt) (c : Ctx)

-- Insertion into the buffer and the release that follows it; the two reads of
-- the clock are independent.
def storeReorder : Ctx :=
  let index := reorderIndex c.r pkt.seq
  phlReorderRelease releaseTime
    {c with r := {c.r with
      reorderBuf := update c.r.reorderBuf index (some pkt)
      reorderTime := update c.r.reorderTime index storeTime
      storedMpduNum := (c.r.storedMpduNum+1) % 0x10000}}

-- The window test of an MPDU at or after the head.
def makeRoom (c : Ctx) (mpduSeqNum : Nat) : Ctx :=
  if !seqLess mpduSeqNum (c.r.headSeqNum+c.r.bufSize) then
    phlReleaseReorderFrames c (seqInc (seqSub mpduSeqNum c.r.bufSize))
  else c

-- `false` hands the packet back to the caller, who puts it on `frames`.
def phlManageStaReorderBuf : Bool × Ctx :=
  let mpduSeqNum := pkt.seq
  if !c.r.started && seqLess mpduSeqNum c.r.headSeqNum then (false,c)
  else
    let c := c.start
    if seqLess mpduSeqNum c.r.headSeqNum then (true,c.recycle pkt)
    else
      let c := makeRoom c mpduSeqNum
      if (c.r.reorderBuf (reorderIndex c.r mpduSeqNum)).isSome then (true,c.recycle pkt)
      else if mpduSeqNum = c.r.headSeqNum ∧ c.r.storedMpduNum = 0 then
        (false,c.setHead (seqInc c.r.headSeqNum))
      else (true,storeReorder storeTime releaseTime pkt c)

-- The part of `phl_rx_reorder` under the lock with its direct-pass branch.
def rxReorderLocked : Ctx :=
  match phlManageStaReorderBuf storeTime releaseTime pkt c with
  | (true,c) => c
  | (false,c) => {c with frames:=c.frames ++ [pkt]}
end

def rxBarLocked (seq : Nat) (c : Ctx) : Ctx := if seqLess seq c.r.headSeqNum then c else phlReleaseReorderFrames c seq

def phlTidAmpduRxAlloc (ssn tid bufSize : Nat) : TidAmpduRx := ⟨fun _ => none,fun _ => 0,ssn,0,ssn,bufSize,tid,false,false⟩

-- The packets in the buffer, in slot order.
def stored (r : TidAmpduRx) : List RxPkt := Slots.contents r.bufSize r.reorderBuf

def phlTidAmpduRxFree (recycled : List RxPkt) (r : TidAmpduRx) : List RxPkt :=
  (range r.bufSize).foldl (fun recycled i => match r.reorderBuf i with
    | none => recycled
    | some pkt => recycled ++ [pkt]) recycled

structure StaInfo where
  tidRx : Fin 8 → Option TidAmpduRx
  reorderTimer : Bool
  frames : List RxPkt
  recycled : List RxPkt

inductive PhlStatus where
  | success
  | failure
  | resource
  deriving DecidableEq,Repr

def StaInfo.init : StaInfo := ⟨fun _ => none,false,[],[]⟩

section
variable (sta : StaInfo)

-- Runs `op` on the session of `tid` with the station's lists and timer.
def StaInfo.onTid (tid : Fin 8) (op : Ctx → Ctx) : StaInfo :=
  match sta.tidRx tid with
  | none => sta
  | some r =>
    let c := op ⟨r,sta.frames,sta.recycled,sta.reorderTimer⟩
    ⟨update sta.tidRx tid (some c.r),c.reorderTimer,c.frames,c.recycled⟩

def StaInfo.replace (tid : Fin 8) (next : Option TidAmpduRx) : StaInfo :=
  {sta with
    tidRx := update sta.tidRx tid next
    recycled := match sta.tidRx tid with
      | none => sta.recycled
      | some old => phlTidAmpduRxFree sta.recycled old}

-- The three allocations succeed or fail together in `alloc`. An out-of-range
-- TID is only rejected after them.
def rtwPhlStartRxBaSession (startSeqNum baPolicy tid bufSize : Nat) (alloc : Bool) :
    PhlStatus × StaInfo :=
  if baPolicy ≠ 0 then (.failure,sta)
  else
    let bufSize := if bufSize = 0 then phlMaxAggWsize else bufSize
    if !alloc then (.resource,sta)
    else if valid : tid < 8 then
      (.success,sta.replace ⟨tid,valid⟩ (some (phlTidAmpduRxAlloc startSeqNum tid bufSize)))
    else (.failure,sta)

def rtwPhlStopRxBaSession (tid : Nat) : StaInfo := if valid : tid < 8 then sta.replace ⟨tid,valid⟩ none else sta

-- `found` is the result of the two station lookups (by MAC id, then by
-- transmitter address) for this station; the rest is `phl_rx_reorder`.
def phlRxReorder (appendFcs found : Bool) (pkt : RxPkt) (storeTime releaseTime : Nat) :
    PhlStatus × StaInfo :=
  let cut := appendFcs && !(pkt.mdata.amsduCut && !pkt.mdata.lastMsdu)
  let dropFrame := (PhlStatus.failure,{sta with recycled:=sta.recycled ++ [pkt]})
  if cut && decide (pkt.length ≤ 4) then dropFrame
  else
    let pkt := if cut then {pkt with length:=pkt.length - 4} else pkt
    let dontReorder := (PhlStatus.success,{sta with frames:=sta.frames ++ [pkt]})
    if pkt.mdata.bc || pkt.mdata.mc || !pkt.mdata.qos || pkt.mdata.qNull || pkt.mdata.moreFrag ||
        pkt.mdata.fragNum != 0 || !found then dontReorder
    else if valid : pkt.mdata.tid < 8 then
      match sta.tidRx ⟨pkt.mdata.tid,valid⟩ with
      | none => dontReorder
      | some _ => (.success,sta.onTid ⟨pkt.mdata.tid,valid⟩ (rxReorderLocked storeTime releaseTime pkt))
    else (.failure,{sta with recycled:=sta.recycled ++ [pkt]})

def rtwPhlRxBar (tid : Fin 8) (seq : Nat) : StaInfo := sta.onTid tid (rxBarLocked seq)

-- Each session reads the clock on its own.
def phlStaRxReorderTimerExpired (clock : Fin 8 → Nat) : StaInfo :=
  (finRange 8).foldl (fun sta tid => sta.onTid tid (phlReorderRelease (clock tid))) sta

-- The sessions are marked removed, the timer is cancelled, then each is freed.
def phlFreeRxReorder : StaInfo := (finRange 8).foldl (fun sta tid => sta.replace tid none) {sta with reorderTimer:=false}

inductive StaEvent where
  | addba (startSeqNum : Fin 4096) (baPolicy tid : Nat) (bufSize : Fin 257) (alloc : Bool)
  | delba (tid : Nat)
  | mpdu (appendFcs found : Bool) (pkt : RxPkt) (storeTime releaseTime : Nat)
  | bar (tid : Fin 8) (seq : Fin 4096)
  | timer (clock : Fin 8 → Nat)
  | disconnect

def staStep : StaEvent → StaInfo
  | .addba startSeqNum baPolicy tid bufSize alloc => (rtwPhlStartRxBaSession sta startSeqNum baPolicy tid bufSize alloc).2
  | .delba tid => rtwPhlStopRxBaSession sta tid
  | .mpdu appendFcs found pkt storeTime releaseTime => (phlRxReorder sta appendFcs found pkt storeTime releaseTime).2
  | .bar tid seq => rtwPhlRxBar sta tid seq
  | .timer clock => phlStaRxReorderTimerExpired sta clock
  | .disconnect => phlFreeRxReorder sta
end

end Rtl8852au.Reorder
