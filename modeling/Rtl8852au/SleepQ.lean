import Mathlib.Data.List.FinRange
import Rtl8852au.Machine

namespace Rtl8852au.SleepQ
open Function

inductive Ac where
  | be
  | bk
  | vi
  | vo
  deriving DecidableEq,Repr

def acOf (priority : Nat) : Ac :=
  match priority with
  | 1 | 2 => .bk
  | 4 | 5 => .vi
  | 6 | 7 => .vo
  | _ => .be

structure Frame where
  id : Nat
  priority : Nat
  txreqCnt : Nat
  triggered : Bool
  mdata : Bool
  eosp : Bool
  hdrMdata : Bool
  deriving DecidableEq,Repr

structure Conf where
  asoc : Bool
  delivery : Ac → Bool
  trigger : Ac → Bool
  hasLegacyAc : Bool
  both : ∀ ac, trigger ac = delivery ac
  legacy : hasLegacyAc ↔ ∃ ac, delivery ac = false

structure Sta extends Conf where
  sleep : Bool
  sleepQ : List Frame
  sleepqLen : Nat
  sleepqAcLen : Nat

structure Bmc where
  sleepQ : List Frame
  sleepqLen : Nat

inductive Kind where
  | wakeup
  | poll
  | trigger
  deriving DecidableEq,Repr

structure Release where
  kind : Kind
  delivery : Ac → Bool
  queue : List Frame
  out : List (Frame × List Frame)

structure Ap (n : Nat) where
  stas : Fin n → Option Sta
  staDz : Nat → Bool
  tim : Nat → Bool
  bmc : Option Bmc
  accepted : List Nat
  handed : List Nat
  freed : List Nat
  part : List Nat
  releases : List Release

def aid (i : Fin n) : Nat := i.val+1
def dec (count : Nat) : Nat := if count = 0 then 2^32 - 1 else count - 1
def Sta.uapsd (sta : Sta) (f : Frame) : Bool := sta.delivery (acOf f.priority)

def Sta.queue (sta : Sta) (f : Frame) : Sta := {sta with
  sleepQ := sta.sleepQ ++ [f]
  sleepqLen := sta.sleepqLen+1
  sleepqAcLen := if sta.uapsd f then sta.sleepqAcLen + 1 else sta.sleepqAcLen}

-- Whether a queued frame sets the TIM bit.
def Sta.marks (sta : Sta) (f : Frame) : Bool := (sta.hasLegacyAc && !sta.uapsd f) || (!sta.hasLegacyAc && sta.uapsd f)

namespace Ap

def setSta (s : Ap n) (i : Fin n) (sta : Sta) : Ap n := {s with stas:=update s.stas i (some sta)}

section
variable (s : Ap n) (bit : Nat) (value : Bool)

def setTim : Ap n := {s with tim:=update s.tim bit value}
def setDz : Ap n := {s with staDz:=update s.staDz bit value}
@[simp] theorem setTim_here : (s.setTim bit value).tim bit = value := update_self ..

@[simp] theorem setDz_here : (s.setDz bit value).staDz bit = value := update_self ..
end

theorem setTim_other {s : Ap n} (other : b ≠ bit) : (s.setTim bit value).tim b = s.tim b := update_of_ne other _ _
theorem setDz_other {s : Ap n} (other : b ≠ bit) : (s.setDz bit value).staDz b = s.staDz b := update_of_ne other _ _
@[simp] theorem setTim_staDz (s : Ap n) (bit : Nat) (value : Bool) : (s.setTim bit value).staDz = s.staDz := rfl

@[simp] theorem setDz_tim (s : Ap n) (bit : Nat) (value : Bool) : (s.setDz bit value).tim = s.tim := rfl
end Ap

def coreTxInitXmitframe (id priority txreqCnt : Nat) : Frame where
  id
  priority
  txreqCnt
  triggered := false
  mdata := false
  eosp := false
  hdrMdata := false

def coreTxPreparePhl (f : Frame) : Frame := {f with hdrMdata:=f.mdata}

def accept (s : Ap n) (i : Fin n) (sta : Sta) (f : Frame) : Ap n :=
  let s := {s.setSta i (sta.queue f) with accepted:=s.accepted ++ [f.id]}
  if sta.marks f then s.setTim (aid i) true else s

-- A group frame, here one without a station, is not held back: with
-- `BMC_ON_HIQ` the hardware does it.
def xmitframeEnqueueForSleepingSta (s : Ap n) (receiver : Option (Fin n)) (f : Frame) : Ap n × Bool :=
  match receiver with
  | none => (s,false)
  | some i =>
    match s.stas i with
    | none => (s,false)
    | some sta =>
      if !sta.asoc then (s,false)
      else if f.triggered then (s,false)
      else if !(sta.sleep && s.staDz (aid i)) then (s,false)
      else (accept s i sta f,true)

section
variable (phl : Nat → Nat → Bool) (s : Ap n)

-- `core_tx_call_phl` stops at the first request that PHL refuses, and
-- `core_tx_free_xmitframe` is called once then: it frees the frame when that
-- makes one for each request.
def rtwIntfXmitframeEnqueue (f : Frame) : Ap n :=
  if (List.range f.txreqCnt).all (phl f.id) then {s with handed:=s.handed ++ [f.id]}
  else if f.txreqCnt ≤ 1 then {s with freed:=s.freed ++ [f.id]}
  else {s with part:=s.part ++ [f.id]}

def release (r : Release) : Ap n :=
  r.out.foldl (fun s p => rtwIntfXmitframeEnqueue phl s p.1) {s with releases:=s.releases ++ [r]}

-- The pending queues of the station go into its sleep queue, `pending` being
-- what stands in them.
def stopStaXmit (s : Ap n) (i : Fin n) (pending : List Frame) : Ap n :=
  match s.stas i with
  | none => s
  | some sta =>
    let s := (s.setSta i {sta with sleep:=true}).setDz (aid i) true
    pending.foldl (fun s f => (xmitframeEnqueueForSleepingSta s (some i) {f with triggered:=false}).1) s

def wakeupFrame (sta : Sta) (f : Frame) (rest : List Frame) : Sta × Frame :=
  let sta := {sta with sleepQ:=rest, sleepqLen:=dec sta.sleepqLen}
  let f := {f with mdata:=decide (0 < sta.sleepqLen)}
  if sta.trigger (acOf f.priority) then
    let sta := {sta with sleepqAcLen:=dec sta.sleepqAcLen}
    (sta,{f with mdata:=decide (0 < sta.sleepqAcLen), eosp:=decide (sta.sleepqAcLen = 0), triggered:=true})
  else (sta,{f with triggered:=true})

def wakeupLoop (sta : Sta) : List Frame → Sta × List (Frame × List Frame)
  | [] => (sta,[])
  | f :: rest =>
    let (sta,f) := wakeupFrame sta f rest
    let (sta,out) := wakeupLoop sta rest
    (sta,(f,rest) :: out)

def bmcLoop (bmc : Bmc) : List Frame → Bmc × List (Frame × List Frame)
  | [] => (bmc,[])
  | f :: rest =>
    let bmc := {sleepQ:=rest, sleepqLen:=dec bmc.sleepqLen}
    let (bmc',out) := bmcLoop bmc rest
    (bmc',({f with mdata:=decide (0 < bmc.sleepqLen), triggered:=true},rest) :: out)

def anyoneDozes (s : Ap n) : Bool := (List.finRange n).any fun i => s.staDz (aid i)
def clearGroup (s : Ap n) (bmc : Bmc) : Ap n := if bmc.sleepqLen = 0 then (s.setTim 0 false).setDz 0 false else s

def wakeupBmc : Ap n :=
  match s.bmc with
  | none => s
  | some bmc =>
    if anyoneDozes s then s
    else
      let (bmc',out) := bmcLoop bmc bmc.sleepQ
      clearGroup (release phl {s with bmc:=some bmc'} {kind:=.wakeup, delivery:=fun _ => false, queue:=bmc.sleepQ, out}) bmc'

def wakeupStaToXmit (i : Fin n) : Ap n :=
  match s.stas i with
  | none => s
  | some sta =>
    let (sta',out) := wakeupLoop sta sta.sleepQ
    let s := release phl (s.setSta i sta') {kind:=.wakeup, delivery:=sta.delivery, queue:=sta.sleepQ, out}
    let s := if sta'.sleepqLen = 0 then ((s.setSta i {sta' with sleep:=false}).setTim (aid i) false).setDz (aid i) false else s
    wakeupBmc phl s

-- The frame at the head goes out, whatever its category is.
def rtwProccessPspoll (i : Fin n) (pollAid priority : Nat) : Ap n :=
  match s.stas i with
  | none => s
  | some sta =>
    if pollAid ≠ aid i then s
    else if sta.delivery (acOf priority) then s
    else if !(sta.sleep && s.staDz (aid i)) then s
    else match sta.sleepQ with
      | [] => if s.tim (aid i) then (s.setSta i {sta with sleepqLen:=0}).setTim (aid i) false else s
      | f :: rest =>
        let sta' := {sta with sleepQ:=rest, sleepqLen:=dec sta.sleepqLen}
        let f := {f with mdata:=decide (0 < sta'.sleepqLen), triggered:=true}
        let s := release phl (s.setSta i sta') {kind:=.poll, delivery:=sta.delivery, queue:=sta.sleepQ, out:=[(f,rest)]}
        if sta'.sleepqLen = 0 then s.setTim (aid i) false else s

def deliverFrame (sta : Sta) (f : Frame) (left : List Frame) : Sta × Frame :=
  let sta := {sta with sleepQ:=left, sleepqLen:=dec sta.sleepqLen, sleepqAcLen:=dec sta.sleepqAcLen}
  (sta,{f with mdata:=decide (0 < sta.sleepqAcLen), eosp:=decide (sta.sleepqAcLen = 0), triggered:=true})

-- `kept` are the frames that were passed over. The last part says whether the
-- TIM bit is cleared.
def deliverLoop (sta : Sta) (kept : List Frame) : List Frame → Sta × List (Frame × List Frame) × Bool
  | [] => (sta,[],false)
  | f :: rest =>
    if !sta.trigger (acOf f.priority) then deliverLoop sta (kept ++ [f]) rest
    else
      let (sta,f) := deliverFrame sta f (kept ++ rest)
      let (sta',out,clear) := deliverLoop sta kept rest
      (sta',(f,kept ++ rest) :: out,(decide (sta.sleepqAcLen = 0) && !sta.hasLegacyAc) || clear)

def xmitDeliveryEnabledFrames (i : Fin n) : Ap n :=
  match s.stas i with
  | none => s
  | some sta =>
    let (sta',out,clear) := deliverLoop sta [] sta.sleepQ
    let s := release phl (s.setSta i sta') {kind:=.trigger, delivery:=sta.delivery, queue:=sta.sleepQ, out}
    if clear then s.setTim (aid i) false else s

def processWmmpsData (i : Fin n) (priority : Nat) : Ap n :=
  match s.stas i with
  | none => s
  | some sta =>
    if sta.sleep && sta.trigger (acOf priority) && decide (0 < sta.sleepqAcLen) then xmitDeliveryEnabledFrames phl s i else s
end

def rtwFreeStainfo (s : Ap n) (i : Fin n) : Ap n :=
  match s.stas i with
  | none => s
  | some sta =>
    ({s with
      stas := update s.stas i none
      freed := s.freed ++ sta.sleepQ.map Frame.id}.setDz (aid i) false).setTim (aid i) false

def join (s : Ap n) (i : Fin n) (conf : Conf) : Ap n :=
  match s.stas i with
  | some _ => s
  | none => s.setSta i {conf with sleep:=false, sleepQ:=[], sleepqLen:=0, sleepqAcLen:=0}

def leave (s : Ap n) (i : Fin n) : Ap n :=
  match s.stas i with
  | none => s
  | some sta => s.setSta i {sta with asoc:=false}

inductive Event (n : Nat) where
  | join (i : Fin n) (conf : Conf)
  | leave (i : Fin n)
  | free (i : Fin n)
  | enqueue (receiver : Option (Fin n)) (id priority txreqCnt : Nat)
  | stop (i : Fin n) (pending : List (Nat × Nat × Nat))
  | wakeup (i : Fin n) (phl : Nat → Nat → Bool)
  | poll (i : Fin n) (pollAid priority : Nat) (phl : Nat → Nat → Bool)
  | trigger (i : Fin n) (priority : Nat) (phl : Nat → Nat → Bool)

def prepared (id priority txreqCnt : Nat) : Frame := coreTxPreparePhl (coreTxInitXmitframe id priority txreqCnt)

def apStep (s : Ap n) : Event n → Ap n
  | .join i conf => join s i conf
  | .leave i => leave s i
  | .free i => rtwFreeStainfo s i
  | .enqueue receiver id priority txreqCnt => (xmitframeEnqueueForSleepingSta s receiver (prepared id priority txreqCnt)).1
  | .stop i pending => stopStaXmit s i (pending.map fun p => prepared p.1 p.2.1 p.2.2)
  | .wakeup i phl => wakeupStaToXmit phl s i
  | .poll i pollAid priority phl => rtwProccessPspoll phl s i pollAid priority
  | .trigger i priority phl => processWmmpsData phl s i priority

def startAp (n : Nat) (bmc : Bool) : Ap n where
  stas := fun _ => none
  staDz := fun _ => false
  tim := fun _ => false
  bmc := if bmc then some {sleepQ:=[], sleepqLen:=0} else none
  accepted := []
  handed := []
  freed := []
  part := []
  releases := []
end Rtl8852au.SleepQ
