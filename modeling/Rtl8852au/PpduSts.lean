import Rtl8852au.Machine
import Rtl8852au.PhlQueue

namespace Rtl8852au.Psts
open Machine PhlQueue Function

def phlMaxPpduCnt : Nat := 8

structure RxMeta where
  bbSel : Nat
  longRxd : Nat
  ppduType : Nat
  ppduCnt : Nat
  rxRate : Nat
  rxGiLtf : Nat
  bw : Nat
  frameType : Nat
  deriving DecidableEq

structure PhyInfo where
  isValid : Bool
  rssi : Nat
  rssiPath : Fin 4 → Nat
  chIdx : Nat
  txBf : Nat
  frameType : Nat

inductive RxType where
  | wifi
  | ppduStatus
  | other
  deriving DecidableEq

-- `struct rtw_phl_rx_pkt`. `hdrType` is the type of the 802.11 header that
-- pkt_list[0] points at. Not in the code: `name` tells packets apart and `ppdu`
-- counts the PPDUs of the band on the air, of which ppdu_cnt has three bits.
structure RxPkt where
  name : Nat
  ppdu : Nat
  type : RxType
  mdata : RxMeta
  hdrType : Nat
  phyInfo : PhyInfo

structure PpduStsInfo where
  enPstsPerPkt : Bool
  pstsAmpdu : Bool
  ppduStsFilter : Nat
  enFakePsts : Bool
  enPpduSts : Fin 2 → Bool
  curPpduCnt : Fin 2 → Nat
  frames : Fin 2 → Nat → PhlQueue RxPkt

-- `handled` logs the calls of rx_handle_normal, marked where they come from
-- `_phl_rx_proc_frame_list`; `waited` the packets for which phl_rx_proc_wait_phy_sts
-- returned true; `dropped` what a pq_reset still found in its queue.
structure Rx where
  psts : PpduStsInfo
  handled : List (RxPkt × Bool)
  waited : List RxPkt
  recycled : List RxPkt
  dropped : List RxPkt

def hwBand (p : RxPkt) : Fin 2 := if p.mdata.bbSel > 0 then 1 else 0

section
variable (s : Rx) (band : Fin 2) (i : Nat)

def Rx.sts : PhlQueue RxPkt := s.psts.frames band i

def Rx.setSts (q : PhlQueue RxPkt) : Rx :=
  {s with psts:={s.psts with frames:=update s.psts.frames band (update (s.psts.frames band) i q)}}

def Rx.rxHandleNormal (s : Rx) (p : RxPkt) (queued : Bool) : Rx := {s with handled:=s.handled ++ [(p,queued)]}

def Rx.resetSts : Rx := {s.setSts band i (s.sts band i).pqReset with dropped:=s.dropped ++ (s.sts band i).queue}

def popAndHandle (band : Fin 2) (i : Nat) (s : Rx) : Rx :=
  match (s.sts band i).pqPop .first with
  | some (p,rest) => (s.setSts band i rest).rxHandleNormal p true
  | none => s

-- while (true == pq_pop(..)), which takes no more rounds than there are packets.
def phlRxProcFrameList : Rx :=
  if (s.sts band i).cnt = 0 then s
  else iterate (fun s => ((s.sts band i).pqPop .first).isSome) (popAndHandle band i) (s.sts band i).queue.length s
end

structure Radio where
  maRssiMgnt : Nat
  maRssiData : Nat
  maRssiCtrl : Nat
  maRssiUnknown : Nat
  curCh : Nat → Nat

def maRssi (radio : Radio) : Nat → Nat
  | 0 => radio.maRssiMgnt
  | 1 => radio.maRssiCtrl
  | 2 => radio.maRssiData
  | _ => radio.maRssiUnknown

def statusInfo (radio : Radio) (psts : PpduStsInfo) (phlRx ppduSts : RxPkt) : PhyInfo :=
  let info := {ppduSts.phyInfo with frameType:=phlRx.hdrType}
  if info.isValid = false ∧ psts.enFakePsts then
    let rssi := maRssi radio phlRx.mdata.frameType
    {info with rssi:=rssi,rssiPath:=fun _ => rssi,chIdx:=radio.curCh phlRx.mdata.bbSel,isValid:=true}
  else info

-- The do .. while loop over the queued frames.
def copyPhyInfo (ampdu : Bool) (info : PhyInfo) : List RxPkt → List RxPkt
  | [] => []
  | p :: rest => {p with phyInfo:=info} :: if ampdu then copyPhyInfo ampdu info rest else rest

def sameRate (phlRx ppduSts : RxPkt) : Prop :=
  phlRx.mdata.rxRate = ppduSts.mdata.rxRate ∧ phlRx.mdata.bw = ppduSts.mdata.bw ∧
    phlRx.mdata.rxGiLtf = ppduSts.mdata.rxGiLtf ∧ phlRx.mdata.ppduType = ppduSts.mdata.ppduType

instance : Decidable (sameRate p q) := inferInstanceAs (Decidable (_ ∧ _ ∧ _ ∧ _))

inductive PhlStatus where
  | success
  | failure
  deriving DecidableEq

def phlRxProcPhySts (radio : Radio) (s : Rx) (ppduSts : RxPkt) : PhlStatus × Rx :=
  let band := hwBand ppduSts
  let cur := s.psts.curPpduCnt band
  if s.psts.enPstsPerPkt = false then (.failure,s)
  else if ppduSts.mdata.ppduCnt ≥ phlMaxPpduCnt then (.failure,s)
  else if s.psts.enPpduSts band = false then (.failure,s)
  else if (s.sts band cur).cnt = 0 then (.success,s)
  else
    match (s.sts band cur).pqGetFront with
    | none => (.failure,s)
    | some phlRx =>
      let info := statusInfo radio s.psts phlRx ppduSts
      let s :=
        if ppduSts.mdata.ppduCnt = cur ∧ sameRate phlRx ppduSts then
          s.setSts band cur {s.sts band cur with queue:=copyPhyInfo s.psts.pstsAmpdu info (s.sts band cur).queue}
        else s
      (.failure,(phlRxProcFrameList s band cur).resetSts band cur)

def filtered (psts : PpduStsInfo) (p : RxPkt) : Prop :=
  p.mdata.longRxd = 1 ∧ psts.ppduStsFilter &&& (1 <<< p.mdata.frameType) ≠ 0

instance : Decidable (filtered psts p) := inferInstanceAs (Decidable (_ ∧ _))

def indicateSts (band : Fin 2) (s : Rx) (i : Nat) : Rx :=
  if (s.sts band i).cnt ≠ 0 then (phlRxProcFrameList s band i).resetSts band i else s

def phlRxProcWaitPhySts (s : Rx) (p : RxPkt) : Bool × Rx :=
  let band := hwBand p
  let cnt := p.mdata.ppduCnt
  if s.psts.enPstsPerPkt = false then (false,s)
  else if cnt ≥ phlMaxPpduCnt then (false,s)
  else if s.psts.enPpduSts band = false then (false,s)
  else if s.psts.curPpduCnt band ≠ cnt then
    let s := (List.range phlMaxPpduCnt).foldl (indicateSts band) s
    let next (s : Rx) : Rx := {s with psts:={s.psts with curPpduCnt:=update s.psts.curPpduCnt band cnt}}
    if filtered s.psts p then
      let s := s.resetSts band cnt
      (true,next (s.setSts band cnt ((s.sts band cnt).pqPush p .tail)))
    else (false,next s)
  else
    if filtered s.psts p then (true,s.setSts band cnt ((s.sts band cnt).pqPush p .tail))
    else (false,s)

def Rx.phlRecycleRxBuf (s : Rx) (p : RxPkt) : Rx := {s with recycled:=s.recycled ++ [p]}

def phlRxProcess (s : Rx) (radio : Radio) (p : RxPkt) : Rx :=
  match p.type with
  | .wifi =>
    match phlRxProcWaitPhySts s p with
    | (true,s) => {s with waited:=s.waited ++ [p]}
    | (false,s) => s.rxHandleNormal p false
  | .ppduStatus => (phlRxProcPhySts radio s p).2.phlRecycleRxBuf p
  | .other => s.phlRecycleRxBuf p

structure Rcvd where
  pkt : RxPkt
  radio : Radio

def Rx.step (s : Rx) (r : Rcvd) : Rx := phlRxProcess s r.radio r.pkt

def Rx.start (perPkt ampdu fake : Bool) (filter : Nat) (en : Fin 2 → Bool) : Rx :=
  ⟨⟨perPkt,ampdu,filter,fake,en,fun _ => 0,fun _ _ => .init⟩,[],[],[],[]⟩
end Rtl8852au.Psts
