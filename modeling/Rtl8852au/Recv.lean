import Rtl8852au.Machine

namespace Rtl8852au.Recv

abbrev Bytes := Nat → UInt8
abbrev Addr := Nat

section
variable (ptr : Bytes)

def le16 (at_ : Nat) : Nat := (ptr at_).toNat + 0x100*(ptr (at_+1)).toNat
def be16 (at_ : Nat) : Nat := 0x100*(ptr at_).toNat + (ptr (at_+1)).toNat

def leBytes (at_ count : Nat) : Nat := (List.range count).foldr (fun i high => (ptr (at_+i)).toNat + 0x100*high) 0

def le64 (at_ : Nat) : Nat := leBytes ptr at_ 8
def addrAt (at_ : Nat) : Addr := leBytes ptr at_ 6
def getAddr1 : Addr := addrAt ptr 4
def getAddr2 : Addr := addrAt ptr 10
def getAddr3 : Addr := addrAt ptr 16
def getAddr4 : Addr := addrAt ptr 24
def isMcast (addr : Addr) : Bool := addr.testBit 0
def bcAddr : Addr := 0xFFFFFFFFFFFF

inductive FrameType where
  | mgnt
  | ctrl
  | data
  | unknown
  deriving DecidableEq,Repr

def getFrameType : FrameType :=
  match (le16 ptr 0).testBit 3,(le16 ptr 0).testBit 2 with
  | false,false => .mgnt
  | false,true => .ctrl
  | true,false => .data
  | true,true => .unknown

def getVersion : Nat := (ptr 0).toNat &&& 3
def getFrameSubType : Nat := le16 ptr 0 &&& 0xFC

def getToFrDs : Nat := 2*((le16 ptr 0).testBit 8).toNat + ((le16 ptr 0).testBit 9).toNat

def getMFrag : Bool := (le16 ptr 0).testBit 10
def getPrivacy : Bool := (le16 ptr 0).testBit 14
def getOrder : Bool := (le16 ptr 0).testBit 15
def getSequence : Nat := le16 ptr 22 / 16
def getFragNum : Nat := le16 ptr 22 % 16
def getPriority (a4Shift : Nat) : Nat := (ptr (24 + a4Shift)).toNat % 16
def getAMsdu (a4Shift : Nat) : Bool := (ptr (24 + a4Shift)).toNat.testBit 7
def isQos : Bool := (getFrameSubType ptr).testBit 7

def isNullData : Bool := (getFrameSubType ptr).testBit 6
end

def ccmph2Pn (ch : Nat) : Nat := (ch &&& 0xFFFF) ||| ((ch &&& 0xFFFFFFFF00000000) >>> 16)
def ccmph2Keyid (ch : Nat) : Nat := (ch &&& 0xC0000000) >>> 30

-- `VALID_PN_CHK`: the difference is one of `u64`s.
def validPnChk (new old : Nat) : Bool := old == 0 || ((old + 2^64 - new) % 2^64).testBit 47

inductive Cipher where
  | noPrivacy
  | wep40
  | tkip
  | tkipWtmic
  | aes
  | wep104
  | sms4
  | gcmp
  | ccmp256
  | gcmp256
  deriving DecidableEq,Repr

def Cipher.hasPn : Cipher → Bool
  | .aes => true
  | .ccmp256 => true
  | .gcmp => true
  | .gcmp256 => true
  | _ => false

def setIceIvLen : Cipher → Nat × Nat
  | .wep40 => (4,4)
  | .wep104 => (4,4)
  | .tkip => (8,4)
  | .aes => (8,8)
  | .gcmp => (8,16)
  | .gcmp256 => (8,16)
  | .ccmp256 => (8,16)
  | .sms4 => (18,16)
  | _ => (0,0)

structure Attrib where
  toFrDs : Nat
  fragNum : Nat
  seqNum : Nat
  mfrag : Bool
  privacy : Bool
  order : Bool
  qos : Bool
  amsdu : Bool
  priority : Nat
  hdrlen : Nat
  encrypt : Cipher
  ivLen : Nat
  icvLen : Nat
  bdecrypted : Bool
  icvErr : Bool
  crcErr : Bool
  ra : Addr
  ta : Addr
  dst : Addr
  src : Addr
  bssid : Addr
  deriving DecidableEq,Repr

-- A `recv_frame` with the number of its buffer. `mpdu` is what came from the
-- air, `rxData` the driver's copy from `rx_data` on, `room` the distance from
-- `rx_data` to `rx_end`. `plain` and `blocked` are kept for the statements:
-- whether some of the data came unprotected, or from a blocked station.
structure RecvFrame where
  id : Nat
  attrib : Attrib
  mpdu : Bytes
  rxData : Bytes
  len : Nat
  room : Nat
  rxReq : Option Nat
  hasPkt : Bool
  hasAdapter : Bool
  keytrack : UInt32
  plain : Bool
  blocked : Bool

structure StationConf where
  privacy : Cipher
  mfp : Bool
  amsduDisable : Bool
  ieee8021xBlocked : Bool
  pairwiseKeyInstalled : Bool
  deriving DecidableEq,Repr

structure Station where
  conf : StationConf
  keytrack : UInt32
  defragQ : List RecvFrame
  tidRxseq : Nat → Nat
  bmcTidRxseq : Nat → Nat
  nonqosRxseq : Nat
  nonqosBmcRxseq : Nat
  iv : Nat → Nat

inductive Mode where
  | sta
  | ap
  | adhoc
  deriving DecidableEq,Repr

inductive AuthAlg where
  | opened
  | shared
  | ieee8021x
  | auto
  | wapi
  deriving DecidableEq,Repr

-- `selfSta` is the address under which the station of the interface itself is
-- kept; a lookup of a group address finds that one.
structure Config where
  mode : Mode
  up : Bool
  monitor : Bool
  asoc : Bool
  linking : Bool
  macAddr : Addr
  bssid : Addr
  selfSta : Addr
  authAlg : AuthAlg
  privacyAlg : Cipher
  grpPrivacy : Cipher
  bipKey : Bool
  bipKeyid : Nat
  bipCmac128 : Bool
  amsduNonSpp : Bool
  deriving DecidableEq,Repr

inductive Note where
  | alloc (id : Nat)
  | attach (id req : Nat)
  | queue (id : Nat) (sta : Addr)
  | unqueue (id : Nat)
  | free (id : Nat) (req : Option Nat)
  | joined (fragments : List RecvFrame)
  | accepted (keyId pn : Nat)
  | groupKey (keyId : Nat)
  | ipn (ipn : Nat)
  | bipKey
  | dispatched (frame : RecvFrame) (cfg : Config) (peer : Option StationConf) (micValid : Bool)
  | msdu (ethType : Nat) (frame : RecvFrame)

-- `inProcess` is a frame on which the driver has died.
structure Rx where
  cfg : Config
  stations : Addr → Option Station
  ivSeq : Nat → Nat
  bipRxpn : Nat
  freeQueue : List RecvFrame
  freeCnt : Nat
  inProcess : Option RecvFrame
  log : List Note

-- What the rest of the driver does to the stations: adding and removing them,
-- their settings, and the installation of a pairwise key.
inductive StaOp where
  | alloc (addr : Addr) (conf : StationConf)
  | free (addr : Addr)
  | conf (addr : Addr) (conf : StationConf)
  | key (addr : Addr)

-- One request of the PHL layer, and what hardware, ciphers, allocator and
-- network stack answer while it is processed. `act` is what an AP does with an
-- MSDU (forward, indicate), by its number in the frame.
structure RxPacket where
  req : Nat
  mpdu : Bytes
  len : Nat
  room : Nat
  bmc : Bool
  swDec : Bool
  icvErr : Bool
  crcErr : Bool
  pktOk : Bool
  plain : Option Bytes
  micOk : Bool
  bipAlloc : Bool
  bipMic : Bool
  mgmtAlloc : Bool
  act : Nat → Bool × Bool
  subAlloc : Nat → Bool
  indicateOk : Bool
  dispatched : List StaOp

namespace Rx

def note (s : Rx) (n : Note) : Rx := {s with log:=s.log ++ [n]}
def setStation (s : Rx) (key : Addr) (sta : Station) : Rx := {s with stations:=Function.update s.stations key (some sta)}

def unlink (s : Rx) (id : Nat) : Rx :=
  {s with
    freeQueue := s.freeQueue.filter fun f => f.id != id
    stations := fun key => (s.stations key).map fun sta => {sta with defragQ:=sta.defragQ.filter fun f => f.id != id}}
end Rx
section
variable (s : Rx)

def rtwGetStainfo (addr : Addr) : Option (Addr × Station) :=
  let key := if isMcast addr then s.cfg.selfSta else addr
  (s.stations key).map fun sta => (key,sta)

def rtwGetBcmcStainfo : Option (Addr × Station) := rtwGetStainfo s bcAddr

def rtwAllocRecvframe : Option (RecvFrame × Rx) :=
  match s.freeQueue with
  | [] => none
  | f :: rest => some ({f with rxReq:=none},{s with freeQueue:=rest,freeCnt:=s.freeCnt - 1}.note (.alloc f.id))

section
variable (f : RecvFrame)

def rtwFreeRecvframe : Rx :=
  let s := s.unlink f.id
  {s with freeQueue:=s.freeQueue ++ [{f with len:=0,hasPkt:=false}],freeCnt:=s.freeCnt + 1}.note (.free f.id f.rxReq)

def rtwFreeRecvframeQueue (queue : List RecvFrame) : Rx := queue.foldl rtwFreeRecvframe s

def recvframePull (sz : Nat) : RecvFrame :=
  if sz ≤ f.len then {f with rxData:=fun i => f.rxData (i+sz),len:=f.len - sz,room:=f.room - sz} else f

def recvframePullTail (sz : Nat) : RecvFrame := if sz ≤ f.len then {f with len:=f.len - sz} else f
def recvframePut (sz : Nat) : RecvFrame := if f.len + sz ≤ f.room then {f with len:=f.len + sz} else f

def appendFragment (prframe next : RecvFrame) : RecvFrame :=
  let next := recvframePull next (next.attrib.hdrlen+next.attrib.ivLen)
  let prframe := recvframePullTail prframe prframe.attrib.icvLen
  let tail := prframe.len
  let prframe := {prframe with
    rxData := fun i => if tail ≤ i ∧ i < tail + next.len then next.rxData (i-tail) else prframe.rxData i}
  let prframe := recvframePut prframe next.len
  {prframe with
    attrib := {prframe.attrib with icvLen:=next.attrib.icvLen}
    plain := prframe.plain || next.plain,blocked := prframe.blocked || next.blocked}

def framePn : Nat := ccmph2Pn (le64 f.rxData f.attrib.hdrlen)

-- The loop of `recvframe_defrag`; nothing when a check fails.
def joinFragments (prframe : RecvFrame) (curPn curfragnum : Nat) : List RecvFrame → Option RecvFrame
  | [] => some prframe
  | next :: rest =>
    if next.attrib.encrypt.hasPn && framePn next != curPn + 1 then none
    else if prframe.keytrack != next.keytrack then none
    else if curfragnum != next.attrib.fragNum then none
    else joinFragments (appendFragment prframe next) (if next.attrib.encrypt.hasPn then framePn next else curPn)
      (curfragnum+1) rest

def setDefragQ (key : Addr) (sta : Station) (queue : List RecvFrame) : Rx := s.setStation key {sta with defragQ:=queue}

def recvframeDefrag (key : Addr) (sta : Station) : Rx × Option RecvFrame :=
  match sta.defragQ with
  | [] => (s,none)
  | first :: rest =>
    let s := (setDefragQ s key sta rest).note (.unqueue first.id)
    if first.attrib.fragNum != 0 then (rtwFreeRecvframeQueue (rtwFreeRecvframe s first) rest,none)
    else
      match joinFragments first (if first.attrib.encrypt.hasPn then framePn first else 0) 1 rest with
      | none => (rtwFreeRecvframeQueue (rtwFreeRecvframe s first) rest,none)
      | some prframe => ((rtwFreeRecvframeQueue s rest).note (.joined (first :: rest)),some prframe)

inductive RxState where
  | continue_
  | done
  | drop
  | fail
  | defrag
  deriving DecidableEq,Repr

def defragQueue : Option (Addr × Station) :=
  match rtwGetStainfo s f.attrib.ta with
  | some found => some found
  | none => if getFrameType f.rxData ≠ FrameType.data then rtwGetBcmcStainfo s else none

def tracked (sta : Station) (f : RecvFrame) : RecvFrame := {f with keytrack:=sta.keytrack}

def collected (key : Addr) (sta : Station) (f : RecvFrame) : Rx :=
  (setDefragQ s key sta (sta.defragQ ++ [f])).note (.queue f.id key)

-- A group-addressed fragment sets the result to `CORE_RX_DROP` first, and
-- both branches below write over it.
def recvframeChkDefrag : Rx × RxState × Option RecvFrame :=
  if !f.attrib.mfrag && f.attrib.fragNum == 0 then (s,.continue_,some f)
  else
    match defragQueue s f with
    | none => (s,.drop,some f)
    | some (key,sta) =>
      let f := tracked sta f
      if f.attrib.mfrag then
        if f.attrib.fragNum == 0 then
          (collected (rtwFreeRecvframeQueue s sta.defragQ) key {sta with defragQ:=[]} f,.defrag,some f)
        else (collected s key sta f,.defrag,some f)
      else
        match recvframeDefrag (collected s key sta f) key {sta with defragQ:=sta.defragQ ++ [f]} with
        | (s,none) => (s,.drop,none)
        | (s,some prframe) => (s,.continue_,some prframe)
end
end

end Rtl8852au.Recv
