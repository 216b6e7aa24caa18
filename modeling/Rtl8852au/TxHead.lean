import Rtl8852au.TxFrag

namespace Rtl8852au.TxHead
open UInt8
open Recv (Bytes Addr Cipher Mode AuthAlg le16 leBytes isMcast)

section
variable (ptr : Bytes)

def memcpy (at_ : Nat) (src : Bytes) (count : Nat) : Bytes :=
  fun i => if at_ ≤ i ∧ i < at_ + count then src (i-at_) else ptr i

def leOf (v : Nat) : Bytes := fun i => ofNat (v / 256^i)
def setLe16 (at_ v : Nat) : Bytes := memcpy ptr at_ (leOf v) 2
def setAddr (at_ : Nat) (addr : Addr) : Bytes := memcpy ptr at_ (leOf addr) 6

def setBits (at_ width offset len v : Nat) : Bytes :=
  let kept := leBytes ptr at_ width &&& ((2^(8*width) - 1) ^^^ ((2^len - 1) <<< offset))
  memcpy ptr at_ (leOf (kept ||| ((v &&& (2^len - 1)) <<< offset))) width

def setFrameSubType (type : Nat) : Bytes := setLe16 ptr 0 ((le16 ptr 0 &&& 0xFF03) ||| type)
def setFctrl (bit : Nat) : Bytes := setLe16 ptr 0 (le16 ptr 0 ||| 2^bit)
def setToDs : Bytes := setFctrl ptr 8
def setFrDs : Bytes := setFctrl ptr 9
def setMFrag : Bytes := setFctrl ptr 10
def clearMFrag : Bytes := setLe16 ptr 0 (le16 ptr 0 &&& (0xFFFF ^^^ 2^10))
def setMData : Bytes := setFctrl ptr 13
def setPrivacy : Bytes := setFctrl ptr 14
def setOrderBit : Bytes := setFctrl ptr 15
def setSeqNum (num : Nat) : Bytes := setLe16 ptr 22 ((le16 ptr 22 &&& 0x000F) ||| (0xFFF0 &&& (num <<< 4)))

-- `sent` is the sequence number last given out for each priority, `used` are
-- the packet numbers taken since the key was set; both are kept for the
-- statements only. The station of the interface itself carries the group
-- cipher.
structure Sta where
  asoc : Bool
  qosOption : Bool
  ieee8021xBlocked : Bool
  privacy : Cipher
  txseqTid : Nat → Nat
  baStartingSeqctrl : Nat → Nat
  txpn : Nat
  sent : Nat → Option Nat
  used : List Nat

structure Config where
  mode : Mode
  macAddr : Addr
  bssid : Addr
  selfSta : Addr
  qosOption : Bool
  acmMask : Nat
  authAlg : AuthAlg
  privacyAlg : Cipher
  privacyKeyIndex : Nat
  grpKeyid : Nat
  busetkipkey : Bool

structure Tx where
  cfg : Config
  stas : Addr → Option Sta

def Tx.setSta (s : Tx) (key : Addr) (sta : Sta) : Tx := {s with stas:=Function.update s.stas key (some sta)}

def rtwGetStainfo (s : Tx) (addr : Addr) : Option (Addr × Sta) :=
  let key := if isMcast addr then s.cfg.selfSta else addr
  (s.stas key).map fun sta => (key,sta)

-- Without WAPI in the build SMS4 has no IV.
def secLens : Cipher → Nat × Nat
  | .wep40 => (4,4)
  | .wep104 => (4,4)
  | .tkip => (8,4)
  | .aes => (8,8)
  | .gcmp => (8,16)
  | .gcmp256 => (8,16)
  | .ccmp256 => (8,16)
  | _ => (0,0)

-- `nr_frags` and the buffers of a frame are not part of it here. The last
-- three fields hold of what `update_attrib` makes.
structure PktAttrib extends TxFrag.PktAttrib where
  subtype : Nat
  etherType : Nat
  keyIdx : Nat
  qosEn : Bool
  priority : Nat
  order : Bool
  mdata : Bool
  eosp : Nat
  ackPolicy : Nat
  ampduEn : Bool
  ra : Addr
  ta : Addr
  dst : Addr
  src : Addr
  psta : Addr
  seqnum : Nat
  iv : Bytes
  room : 24 ≤ hdrlen
  htcRoom : order → 28 ≤ hdrlen
  ivFits : ivLen = (secLens encrypt).1

structure Msdu where
  etherType : Nat
  dst : Addr
  src : Addr
  ra : Addr
  ta : Addr
  pktlen : Nat
  userPriority : Nat
  htcEn : Bool
  handshake : Bool
  swEncrypt : Bool
  ampdu : Bool
  fragLen : Nat
  txreqBuf : Bool
  raw : Nat → Bytes

section
variable (cfg : Config)

def getEncryAlgo (sta : Sta) : Cipher :=
  match cfg.authAlg with
  | .ieee8021x => sta.privacy
  | _ => cfg.privacyAlg

def Cipher.isWep (cipher : Cipher) : Bool := cipher = .wep40 || cipher = .wep104

-- WEP does not protect the handshake of WPS.
def dataCipher (sta : Sta) (etherType : Nat) : Cipher :=
  if Cipher.isWep (getEncryAlgo cfg sta) && etherType == 0x888E then .noPrivacy else getEncryAlgo cfg sta

-- The cipher and the key index. A packet is dropped when the station may send
-- only EAPOL frames, or TKIP has no key.
def updateAttribSecInfo (sta : Sta) (m : Msdu) (bmcast : Bool) : Option (Cipher × Nat) :=
  if sta.ieee8021xBlocked || (m.etherType == 0x888E && m.handshake) then
    if m.etherType ≠ 0x888E then none else some (.noPrivacy,0)
  else
    let encrypt := dataCipher cfg sta m.etherType
    let keyIdx := match cfg.authAlg with
      | .opened | .shared | .auto => cfg.privacyKeyIndex
      | .ieee8021x => if bmcast then cfg.grpKeyid else 0
      | .wapi => 0
    if encrypt = .tkip ∧ !cfg.busetkipkey then none else some (encrypt,keyIdx)

def qosAcm (acmMask priority : Nat) : Nat :=
  match priority with
  | 0 | 3 => if acmMask.testBit 1 then 1 else priority
  | 4 | 5 => if acmMask.testBit 2 then 0 else priority
  | 6 | 7 => if acmMask.testBit 3 then 5 else priority
  | _ => priority

def wlanHdrLen (qos qosEn order : Bool) : Nat := if order then (if qosEn then 30 else 28) else if qos then 26 else 24

theorem wlanHdrLen_room : 24 ≤ wlanHdrLen qos qosEn order := by
  unfold wlanHdrLen
  split <;> split <;> omega

theorem wlanHdrLen_htc (order : Bool) (on : order) : 28 ≤ wlanHdrLen qos qosEn order := by
  unfold wlanHdrLen
  rw [if_pos on]
  split <;> omega

-- Whether the header gets a QoS field: a station goes by what was agreed with
-- the AP.
def qosOption (qosEn : Bool) : Bool :=
  match cfg.mode with
  | .sta => cfg.qosOption
  | _ => qosEn

def wlanPriority (qos : Bool) (userPriority : Nat) : Nat :=
  if !qos then 0
  else match cfg.mode with
    | .sta => if cfg.acmMask ≠ 0 then qosAcm cfg.acmMask userPriority else userPriority
    | _ => userPriority

def receiver (m : Msdu) : Addr :=
  match cfg.mode with
  | .sta => cfg.bssid
  | .ap => m.ra
  | .adhoc => m.dst

def transmitter (m : Msdu) : Addr :=
  match cfg.mode with
  | .ap => m.ta
  | _ => cfg.macAddr

def updateAttrib (s : Tx) (m : Msdu) : Option PktAttrib :=
  let ra := receiver s.cfg m
  match rtwGetStainfo s ra with
  | none => none
  | some (key,sta) =>
    if !sta.asoc then none
    else match updateAttribSecInfo s.cfg sta m (isMcast ra) with
      | none => none
      | some (encrypt,keyIdx) =>
        let qos := qosOption s.cfg sta.qosOption
        some
          { encrypt
            bswenc := encrypt != .noPrivacy && (m.swEncrypt || encrypt == .tkip)
            hdrlen := wlanHdrLen qos sta.qosOption m.htcEn
            ivLen := (secLens encrypt).1
            icvLen := (secLens encrypt).2
            pktlen := m.pktlen
            subtype := if qos then 0x88 else 0x08
            etherType := m.etherType
            keyIdx
            qosEn := sta.qosOption
            priority := wlanPriority s.cfg qos m.userPriority
            order := m.htcEn
            mdata := false
            eosp := 0
            ackPolicy := 0
            ampduEn := m.ampdu
            ra
            ta := transmitter s.cfg m
            dst := m.dst
            src := m.src
            psta := key
            seqnum := 0
            iv := fun _ => 0
            room := wlanHdrLen_room
            htcRoom := wlanHdrLen_htc m.htcEn
            ivFits := rfl }

def wlanAddresses (a : PktAttrib) (hdr : Bytes) : Bytes :=
  match cfg.mode with
  | .sta => setAddr (setAddr (setAddr (setToDs hdr) 4 cfg.bssid) 10 a.ta) 16 a.dst
  | .ap => setAddr (setAddr (setAddr (setFrDs hdr) 4 a.dst) 10 cfg.bssid) 16 a.src
  | .adhoc => setAddr (setAddr (setAddr hdr 4 a.dst) 10 a.ta) 16 cfg.bssid

def wlanQos (a : PktAttrib) (hdr : Bytes) : Bytes :=
  let hdr := if a.priority ≠ 0 then setBits hdr 24 2 0 4 a.priority else hdr
  setBits (setBits hdr 24 2 4 1 a.eosp) 24 2 5 2 a.ackPolicy

def rtwHeFillHtc (hdr : Bytes) (at_ : Nat) : Bytes := setBits (setBits hdr at_ 4 0 2 3) at_ 4 2 4 6

def wlanFields (hdr : Bytes) (a : PktAttrib) : Bytes :=
  let hdr := memcpy hdr 0 (fun _ => 0) a.hdrlen
  let hdr := wlanAddresses cfg a (setFrameSubType hdr a.subtype)
  let hdr := if a.mdata then setMData hdr else hdr
  let hdr := if TxFrag.encrypted a.toPktAttrib then setPrivacy hdr else hdr
  let hdr := if qosOption cfg a.qosEn then wlanQos a hdr else hdr
  if a.order then rtwHeFillHtc (setOrderBit hdr) (a.hdrlen-4) else hdr
end

def snLess (a b : Nat) : Bool := (a + 2^32 - b).testBit 11
def nextSeq (sta : Sta) (priority : Nat) : Nat := (sta.txseqTid priority + 1) &&& 0xFFF

def numbered (sta : Sta) (a : PktAttrib) : Sta × PktAttrib :=
  let seqnum := nextSeq sta a.priority
  let sta := {sta with
    txseqTid := Function.update sta.txseqTid a.priority seqnum
    sent := Function.update sta.sent a.priority (some seqnum)}
  let a := {a with seqnum:=seqnum}
  if !a.ampduEn then (sta,a)
  else
    let txSeq := sta.baStartingSeqctrl (a.priority % 16)
    if snLess seqnum txSeq then (sta,{a with ampduEn:=false})
    else
      let start := if seqnum = txSeq then (txSeq+1) &&& 0xFFF else (seqnum+1) &&& 0xFFF
      ({sta with baStartingSeqctrl:=Function.update sta.baStartingSeqctrl (a.priority % 16) start},a)

-- Only data frames come here. The sequence control field is left zero when the
-- station is not the one of the attributes or has left.
def rtwMakeWlanhdr (s : Tx) (hdr : Bytes) (a : PktAttrib) : Tx × PktAttrib × Bytes :=
  let hdr := wlanFields s.cfg hdr a
  match rtwGetStainfo s a.ra with
  | none => (s,a,hdr)
  | some (key,sta) =>
    if a.psta ≠ key then (s,a,hdr)
    else if !sta.asoc then (s,a,hdr)
    else
      let (sta,a) := numbered sta a
      (s.setSta key sta,a,setSeqNum hdr a.seqnum)

-- The counter of a `pn48` is a `u64` and starts again after `last`.
def takePn (sta : Sta) (last : Nat) : Sta :=
  let txpn := if sta.txpn = last then 0 else (sta.txpn+1) % 2^64
  {sta with txpn:=txpn, used:=(txpn % 2^48) :: sta.used}

def keyByte (kid : Nat) : UInt8 := ofNat ((kid &&& 3) <<< 6)

section
variable (iv : Bytes) (pn kid : Nat)

def wepIv : Bytes
  | 0 => leOf pn 0
  | 1 => leOf pn 1
  | 2 => leOf pn 2
  | 3 => keyByte kid
  | i => iv i

def tkipIv : Bytes
  | 0 => leOf pn 1
  | 1 => (leOf pn 1 ||| 0x20) &&& 0x7F
  | 2 => leOf pn 0
  | 3 => 0x20 ||| keyByte kid
  | 4 => leOf pn 2
  | 5 => leOf pn 3
  | 6 => leOf pn 4
  | 7 => leOf pn 5
  | i => iv i

def aesIv : Bytes
  | 0 => leOf pn 0
  | 1 => leOf pn 1
  | 2 => 0
  | 3 => 0x20 ||| keyByte kid
  | 4 => leOf pn 2
  | 5 => leOf pn 3
  | 6 => leOf pn 4
  | 7 => leOf pn 5
  | i => iv i
end

def updateAttribSecIvInfo (s : Tx) (a : PktAttrib) : Tx × PktAttrib :=
  match s.stas a.psta with
  | none => (s,a)
  | some sta =>
    let kid := if isMcast a.ra then a.keyIdx else 0
    match a.encrypt with
    | .wep40 | .wep104 =>
      let sta := takePn sta 0xFFFFFF
      (s.setSta a.psta sta,{a with iv:=wepIv a.iv sta.txpn a.keyIdx})
    | .tkip =>
      let sta := takePn sta 0xFFFFFFFFFFFF
      (s.setSta a.psta sta,{a with iv:=tkipIv a.iv sta.txpn kid})
    | .aes | .gcmp | .gcmp256 | .ccmp256 =>
      let sta := takePn sta 0xFFFFFFFFFFFF
      (s.setSta a.psta sta,{a with iv:=aesIv a.iv sta.txpn kid})
    | _ => (s,a)

def rtwPutSnap (at_ hProto : Nat) : Bytes :=
  let oui : UInt8 := if hProto = 0x8137 ∨ hProto = 0x80F3 then 0xF8 else 0x00
  memcpy ptr at_ (fun
    | 0 => 0xAA
    | 1 => 0xAA
    | 2 => 0x03
    | 5 => oui
    | 6 => ofNat (hProto / 256)
    | 7 => ofNat hProto
    | _ => 0x00) 8
end

structure Heading where
  tx : Tx
  attrib : PktAttrib
  wlhdr : List Bytes

def fillHead (raw : Nat → Bytes) (nrFrags : Nat) (h : Heading) (idx : Nat) : Heading :=
  let (tx,attrib,hdr) := rtwMakeWlanhdr h.tx (raw idx) h.attrib
  let hdr := if idx = nrFrags - 1 then clearMFrag hdr else setMFrag hdr
  let (tx,attrib,hdr) :=
    if attrib.ivLen ≠ 0 then
      let (tx,attrib) := updateAttribSecIvInfo tx attrib
      (tx,attrib,memcpy hdr attrib.hdrlen attrib.iv attrib.ivLen)
    else (tx,attrib,hdr)
  let hdr := if idx = 0 then rtwPutSnap hdr (attrib.hdrlen+attrib.ivLen) attrib.etherType else hdr
  {tx, attrib, wlhdr:=h.wlhdr ++ [hdr]}

def coreWlanFillHead (s : Tx) (a : PktAttrib) (raw : Nat → Bytes) (nrFrags : Nat) : Heading :=
  (List.range nrFrags).foldl (fillHead raw nrFrags) {tx:=s, attrib:=a, wlhdr:=[]}

def coreTx (s : Tx) (m : Msdu) : Option Heading :=
  (updateAttrib s m).bind fun a =>
    (TxFrag.getWlFragParas m.fragLen a.toPktAttrib).bind fun paras =>
      if m.txreqBuf then some (coreWlanFillHead s a m.raw paras.2) else none

inductive StaOp where
  | alloc
  | free
  | conf (asoc qosOption ieee8021xBlocked : Bool)
  | key (privacy : Cipher) (pn : Nat)

def freshSta : Sta where
  asoc := false
  qosOption := false
  ieee8021xBlocked := false
  privacy := .noPrivacy
  txseqTid := fun _ => 0
  baStartingSeqctrl := fun _ => 0
  txpn := 0
  sent := fun _ => none
  used := []

def staOp (sta : Option Sta) : StaOp → Option Sta
  | .alloc => some freshSta
  | .free => none
  | .conf asoc qosOption ieee8021xBlocked => sta.map fun sta => {sta with asoc, qosOption, ieee8021xBlocked}
  | .key privacy pn => sta.map fun sta => {sta with privacy, txpn:=pn % 2^64, used:=[], ieee8021xBlocked:=false}

def mgmtPn (sta : Sta) : Sta := if sta.privacy.hasPn then takePn sta 0xFFFFFFFFFFFF else sta

inductive Event where
  | msdu (m : Msdu)
  | sta (key : Addr) (op : StaOp)
  | mgmt (key : Addr)

def txStep (s : Tx) : Event → Tx
  | .msdu m => ((coreTx s m).map Heading.tx).getD s
  | .sta key op => {s with stas:=Function.update s.stas key (staOp (s.stas key) op)}
  | .mgmt key => {s with stas:=Function.update s.stas key ((s.stas key).map mgmtPn)}

def rtwInitXmitPriv (cfg : Config) : Tx where
  cfg
  stas := fun _ => none
end Rtl8852au.TxHead
