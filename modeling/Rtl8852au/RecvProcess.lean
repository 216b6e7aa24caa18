import Rtl8852au.Recv

namespace Rtl8852au.Recv
open Function

inductive Ret where
  | fail
  | success
  | handled
  deriving DecidableEq,Repr

def etherType (f : RecvFrame) : Nat := be16 f.rxData (f.attrib.hdrlen + f.attrib.ivLen + 6)
def eapolType : Nat := 0x888E

section
variable (s : Rx) (a : Attrib) (ptr : Bytes)

def knownTransmitter (unknown : Ret) : Attrib × Ret × Option (Addr × Station) :=
  match rtwGetStainfo s a.ta with
  | none => (a,unknown,none)
  | some found => if isNullData ptr then (a,.handled,none) else (a,.success,some found)

def rtwStaRxDataValidateHdr : Attrib × Ret × Option (Addr × Station) :=
  let addressed := {a with ra:=getAddr1 ptr,ta:=getAddr2 ptr}
  let checked (a : Attrib) := if !a.amsdu && s.cfg.macAddr == a.src then (a,.fail,none) else knownTransmitter s a ptr .fail
  if a.toFrDs = 0 then
    let a := {addressed with dst:=getAddr1 ptr,src:=getAddr2 ptr,bssid:=getAddr3 ptr}
    if a.bssid ≠ a.src then (a,.fail,none)
    else
      match rtwGetStainfo s (getAddr2 ptr) with
      | none => (a,.fail,none)
      | some found => (a,.success,some found)
  else if !(s.cfg.asoc || s.cfg.linking) then (a,.fail,none)
  else
    match a.toFrDs with
    | 1 => checked {addressed with dst:=getAddr1 ptr,src:=getAddr3 ptr,bssid:=getAddr2 ptr}
    | 3 => checked {addressed with dst:=getAddr3 ptr,src:=getAddr4 ptr,bssid:=getAddr2 ptr}
    | _ => (addressed,.handled,none)

def rtwApRxDataValidateHdr : Attrib × Ret × Option (Addr × Station) :=
  let addressed := {a with ra:=getAddr1 ptr,ta:=getAddr2 ptr}
  if !s.cfg.asoc then (a,.fail,none)
  else
    match a.toFrDs with
    | 2 =>
      if isMcast (getAddr1 ptr) then (a,.fail,none)
      else knownTransmitter s {addressed with dst:=getAddr3 ptr,src:=getAddr2 ptr,bssid:=getAddr1 ptr} ptr .handled
    | 3 =>
      let bssid := if isMcast (getAddr1 ptr) then a.bssid else getAddr1 ptr
      knownTransmitter s {addressed with dst:=getAddr3 ptr,src:=getAddr4 ptr,bssid} ptr .handled
    | _ => (a,.handled,none)

def sta2staDataFrame (s : Rx) (a : Attrib) : Attrib × Ret × Option (Addr × Station) :=
  if s.cfg.macAddr == a.src then (a,.fail,none)
  else if s.cfg.macAddr != a.dst && !isMcast a.dst then (a,.fail,none)
  else if a.bssid == 0 || s.cfg.bssid == 0 || a.bssid != s.cfg.bssid then (a,.fail,none)
  else
    match rtwGetStainfo s a.ta with
    | none => (a,.fail,none)
    | some found => (a,.success,some found)

def adhocRxDataValidateHdr : Attrib × Ret × Option (Addr × Station) :=
  let addressed := {a with ra:=getAddr1 ptr,ta:=getAddr2 ptr}
  match a.toFrDs with
  | 0 => sta2staDataFrame s {addressed with dst:=getAddr1 ptr,src:=getAddr2 ptr,bssid:=getAddr3 ptr}
  | 1 => ({addressed with dst:=getAddr1 ptr,src:=getAddr3 ptr,bssid:=getAddr2 ptr},.fail,none)
  | 2 => ({addressed with dst:=getAddr3 ptr,src:=getAddr2 ptr,bssid:=getAddr1 ptr},.handled,none)
  | _ => (a,.fail,none)

def rxDataValidateHdr : Attrib × Ret × Option (Addr × Station) :=
  match s.cfg.mode with
  | .ap => rtwApRxDataValidateHdr s a ptr
  | .sta => rtwStaRxDataValidateHdr s a ptr
  | .adhoc => adhocRxDataValidateHdr s a ptr
end

def a4Shift (a : Attrib) : Nat := if a.toFrDs = 3 then 6 else 0

def parseQc (a : Attrib) (ptr : Bytes) : Attrib :=
  {a with
    priority := if a.qos then getPriority ptr (a4Shift a) else 0
    hdrlen := (if a.qos then 26 else 24) + a4Shift a + (if a.order then 4 else 0)}

def recvDecache (sta : Station) (a : Attrib) : Option Station :=
  let tid := a.priority
  let seqCtrl := a.seqNum*16 + a.fragNum
  if 15 < tid then none
  else if a.qos then
    if isMcast a.ra then
      if seqCtrl == sta.bmcTidRxseq tid then none else some {sta with bmcTidRxseq:=update sta.bmcTidRxseq tid seqCtrl}
    else if seqCtrl == sta.tidRxseq tid then none else some {sta with tidRxseq:=update sta.tidRxseq tid seqCtrl}
  else if isMcast a.ra then
    if seqCtrl == sta.nonqosBmcRxseq then none else some {sta with nonqosBmcRxseq:=seqCtrl}
  else if seqCtrl == sta.nonqosRxseq then none else some {sta with nonqosRxseq:=seqCtrl}

-- An old packet number only leaves the cache as it is.
def recvUcastPnDecache (sta : Station) (a : Attrib) (pdata : Bytes) : Option Station :=
  if 15 < a.priority then none
  else if a.encrypt = .aes then
    let hdr := le64 pdata a.hdrlen
    if validPnChk (ccmph2Pn hdr) (ccmph2Pn (sta.iv a.priority)) then some {sta with iv:=update sta.iv a.priority hdr}
    else some sta
  else some sta

section
variable (cfg : Config)

def recvBcastPnDecache (ivSeq : Nat → Nat) (a : Attrib) (pdata : Bytes) : Option (Nat → Nat) :=
  if a.encrypt = .aes ∧ cfg.mode = .sta then
    let hdr := le64 pdata a.hdrlen
    let keyId := ccmph2Keyid hdr
    let pktPn := ccmph2Pn hdr
    if validPnChk pktPn (ivSeq keyId % 2^48) then some fun k => if k == keyId then pktPn else ivSeq k
    else none
  else some ivSeq

def getEncryAlgo (sta : Station) (bmcast : Bool) : Cipher :=
  match cfg.authAlg with
  | .ieee8021x => if bmcast then cfg.grpPrivacy else sta.conf.privacy
  | _ => cfg.privacyAlg

def setEncrypt (sta : Station) (a : Attrib) : Attrib :=
  if a.privacy then
    let encrypt := getEncryAlgo cfg sta (isMcast a.ra)
    {a with encrypt,ivLen:=(setIceIvLen encrypt).1,icvLen:=(setIceIvLen encrypt).2}
  else {a with encrypt:=.noPrivacy,ivLen:=0,icvLen:=0}

def plaintextAllowed (sta : Station) (f : RecvFrame) : Bool :=
  let a := f.attrib
  if cfg.privacyAlg = .noPrivacy then true
  else if isMcast a.ra then a.privacy
  else if cfg.authAlg = .ieee8021x then
    let eapol := etherType f == eapolType
    (a.privacy || eapol) && (a.privacy || !a.amsdu) &&
      !(eapol && cfg.mode == .ap && sta.conf.privacy == .noPrivacy && cfg.macAddr != a.dst)
  else a.privacy

section
variable (f : RecvFrame)

def acceptedNote : Option Note :=
  let hdr := le64 f.mpdu f.attrib.hdrlen
  if isMcast f.attrib.ra && f.attrib.privacy && f.attrib.encrypt.hasPn then some (.accepted (ccmph2Keyid hdr) (ccmph2Pn hdr)) else none

def noteAccepted (s : Rx) (f : RecvFrame) : Rx :=
  match acceptedNote f with
  | some n => s.note n
  | none => s

def pnDecache (s : Rx) (key : Addr) (sta : Station) (f : RecvFrame) : Option Rx :=
  if isMcast f.attrib.ra then
    (recvBcastPnDecache s.cfg s.ivSeq f.attrib f.rxData).map fun ivSeq => {s.setStation key sta with ivSeq}
  else (recvUcastPnDecache sta f.attrib f.rxData).map fun sta => s.setStation key sta

def dataAttrib : Attrib := {f.attrib with amsdu:=f.attrib.qos && getAMsdu f.rxData (a4Shift f.attrib)}

def validateRecvDataFrame (s : Rx) (f : RecvFrame) : Rx × RecvFrame × Ret :=
  let ptr := f.rxData
  match rxDataValidateHdr s (dataAttrib f) ptr with
  | (a,.success,some (key,sta)) =>
    let f := {f with attrib:=a}
    if sta.conf.amsduDisable && a.amsdu then (s,f,.fail)
    else
      let f := {f with attrib:=parseQc a ptr}
      match recvDecache sta f.attrib with
      | none => (s,f,.fail)
      | some sta =>
        match pnDecache s key sta f with
        | none => (s.setStation key sta,f,.fail)
        | some s =>
          let f := {f with attrib:=setEncrypt s.cfg sta f.attrib}
          if plaintextAllowed s.cfg sta f then (noteAccepted s f,f,.success) else (s,f,.fail)
  | (a,.success,none) => (s,{f with attrib:=a},.fail)
  | (a,ret,_) => (s,{f with attrib:=a},ret)

-- Header and IV stay, the body is replaced by the plain text.
def decrypted (plain : Bytes) : RecvFrame :=
  {f with rxData:=fun i => if i < f.attrib.hdrlen + f.attrib.ivLen then f.rxData i else plain i}

def decryptor (pkt : RxPacket) (f : RecvFrame) : Option RecvFrame :=
  let done (f : RecvFrame) : RecvFrame := {f with attrib:={f.attrib with bdecrypted:=true}}
  if f.attrib.encrypt ≠ .noPrivacy ∧ f.attrib.bdecrypted = false then
    match f.attrib.encrypt with
    | .wep40 => some (done (decrypted f (pkt.plain.getD f.rxData)))
    | .wep104 => some (done (decrypted f (pkt.plain.getD f.rxData)))
    | .tkip => pkt.plain.map fun plain => done (decrypted f plain)
    | .aes => pkt.plain.map fun plain => done (decrypted f plain)
    | .ccmp256 => pkt.plain.map fun plain => done (decrypted f plain)
    | .gcmp => pkt.plain.map fun plain => done (decrypted f plain)
    | .gcmp256 => pkt.plain.map fun plain => done (decrypted f plain)
    | _ => some (done f)
  else some (done f)

def categoryIsNonRobust (category : Nat) : Bool := [4,7,11,15,21,0x7F].contains category
def categoryIsGroupPrivacy (category : Nat) : Bool := [13,14].contains category
def wifiDisassoc : Nat := 0xA0
def wifiDeauth : Nat := 0xC0
def wifiAction : Nat := 0xD0
def mmeIe : UInt8 := 76
def bipMicLen : Nat := if cfg.bipCmac128 then 8 else 16
def mmeOffset : Nat := if bipMicLen cfg = 8 then 18 else 26

-- Where the code takes the MME from, and the number in it.
def mmeAt : Nat := f.len - mmeOffset cfg

def mmeIpn : Nat := leBytes f.rxData (mmeAt cfg f + 4) 6
end
end
section
variable (s : Rx) (pkt : RxPacket) (f : RecvFrame)

def rtwBipVerify : Rx × Ret :=
  let pktIpn := mmeIpn s.cfg f
  let recorded := {s with bipRxpn:=pktIpn}.note (.ipn pktIpn)
  if f.len < 24 ∨ f.len - 24 < bipMicLen s.cfg then (s,.handled)
  else if f.rxData (mmeAt s.cfg f) ≠ mmeIe then (s,.handled)
  else if le16 f.rxData (mmeAt s.cfg f + 2) ≠ s.cfg.bipKeyid % 2^16 then (s,.fail)
  else if pktIpn ≤ s.bipRxpn then (s,.fail)
  else if f.attrib.bdecrypted then (recorded,.success)
  else if !pkt.bipAlloc then (s,.fail)
  else if pkt.bipMic then (recorded,.success)
  else (s,.fail)

def categoryIsRobust (category : Nat) : Bool := !categoryIsNonRobust category
def leaves (ptr : Bytes) : Bool := getFrameSubType ptr == wifiDeauth || getFrameSubType ptr == wifiDisassoc
def category (ptr : Bytes) : Nat := (ptr 24).toNat
def robustAction (ptr : Bytes) : Bool := getFrameSubType ptr == wifiAction && categoryIsRobust (category ptr)

def plainMgmt (s : Rx) (pkt : RxPacket) (sta : Station) (f : RecvFrame) : Rx × Ret :=
  let ptr := f.rxData
  if isMcast (getAddr1 ptr) then
    if getFrameSubType ptr == wifiAction && categoryIsGroupPrivacy (category ptr) then (s,.fail)
    else if robustAction ptr || leaves ptr then
      match rtwBipVerify s pkt f with
      | (s,.success) => (s,.success)
      | (s,_) => (s,.fail)
    else (s,.success)
  else if leaves ptr then (s,.fail)
  else if robustAction ptr && sta.conf.pairwiseKeyInstalled then (s,.fail)
  else (s,.success)

-- A protected frame is decrypted, and its body is moved over the IV.
def decryptMgmt (pkt : RxPacket) (sta : Station) (f : RecvFrame) : RecvFrame × Ret :=
  let encrypt := sta.conf.privacy
  let f := {f with attrib:={f.attrib with
    encrypt,hdrlen := 24,ivLen := (setIceIvLen encrypt).1,icvLen := (setIceIvLen encrypt).2
    ra := getAddr1 f.rxData,ta := getAddr2 f.rxData}}
  if !pkt.mgmtAlloc then (f,.fail)
  else
    let (body,ret) : RecvFrame × Ret :=
      match decryptor pkt f with
      | none => (f,.fail)
      | some f => (f,.success)
    ({body with rxData:=fun i => if i < 24 then body.rxData i else body.rxData (i+body.attrib.ivLen)},ret)

def validateMgmtProtect : Rx × RecvFrame × Ret :=
  if !s.cfg.bipKey then (s,f,.success)
  else
    match rtwGetStainfo s (getAddr2 f.rxData) with
    | none => (s,f,if f.attrib.privacy then .fail else .success)
    | some (_,sta) =>
      if !sta.conf.mfp then (s,f,if f.attrib.privacy then .fail else .success)
      else if f.attrib.privacy then
        let (f,ret) := decryptMgmt pkt sta f
        (s,f,ret)
      else
        let (s,ret) := plainMgmt s pkt sta f
        (s,f,ret)

def newStation (conf : StationConf) : Station where
  conf := conf
  keytrack := 0
  defragQ := []
  tidRxseq := fun _ => 0xFFFF
  bmcTidRxseq := fun _ => 0xFFFF
  nonqosRxseq := 0
  nonqosBmcRxseq := 0
  iv := fun _ => 0

def rtwAllocStainfo (s : Rx) (addr : Addr) (conf : StationConf) : Rx :=
  match s.stations addr with
  | some _ => s
  | none => s.setStation addr (newStation conf)

def rtwFreeStainfo (s : Rx) (addr : Addr) : Rx :=
  match s.stations addr with
  | none => s
  | some sta =>
    let s := rtwFreeRecvframeQueue s sta.defragQ
    {s with stations:=update s.stations addr none}

def staOp (s : Rx) : StaOp → Rx
  | .alloc addr conf => rtwAllocStainfo s addr conf
  | .free addr => rtwFreeStainfo s addr
  | .conf addr conf =>
    match s.stations addr with
    | none => s
    | some sta => s.setStation addr {sta with conf}
  | .key addr =>
    match s.stations addr with
    | none => s
    | some sta => s.setStation addr {sta with keytrack:=sta.keytrack + 1}

-- The handlers of management frames reach the frames of the receive path only
-- through the stations.
def mgtDispatcher (s : Rx) (pkt : RxPacket) : Rx := pkt.dispatched.foldl staOp s
def peerConf (s : Rx) (f : RecvFrame) : Option StationConf := (rtwGetStainfo s (getAddr2 f.rxData)).map fun found => found.2.conf

-- The caller keeps its own pointer: what defragmentation puts in its place is
-- seen by the handlers only.
def validateRecvMgntFrame : Rx × RecvFrame :=
  let peer := peerConf s f
  match validateMgmtProtect s pkt f with
  | (s,f,.success) =>
    match recvframeChkDefrag s f with
    | (s,.continue_,some prframe) => (mgtDispatcher (s.note (.dispatched prframe s.cfg peer pkt.bipMic)) pkt,f)
    | (s,_,_) => (s,f)
  | (s,f,_) => (s,f)

def parseHeader (a : Attrib) (ptr : Bytes) : Attrib :=
  {a with
    toFrDs := getToFrDs ptr
    fragNum := getFragNum ptr
    seqNum := getSequence ptr
    mfrag := getMFrag ptr
    privacy := getPrivacy ptr
    order := getOrder ptr}

def parsed (f : RecvFrame) : RecvFrame := {f with attrib:=parseHeader f.attrib f.rxData}
def parsedData (f : RecvFrame) : RecvFrame := {f with attrib:={parseHeader f.attrib f.rxData with qos:=isQos f.rxData}}

-- Only a data frame can come out with success. A control frame ends here; it
-- has no part in what follows.
def validateRecvFrame : Rx × RecvFrame × Ret :=
  if getVersion f.rxData ≠ 0 then (s,f,.fail)
  else
    match getFrameType f.rxData with
    | .mgnt =>
      let (s,f) := validateRecvMgntFrame s pkt (parsed f)
      (s,f,.fail)
    | .ctrl => (s,parsed f,.fail)
    | .data => validateRecvDataFrame s (parsedData f)
    | .unknown => (s,parsed f,.fail)

def recvframeChkmic : Option RecvFrame :=
  if f.attrib.encrypt = .tkip then
    if (rtwGetStainfo s f.attrib.ta).isSome && !pkt.micOk then none else some (recvframePullTail f 8)
  else some f

def portctrl (s : Rx) (f : RecvFrame) : Option RecvFrame :=
  if s.cfg.authAlg = .ieee8021x then
    match rtwGetStainfo s f.attrib.ta with
    | none => some f
    | some (_,sta) => if sta.conf.ieee8021xBlocked && etherType f != eapolType then none else some f
  else some f

def rtwCoreRxDataPreProcess : Rx × RxState × Option RecvFrame :=
  match decryptor pkt f with
  | none => (s,.drop,some f)
  | some f =>
    match recvframeChkDefrag s f with
    | (s,.continue_,some f) =>
      match (if f.attrib.privacy then recvframeChkmic s pkt f else some f) with
      | none => (s,.drop,some f)
      | some f =>
        match portctrl s f with
        | none => (s,.drop,some f)
        | some f => (s,.continue_,some f)
    | other => other

def rfc1042Header : List UInt8 := [0xAA,0xAA,0x03,0x00,0x00,0x00]
def bridgeTunnelHeader : List UInt8 := [0xAA,0xAA,0x03,0x00,0x00,0xF8]
def startsWith (msdu : Bytes) (header : List UInt8) : Bool := (List.range header.length).map msdu == header

def rtwRecvLlcParse (msdu : Bytes) (msduLen : Nat) : Bool :=
  let ethType := be16 msdu 6
  8 ≤ msduLen && ((startsWith msdu rfc1042Header && ethType != 0x80F3 && ethType != 0x8137) || startsWith msdu bridgeTunnelHeader)

def msduAt (f : RecvFrame) : Nat := f.attrib.hdrlen + f.attrib.ivLen
def msduBytes (f : RecvFrame) : Bytes := fun i => f.rxData (msduAt f + i)
def toU16 (n : Int) : Nat := (n % 0x10000).toNat
def msduLen (f : RecvFrame) : Nat := toU16 (f.len - msduAt f - (if f.attrib.encrypt = .noPrivacy then 0 else f.attrib.icvLen))

-- The EtherType field of the header that is built.
def wlanhdrToEthhdr (f : RecvFrame) (remove : Bool) : Option Nat :=
  let f := if f.attrib.encrypt = .noPrivacy then f else recvframePullTail f f.attrib.icvLen
  let rmvLen := msduAt f + (if remove then 6 else 0)
  if f.len < rmvLen - 14 + (if remove then 2 else 0) then none
  else some (if remove then be16 f.rxData rmvLen else toU16 (f.len-rmvLen))

def rtwRecvIndicatepkt (s : Rx) (f : RecvFrame) (ethType : Nat) : Rx × RxState :=
  if f.hasPkt then (rtwFreeRecvframe (s.note (.msdu ethType f)) f,.done) else (rtwFreeRecvframe s f,.drop)

-- Whether an MSDU is forwarded, and whether it is indicated.
def msduAct (cfg : Config) (pkt : RxPacket) (index : Nat) : Bool × Bool := if cfg.mode = .ap then pkt.act index else (false,true)

def coreRxProcessMsdu : Rx × RxState :=
  let act := msduAct s.cfg pkt 0
  if !act.1 && !act.2 then (s,.drop)
  else
    match wlanhdrToEthhdr f (rtwRecvLlcParse (msduBytes f) (msduLen f)) with
    | none => (s,.drop)
    | some ethType =>
      let s := if act.1 then s.note (.msdu ethType f) else s
      if !act.2 then (rtwFreeRecvframe s {f with hasPkt:=false},.done)
      else if !pkt.indicateOk then (s,.drop)
      else rtwRecvIndicatepkt s f ethType

def validateAmsduContent (cfg : Config) (a : Attrib) (da sa : Addr) : Bool :=
  if cfg.amsduNonSpp && cfg.privacyAlg != .noPrivacy then
    !(a.toFrDs == 1 && da != a.ra) && !(a.toFrDs == 2 && sa != a.ta) && da != leBytes (fun i => rfc1042Header.getD i 0) 0 6
  else true

def maxSubframeCount : Nat := 64

-- The loop over the subframes, with the EtherTypes of those that are taken.
-- Each round takes the 14 bytes of a subframe header at least, so that `fuel`
-- does not run out before `aLen`.
def amsduSubframes (cfg : Config) (pkt : RxPacket) (a : Attrib) : (fuel index nrSubframes : Nat) → Bytes → (aLen : Nat) → List Nat
  | 0,_,_,_,_ => []
  | fuel+1,index,nrSubframes,pdata,aLen =>
    let subLen := be16 pdata 12
    if aLen ≤ 14 ∨ aLen < 14 + subLen then []
    else if !validateAmsduContent cfg a (addrAt pdata 0) (addrAt pdata 6) then []
    else
      let remove := rtwRecvLlcParse (fun i => pdata (14+i)) subLen
      let ethType := if remove then be16 pdata 20 else subLen
      let act := msduAct cfg pkt index
      let padding := (4 - (subLen+14) % 4) % 4
      let rest (nr : Nat) :=
        if maxSubframeCount ≤ nr then []
        else if aLen - 14 - subLen = 0 then []
        else if aLen - 14 - subLen < padding then []
        else amsduSubframes cfg pkt a fuel (index+1) nr (fun i => pdata (14 + subLen + padding + i)) (aLen - 14 - subLen - padding)
      if !act.1 && !act.2 then rest nrSubframes
      else if !pkt.subAlloc index then []
      else if !act.2 then ethType :: rest nrSubframes
      else if !pkt.indicateOk then (if act.1 then [ethType] else []) ++ rest nrSubframes
      else ethType :: rest (nrSubframes+1)

def amsduToMsdu : Rx :=
  let body := recvframePull (recvframePull f f.attrib.hdrlen) f.attrib.ivLen
  let body := if f.attrib.encrypt = .noPrivacy then body else recvframePullTail body f.attrib.icvLen
  let ethTypes := amsduSubframes s.cfg pkt f.attrib body.len 0 0 body.rxData body.len
  rtwFreeRecvframe (ethTypes.foldl (fun s ethType => s.note (.msdu ethType f)) s) f

def rtwCoreRxDataPostProcess : Rx × RxState := if f.attrib.amsdu then (amsduToMsdu s pkt f,.done) else coreRxProcessMsdu s pkt f

def blockedNow (s : Rx) (addr : Addr) : Bool := (rtwGetStainfo s addr).any fun found => found.2.conf.ieee8021xBlocked

def filled : RecvFrame :=
  {f with
    attrib := {f.attrib with bdecrypted:=!pkt.swDec,icvErr:=pkt.icvErr,crcErr:=pkt.crcErr}
    mpdu := pkt.mpdu,rxData := pkt.mpdu,len := pkt.len,room := pkt.room
    rxReq := some pkt.req,hasPkt := true,hasAdapter := true
    plain := !getPrivacy pkt.mpdu,blocked := blockedNow s (getAddr2 pkt.mpdu)}

-- The request is attached to the frame however the rest goes. Without a packet
-- buffer the frame keeps the data of its last use.
def rtwCoreUpdateRecvframe : Rx × RecvFrame × RxState :=
  let s := s.note (.attach f.id pkt.req)
  if !pkt.pktOk then (s,{f with rxReq:=some pkt.req},.fail)
  else
    let f := filled s pkt f
    if !pkt.bmc && getAddr1 pkt.mpdu != s.cfg.macAddr then (s,f,.fail)
    else if s.cfg.monitor then (s,f,.fail)
    else (s,f,.continue_)
end

def rxNext (s : Rx) : Option RecvFrame → Rx
  | none => s
  | some f => rtwFreeRecvframe s f

-- One round of the loop of `rtw_core_rx_process` that finds a packet. Without
-- a packet buffer the code looks at the interface of a frame that may have none.
def rtwCoreRxProcess (s : Rx) (pkt : RxPacket) : Rx :=
  match rtwAllocRecvframe s with
  | none => s
  | some (f,s) =>
    match rtwCoreUpdateRecvframe s pkt f with
    | (s,f,.continue_) =>
      if f.attrib.icvErr || f.attrib.crcErr then rxNext s (some f)
      else if !s.cfg.up then rxNext s (some f)
      else
        match validateRecvFrame s pkt f with
        | (s,f,.success) =>
          match rtwCoreRxDataPreProcess s pkt f with
          | (s,.defrag,_) => s
          | (s,.continue_,some f) =>
            match rtwCoreRxDataPostProcess s pkt f with
            | (s,.done) => s
            | (s,_) => rxNext s (some f)
          | (s,_,prframe) => rxNext s prframe
        | (s,f,_) => rxNext s (some f)
    | (s,f,_) => if f.hasAdapter then rxNext s (some f) else {s with inProcess:=some f}

def rxStop (s : Rx) : Rx :=
  match rtwAllocRecvframe s with
  | none => s
  | some (f,s) => rtwFreeRecvframe s f

-- The 256-bit ciphers do not set the packet number.
def setGroupKey (s : Rx) (keyId : Nat) (alg : Cipher) (seq : Nat) : Rx :=
  let ivSeq :=
    match alg with
    | .ccmp256 => s.ivSeq
    | .gcmp256 => s.ivSeq
    | _ => if keyId < 4 then update s.ivSeq keyId seq else s.ivSeq
  {s with ivSeq}.note (.groupKey keyId)

def setBipKey (s : Rx) (keyId seq : Nat) : Rx :=
  {s with cfg:={s.cfg with bipKey:=true,bipKeyid:=keyId},bipRxpn:=seq}.note .bipKey

inductive Event where
  | rx (pkt : RxPacket)
  | rxStop
  | sta (op : StaOp)
  | config (cfg : Config)
  | groupKey (keyId : Nat) (alg : Cipher) (seq : Nat)
  | bipKey (keyId seq : Nat)

def rxStep (s : Rx) (event : Event) : Rx :=
  match s.inProcess with
  | some _ => s
  | none =>
    match event with
    | .rx pkt => rtwCoreRxProcess s pkt
    | .rxStop => rxStop s
    | .sta op => staOp s op
    | .config cfg => {s with cfg}
    | .groupKey keyId alg seq => setGroupKey s keyId alg seq
    | .bipKey keyId seq => setBipKey s keyId seq

def nrRecvframe : Nat := 256

def blankAttrib : Attrib where
  toFrDs := 0
  fragNum := 0
  seqNum := 0
  mfrag := false
  privacy := false
  order := false
  qos := false
  amsdu := false
  priority := 0
  hdrlen := 0
  encrypt := .noPrivacy
  ivLen := 0
  icvLen := 0
  bdecrypted := false
  icvErr := false
  crcErr := false
  ra := 0
  ta := 0
  dst := 0
  src := 0
  bssid := 0

def blankFrame (id : Nat) : RecvFrame where
  id := id
  attrib := blankAttrib
  mpdu := fun _ => 0
  rxData := fun _ => 0
  len := 0
  room := 0
  rxReq := none
  hasPkt := false
  hasAdapter := false
  keytrack := 0
  plain := false
  blocked := false

def rtwInitRecvPriv (cfg : Config) : Rx where
  cfg := cfg
  stations := fun _ => none
  ivSeq := fun _ => 0
  bipRxpn := 0
  freeQueue := (List.range nrRecvframe).map blankFrame
  freeCnt := nrRecvframe
  inProcess := none
  log := []
end Rtl8852au.Recv
