import Rtl8852au.RecvPort

namespace Rtl8852au.Recv
open Option Nat

structure Access where
  at_ : Int
  count : Nat
  deriving DecidableEq

def span (at_ count : Nat) : Access := ⟨at_,count⟩
def Access.Inside (len : Nat) (x : Access) : Prop := ∀ i < x.count, 0 ≤ x.at_ + i ∧ x.at_ + i < len

def addresses : List Access := [span 4 6,span 10 6,span 16 6]

def hdrBssidAt (ptr : Bytes) : Nat :=
  match getToFrDs ptr with
  | 0 => 16
  | 1 => 10
  | _ => 4

def phyInfoReads (cfg : Config) (ptr : Bytes) : List Access :=
  [span 4 1,span 10 6] ++
    if getAddr2 ptr = cfg.macAddr then []
    else [span 0 2,span (hdrBssidAt ptr) 6] ++ if addrAt ptr (hdrBssidAt ptr) = cfg.bssid then [span 4 6] else []

section
variable (cfg : Config) (a : Attrib)

def staHdrReads : List Access :=
  span 4 1 ::
    if a.toFrDs = 0 then addresses
    else if !(cfg.asoc || cfg.linking) then [span 10 6]
    else
      match a.toFrDs with
      | 1 => addresses ++ [span 0 2]
      | 3 => addresses ++ [span 24 6,span 0 2]
      | _ => [span 4 6,span 10 6]

def apHdrReads : List Access :=
  if !cfg.asoc then []
  else
    match a.toFrDs with
    | 2 => span 4 1 :: addresses ++ [span 0 2]
    | 3 => span 4 1 :: addresses ++ [span 24 6,span 0 2]
    | _ => []

def adhocHdrReads (a : Attrib) : List Access := if a.toFrDs = 3 then [] else addresses

def hdrReads : List Access :=
  match cfg.mode with
  | .sta => staHdrReads cfg a
  | .ap => apHdrReads cfg a
  | .adhoc => adhocHdrReads a

def qosReads (a : Attrib) : List Access := if a.qos then [span (24 + a4Shift a) 2] else []

def pnReads : List Access := if a.encrypt = .aes ∧ (isMcast a.ra → cfg.mode = .sta) then [span a.hdrlen 8] else []

def etherReads : List Access :=
  if cfg.privacyAlg ≠ .noPrivacy ∧ isMcast a.ra = false then [span (a.hdrlen + a.ivLen + 6) 2] else []
end
section
variable (s : Rx) (f : RecvFrame)

-- How far a frame comes in `validate_recv_data_frame`: its header is accepted, it is
-- no repetition, its packet number has been looked at.
def acceptedHdr : Option (Addr × Station × Attrib) :=
  match rxDataValidateHdr s (dataAttrib f) f.rxData with
  | (a,.success,some (key,sta)) => if sta.conf.amsduDisable && a.amsdu then none else some (key,sta,parseQc a f.rxData)
  | _ => none

def freshFrame : Option (Addr × Station × Attrib) :=
  (acceptedHdr s f).bind fun found => (recvDecache found.2.1 found.2.2).map fun sta => (found.1,sta,found.2.2)

def numberedFrame : Option Attrib :=
  (freshFrame s f).bind fun found =>
    (pnDecache s found.1 found.2.1 {f with attrib:=found.2.2}).map fun t => setEncrypt t.cfg found.2.1 found.2.2

def dataReads : List Access :=
  span 0 2 :: qosReads (dataAttrib f) ++ hdrReads s.cfg (dataAttrib f) ++
    (acceptedHdr s f).elim [] (fun found => qosReads found.2.2) ++ (freshFrame s f).elim [] (fun found => pnReads s.cfg found.2.2) ++
    (numberedFrame s f).elim [] (etherReads s.cfg)

def frameReads : List Access :=
  span 0 1 ::
    if getVersion f.rxData ≠ 0 then []
    else [span 0 2,span 22 2] ++ phyInfoReads s.cfg f.rxData ++
      if getFrameType f.rxData = .data then dataReads s (parsedData f) else []

def toU32 (n : Int) : Nat := (n % 0x100000000).toNat

structure CipherSide where
  groupKey : Bool
  alloc : Bool

def hasKey (s : Rx) (side : CipherSide) (a : Attrib) : Bool := (rtwGetStainfo s a.ta).isSome && (!isMcast a.ra || side.groupKey)

-- Both also take the last bytes of the body for the ICV; only TKIP compares them.
def rtwWepDecrypt (f : RecvFrame) : List Access :=
  let a := f.attrib
  let length : Int := f.len - a.hdrlen - a.ivLen
  [span a.hdrlen 3,span (a.hdrlen+a.ivLen) (toU32 length),span (a.hdrlen+a.ivLen) (length-4).toNat]

def rtwTkipDecrypt (s : Rx) (side : CipherSide) (f : RecvFrame) : List Access :=
  let a := f.attrib
  let length : Int := f.len - a.hdrlen - a.ivLen
  if hasKey s side a then
    [span a.hdrlen 8,span (a.hdrlen+a.ivLen) (toU32 length),span (a.hdrlen+a.ivLen) (length-4).toNat,
      ⟨a.hdrlen + a.ivLen + length - 4,4⟩]
  else []

-- CCMP and GCMP: header for the additional data, packet number, body with MIC, and the
-- plain text that is copied back.
def rtwAeadDecrypt (s : Rx) (side : CipherSide) (mic : Nat) (f : RecvFrame) : List Access :=
  let a := f.attrib
  let dataLen := toU32 (f.len-a.hdrlen)
  if hasKey s side a && decide (8 + mic ≤ dataLen) && side.alloc then
    [span 0 24,span 24 ((if getToFrDs f.rxData = 3 then 6 else 0) + (if isQos f.rxData then 2 else 0)),span a.hdrlen 8,
      span (a.hdrlen+8) (dataLen-8),span (a.hdrlen+8) (dataLen - 8 - mic)]
  else []

def softwareAccesses (s : Rx) (side : CipherSide) (f : RecvFrame) : List Access :=
  match f.attrib.encrypt with
  | .wep40 => rtwWepDecrypt f
  | .wep104 => rtwWepDecrypt f
  | .tkip => rtwTkipDecrypt s side f
  | .aes => rtwAeadDecrypt s side 8 f
  | .ccmp256 => rtwAeadDecrypt s side 16 f
  | .gcmp => rtwAeadDecrypt s side 16 f
  | .gcmp256 => rtwAeadDecrypt s side 16 f
  | _ => []

def decryptorAccesses (s : Rx) (side : CipherSide) (f : RecvFrame) : List Access :=
  if f.attrib.encrypt = .noPrivacy then []
  else span (f.attrib.hdrlen+3) 1 :: if f.attrib.bdecrypted then [] else span 0 2 :: softwareAccesses s side f

def portReads : List Access := if s.cfg.authAlg = .ieee8021x ∧ blockedNow s f.attrib.ta then [span (msduAt f + 6) 2] else []
end

def icvOf (f : RecvFrame) : Nat := if f.attrib.encrypt = .noPrivacy then 0 else f.attrib.icvLen
def llcReads (f : RecvFrame) : List Access := if msduLen f < 8 then [] else [span (msduAt f + 6) 2,span (msduAt f) 6]
def tailAfterIcv (f : RecvFrame) : Nat := if icvOf f ≤ f.len then f.len - icvOf f else f.len
def ethhdrAt (f : RecvFrame) (remove : Bool) : Int := msduAt f + (if remove then 6 else 0) - 14 + if remove then 2 else 0

def ethhdrWrites (f : RecvFrame) (remove : Bool) : List Access :=
  if (tailAfterIcv f : Int) < ethhdrAt f remove then []
  else [⟨ethhdrAt f remove,6⟩,⟨ethhdrAt f remove + 6,6⟩] ++ if remove then [] else [⟨ethhdrAt f remove + 12,2⟩]

def removesLlc (f : RecvFrame) : Bool := rtwRecvLlcParse (msduBytes f) (msduLen f)

section
variable (s : Rx) (pkt : RxPacket)

def takesMsdu : Bool := (msduAct s.cfg pkt 0).1 || (msduAct s.cfg pkt 0).2

-- Each access with the length of the frame at that moment.
def msduAccesses (f : RecvFrame) : List (Nat × Access) :=
  if f.attrib.amsdu then []
  else (llcReads f).map (fun x => (f.len,x)) ++
    if takesMsdu s pkt then (ethhdrWrites f (removesLlc f)).map (fun x => (tailAfterIcv f,x)) else []

def handedToValidate : Option (Rx × RecvFrame) :=
  match rtwAllocRecvframe s with
  | none => none
  | some (f,s) =>
    match rtwCoreUpdateRecvframe s pkt f with
    | (s,f,.continue_) => if f.attrib.icvErr || f.attrib.crcErr then none else if !s.cfg.up then none else some (s,f)
    | _ => none

def handedToDecryptor : Option (Rx × RecvFrame) :=
  (handedToValidate s pkt).bind fun now =>
    match validateRecvFrame now.1 pkt now.2 with
    | (s,f,.success) => some (s,f)
    | _ => none

def handedToDefrag : Option (Rx × RecvFrame) :=
  (handedToDecryptor s pkt).bind fun now => (decryptor pkt now.2).map fun f => (now.1,f)

def handedToPortctrl : Option (Rx × RecvFrame) :=
  (handedToDefrag s pkt).bind fun now =>
    match recvframeChkDefrag now.1 now.2 with
    | (s,.continue_,some f) => (if f.attrib.privacy then recvframeChkmic s pkt f else some f).map fun f => (s,f)
    | _ => none

def handedToMsdu : Option (Rx × RecvFrame) :=
  (handedToPortctrl s pkt).bind fun now => (portctrl now.1 now.2).map fun f => (now.1,f)

def withLen (f : RecvFrame) (accesses : List Access) : List (Nat × Access) := accesses.map fun x => (f.len,x)

def roundAccesses (side : CipherSide) : List (Nat × Access) :=
  (handedToValidate s pkt).elim [] (fun now => withLen now.2 (frameReads now.1 now.2)) ++
    (handedToDecryptor s pkt).elim [] (fun now => withLen now.2 (decryptorAccesses now.1 side now.2)) ++
    (handedToPortctrl s pkt).elim [] (fun now => withLen now.2 (portReads now.1 now.2)) ++
    (handedToMsdu s pkt).elim [] (fun now => msduAccesses now.1 pkt now.2)
end

def keeps : Note → Bool
  | .msdu _ _ => true
  | .queue _ _ => true
  | _ => false

def ownLen (f : RecvFrame) : Nat := f.attrib.hdrlen + f.attrib.ivLen + f.attrib.icvLen

structure LengthSafe (s : Rx) (pkt : RxPacket) (side : CipherSide) : Prop where
  inside : ∀ x ∈ roundAccesses s pkt side, x.2.Inside x.1
  noWrap : ∀ t f, handedToMsdu s pkt = some (t,f) → f.attrib.amsdu = false → (msduLen f : Int) = f.len - msduAt f - icvOf f
  dropped : (∃ t f, handedToDecryptor s pkt = some (t,f) ∧ ownLen f ≤ f.len) ∨
    ∃ notes, (rtwCoreRxProcess s pkt).log = s.log ++ notes ∧ ∀ n ∈ notes, keeps n = false

theorem span_inside {count : Nat} (some_ : 0 < count) : (span at_ count).Inside len ↔ at_ + count ≤ len := by
  constructor
  · intro inside
    have last := (inside (count-1) (by simp only [span]; omega)).2
    simp only [span] at last
    omega
  · intro fits i small
    simp only [span] at small ⊢
    omega

theorem span_fits {count : Nat} (fits : at_ + count ≤ len) : (span at_ count).Inside len := by
  intro i small
  simp only [span] at small ⊢
  omega

def AllInside (len : Nat) (accesses : List Access) : Prop := ∀ x ∈ accesses, x.Inside len
theorem allInside_nil : AllInside len [] := fun _ member => absurd member (List.not_mem_nil)

theorem allInside_cons : AllInside len (x :: rest) ↔ x.Inside len ∧ AllInside len rest := by
  simp only [AllInside,List.mem_cons,forall_eq_or_imp]

theorem allInside_append : AllInside len (first ++ second) ↔ AllInside len first ∧ AllInside len second := by
  simp only [AllInside,List.mem_append,or_imp,forall_and]

theorem allInside_single : AllInside len [x] ↔ x.Inside len := by simp only [AllInside,List.mem_singleton,forall_eq]

theorem addresses_inside (header : 24 ≤ len) : AllInside len addresses := by
  simp only [addresses,allInside_cons]
  exact ⟨span_fits (by omega),span_fits (by omega),span_fits (by omega),allInside_nil⟩

theorem phyInfoReads_inside (cfg : Config) (ptr : Bytes) (header : 24 ≤ len) : AllInside len (phyInfoReads cfg ptr) := by
  have bssid : hdrBssidAt ptr + 6 ≤ len := by
    unfold hdrBssidAt
    split <;> omega
  unfold phyInfoReads
  simp only [allInside_append,allInside_cons]
  refine ⟨⟨span_fits (by omega),span_fits (by omega),allInside_nil⟩,?_⟩
  split
  · exact allInside_nil
  · simp only [allInside_append,allInside_cons]
    refine ⟨⟨span_fits (by omega),span_fits bssid,allInside_nil⟩,?_⟩
    split
    · exact allInside_single.mpr (span_fits (by omega))
    · exact allInside_nil

def readsFourth (cfg : Config) (a : Attrib) : Bool :=
  a.toFrDs == 3 &&
    match cfg.mode with
    | .sta => cfg.asoc || cfg.linking
    | .ap => cfg.asoc
    | .adhoc => false

theorem fourth_inside (header : 24 ≤ len) : AllInside len (addresses ++ [span 24 6,span 0 2]) ↔ 30 ≤ len := by
  simp only [allInside_append,allInside_cons,span_inside (succ_pos _),addresses_inside header,allInside_nil,true_and,and_true]
  omega

theorem staHdrReads_inside (header : 24 ≤ len) :
    AllInside len (staHdrReads cfg a) ↔ (a.toFrDs = 3 → (cfg.asoc || cfg.linking) → 30 ≤ len) := by
  have first : (span 4 1).Inside len := span_fits (by omega)
  have plain := addresses_inside header
  unfold staHdrReads
  simp only [allInside_cons,first,true_and]
  by_cases own : a.toFrDs = 0
  · simp [own,plain]
  · rw [if_neg own]
    cases linked : cfg.asoc || cfg.linking with
    | false =>
      simp only [Bool.not_false,if_true,Bool.false_eq_true,false_implies,implies_true,iff_true]
      exact allInside_single.mpr (span_fits (by omega))
    | true =>
      simp only [Bool.not_true,Bool.false_eq_true,if_false,forall_const]
      split
      · rename_i from_
        have inside : AllInside len (addresses ++ [span 0 2]) :=
          allInside_append.mpr ⟨plain,allInside_single.mpr (span_fits (by omega))⟩
        simp [from_,inside]
      · rename_i both
        simp only [both,fourth_inside header,forall_const]
      · rename_i _ other
        have inside : AllInside len [span 4 6,span 10 6] :=
          allInside_cons.mpr ⟨span_fits (by omega),allInside_single.mpr (span_fits (by omega))⟩
        exact ⟨fun _ both => absurd both other,fun _ => inside⟩

theorem apHdrReads_inside (header : 24 ≤ len) :
    AllInside len (apHdrReads cfg a) ↔ (a.toFrDs = 3 → cfg.asoc → 30 ≤ len) := by
  have first : (span 4 1).Inside len := span_fits (by omega)
  have plain := addresses_inside header
  unfold apHdrReads
  cases asoc : cfg.asoc with
  | false => simp [allInside_nil]
  | true =>
    simp only [Bool.not_true,Bool.false_eq_true,if_false,forall_const]
    split
    · rename_i to_
      have inside : AllInside len (span 4 1 :: addresses ++ [span 0 2]) :=
        allInside_cons.mpr ⟨first,allInside_append.mpr ⟨plain,allInside_single.mpr (span_fits (by omega))⟩⟩
      simpa [to_] using inside
    · rename_i both
      rw [List.cons_append,allInside_cons,fourth_inside header]
      simp [both,first]
    · rename_i other
      exact ⟨fun _ both => absurd both other,fun _ => allInside_nil⟩

theorem hdrReads_inside (header : 24 ≤ len) : AllInside len (hdrReads cfg a) ↔ (readsFourth cfg a → 30 ≤ len) := by
  unfold hdrReads readsFourth
  cases mode : cfg.mode with
  | sta => simp only [staHdrReads_inside header,Bool.and_eq_true,beq_iff_eq,and_imp]
  | ap => simp only [apHdrReads_inside header,Bool.and_eq_true,beq_iff_eq,and_imp]
  | adhoc =>
    simp only [adhocHdrReads,Bool.and_false,Bool.false_eq_true,false_implies,iff_true]
    split
    · exact allInside_nil
    · exact addresses_inside header

theorem qosReads_inside (a : Attrib) : AllInside len (qosReads a) ↔ (a.qos → 26 + a4Shift a ≤ len) := by
  unfold qosReads
  cases a.qos with
  | false => simp [allInside_nil]
  | true =>
    simp only [if_true,allInside_single,span_inside (succ_pos _),forall_const]
    omega

theorem pnReads_inside (cfg : Config) (a : Attrib) :
    AllInside len (pnReads cfg a) ↔ (a.encrypt = .aes → (isMcast a.ra → cfg.mode = .sta) → a.hdrlen+8 ≤ len) := by
  unfold pnReads
  by_cases read : a.encrypt = .aes ∧ (isMcast a.ra → cfg.mode = .sta)
  · rw [if_pos read,allInside_single,span_inside (succ_pos _)]
    exact ⟨fun fits _ _ => fits,fun fits => fits read.1 read.2⟩
  · rw [if_neg read]
    exact ⟨fun _ cipher group => absurd ⟨cipher,group⟩ read,fun _ => allInside_nil⟩

theorem etherReads_inside (cfg : Config) (a : Attrib) :
    AllInside len (etherReads cfg a) ↔ (cfg.privacyAlg ≠ .noPrivacy → isMcast a.ra = false → a.hdrlen + a.ivLen + 8 ≤ len) := by
  unfold etherReads
  by_cases read : cfg.privacyAlg ≠ .noPrivacy ∧ isMcast a.ra = false
  · rw [if_pos read,allInside_single,span_inside (succ_pos _)]
    exact ⟨fun fits _ _ => fits,fun fits => fits read.1 read.2⟩
  · rw [if_neg read]
    exact ⟨fun _ net unicast => absurd ⟨net,unicast⟩ read,fun _ => allInside_nil⟩

theorem acceptedHdr_same (accepted : acceptedHdr s f = some (key,sta,a)) :
    a.qos = f.attrib.qos ∧ a4Shift a = a4Shift f.attrib := by
  unfold acceptedHdr at accepted
  split at accepted
  · rename_i header
    obtain ⟨⟨dst,src,bssid,rfl⟩,_⟩ := rxDataValidateHdr_spec header
    split at accepted
    · cases accepted
    · cases accepted
      exact ⟨rfl,rfl⟩
  · cases accepted

theorem elim_inside {reads : α → List Access} : AllInside len (o.elim [] reads) ↔ ∀ x, o = some x → AllInside len (reads x) := by
  cases o with
  | none => simp [allInside_nil]
  | some x => simp

structure HeaderLong (s : Rx) (f : RecvFrame) : Prop where
  header : 24 ≤ f.len
  qos : isQos f.rxData → 26 + ownA4 f.rxData ≤ f.len
  fourth : readsFourth s.cfg (dataAttrib (parsedData f)) → 30 ≤ f.len
  pn : ∀ key sta a, freshFrame s (parsedData f) = some (key,sta,a) → a.encrypt = .aes → (isMcast a.ra → s.cfg.mode = .sta) →
    a.hdrlen+8 ≤ f.len
  ether : ∀ a, numberedFrame s (parsedData f) = some a → s.cfg.privacyAlg ≠ .noPrivacy → isMcast a.ra = false →
    a.hdrlen + a.ivLen + 8 ≤ f.len

theorem dataReads_inside (s : Rx) (f : RecvFrame) (header : 24 ≤ f.len) :
    AllInside f.len (dataReads s (parsedData f)) ↔ HeaderLong s f := by
  have first : (span 0 2).Inside f.len := span_fits (by omega)
  have own : a4Shift (dataAttrib (parsedData f)) = ownA4 f.rxData := rfl
  have isQos_ : (dataAttrib (parsedData f)).qos = isQos f.rxData := rfl
  unfold dataReads
  simp only [List.cons_append,allInside_cons,allInside_append,first,true_and,qosReads_inside,hdrReads_inside header,elim_inside,
    pnReads_inside,etherReads_inside,own,isQos_]
  constructor
  · intro ⟨⟨⟨⟨qos,fourth⟩,_⟩,pn⟩,ether⟩
    exact ⟨header,qos,fourth,fun key sta a fresh => pn (key,sta,a) fresh,ether⟩
  · intro long
    refine ⟨⟨⟨⟨long.qos,long.fourth⟩,?_⟩,fun found fresh => long.pn found.1 found.2.1 found.2.2 fresh⟩,long.ether⟩
    intro found accepted qos
    obtain ⟨sameQos,sameShift⟩ := acceptedHdr_same accepted
    rw [sameShift]
    exact long.qos (sameQos.symm.trans qos)

theorem frameReads_inside (s : Rx) (f : RecvFrame) (type : getFrameType f.rxData = .data) :
    AllInside f.len (frameReads s f) ↔ 1 ≤ f.len ∧ (getVersion f.rxData = 0 → HeaderLong s f) := by
  unfold frameReads
  rw [allInside_cons,span_inside (succ_pos _)]
  apply and_congr (by omega)
  by_cases version : getVersion f.rxData = 0
  · rw [if_neg (by simpa using version),if_pos type]
    simp only [version,forall_const,allInside_append,allInside_cons,span_inside (succ_pos _)]
    constructor
    · intro ⟨⟨⟨_,header,_⟩,_⟩,data⟩
      exact (dataReads_inside s f header).mp data
    · intro long
      have header := long.header
      exact ⟨⟨⟨by omega,by omega,allInside_nil⟩,phyInfoReads_inside s.cfg f.rxData header⟩,(dataReads_inside s f header).mpr long⟩
  · rw [if_pos (by simpa using version)]
    exact ⟨fun _ zero => absurd zero version,fun _ => allInside_nil⟩

theorem toU32_le (n : Int) (positive : 0 ≤ n) : (toU32 n : Int) ≤ n := by
  unfold toU32
  omega

theorem rtwWepDecrypt_inside (iv : f.attrib.ivLen = 4) (long : f.attrib.hdrlen + 4 ≤ f.len) :
    AllInside f.len (rtwWepDecrypt f) := by
  have body := toU32_le ((f.len : Int) - f.attrib.hdrlen - f.attrib.ivLen) (by omega)
  unfold rtwWepDecrypt
  simp only [allInside_cons]
  exact ⟨span_fits (by omega),span_fits (by omega),span_fits (by omega),allInside_nil⟩

theorem rtwTkipDecrypt_inside (iv : f.attrib.ivLen = 8) :
    AllInside f.len (rtwTkipDecrypt s side f) ↔ (hasKey s side f.attrib → f.attrib.hdrlen+8 ≤ f.len) := by
  unfold rtwTkipDecrypt
  simp only
  cases hasKey s side f.attrib with
  | false => simp [allInside_nil]
  | true =>
    simp only [if_true,forall_const,allInside_cons,span_inside (succ_pos _)]
    constructor
    · exact fun inside => inside.1
    · intro long
      have body := toU32_le ((f.len : Int) - f.attrib.hdrlen - f.attrib.ivLen) (by omega)
      refine ⟨long,span_fits (by omega),span_fits (by omega),?_,allInside_nil⟩
      intro i small
      simp only at small ⊢
      omega

theorem rtwAeadDecrypt_inside (own : f.attrib.hdrlen = ownHdrlen f.rxData) (long : f.attrib.hdrlen + 4 ≤ f.len) :
    AllInside f.len (rtwAeadDecrypt s side mic f) := by
  have data := toU32_le ((f.len : Int) - f.attrib.hdrlen) (by omega)
  have aad : 24 + ((if getToFrDs f.rxData = 3 then 6 else 0) + (if isQos f.rxData then 2 else 0)) ≤ f.attrib.hdrlen := by
    rw [own]
    unfold ownHdrlen ownA4
    cases isQos f.rxData <;> simp only [if_true,Bool.false_eq_true,if_false] <;> omega
  unfold rtwAeadDecrypt
  simp only
  generalize toU32 ((f.len : Int) - f.attrib.hdrlen) = dataLen at data ⊢
  split
  · rename_i read
    simp only [Bool.and_eq_true,decide_eq_true_eq] at read
    simp only [allInside_cons]
    exact ⟨span_fits (by omega),span_fits (by omega),span_fits (by omega),span_fits (by omega),span_fits (by omega),allInside_nil⟩
  · exact allInside_nil

structure KeyLong (s : Rx) (side : CipherSide) (f : RecvFrame) : Prop where
  iv : f.attrib.encrypt ≠ .noPrivacy → f.attrib.hdrlen+4 ≤ f.len
  tkip : f.attrib.encrypt = .tkip → f.attrib.bdecrypted = false → hasKey s side f.attrib → f.attrib.hdrlen+8 ≤ f.len

theorem softwareAccesses_inside (own : f.attrib.hdrlen = ownHdrlen f.rxData)
    (iv : f.attrib.ivLen = (setIceIvLen f.attrib.encrypt).1) (long : f.attrib.hdrlen + 4 ≤ f.len) :
    AllInside f.len (softwareAccesses s side f) ↔
      (f.attrib.encrypt = .tkip → hasKey s side f.attrib → f.attrib.hdrlen+8 ≤ f.len) := by
  unfold softwareAccesses
  cases cipher : f.attrib.encrypt with
  | noPrivacy => simp [allInside_nil]
  | sms4 => simp [allInside_nil]
  | tkipWtmic => simp [allInside_nil]
  | wep40 => simp [rtwWepDecrypt_inside (iv.trans (by rw [cipher]; rfl)) long]
  | wep104 => simp [rtwWepDecrypt_inside (iv.trans (by rw [cipher]; rfl)) long]
  | tkip => simp only [rtwTkipDecrypt_inside (iv.trans (by rw [cipher]; rfl)),forall_const]
  | aes => simp [rtwAeadDecrypt_inside own long]
  | ccmp256 => simp [rtwAeadDecrypt_inside own long]
  | gcmp => simp [rtwAeadDecrypt_inside own long]
  | gcmp256 => simp [rtwAeadDecrypt_inside own long]

theorem decryptorAccesses_inside (own : f.attrib.hdrlen = ownHdrlen f.rxData)
    (iv : f.attrib.ivLen = (setIceIvLen f.attrib.encrypt).1) :
    AllInside f.len (decryptorAccesses s side f) ↔ KeyLong s side f := by
  unfold decryptorAccesses
  by_cases plain : f.attrib.encrypt = .noPrivacy
  · rw [if_pos plain]
    exact ⟨fun _ => ⟨fun cipher => absurd plain cipher,fun tkip => by simp [plain] at tkip⟩,fun _ => allInside_nil⟩
  · rw [if_neg plain,allInside_cons,span_inside (succ_pos _)]
    constructor
    · intro ⟨long,rest⟩
      refine ⟨fun _ => long,?_⟩
      intro tkip software key
      rw [if_neg (by simp [software]),allInside_cons] at rest
      exact (softwareAccesses_inside own iv long).mp rest.2 tkip key
    · intro long
      have room := long.iv plain
      refine ⟨room,?_⟩
      cases hardware : f.attrib.bdecrypted with
      | true => exact allInside_nil
      | false =>
        simp only [Bool.false_eq_true,if_false,allInside_cons]
        exact ⟨span_fits (by omega),(softwareAccesses_inside own iv room).mpr fun tkip => long.tkip tkip hardware⟩

theorem portReads_inside (s : Rx) (f : RecvFrame) : AllInside len (portReads s f) ↔
    (s.cfg.authAlg = .ieee8021x → blockedNow s f.attrib.ta → msduAt f + 8 ≤ len) := by
  unfold portReads
  by_cases read : s.cfg.authAlg = .ieee8021x ∧ blockedNow s f.attrib.ta
  · rw [if_pos read,allInside_single,span_inside (succ_pos _)]
    exact ⟨fun fits _ _ => fits,fun fits => fits read.1 read.2⟩
  · rw [if_neg read]
    exact ⟨fun _ net blocked => absurd ⟨net,blocked⟩ read,fun _ => allInside_nil⟩

structure MsduLong (s : Rx) (pkt : RxPacket) (f : RecvFrame) : Prop where
  long : msduAt f + icvOf f ≤ f.len
  small : f.len < msduAt f + icvOf f + 2^16
  front : takesMsdu s pkt → 14 ≤ msduAt f + if removesLlc f then 8 else 0

theorem msduLen_exact (f : RecvFrame) :
    (msduLen f : Int) = f.len - msduAt f - icvOf f ↔ msduAt f + icvOf f ≤ f.len ∧ f.len < msduAt f + icvOf f + 2^16 := by
  have same : (if f.attrib.encrypt = .noPrivacy then (0 : Int) else f.attrib.icvLen) = icvOf f := by
    unfold icvOf
    split <;> rfl
  unfold msduLen toU16
  have cast_ : (f.len - msduAt f - (if f.attrib.encrypt = .noPrivacy then 0 else f.attrib.icvLen : Nat) : Int) =
      (f.len : Int) - msduAt f - icvOf f := rfl
  rw [cast_]
  omega

theorem removesLlc_long (removes : removesLlc f) : 8 ≤ msduLen f := by
  unfold removesLlc rtwRecvLlcParse at removes
  simp only [Bool.and_eq_true,decide_eq_true_eq] at removes
  exact removes.1

def InsideEach (accesses : List (Nat × Access)) : Prop := ∀ x ∈ accesses, x.2.Inside x.1

theorem insideEach_append : InsideEach (first ++ second) ↔ InsideEach first ∧ InsideEach second := by
  simp only [InsideEach,List.mem_append,or_imp,forall_and]

theorem insideEach_len (len : Nat) (accesses : List Access) :
    InsideEach (accesses.map fun x => (len,x)) ↔ AllInside len accesses := by
  simp only [InsideEach,AllInside,List.forall_mem_map]

theorem llcReads_inside (exact_ : (msduLen f : Int) = f.len - msduAt f - icvOf f) : AllInside f.len (llcReads f) := by
  unfold llcReads
  split
  · exact allInside_nil
  · simp only [allInside_cons]
    exact ⟨span_fits (by omega),span_fits (by omega),allInside_nil⟩

theorem ethhdrWrites_inside (long : msduAt f + icvOf f ≤ f.len) (more : remove = true → msduAt f + icvOf f + 8 ≤ f.len)
    (front : 14 ≤ msduAt f + if remove then 8 else 0) : AllInside (tailAfterIcv f) (ethhdrWrites f remove) := by
  have tail : tailAfterIcv f = f.len - icvOf f := if_pos (by omega)
  have fits {at_ : Int} {count : Nat} (low : 0 ≤ at_) (high : at_ + count ≤ (f.len - icvOf f : Nat)) :
      Access.Inside (f.len - icvOf f) ⟨at_,count⟩ := by
    intro i small
    simp only at small ⊢
    omega
  unfold ethhdrWrites
  rw [tail]
  by_cases short : ((f.len - icvOf f : Nat) : Int) < ethhdrAt f remove
  · rw [if_pos short]
    exact allInside_nil
  · rw [if_neg short]
    unfold ethhdrAt
    cases remove with
    | true =>
      have room := more rfl
      simp only [if_true,List.append_nil,allInside_cons] at front ⊢
      exact ⟨fits (by omega) (by omega),fits (by omega) (by omega),allInside_nil⟩
    | false =>
      simp only [Bool.false_eq_true,if_false,List.cons_append,List.nil_append,allInside_cons] at front ⊢
      exact ⟨fits (by omega) (by omega),fits (by omega) (by omega),fits (by omega) (by omega),allInside_nil⟩

theorem ethhdrWrites_front (inside : AllInside (tailAfterIcv f) (ethhdrWrites f remove)) (long : msduAt f + icvOf f ≤ f.len)
    (more : remove → msduAt f + icvOf f + 8 ≤ f.len) : 14 ≤ msduAt f + if remove then 8 else 0 := by
  have tail : tailAfterIcv f = f.len - icvOf f := if_pos (by omega)
  unfold ethhdrWrites at inside
  split at inside
  · rename_i short
    rw [tail] at short
    unfold ethhdrAt at short
    cases remove with
    | true =>
      have room := more rfl
      simp only [if_true] at short
      omega
    | false =>
      simp only [Bool.false_eq_true,if_false] at short
      omega
  · have first := (inside ⟨ethhdrAt f remove,6⟩ (by simp) 0 (succ_pos 5)).1
    unfold ethhdrAt at first
    cases remove with
    | true =>
      simp only [if_true] at first ⊢
      omega
    | false =>
      simp only [Bool.false_eq_true,if_false] at first ⊢
      omega

theorem msduAccesses_inside (s : Rx) (pkt : RxPacket) (f : RecvFrame) (single : f.attrib.amsdu = false) :
    (InsideEach (msduAccesses s pkt f) ∧ (msduLen f : Int) = f.len - msduAt f - icvOf f) ↔ MsduLong s pkt f := by
  unfold msduAccesses
  rw [if_neg (by simp [single]),insideEach_append,insideEach_len]
  constructor
  · intro ⟨⟨_,writes⟩,exact_⟩
    obtain ⟨long,small⟩ := (msduLen_exact f).mp exact_
    refine ⟨long,small,?_⟩
    intro takes
    rw [if_pos takes,insideEach_len] at writes
    refine ethhdrWrites_front writes long ?_
    intro removes
    have room := removesLlc_long removes
    omega
  · intro ⟨long,small,front⟩
    have exact_ := (msduLen_exact f).mpr ⟨long,small⟩
    refine ⟨⟨llcReads_inside exact_,?_⟩,exact_⟩
    split
    · rename_i takes
      rw [insideEach_len]
      refine ethhdrWrites_inside long ?_ (front takes)
      intro removes
      have room := removesLlc_long removes
      omega
    · exact fun _ member => absurd member List.not_mem_nil

def Grew (s s' : Rx) : Prop := ∃ notes, s'.log = s.log ++ notes
def Discards (s s' : Rx) : Prop := ∃ notes, s'.log = s.log ++ notes ∧ ∀ n ∈ notes, keeps n = false
def Retains (s s' : Rx) : Prop := ∃ notes, s'.log = s.log ++ notes ∧ ∃ n ∈ notes, keeps n
theorem Discards.same (log : s'.log = s.log) : Discards s s' := ⟨[],by simpa using log,by simp⟩

theorem Discards.trans (first : Discards s t) (second : Discards t u) : Discards s u := by
  obtain ⟨before,log,quiet⟩ := first
  obtain ⟨after,log',quiet'⟩ := second
  refine ⟨before ++ after,by rw [log',log,List.append_assoc],?_⟩
  intro n member
  rcases List.mem_append.mp member with earlier | later
  · exact quiet n earlier
  · exact quiet' n later

theorem Discards.note (quiet : keeps n = false) : Discards s (s.note n) := ⟨[n],rfl,by simpa using quiet⟩
theorem Discards.free : Discards s (rtwFreeRecvframe s f) := ⟨[.free f.id f.rxReq],rfl,by simp [keeps]⟩

theorem Discards.freeQueue : Discards s (rtwFreeRecvframeQueue s queue) := by
  induction queue generalizing s with
  | nil => exact .same rfl
  | cons f rest ih => exact Discards.free.trans ih

theorem Discards.next : Discards s (rxNext s prframe) := by
  cases prframe with
  | none => exact .same rfl
  | some f => exact .free

theorem Discards.grew (discards : Discards s s') : Grew s s' := by
  obtain ⟨notes,log,_⟩ := discards
  exact ⟨notes,log⟩

theorem Grew.trans (first : Grew s t) (second : Grew t u) : Grew s u := by
  obtain ⟨before,log⟩ := first
  obtain ⟨after,log'⟩ := second
  exact ⟨before ++ after,by rw [log',log,List.append_assoc]⟩

theorem Retains.after (first : Grew s t) (retains : Retains t u) : Retains s u := by
  obtain ⟨before,log⟩ := first
  obtain ⟨notes,log',n,member,keeps_⟩ := retains
  exact ⟨before ++ notes,by rw [log',log,List.append_assoc],n,List.mem_append_right before member,keeps_⟩

theorem Retains.trans (retains : Retains s t) (second : Grew t u) : Retains s u := by
  obtain ⟨notes,log,n,member,keeps_⟩ := retains
  obtain ⟨after,log'⟩ := second
  exact ⟨notes ++ after,by rw [log',log,List.append_assoc],n,List.mem_append_left after member,keeps_⟩

theorem Retains.collected : Retains s (collected s key sta f) := ⟨[.queue f.id key],rfl,_,List.mem_singleton.mpr rfl,rfl⟩

theorem Retains.loud (retains : Retains s s') : ¬∃ notes, s'.log = s.log ++ notes ∧ ∀ n ∈ notes, keeps n = false := by
  intro ⟨others,log',quiet⟩
  obtain ⟨notes,log,n,member,keeps_⟩ := retains
  have same : notes = others := List.append_cancel_left (log.symm.trans log')
  rw [same] at member
  rw [quiet n member] at keeps_
  cases keeps_

theorem pnDecache_log (fresh : pnDecache s key sta f = some s') : s'.log = s.log := by
  unfold pnDecache at fresh
  split at fresh
  · obtain ⟨ivSeq,_,rfl⟩ := map_eq_some_iff.mp fresh
    rfl
  · obtain ⟨sta',_,rfl⟩ := map_eq_some_iff.mp fresh
    rfl

theorem noteAccepted_discards : Discards s (noteAccepted s f) := by
  rcases noteAccepted_ways s f with same | ⟨_,_,same⟩ <;> rw [same]
  · exact .same rfl
  · exact .note rfl

theorem DataFrame.discards (data : DataFrame s f s' g ret) : Discards s s' := by
  cases data with
  | refused => exact .same rfl
  | repeated => exact .same rfl
  | plaintext _ _ _ fresh => exact .same (pnDecache_log fresh)
  | accepted _ _ _ fresh => exact (Discards.same (pnDecache_log fresh)).trans noteAccepted_discards

theorem validateRecvFrame_discards (type : getFrameType f.rxData = .data) (result : validateRecvFrame s pkt f = (s',g,ret)) :
    Discards s s' := by
  unfold validateRecvFrame at result
  split at result
  · cases result
    exact .same rfl
  · rw [type] at result
    exact (dataFrame_ways result).discards

theorem update_discards (update : rtwCoreUpdateRecvframe s pkt f = (s',g,state)) : Discards s s' := by
  have attached : Discards s (s.note (.attach f.id pkt.req)) := .note rfl
  unfold rtwCoreUpdateRecvframe at update
  simp only at update
  split at update
  · cases update
    exact attached
  · split at update
    · cases update
      exact attached
    · split at update
      · cases update
        exact attached
      · cases update
        exact attached

theorem alloc_discards (alloc : rtwAllocRecvframe s = some (f,s')) : Discards s s' := by
  unfold rtwAllocRecvframe at alloc
  split at alloc
  · cases alloc
  · cases alloc
    exact ⟨[.alloc _],rfl,by simp [keeps]⟩

theorem delivered_grew : Grew s (delivered s f ethTypes) := ⟨_,rfl⟩

theorem PostProcess.grew (post : PostProcess s f ethTypes s' state) : Grew s s' := by
  cases post with
  | kept => exact delivered_grew
  | freed => exact delivered_grew.trans Discards.free.grew
  | noPkt => exact delivered_grew.trans Discards.free.grew

def behindDefrag (pkt : RxPacket) : Rx × RxState × Option RecvFrame → Rx
  | (s,.defrag,_) => s
  | (s,.continue_,some f) =>
    match (if f.attrib.privacy then recvframeChkmic s pkt f else some f) with
    | none => rxNext s (some f)
    | some g =>
      match portctrl s g with
      | none => rxNext s (some g)
      | some h =>
        match rtwCoreRxDataPostProcess s pkt h with
        | (s,.done) => s
        | (s,_) => rxNext s (some h)
  | (s,_,prframe) => rxNext s prframe

theorem rxData_undecrypted (failed : decryptor pkt f = none) : rxData s pkt f = rxNext s (some f) := by
  unfold rxData rtwCoreRxDataPreProcess
  simp only [failed]

theorem rxData_decrypted (plain : decryptor pkt f = some g) : rxData s pkt f = behindDefrag pkt (recvframeChkDefrag s g) := by
  unfold rxData rtwCoreRxDataPreProcess
  simp only [plain]
  rcases recvframeChkDefrag s g with ⟨t,state,prframe⟩
  cases state with
  | continue_ =>
    cases prframe with
    | none => rfl
    | some p =>
      simp only [behindDefrag]
      cases mic : (if p.attrib.privacy then recvframeChkmic t pkt p else some p) with
      | none => rfl
      | some q =>
        cases port : portctrl t q with
        | none => simp only [port]
        | some h =>
          rcases post : rtwCoreRxDataPostProcess t pkt h with ⟨u,state⟩
          cases state <;> simp only [port,post]
  | defrag => rfl
  | done => rfl
  | drop => rfl
  | fail => rfl

theorem behindDefrag_grew (pkt : RxPacket) : Grew s (behindDefrag pkt (s,state,prframe)) := by
  have next {g : RecvFrame} : Grew s (rxNext s (some g)) := Discards.next.grew
  cases state with
  | continue_ =>
    cases prframe with
    | none => exact Discards.next.grew
    | some f =>
      simp only [behindDefrag]
      split
      · exact next
      · split
        · exact next
        · rename_i h _
          rcases post : rtwCoreRxDataPostProcess s pkt h with ⟨t,state⟩
          obtain ⟨_,_,ways⟩ := rtwCoreRxDataPostProcess_ways post
          split
          · rename_i done
            cases done
            exact ways.grew
          · rename_i other
            cases other
            exact ways.grew.trans Discards.next.grew
  | defrag => exact (Discards.same rfl).grew
  | done => exact Discards.next.grew
  | drop => exact Discards.next.grew
  | fail => exact Discards.next.grew

theorem handedToValidate_taken (handed : handedToValidate s pkt = some (t,f)) :
    ∃ f0 rest, s.freeQueue = f0 :: rest ∧ t = takenFor s pkt f0 rest ∧ f = filled s pkt {f0 with rxReq:=none} := by
  unfold handedToValidate at handed
  split at handed
  · cases handed
  · rename_i alloc
    split at handed
    · rename_i update
      split at handed
      · cases handed
      · split at handed
        · cases handed
        · cases handed
          obtain ⟨f0,rest,queue,isState,_,_,full⟩ := (Taken.intro alloc update).spec
          exact ⟨f0,rest,queue,isState,full rfl⟩
    · cases handed

theorem validateRecvFrame_data (type : getFrameType f.rxData = .data) (result : validateRecvFrame s pkt f = (t,g,.success)) :
    DataFrame s (parsedData f) t g .success := by
  unfold validateRecvFrame at result
  split at result
  · cases result
  · rw [type] at result
    exact dataFrame_ways result

structure OwnFrame (pkt : RxPacket) (f : RecvFrame) : Prop where
  bytes : f.rxData = pkt.mpdu
  len : f.len = pkt.len
  hdrlen : f.attrib.hdrlen = ownHdrlen f.rxData
  ivLen : f.attrib.ivLen = (setIceIvLen f.attrib.encrypt).1
  icvLen : f.attrib.icvLen = (setIceIvLen f.attrib.encrypt).2
  amsdu : f.attrib.amsdu = (isQos pkt.mpdu && getAMsdu pkt.mpdu (ownA4 pkt.mpdu))

theorem handedToDecryptor_own (type : getFrameType pkt.mpdu = .data) (handed : handedToDecryptor s pkt = some (t,f)) :
    OwnFrame pkt f := by
  obtain ⟨⟨s1,f1⟩,entered,valid⟩ := bind_eq_some_iff.mp handed
  obtain ⟨f0,rest,queue,rfl,rfl⟩ := handedToValidate_taken entered
  simp only at valid
  split at valid
  · rename_i result
    cases valid
    have data := validateRecvFrame_data (f := filled s pkt {f0 with rxReq:=none}) type result
    obtain ⟨key,sta,sta',dst,src,bssid,t1,found,fresh,pn,rfl,_,_⟩ := data.success
    obtain ⟨now,ivSeq,rfl,_⟩ := pnDecache_spec pn
    have own := setEncrypt_own (s := takenFor s pkt f0 rest) (f := filled s pkt {f0 with rxReq:=none}) dst src bssid found
      (recvDecache_keeps fresh).2.1
    exact {own with bytes:=rfl,len:=rfl}
  · cases valid

theorem handedToDecryptor_round (handed : handedToDecryptor s pkt = some (t,f)) : rtwCoreRxProcess s pkt = rxData t pkt f := by
  obtain ⟨⟨s1,f1⟩,entered,valid⟩ := bind_eq_some_iff.mp handed
  unfold handedToValidate at entered
  unfold rtwCoreRxProcess
  rcases alloc : rtwAllocRecvframe s with _ | ⟨f0,s0⟩
  · simp only [alloc] at entered
    cases entered
  · simp only [alloc] at entered ⊢
    rcases update : rtwCoreUpdateRecvframe s0 pkt f0 with ⟨s2,f2,state⟩
    cases state with
    | continue_ =>
      simp only [update] at entered ⊢
      split at entered
      · cases entered
      · rename_i sound
        split at entered
        · cases entered
        · rename_i up
          cases entered
          simp only at valid
          split at valid
          · rename_i result
            cases valid
            rw [if_neg sound,if_neg up,result]
            rfl
          · cases valid
    | done => simp only [update] at entered; cases entered
    | drop => simp only [update] at entered; cases entered
    | fail => simp only [update] at entered; cases entered
    | defrag => simp only [update] at entered; cases entered

theorem unhanded_discards (type : getFrameType pkt.mpdu = .data) (none_ : handedToDecryptor s pkt = none) :
    Discards s (rtwCoreRxProcess s pkt) := by
  unfold handedToDecryptor handedToValidate at none_
  unfold rtwCoreRxProcess
  rcases alloc : rtwAllocRecvframe s with _ | ⟨f,t⟩
  · exact .same rfl
  · simp only [alloc] at none_ ⊢
    rcases update : rtwCoreUpdateRecvframe t pkt f with ⟨s1,f1,state⟩
    have taken : Discards s s1 := (alloc_discards alloc).trans (update_discards update)
    have stopped : Discards s (if f1.hasAdapter then rxNext s1 (some f1) else {s1 with inProcess:=some f1}) := by
      split
      · exact taken.trans .next
      · exact taken.trans (.same rfl)
    cases state with
    | continue_ =>
      simp only [update] at none_ ⊢
      by_cases bad : (f1.attrib.icvErr || f1.attrib.crcErr)
      · rw [if_pos bad]
        exact taken.trans .next
      · by_cases down : (!s1.cfg.up)
        · rw [if_neg bad,if_pos down]
          exact taken.trans .next
        · rw [if_neg bad,if_neg down] at none_ ⊢
          have entered : handedToValidate s pkt = some (s1,f1) := by
            unfold handedToValidate
            simp only [alloc,update]
            rw [if_neg bad,if_neg down]
          obtain ⟨f0,_,_,_,rfl⟩ := handedToValidate_taken entered
          rcases result : validateRecvFrame s1 pkt (filled s pkt {f0 with rxReq:=none}) with ⟨s2,f2,ret⟩
          have discards := validateRecvFrame_discards (f := filled s pkt {f0 with rxReq:=none}) type result
          cases ret with
          | success => simp [result] at none_
          | fail => exact (taken.trans discards).trans .next
          | handled => exact (taken.trans discards).trans .next
    | done => exact stopped
    | drop => exact stopped
    | fail => exact stopped
    | defrag => exact stopped

theorem handedToDecryptor_discards (type : getFrameType pkt.mpdu = .data) (handed : handedToDecryptor s pkt = some (t,f)) :
    Discards s t := by
  obtain ⟨⟨s1,f1⟩,entered,valid⟩ := bind_eq_some_iff.mp handed
  obtain ⟨f0,rest,queue,rfl,rfl⟩ := handedToValidate_taken entered
  have taken : Discards s (takenFor s pkt f0 rest) := ⟨[.alloc f0.id,.attach f0.id pkt.req],rfl,by simp [keeps]⟩
  simp only at valid
  split at valid
  · rename_i result
    cases valid
    exact taken.trans (validateRecvFrame_discards (f := filled s pkt {f0 with rxReq:=none}) type result)
  · cases valid

theorem lifted_discards : Discards s ((setDefragQ s key sta rest).note (.unqueue buffer)) := ⟨[.unqueue buffer],rfl,by simp [keeps]⟩
theorem givenUp_discards : Discards s (givenUp s key sta first rest) := (lifted_discards.trans .free).trans .freeQueue
theorem reassembled_discards : Discards s (reassembled s key sta first rest) := (lifted_discards.trans .freeQueue).trans (.note rfl)

theorem fragment_retained (pkt : RxPacket) (fragment : (f.attrib.mfrag || f.attrib.fragNum != 0))
    (queue : defragQueue t f ≠ none) :
    Retains t (behindDefrag pkt (recvframeChkDefrag t f)) := by
  rcases result : recvframeChkDefrag t f with ⟨s3,state,prframe⟩
  have retained : Retains t s3 := by
    cases chkDefrag_ways result with
    | whole single number => simp [single,number] at fragment
    | noQueue unknown => exact absurd unknown queue
    | first => exact Retains.collected.after Discards.freeQueue.grew
    | next => exact .collected
    | failed => exact Retains.collected.trans givenUp_discards.grew
    | joined => exact Retains.collected.trans reassembled_discards.grew
  exact retained.trans (behindDefrag_grew pkt)

theorem whole_ways (pkt : RxPacket) (other : ¬((f.attrib.mfrag || f.attrib.fragNum != 0) ∧ defragQueue t f ≠ none)) :
    Discards t (behindDefrag pkt (recvframeChkDefrag t f)) ∨
      ∃ g h, recvframeChkDefrag t f = (t,.continue_,some f) ∧
        (if f.attrib.privacy then recvframeChkmic t pkt f else some f) = some g ∧ portctrl t g = some h := by
  rcases result : recvframeChkDefrag t f with ⟨s3,state,prframe⟩
  cases chkDefrag_ways result with
  | whole single number =>
    simp only [behindDefrag]
    cases mic : (if f.attrib.privacy then recvframeChkmic t pkt f else some f) with
    | none => exact .inl .next
    | some g =>
      cases port : portctrl t g with
      | none =>
        simp only [port]
        exact .inl .next
      | some h => exact .inr ⟨g,h,trivial,rfl,port⟩
  | noQueue => exact .inl .next
  | first more _ found => exact absurd ⟨by simp [more],by simp [found]⟩ other
  | next more _ found => exact absurd ⟨by simp [more],by simp [found]⟩ other
  | failed _ number found => exact absurd ⟨by simp [number],by simp [found]⟩ other
  | joined _ number found => exact absurd ⟨by simp [number],by simp [found]⟩ other

structure LongEnough (s : Rx) (pkt : RxPacket) (side : CipherSide) : Prop where
  header : ∀ t f, handedToValidate s pkt = some (t,f) → 1 ≤ f.len ∧ (getVersion f.rxData = 0 → HeaderLong t f)
  key : ∀ t f, handedToDecryptor s pkt = some (t,f) → KeyLong t side f
  fragment : ∀ t f, handedToDefrag s pkt = some (t,f) → (f.attrib.mfrag || f.attrib.fragNum != 0) → defragQueue t f ≠ none →
    ownLen f ≤ f.len
  port : ∀ t f, handedToPortctrl s pkt = some (t,f) → t.cfg.authAlg = .ieee8021x → blockedNow t f.attrib.ta →
    msduAt f + 8 ≤ f.len
  msdu : ∀ t f, handedToMsdu s pkt = some (t,f) → f.attrib.amsdu = false → MsduLong t pkt f

theorem insideEach_elim : InsideEach (o.elim [] accesses) ↔ ∀ x, o = some x → InsideEach (accesses x) := by
  cases o with
  | none => simp [InsideEach]
  | some x => simp

theorem roundAccesses_inside (s : Rx) (pkt : RxPacket) (side : CipherSide) : InsideEach (roundAccesses s pkt side) ↔
    (∀ now, handedToValidate s pkt = some now → AllInside now.2.len (frameReads now.1 now.2)) ∧
    (∀ now, handedToDecryptor s pkt = some now → AllInside now.2.len (decryptorAccesses now.1 side now.2)) ∧
    (∀ now, handedToPortctrl s pkt = some now → AllInside now.2.len (portReads now.1 now.2)) ∧
    (∀ now, handedToMsdu s pkt = some now → InsideEach (msduAccesses now.1 pkt now.2)) := by
  simp only [roundAccesses,insideEach_append,insideEach_elim,withLen,insideEach_len,and_assoc]

theorem handedToDefrag_own (handed : handedToDefrag s pkt = some (t,g)) :
    ∃ f, handedToDecryptor s pkt = some (t,f) ∧ decryptor pkt f = some g ∧ ownLen f = ownLen g ∧ f.len = g.len := by
  obtain ⟨⟨t',f⟩,valid,plain⟩ := bind_eq_some_iff.mp handed
  obtain ⟨g',done,same⟩ := map_eq_some_iff.mp plain
  cases same
  obtain ⟨data,_,rfl⟩ := decryptor_spec done
  exact ⟨f,valid,done,rfl,rfl⟩

theorem whole_msdu (handed : handedToDefrag s pkt = some (t,f)) (here : recvframeChkDefrag t f = (t,.continue_,some f))
    (mic : (if f.attrib.privacy then recvframeChkmic t pkt f else some f) = some g) (port : portctrl t g = some h) :
    handedToMsdu s pkt = some (t,h) ∧ h.attrib = f.attrib ∧ h.len ≤ f.len := by
  obtain ⟨cut,_,rfl⟩ := Passed.cut (.intro mic port)
  refine ⟨?_,rfl,sub_le _ _⟩
  unfold handedToMsdu handedToPortctrl
  simp only [handed,here,mic,port,bind_some,map_some]

theorem LongEnough.dropped (long : LongEnough s pkt side) (type : getFrameType pkt.mpdu = .data)
    (single : (isQos pkt.mpdu && getAMsdu pkt.mpdu (ownA4 pkt.mpdu)) = false) :
    (∃ t f, handedToDecryptor s pkt = some (t,f) ∧ ownLen f ≤ f.len) ∨ Discards s (rtwCoreRxProcess s pkt) := by
  cases handed : handedToDecryptor s pkt with
  | none => exact .inr (unhanded_discards type handed)
  | some now =>
    obtain ⟨t,f⟩ := now
    have before := handedToDecryptor_discards type handed
    have own := handedToDecryptor_own type handed
    rw [handedToDecryptor_round handed]
    cases plain : decryptor pkt f with
    | none =>
      rw [rxData_undecrypted plain]
      exact .inr (before.trans .next)
    | some g =>
      have there : handedToDefrag s pkt = some (t,g) := by
        unfold handedToDefrag
        simp only [handed,plain,bind_some,map_some]
      rw [rxData_decrypted plain]
      obtain ⟨data,_,rfl⟩ := decryptor_spec plain
      generalize isFrame : ({f with rxData:=data,attrib:={f.attrib with bdecrypted:=true}} : RecvFrame) = g at there ⊢
      have same : ownLen g = ownLen f ∧ g.len = f.len := by
        subst isFrame
        exact ⟨rfl,rfl⟩
      by_cases queued : (g.attrib.mfrag || g.attrib.fragNum != 0) ∧ defragQueue t g ≠ none
      · have enough := long.fragment t g there queued.1 queued.2
        exact .inl ⟨t,f,rfl,by omega⟩
      · rcases whole_ways pkt queued with discards | ⟨p,h,here,mic,port⟩
        · exact .inr (before.trans discards)
        · obtain ⟨last,attrib,shorter⟩ := whole_msdu there here mic port
          have amsdu : h.attrib.amsdu = false := by
            rw [attrib,← isFrame]
            exact own.amsdu.trans single
          have enough := (long.msdu t h last amsdu).long
          have icv : icvOf h = h.attrib.icvLen := by
            unfold icvOf
            split
            · rename_i open_
              rw [attrib,← isFrame] at open_ ⊢
              rw [show f.attrib.icvLen = _ from own.icvLen,show f.attrib.encrypt = .noPrivacy from open_]
              rfl
            · rfl
          unfold msduAt at enough
          rw [icv,attrib] at enough
          refine .inl ⟨t,f,rfl,?_⟩
          unfold ownLen at same ⊢
          omega

theorem receive_length_safe (s : Rx) (pkt : RxPacket) (side : CipherSide) (type : getFrameType pkt.mpdu = .data)
    (single : (isQos pkt.mpdu && getAMsdu pkt.mpdu (ownA4 pkt.mpdu)) = false) : LengthSafe s pkt side ↔ LongEnough s pkt side := by
  have validated {t f} (handed : handedToValidate s pkt = some (t,f)) : getFrameType f.rxData = .data := by
    obtain ⟨f0,rest,_,rfl,rfl⟩ := handedToValidate_taken handed
    exact type
  constructor
  · intro safe
    obtain ⟨frame,key,port,msdu⟩ := (roundAccesses_inside s pkt side).mp safe.inside
    refine ⟨?_,?_,?_,?_,?_⟩
    · intro t f handed
      exact (frameReads_inside t f (validated handed)).mp (frame _ handed)
    · intro t f handed
      have own := handedToDecryptor_own type handed
      exact (decryptorAccesses_inside own.hdrlen own.ivLen).mp (key _ handed)
    · intro t g handed fragment queue
      obtain ⟨f,valid,plain,sameLen,len⟩ := handedToDefrag_own handed
      rcases safe.dropped with ⟨t',f',handed',enough⟩ | quiet
      · cases valid.symm.trans handed'
        omega
      · rw [handedToDecryptor_round valid,rxData_decrypted plain] at quiet
        have loud := (fragment_retained pkt fragment queue).after (handedToDecryptor_discards type valid).grew
        exact absurd quiet loud.loud
    · intro t f handed
      exact (portReads_inside t f).mp (port _ handed)
    · intro t f handed amsdu
      exact (msduAccesses_inside t pkt f amsdu).mp ⟨msdu _ handed,safe.noWrap t f handed amsdu⟩
  · intro long
    refine ⟨(roundAccesses_inside s pkt side).mpr ⟨?_,?_,?_,?_⟩,?_,long.dropped type single⟩
    · intro now handed
      exact (frameReads_inside now.1 now.2 (validated handed)).mpr (long.header now.1 now.2 handed)
    · intro now handed
      have own := handedToDecryptor_own type handed
      exact (decryptorAccesses_inside own.hdrlen own.ivLen).mpr (long.key now.1 now.2 handed)
    · intro now handed
      exact (portReads_inside now.1 now.2).mpr (long.port now.1 now.2 handed)
    · intro now handed
      cases amsdu : now.2.attrib.amsdu with
      | true =>
        unfold msduAccesses
        rw [if_pos amsdu]
        exact fun _ member => absurd member List.not_mem_nil
      | false => exact ((msduAccesses_inside now.1 pkt now.2 amsdu).mpr (long.msdu now.1 now.2 handed amsdu)).1
    · intro t f handed amsdu
      exact ((msduAccesses_inside t pkt f amsdu).mpr (long.msdu t f handed amsdu)).2

def linked : Rx := Machine.run rxStep (rtwInitRecvPriv openCfg) [.sta (.alloc 0x20 openConf)]
def clearData : RxPacket := clearFrame [0xAA,0xAA,3,0,0,0,8,0,1,2,3,4,5,6,7,8]

theorem receive_length_safe_clear : LengthSafe linked clearData ⟨true,true⟩ := by
  have entered : (handedToValidate linked clearData).all (fun now => now.2.len == 40 && isQos now.2.rxData == false &&
      (freshFrame now.1 (parsedData now.2)).all (fun found => found.2.2.encrypt == .noPrivacy) &&
      now.1.cfg.privacyAlg == .noPrivacy) := by decide +kernel
  have valid : (handedToDecryptor linked clearData).all (fun now => now.2.attrib.encrypt == .noPrivacy) := by decide +kernel
  have defrag : (handedToDefrag linked clearData).all (fun now => ownLen now.2 == 24 && now.2.len == 40) := by decide +kernel
  have port : (handedToPortctrl linked clearData).all (fun now => now.1.cfg.authAlg == .opened) := by decide +kernel
  have msdu : (handedToMsdu linked clearData).all (fun now => msduAt now.2 == 24 && icvOf now.2 == 0 && now.2.len == 40) := by
    decide +kernel
  apply (receive_length_safe linked clearData ⟨true,true⟩ rfl (by decide +kernel)).mpr
  refine ⟨?_,?_,?_,?_,?_⟩
  · intro t f handed
    simp only [handed,all_some,Bool.and_eq_true,beq_iff_eq] at entered
    obtain ⟨⟨⟨len,plain⟩,cipher⟩,open_⟩ := entered
    refine ⟨by omega,fun _ => ⟨by omega,by simp [plain],fun _ => by omega,?_,fun _ _ net => absurd open_ net⟩⟩
    intro key sta a fresh aes
    simp only [fresh,all_some,beq_iff_eq] at cipher
    rw [cipher] at aes
    cases aes
  · intro t f handed
    simp only [handed,all_some,beq_iff_eq] at valid
    exact ⟨fun cipher => absurd valid cipher,fun tkip => by simp [valid] at tkip⟩
  · intro t f handed _ _
    simp only [handed,all_some,Bool.and_eq_true,beq_iff_eq] at defrag
    omega
  · intro t f handed net
    simp only [handed,all_some,beq_iff_eq] at port
    simp [port] at net
  · intro t f handed _
    simp only [handed,all_some,Bool.and_eq_true,beq_iff_eq] at msdu
    exact ⟨by omega,by omega,fun _ => by omega⟩

-- A protected frame of 30 bytes, decrypted by the hardware: the EtherType is read at 38.
def shortData : RxPacket :=
  plainPacket 1 ([0x08,0x42,0,0] ++ [0x10,0,0,0,0,0] ++ [0x20,0,0,0,0,0] ++ [0x30,0,0,0,0,0] ++ [0x10,0] ++ [1,0,0,0x20,0,0])

theorem receive_length_unsafe : ¬∀ s pkt side, getFrameType pkt.mpdu = .data →
    (isQos pkt.mpdu && getAMsdu pkt.mpdu (ownA4 pkt.mpdu)) = false → LengthSafe s pkt side := by
  intro claim
  have safe := claim (Machine.run rxStep (rtwInitRecvPriv wpaCfg) [.sta (.alloc 0x20 {openConf with privacy := .aes})]) shortData
    ⟨true,true⟩ rfl (by decide +kernel)
  have outside := (safe.inside (30,span 38 2) (by decide +kernel) 0 (by decide)).2
  revert outside
  decide

end Rtl8852au.Recv
