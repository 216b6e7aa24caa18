import Rtl8852au.Rc4Crc
import Rtl8852au.Recv
import Rtl8852au.Tkip

namespace Rtl8852au.WepTkip
open Words Rc4Crc Tkip Option
open Recv (Cipher setIceIvLen)

abbrev Keytype := Vector U8 32

structure SecurityPriv where
  dot11PrivacyKeyIndex : Fin 6
  dot11DefKey : Vector Keytype 6
  dot11DefKeylen : Vector Nat 6
  dot118021XGrpKeyid : Fin 6
  dot118021XGrpKey : Vector Keytype 6
  binstallGrpkey : Bool

structure PktAttrib where
  encrypt : Cipher
  nrFrags : Nat
  hdrlen : Nat
  ivLen : Nat
  icvLen : Nat
  lastTxcmdsz : Nat
  ra : Vector U8 6
  ta : Vector U8 6
  dot118021xUncstKey : Keytype
  sized : (ivLen,icvLen) = setIceIvLen encrypt

structure XmitFrame where
  attrib : PktAttrib
  phlTxreq : List (List U8)
  buf : List U8

structure RxPktAttrib where
  encrypt : Cipher
  hdrlen : Nat
  ivLen : Nat
  keyIndex : Fin 6
  ra : Vector U8 6
  ta : Vector U8 6
  sized : ivLen = (setIceIvLen encrypt).1

def isWep (encrypt : Cipher) : Bool := encrypt = .wep40 || encrypt = .wep104
def isMcast (addr : Vector U8 6) : Bool := (addr.get 0).getLsbD 0

section
variable (sec : SecurityPriv)

def wepKey (keyindex : Fin 6) : List U8 × Nat :=
  let keylength := sec.dot11DefKeylen.get keyindex
  ((sec.dot11DefKey.get keyindex).toList.take keylength,keylength)

def wepContext (key : List U8 × Nat) (iv : List U8) : Arc4context := arcfourInit (iv.take 3 ++ key.1) (3 + key.2)

def getTkipPn (iv : List U8) : BitVec 48 :=
  iv.getD 7 0 ++ iv.getD 6 0 ++ iv.getD 5 0 ++ iv.getD 4 0 ++ iv.getD 0 0 ++ iv.getD 2 0

def tkipContext (prwskey : Keytype) (ta : Vector U8 6) (iv : List U8) : Arc4context :=
  let pn := getTkipPn iv
  let pnl : U16 := pn.setWidth 16
  let pnh : U32 := (pn >>> 16).setWidth 32
  let tk : Vector U8 16 := Vector.ofFn fun i => prwskey[i.val]
  arcfourInit (phase2 tk (phase1 tk ta pnh) pnl) 16

-- The payload of `length` bytes from `start` is encrypted in place, and after
-- it the four bytes of its CRC, in a second call on the same context.
def sealAt (ctx : Arc4context) (start length : Nat) (frame : List U8) : List U8 :=
  let payload := (frame.drop start).take length
  let crc := leBytes (getcrc32 payload)
  let (body,ctx) := arcfourEncrypt ctx payload
  let (tail,_) := arcfourEncrypt ctx crc
  frame.take start ++ body ++ tail ++ frame.drop (start + length + 4)

def openAt (ctx : Arc4context) (start : Nat) (frame : List U8) : List U8 :=
  frame.take start ++ (arcfourEncrypt ctx (frame.drop start)).1

def ivOf (hdrlen count : Nat) (frame : List U8) : List U8 := (frame.drop hdrlen).take count

def wepSeal (key : List U8 × Nat) (attrib : PktAttrib) (size : Nat) (frame : List U8) : List U8 :=
  let length := size - attrib.hdrlen - attrib.ivLen - attrib.icvLen
  sealAt (wepContext key (ivOf attrib.hdrlen 3 frame)) (attrib.ivLen+attrib.hdrlen) length frame

def wepFragment (authState : Bool) (xf : XmitFrame) (curfragnum : Nat) : XmitFrame :=
  let key := wepKey sec sec.dot11PrivacyKeyIndex
  if !authState then
    {xf with phlTxreq:=xf.phlTxreq.modify curfragnum fun packet => wepSeal key xf.attrib packet.length packet}
  else
    {xf with buf:=wepSeal key xf.attrib xf.attrib.lastTxcmdsz xf.buf}

def rtwWepEncrypt (authState : Bool) (xf : XmitFrame) : XmitFrame :=
  if !isWep xf.attrib.encrypt then xf
  else (List.range xf.attrib.nrFrags).foldl (wepFragment sec authState) xf

-- The CRC is computed again here, but nothing looks at it.
def rtwWepDecrypt (rx : RxPktAttrib) (frame : List U8) : List U8 :=
  if isWep rx.encrypt then
    openAt (wepContext (wepKey sec rx.keyIndex) (ivOf rx.hdrlen 3 frame)) (rx.ivLen+rx.hdrlen) frame
  else frame

def prwskeyTx (attrib : PktAttrib) : Keytype :=
  if isMcast attrib.ra then sec.dot118021XGrpKey.get sec.dot118021XGrpKeyid else attrib.dot118021xUncstKey

def tkipSeal (prwskey : Keytype) (attrib : PktAttrib) (packet : List U8) : List U8 :=
  let length := packet.length - attrib.hdrlen - attrib.ivLen - attrib.icvLen
  sealAt (tkipContext prwskey attrib.ta (ivOf attrib.hdrlen 8 packet)) (attrib.ivLen+attrib.hdrlen) length packet

def tkipFragment (xf : XmitFrame) (curfragnum : Nat) : XmitFrame :=
  {xf with phlTxreq:=xf.phlTxreq.modify curfragnum (tkipSeal (prwskeyTx sec xf.attrib) xf.attrib)}

def rtwTkipEncrypt (xf : XmitFrame) : XmitFrame :=
  if xf.attrib.encrypt ≠ .tkip then xf
  else (List.range xf.attrib.nrFrags).foldl (tkipFragment sec) xf

-- The key of the station, or of the group; none without a station, and none
-- for the group before its key is installed.
def prwskeyRx (stainfo : Option Keytype) (rx : RxPktAttrib) : Option Keytype :=
  match stainfo with
  | none => none
  | some unicast =>
    if isMcast rx.ra then
      if sec.binstallGrpkey then some (sec.dot118021XGrpKey.get rx.keyIndex) else none
    else some unicast

def icvMatches (payload : List U8) : Bool :=
  let length := payload.length
  let crc := leBytes (getcrc32 (payload.take (length-4)))
  !(crc.getD 3 0 != payload.getD (length-1) 0 || crc.getD 2 0 != payload.getD (length-2) 0 ||
    crc.getD 1 0 != payload.getD (length-3) 0 || crc.getD 0 0 != payload.getD (length-4) 0)

def rtwTkipDecrypt (stainfo : Option Keytype) (rx : RxPktAttrib) (frame : List U8) : List U8 × Bool :=
  if rx.encrypt = .tkip then
    match prwskeyRx sec stainfo rx with
    | none => (frame,false)
    | some prwskey =>
      let plain := openAt (tkipContext prwskey rx.ta (ivOf rx.hdrlen 8 frame)) (rx.ivLen+rx.hdrlen) frame
      (plain,icvMatches (plain.drop (rx.ivLen+rx.hdrlen)))
  else (frame,true)
end
section
variable (attrib : PktAttrib) (frame : List U8)

-- What a fragment carries before it is sealed, and what is left of the
-- fragment once it has been sealed and opened again.
def payloadOf : List U8 :=
  (frame.drop (attrib.ivLen+attrib.hdrlen)).take (frame.length - attrib.hdrlen - attrib.ivLen - attrib.icvLen)

def restored : List U8 :=
  frame.take (attrib.ivLen+attrib.hdrlen) ++ (payloadOf attrib frame ++ leBytes (getcrc32 (payloadOf attrib frame)))

def Laid : Prop := attrib.hdrlen + attrib.ivLen + attrib.icvLen ≤ frame.length
end

def XmitFrame.fragments (authState : Bool) (xf : XmitFrame) : List (List U8) :=
  if authState then [xf.buf.take xf.attrib.lastTxcmdsz] else xf.phlTxreq

section
variable (ctx : Arc4context)

theorem arcfourEncrypt_twice (words : List U8) :
    (arcfourEncrypt ctx (arcfourEncrypt ctx words).1).1 = words := StreamCipher.crypt_crypt arcfourByte ctx words

theorem sealAt_stream {start length : Nat} (whole : start + length + 4 = frame.length) :
    sealAt ctx start length frame = frame.take start ++ (arcfourEncrypt ctx
        ((frame.drop start).take length ++ leBytes (getcrc32 ((frame.drop start).take length)))).1 := by
  have rest : frame.drop (start + length + 4) = [] := List.drop_eq_nil_of_le (Nat.le_of_eq whole.symm)
  have stream := StreamCipher.crypt_append arcfourByte ctx ((frame.drop start).take length)
    (leBytes (getcrc32 ((frame.drop start).take length)))
  simp only [sealAt,arcfourEncrypt,rest,List.append_nil,List.append_assoc,stream]

theorem openAt_stream {start : Nat} (here : front.length = start) (words : List U8) :
    openAt ctx start (front ++ (arcfourEncrypt ctx words).1) = front ++ words := by
  subst here
  simp only [openAt,List.take_left,List.drop_left,arcfourEncrypt_twice]

theorem openAt_altered {start k : Nat} (here : front.length = start) (behind : start ≤ k)
    (mask : U8) (words : List U8) : openAt ctx start ((front ++ (arcfourEncrypt ctx words).1).modify k (· ^^^ mask)) =
      front ++ words.modify (k-start) (· ^^^ mask) := by
  subst here
  rw [StreamCipher.modify_after behind]
  have altered := StreamCipher.crypt_modify arcfourByte ctx words (k-front.length) mask
  rw [arcfourEncrypt,← altered]
  exact openAt_stream ctx rfl _
end

theorem icvMatches_icv {payload icv : List U8} (four : icv.length = 4) :
    icvMatches (payload ++ icv) = decide (leBytes (getcrc32 payload) = icv) := by
  have body : (payload ++ icv).take ((payload ++ icv).length - 4) = payload := by
    rw [List.length_append,four,Nat.add_sub_cancel,List.take_left]
  have last : ∀ i, 0 < i → i ≤ 4 → (payload ++ icv).getD ((payload ++ icv).length - i) 0 = icv.getD (4 - i) 0 := by
    intro i positive within
    have place : (payload ++ icv).length - i = payload.length + (4 - i) := by
      rw [List.length_append,four]
      omega
    rw [List.getD_eq_getElem?_getD,place,List.getElem?_append_right (Nat.le_add_right _ _),Nat.add_sub_cancel_left,
      List.getD_eq_getElem?_getD]
  match icv,four with
  | [zero,one,two,three],_ =>
    simp only [icvMatches,body,last 1 (by decide) (by decide),last 2 (by decide) (by decide),
      last 3 (by decide) (by decide),last 4 (by decide) (by decide),leBytes]
    rw [Bool.eq_iff_iff]
    simp
    tauto

theorem icvMatches_altered (payload : List U8) (inside : k < payload.length+4) {mask : U8} (altering : mask ≠ 0) :
    icvMatches ((payload ++ leBytes (getcrc32 payload)).modify k (· ^^^ mask)) = false := by
  have altered : ∀ byte : U8, byte ^^^ mask ≠ byte := by
    intro byte same
    apply altering
    have undone := congrArg (byte ^^^ ·) same
    simpa [← BitVec.xor_assoc] using undone
  by_cases front : k < payload.length
  · rw [StreamCipher.modify_before front,icvMatches_icv (leBytes_length _)]
    have differ : getcrc32 (payload.modify k (· ^^^ mask)) ≠ getcrc32 payload := getcrc32_modify front (altered payload[k])
    exact decide_eq_false fun same => differ (leBytes_injective same)
  · have behind : payload.length ≤ k := Nat.le_of_not_lt front
    rw [StreamCipher.modify_after behind,icvMatches_icv (by simp)]
    have within : k - payload.length < (leBytes (getcrc32 payload)).length := by
      rw [leBytes_length]
      omega
    apply decide_eq_false
    intro same
    have byte := congrArg (fun icv => icv[k-payload.length]?) same
    simp only [List.getElem?_modify_eq,List.getElem?_eq_getElem within,map_eq_map,map_some,some.injEq] at byte
    exact altered _ byte.symm

theorem ivOf_front (within : hdrlen + count ≤ front.length) (back : List U8) :
    ivOf hdrlen count (front ++ back) = ivOf hdrlen count front := by
  rw [ivOf,ivOf,List.take_drop,List.take_drop,List.take_append_of_le_length (by omega)]

-- What both suites do to a fragment: the context comes from the first bytes
-- of the IV, which neither sealing nor a changed byte behind them touches.
section Suite
variable (context : List U8 → Arc4context) {count : Nat} {attrib : PktAttrib} {frame : List U8}

section
variable (context : List U8 → Arc4context) (count : Nat) (attrib : PktAttrib) (frame : List U8)

def sealed : List U8 :=
  sealAt (context (ivOf attrib.hdrlen count frame)) (attrib.ivLen+attrib.hdrlen)
    (frame.length - attrib.hdrlen - attrib.ivLen - attrib.icvLen) frame

def opened : List U8 := openAt (context (ivOf attrib.hdrlen count frame)) (attrib.ivLen+attrib.hdrlen) frame
end
section
variable (laid : Laid attrib frame)
include laid

theorem Laid.front :
    (frame.take (attrib.ivLen+attrib.hdrlen)).length = attrib.ivLen + attrib.hdrlen := by
  have room : attrib.hdrlen + attrib.ivLen + attrib.icvLen ≤ frame.length := laid
  rw [List.length_take,Nat.min_eq_left (by omega)]

theorem sealed_stream (icv : attrib.icvLen = 4) :
    sealed context count attrib frame = frame.take (attrib.ivLen+attrib.hdrlen) ++
      (arcfourEncrypt (context (ivOf attrib.hdrlen count frame))
        (payloadOf attrib frame ++ leBytes (getcrc32 (payloadOf attrib frame)))).1 := by
  have room : attrib.hdrlen + attrib.ivLen + attrib.icvLen ≤ frame.length := laid
  exact sealAt_stream _ (by omega)

theorem ivOf_frame (within : count ≤ attrib.ivLen) (back : List U8) :
    ivOf attrib.hdrlen count (frame.take (attrib.ivLen+attrib.hdrlen) ++ back) = ivOf attrib.hdrlen count frame := by
  have inside : attrib.hdrlen + count ≤ (frame.take (attrib.ivLen+attrib.hdrlen)).length := by
    rw [laid.front]
    omega
  have whole := ivOf_front inside (frame.drop (attrib.ivLen+attrib.hdrlen))
  rw [List.take_append_drop] at whole
  rw [ivOf_front inside,whole]

theorem opened_sealed (icv : attrib.icvLen = 4) (within : count ≤ attrib.ivLen) :
    opened context count attrib (sealed context count attrib frame) = restored attrib frame := by
  rw [sealed_stream context laid icv,opened,ivOf_frame laid within]
  exact openAt_stream _ laid.front _

theorem opened_altered (icv : attrib.icvLen = 4) (within : count ≤ attrib.ivLen)
    (behind : attrib.ivLen + attrib.hdrlen ≤ k) (mask : U8) :
    opened context count attrib ((sealed context count attrib frame).modify k (· ^^^ mask)) =
      frame.take (attrib.ivLen+attrib.hdrlen) ++
        (payloadOf attrib frame ++ leBytes (getcrc32 (payloadOf attrib frame))).modify
          (k - (attrib.ivLen+attrib.hdrlen)) (· ^^^ mask) := by
  have place : (frame.take (attrib.ivLen+attrib.hdrlen)).length ≤ k := by
    rw [laid.front]
    exact behind
  have iv : ivOf attrib.hdrlen count ((sealed context count attrib frame).modify k (· ^^^ mask)) =
      ivOf attrib.hdrlen count frame := by
    rw [sealed_stream context laid icv,StreamCipher.modify_after place]
    exact ivOf_frame laid within _
  rw [opened,iv,sealed_stream context laid icv]
  exact openAt_altered _ laid.front behind mask _

theorem sealed_length (icv : attrib.icvLen = 4) :
    (sealed context count attrib frame).length = attrib.ivLen + attrib.hdrlen + (payloadOf attrib frame).length + 4 := by
  rw [sealed_stream context laid icv,List.length_append,laid.front,arcfourEncrypt,StreamCipher.crypt_length,
    List.length_append,leBytes_length]
  omega
end
end Suite

structure Whole (authState : Bool) (xf : XmitFrame) : Prop where
  counted : (xf.fragments authState).length = xf.attrib.nrFrags
  laid : ∀ frame ∈ xf.fragments authState, Laid xf.attrib frame
  room : authState → xf.attrib.lastTxcmdsz ≤ xf.buf.length

section
variable (sec : SecurityPriv) (indices : List Nat) (xf : XmitFrame)

theorem wepFragments_phlTxreq :
    (indices.foldl (wepFragment sec false) xf).phlTxreq = indices.foldl (fun packets i =>
      packets.modify i (sealed (wepContext (wepKey sec sec.dot11PrivacyKeyIndex)) 3 xf.attrib)) xf.phlTxreq := by
  induction indices generalizing xf with
  | nil => rfl
  | cons i rest ih => exact ih _

theorem tkipFragments_phlTxreq :
    (indices.foldl (tkipFragment sec) xf).phlTxreq = indices.foldl (fun packets i =>
      packets.modify i (sealed (tkipContext (prwskeyTx sec xf.attrib) xf.attrib.ta) 8 xf.attrib)) xf.phlTxreq := by
  induction indices generalizing xf with
  | nil => rfl
  | cons i rest ih => exact ih _
end

theorem sealAt_take (ctx : Arc4context) {start length : Nat} (room : start + length + 4 ≤ buf.length) :
    (sealAt ctx start length buf).take (start + length + 4) = sealAt ctx start length (buf.take (start + length + 4)) := by
  have payload : ((buf.take (start + length + 4)).drop start).take length = (buf.drop start).take length := by
    rw [List.drop_take,List.take_take,Nat.min_eq_left (by omega)]
  have front : (buf.take (start + length + 4)).take start = buf.take start := by rw [List.take_take,Nat.min_eq_left (by omega)]
  have behind : (buf.take (start + length + 4)).drop (start + length + 4) = [] := List.drop_take_self
  simp only [sealAt,payload,front,behind,List.append_nil]
  apply List.take_left'
  have inside : start + length ≤ buf.length := by omega
  simp only [List.length_append,arcfourEncrypt,StreamCipher.crypt_length,leBytes_length,List.length_take,List.length_drop]
  omega

theorem rtwWepEncrypt_fragments (wep : isWep xf.attrib.encrypt)
    (icv : xf.attrib.icvLen = 4) (whole : Whole authState xf) : (rtwWepEncrypt sec authState xf).fragments authState =
      (xf.fragments authState).map (sealed (wepContext (wepKey sec sec.dot11PrivacyKeyIndex)) 3 xf.attrib) := by
  rw [rtwWepEncrypt,wep]
  cases authState with
  | false =>
    have counted : xf.phlTxreq.length = xf.attrib.nrFrags := whole.counted
    rw [← counted]
    show ((List.range xf.phlTxreq.length).foldl (wepFragment sec false) xf).phlTxreq = xf.phlTxreq.map _
    rw [wepFragments_phlTxreq]
    exact StreamCipher.foldl_modify _ _
  | true =>
    have counted : 1 = xf.attrib.nrFrags := whole.counted
    have room := whole.room rfl
    have laid : Laid xf.attrib (xf.buf.take xf.attrib.lastTxcmdsz) := whole.laid _ (List.mem_singleton_self _)
    have size : (xf.buf.take xf.attrib.lastTxcmdsz).length = xf.attrib.lastTxcmdsz := by
      rw [List.length_take,Nat.min_eq_left room]
    rw [← counted]
    have length : xf.attrib.ivLen + xf.attrib.hdrlen +
        (xf.attrib.lastTxcmdsz - xf.attrib.hdrlen - xf.attrib.ivLen - xf.attrib.icvLen) + 4 = xf.attrib.lastTxcmdsz := by
      rw [Laid,size] at laid
      omega
    have iv : ivOf xf.attrib.hdrlen 3 (xf.buf.take xf.attrib.lastTxcmdsz) = ivOf xf.attrib.hdrlen 3 xf.buf := by
      have inside : xf.attrib.hdrlen + 3 ≤ (xf.buf.take xf.attrib.lastTxcmdsz).length := by omega
      have front := ivOf_front inside (xf.buf.drop xf.attrib.lastTxcmdsz)
      rwa [List.take_append_drop,eq_comm] at front
    have cut := sealAt_take (wepContext (wepKey sec sec.dot11PrivacyKeyIndex) (ivOf xf.attrib.hdrlen 3 xf.buf))
      (length.trans_le room)
    rw [length] at cut
    show [(wepSeal _ xf.attrib xf.attrib.lastTxcmdsz xf.buf).take xf.attrib.lastTxcmdsz] = [_]
    rw [wepSeal,cut,sealed,size,iv]

theorem rtwTkipEncrypt_packets (tkip : xf.attrib.encrypt = .tkip) (whole : Whole false xf) : (rtwTkipEncrypt sec xf).phlTxreq =
      xf.phlTxreq.map (sealed (tkipContext (prwskeyTx sec xf.attrib) xf.attrib.ta) 8 xf.attrib) := by
  have counted : xf.phlTxreq.length = xf.attrib.nrFrags := whole.counted
  rw [rtwTkipEncrypt,if_neg (not_not_intro tkip),← counted,tkipFragments_phlTxreq]
  exact StreamCipher.foldl_modify _ _

structure WepPeers (sender receiver : SecurityPriv) (attrib : PktAttrib) (rx : RxPktAttrib) : Prop where
  sent : isWep attrib.encrypt
  received : isWep rx.encrypt
  header : rx.hdrlen = attrib.hdrlen
  key : wepKey receiver rx.keyIndex = wepKey sender sender.dot11PrivacyKeyIndex

structure TkipPeers (sender receiver : SecurityPriv) (stainfo : Option Keytype) (attrib : PktAttrib) (rx : RxPktAttrib) :
    Prop where
  sent : attrib.encrypt = .tkip
  received : rx.encrypt = .tkip
  header : rx.hdrlen = attrib.hdrlen
  transmitter : rx.ta = attrib.ta
  key : prwskeyRx receiver stainfo rx = some (prwskeyTx sender attrib)

theorem wep_sizes (wep : isWep encrypt) : setIceIvLen encrypt = (4,4) := by
  rw [isWep,Bool.or_eq_true,decide_eq_true_iff,decide_eq_true_iff] at wep
  obtain rfl | rfl := wep
  · rfl
  · rfl

theorem PktAttrib.lengths (attrib : PktAttrib) (sizes : setIceIvLen attrib.encrypt = (iv,icv)) :
    attrib.ivLen = iv ∧ attrib.icvLen = icv := by
  have both := attrib.sized.trans sizes
  exact ⟨congrArg Prod.fst both,congrArg Prod.snd both⟩

theorem rtwWepDecrypt_opened {sender receiver : SecurityPriv} (peers : WepPeers sender receiver attrib rx) (frame : List U8) :
    rtwWepDecrypt receiver rx frame = opened (wepContext (wepKey sender sender.dot11PrivacyKeyIndex)) 3 attrib frame := by
  have iv : rx.ivLen = attrib.ivLen := by rw [rx.sized,wep_sizes peers.received,(attrib.lengths (wep_sizes peers.sent)).1]
  rw [rtwWepDecrypt,if_pos peers.received,peers.key,peers.header,iv]
  rfl

theorem rtwTkipDecrypt_opened {sender receiver : SecurityPriv} (peers : TkipPeers sender receiver stainfo attrib rx) (frame : List U8) :
    rtwTkipDecrypt receiver stainfo rx frame =
      let plain := opened (tkipContext (prwskeyTx sender attrib) attrib.ta) 8 attrib frame
      (plain,icvMatches (plain.drop (attrib.ivLen+attrib.hdrlen))) := by
  have iv : rx.ivLen = attrib.ivLen := by
    have sizes := attrib.lengths (peers.sent ▸ rfl : setIceIvLen attrib.encrypt = (8,4))
    rw [rx.sized,peers.received,sizes.1]
    rfl
  rw [rtwTkipDecrypt,if_pos peers.received,peers.key,peers.header,peers.transmitter,iv]
  rfl

theorem wep_tkip_round_trip (sender receiver : SecurityPriv) (stainfo : Option Keytype) (authState : Bool) (xf : XmitFrame)
    (rx : RxPktAttrib) :
    (Whole authState xf → WepPeers sender receiver xf.attrib rx →
      ((rtwWepEncrypt sender authState xf).fragments authState).map (rtwWepDecrypt receiver rx) =
        (xf.fragments authState).map (restored xf.attrib)) ∧
    (Whole false xf → TkipPeers sender receiver stainfo xf.attrib rx →
      (rtwTkipEncrypt sender xf).phlTxreq.map (rtwTkipDecrypt receiver stainfo rx) =
        xf.phlTxreq.map (fun frame => (restored xf.attrib frame,true)) ∧
      ∀ sent ∈ (rtwTkipEncrypt sender xf).phlTxreq, ∀ k bit, xf.attrib.ivLen + xf.attrib.hdrlen ≤ k → k < sent.length → bit < 8 →
        (rtwTkipDecrypt receiver stainfo rx (sent.modify k (· ^^^ (1 <<< bit)))).2 = false) := by
  constructor
  · intro whole peers
    obtain ⟨iv,icv⟩ := xf.attrib.lengths (wep_sizes peers.sent)
    rw [rtwWepEncrypt_fragments peers.sent icv whole,List.map_map]
    apply List.map_congr_left
    intro frame member
    rw [Function.comp_apply,rtwWepDecrypt_opened peers]
    exact opened_sealed _ (whole.laid frame member) icv (by omega)
  · intro whole peers
    obtain ⟨iv,icv⟩ := xf.attrib.lengths (peers.sent ▸ rfl : setIceIvLen xf.attrib.encrypt = (8,4))
    have within : 8 ≤ xf.attrib.ivLen := Nat.le_of_eq iv.symm
    rw [rtwTkipEncrypt_packets peers.sent whole,List.map_map]
    constructor
    · apply List.map_congr_left
      intro frame member
      have laid := whole.laid frame member
      rw [Function.comp_apply,rtwTkipDecrypt_opened peers]
      have back := opened_sealed (tkipContext (prwskeyTx sender xf.attrib) xf.attrib.ta) laid icv within
      have accepted : icvMatches ((restored xf.attrib frame).drop (xf.attrib.ivLen + xf.attrib.hdrlen)) := by
        rw [restored,List.drop_left' laid.front,icvMatches_icv (leBytes_length _),decide_eq_true rfl]
      rw [back]
      exact Prod.ext rfl accepted
    · intro sent member k bit behind inside small
      obtain ⟨frame,present,rfl⟩ := List.mem_map.mp member
      have laid := whole.laid frame present
      rw [sealed_length _ laid icv] at inside
      have altering : (1 : U8) <<< bit ≠ 0 := by
        revert small
        revert bit
        decide
      rw [rtwTkipDecrypt_opened peers,opened_altered _ laid icv within behind]
      show icvMatches _ = false
      rw [List.drop_left' laid.front]
      exact icvMatches_altered _ (by omega) altering

def linkSecurity : SecurityPriv where
  dot11PrivacyKeyIndex := 1
  dot11DefKey := Vector.replicate 6 (Vector.replicate 32 7)
  dot11DefKeylen := Vector.replicate 6 13
  dot118021XGrpKeyid := 1
  dot118021XGrpKey := Vector.replicate 6 (Vector.replicate 32 9)
  binstallGrpkey := true

def linkAttrib (encrypt : Cipher) : PktAttrib where
  encrypt := encrypt
  nrFrags := 2
  hdrlen := 24
  ivLen := (setIceIvLen encrypt).1
  icvLen := (setIceIvLen encrypt).2
  lastTxcmdsz := 0
  ra := Vector.replicate 6 2
  ta := Vector.replicate 6 4
  dot118021xUncstKey := Vector.replicate 32 5
  sized := rfl

def linkFrame (encrypt : Cipher) : XmitFrame where
  attrib := linkAttrib encrypt
  phlTxreq := [List.replicate 40 3,List.replicate 37 6]
  buf := []

def linkRx (encrypt : Cipher) : RxPktAttrib where
  encrypt := encrypt
  hdrlen := 24
  ivLen := (setIceIvLen encrypt).1
  keyIndex := 1
  ra := Vector.replicate 6 2
  ta := Vector.replicate 6 4
  sized := rfl

theorem linkFrame_whole (room : 24 + (setIceIvLen encrypt).1 + (setIceIvLen encrypt).2 ≤ 37) :
    Whole false (linkFrame encrypt) where
  counted := rfl
  laid := by
    intro frame member
    have either : frame = List.replicate 40 3 ∨ frame = List.replicate 37 6 := by
      simpa [XmitFrame.fragments,linkFrame] using member
    obtain rfl | rfl := either
    · rw [Laid,List.length_replicate]
      exact Nat.le_trans room (by decide)
    · rw [Laid,List.length_replicate]
      exact room
  room := by intro auth; cases auth

theorem wep_tkip_link :
    ((rtwWepEncrypt linkSecurity false (linkFrame .wep104)).fragments false).map (rtwWepDecrypt linkSecurity (linkRx .wep40)) =
      ((linkFrame .wep104).fragments false).map (restored (linkFrame .wep104).attrib) ∧
    (rtwTkipEncrypt linkSecurity (linkFrame .tkip)).phlTxreq.map
        (rtwTkipDecrypt linkSecurity (some (Vector.replicate 32 5)) (linkRx .tkip)) =
      (linkFrame .tkip).phlTxreq.map (fun frame => (restored (linkFrame .tkip).attrib frame,true)) :=
  ⟨(wep_tkip_round_trip linkSecurity linkSecurity none false (linkFrame .wep104) (linkRx .wep40)).1
      (linkFrame_whole (by decide)) ⟨rfl,rfl,rfl,rfl⟩,
    ((wep_tkip_round_trip linkSecurity linkSecurity (some (Vector.replicate 32 5)) false (linkFrame .tkip) (linkRx .tkip)).2
      (linkFrame_whole (by decide)) ⟨rfl,rfl,rfl,rfl,rfl⟩).1⟩

end Rtl8852au.WepTkip
