import Rtl8852au.TkipMic

namespace Rtl8852au.TkipMic
open Words Michael

def XmitFrame.payload (frame : XmitFrame) : List U8 := frame.first.flatten ++ frame.others.flatMap List.flatten

structure Layout where
  bswenc : Bool
  first : List Nat
  others : List (List Nat)

def XmitFrame.layout (frame : XmitFrame) : Layout where
  bswenc := frame.attrib.bswenc
  first := frame.first.map List.length
  others := frame.others.map (List.map List.length)

def Layout.hashed (layout : Layout) : Nat := layout.first.length - (if hasTail layout.bswenc layout.others.length then 0 else 1)
def Layout.skipped (layout : Layout) : Nat := (layout.first.drop layout.hashed).sum + (layout.others.map List.sum).sum
def michael (key message : List U8) : List U8 := rtwSecgetmic (rtwSecmicappend (rtwSecmicsetkey key) message)
def pseudoHeader (da sa : List U8) (pri : U8) : List U8 := da ++ (sa ++ [pri,0,0,0])

theorem rtwSeccalctkipmic_michael (key header data : List U8) (pri : U8) :
    rtwSeccalctkipmic key header data pri = michael key (pseudoHeader (micDa header) (micSa header) pri ++ data) := by
  rw [michael,pseudoHeader,append_append,append_append,append_append]
  rfl

theorem pktList_hashed (header tail : List U8) (frame : XmitFrame) :
    ((pktList header tail frame).drop 1).take ((pktList header tail frame).length - 2) = frame.first.take frame.layout.hashed := by
  have count : frame.layout.hashed = frame.first.length -
      (if hasTail frame.attrib.bswenc frame.others.length then 0 else 1) := by
    simp [Layout.hashed,XmitFrame.layout]
  rw [count,pktList]
  cases hasTail frame.attrib.bswenc frame.others.length with
  | true => simp
  | false => simp

def sentPriority (attrib : PktAttrib) : U8 := if attrib.qosEn then attrib.priority else 0

theorem coreWlanFillTkipMic_michael (tkip : frame.attrib.encrypt = .tkip)
    (key : isNullKey (micKeyTx sec frame.attrib) = false) (header tail : List U8) :
    coreWlanFillTkipMic sec header tail frame = some (some (michael (micKeyTx sec frame.attrib).toList
      (pseudoHeader frame.attrib.dst.toList frame.attrib.src.toList (sentPriority frame.attrib) ++
        (frame.llc.toList ++ (frame.first.take frame.layout.hashed).flatten)))) := by
  rw [michael,pseudoHeader,append_append,append_append,append_append,append_append,← append_pieces,
    ← pktList_hashed header tail]
  simp only [coreWlanFillTkipMic,tkip,key]
  rfl

structure Link where
  sec : SecurityPriv
  head : List U8
  tail : List U8
  receiver : SecurityPriv
  stainfo : Option Keytype
  current : Fin 6
  rx : RxPktAttrib
  header : List U8
  iv : List U8
  icv : List U8

def micKeyRx (sec : SecurityPriv) (stainfo : Option Keytype) (rx : RxPktAttrib) : Option Keytype :=
  match stainfo with
  | none => none
  | some unicast =>
    if isMcast rx.ra then if sec.binstallGrpkey then some (sec.dot118021XGrprxmickey.get rx.keyIndex) else none
    else some unicast

structure Link.Peers (link : Link) (attrib : PktAttrib) : Prop where
  sent : attrib.encrypt = .tkip
  received : link.rx.encrypt = .tkip
  key : micKeyRx link.receiver link.stainfo link.rx = some (micKeyTx link.sec attrib)
  da : micDa link.header = attrib.dst.toList
  sa : micSa link.header = attrib.src.toList
  priority : link.rx.priority = sentPriority attrib
  header : link.header.length = link.rx.hdrlen
  iv : link.iv.length = link.rx.ivLen
  icv : link.icv.length = link.rx.icvLen

def Link.frame (link : Link) (data mic : List U8) : List U8 := link.header ++ (link.iv ++ (data ++ (mic ++ link.icv)))

def Link.Agrees (link : Link) (frame : XmitFrame) : Prop :=
  ∀ mic, coreWlanFillTkipMic link.sec link.head link.tail frame = some (some mic) →
    mic = rtwSeccalctkipmic (micKeyTx link.sec frame.attrib).toList link.header (frame.llc.toList ++ frame.payload) link.rx.priority ∧
    (recvframeChkmic link.receiver link.stainfo link.current link.rx
      (link.frame (frame.llc.toList ++ frame.payload) mic)).res

theorem michael_length (key message : List U8) : (michael key message).length = 8 := by
  rw [michael,rtwSecgetmic_halves,List.length_append,leBytes_length,leBytes_length]

theorem bytesAt_front {at_ : Nat} {addr : Vector U8 6} (same : bytesAt header at_ = addr.toList)
    (rest : List U8) : at_ + 6 ≤ header.length ∧ bytesAt (header ++ rest) at_ = addr.toList := by
  have inside := congrArg List.length same
  rw [bytesAt,List.length_take,List.length_drop,Vector.length_toList] at inside
  have room : at_ + 6 ≤ header.length := by omega
  have front : bytesAt (header ++ rest) at_ = bytesAt header at_ := by
    rw [bytesAt,bytesAt,List.drop_append_of_le_length (by omega),List.take_append_of_le_length (by rw [List.length_drop]; omega)]
  exact ⟨room,front.trans same⟩

theorem mic_addresses_front {dst src : Vector U8 6} (da : micDa header = dst.toList)
    (sa : micSa header = src.toList) (rest : List U8) :
    micDa (header ++ rest) = dst.toList ∧ micSa (header ++ rest) = src.toList := by
  have one : 1 < header.length := by
    have room := (bytesAt_front da rest).1
    omega
  have byte : (header ++ rest).getD 1 0 = header.getD 1 0 := by
    rw [List.getD_eq_getElem?_getD,List.getD_eq_getElem?_getD,List.getElem?_append_left one]
  have up : toDs (header ++ rest) = toDs header := by rw [toDs,byte,toDs]
  have down : fromDs (header ++ rest) = fromDs header := by rw [fromDs,byte,fromDs]
  constructor
  · rw [micDa,up]
    exact (bytesAt_front da rest).2
  · rw [micSa,up,down]
    exact (bytesAt_front sa rest).2

open List

theorem recvframeChkmic_key {key : Keytype}
    (tkip : rx.encrypt = .tkip) (found : micKeyRx sec stainfo rx = some key) (current : Fin 6) (frame : List U8) :
    (recvframeChkmic sec stainfo current rx frame).res = decide
      (rtwSeccalctkipmic key.toList frame ((frame.drop (rx.hdrlen+rx.ivLen)).take
          (frame.length - rx.hdrlen - rx.ivLen - rx.icvLen - 8)) rx.priority =
        ((frame.drop (rx.hdrlen+rx.ivLen)).drop (frame.length - rx.hdrlen - rx.ivLen - rx.icvLen - 8)).take 8) := by
  cases stainfo with
  | none => cases found
  | some unicast =>
    have used : (if isMcast rx.ra then sec.dot118021XGrprxmickey.get rx.keyIndex else unicast) = key ∧
        ¬(isMcast rx.ra ∧ sec.binstallGrpkey = false) := by
      rw [micKeyRx] at found
      cases group : isMcast rx.ra with
      | false =>
        rw [group] at found
        exact ⟨Option.some.inj found,fun both => Bool.false_ne_true both.1⟩
      | true =>
        cases installed : sec.binstallGrpkey with
        | false =>
          rw [group,installed] at found
          cases found
        | true =>
          rw [group,installed] at found
          exact ⟨Option.some.inj found,fun both => Bool.false_ne_true both.2.symm⟩
    obtain ⟨mickey,allowed⟩ := used
    simp only [recvframeChkmic,tkip,if_neg allowed,mickey,if_true]
    split
    · rename_i equal
      exact (decide_eq_true equal).symm
    · rename_i differ
      exact (decide_eq_false differ).symm

theorem recvframeChkmic_res {link : Link} (peers : link.Peers attrib) {data mic : List U8} (eight : mic.length = 8) :
    (recvframeChkmic link.receiver link.stainfo link.current link.rx (link.frame data mic)).res =
      decide (michael (micKeyTx link.sec attrib).toList
        (pseudoHeader attrib.dst.toList attrib.src.toList (sentPriority attrib) ++ data) = mic) := by
  obtain ⟨da,sa⟩ := mic_addresses_front peers.da peers.sa (link.iv ++ (data ++ (mic ++ link.icv)))
  have length : (link.frame data mic).length = link.rx.hdrlen + link.rx.ivLen + (data.length + 8 + link.rx.icvLen) := by
    simp only [Link.frame,length_append,peers.header,peers.iv,peers.icv,eight]
    omega
  have datalen : (link.frame data mic).length - link.rx.hdrlen - link.rx.ivLen - link.rx.icvLen - 8 = data.length := by omega
  have front : (link.header ++ link.iv).length = link.rx.hdrlen + link.rx.ivLen := by
    rw [length_append,peers.header,peers.iv]
  have payload : (link.frame data mic).drop (link.rx.hdrlen+link.rx.ivLen) = data ++ (mic ++ link.icv) := by
    rw [Link.frame,← append_assoc,drop_left' front]
  have hashed : (data ++ (mic ++ link.icv)).take data.length = data := take_left
  have carried : ((data ++ (mic ++ link.icv)).drop data.length).take 8 = mic := by rw [drop_left,← eight,take_left]
  rw [recvframeChkmic_key peers.received peers.key,datalen,payload,hashed,carried,rtwSeccalctkipmic_michael,peers.priority,
    Link.frame,da,sa]

def prefixOf (attrib : PktAttrib) : List U8 := pseudoHeader attrib.dst.toList attrib.src.toList (sentPriority attrib)

def sentMic (sec : SecurityPriv) (frame : XmitFrame) : List U8 :=
  michael (micKeyTx sec frame.attrib).toList
    (prefixOf frame.attrib ++ (frame.llc.toList ++ (frame.first.take frame.layout.hashed).flatten))

def wholeMic (sec : SecurityPriv) (frame : XmitFrame) : List U8 :=
  michael (micKeyTx sec frame.attrib).toList (prefixOf frame.attrib ++ (frame.llc.toList ++ frame.payload))

theorem Link.Peers.agrees {link : Link} {frame : XmitFrame} (peers : link.Peers frame.attrib)
    (same : sentMic link.sec frame = wholeMic link.sec frame) : link.Agrees frame := by
  intro mic stored
  cases key : isNullKey (micKeyTx link.sec frame.attrib) with
  | true =>
    simp only [coreWlanFillTkipMic,peers.sent,key] at stored
    cases stored
  | false =>
    rw [coreWlanFillTkipMic_michael peers.sent key] at stored
    have mic_ : mic = wholeMic link.sec frame := (Option.some.inj (Option.some.inj stored)).symm.trans same
    constructor
    · rw [rtwSeccalctkipmic_michael,peers.da,peers.sa,peers.priority,mic_]
      rfl
    · have eight : mic.length = 8 := by rw [mic_,wholeMic,michael_length]
      rw [recvframeChkmic_res peers eight,mic_]
      exact decide_eq_true rfl

theorem Link.Agrees.same {link : Link} {frame : XmitFrame} (agrees : link.Agrees frame) (peers : link.Peers frame.attrib)
    (key : isNullKey (micKeyTx link.sec frame.attrib) = false) : sentMic link.sec frame = wholeMic link.sec frame := by
  have mic := (agrees _ (coreWlanFillTkipMic_michael peers.sent key link.head link.tail)).1
  rw [rtwSeccalctkipmic_michael,peers.da,peers.sa,peers.priority] at mic
  exact mic

def XmitFrame.left (frame : XmitFrame) : List U8 :=
  (frame.first.drop frame.layout.hashed).flatten ++ frame.others.flatMap flatten

theorem XmitFrame.payload_left (frame : XmitFrame) :
    frame.payload = (frame.first.take frame.layout.hashed).flatten ++ frame.left := by
  rw [XmitFrame.left,← append_assoc,← flatten_append,take_append_drop,XmitFrame.payload]

theorem XmitFrame.left_length (frame : XmitFrame) : frame.left.length = frame.layout.skipped := by
  have others : ∀ lists : List (List (List U8)),
      (lists.flatMap flatten).length = ((lists.map (map length)).map sum).sum := by
    intro lists
    induction lists with
    | nil => rfl
    | cons list rest ih =>
      rw [flatMap_cons,length_append,ih,length_flatten,map_cons,map_cons,sum_cons]
  rw [XmitFrame.left,length_append,others,length_flatten,map_drop]
  rfl

def deal : List Nat → List U8 → List (List U8)
  | [],_ => []
  | n :: ns,bytes => bytes.take n :: deal ns (bytes.drop n)

def dealAll : List (List Nat) → List U8 → List (List (List U8))
  | [],_ => []
  | ns :: rest,bytes => deal ns bytes :: dealAll rest (bytes.drop ns.sum)

section
variable (ns : List Nat) (bytes : List U8)

theorem deal_lengths (enough : ns.sum ≤ bytes.length) : (deal ns bytes).map length = ns := by
  induction ns generalizing bytes with
  | nil => rfl
  | cons n ns ih =>
    rw [sum_cons] at enough
    rw [deal,map_cons,ih _ (by rw [length_drop]; omega),length_take,Nat.min_eq_left (by omega)]

theorem deal_flatten : (deal ns bytes).flatten = bytes.take ns.sum := by
  induction ns generalizing bytes with
  | nil => rfl
  | cons n ns ih => rw [deal,flatten_cons,ih,sum_cons,take_add]

theorem deal_take (count : Nat) : (deal ns bytes).take count = deal (ns.take count) bytes := by
  induction ns generalizing bytes count with
  | nil => simp [deal]
  | cons n ns ih =>
    cases count with
    | zero => rfl
    | succ count => rw [deal,take_succ_cons,ih,take_succ_cons,deal]
end

theorem dealAll_lengths (nss : List (List Nat)) (bytes : List U8) (enough : (nss.map sum).sum ≤ bytes.length) :
    (dealAll nss bytes).map (map length) = nss := by
  induction nss generalizing bytes with
  | nil => rfl
  | cons ns nss ih =>
    rw [map_cons,sum_cons] at enough
    rw [dealAll,map_cons,ih _ (by rw [length_drop]; omega),deal_lengths _ _ (by omega)]

theorem dealAll_flatten (nss : List (List Nat)) (bytes : List U8) :
    (dealAll nss bytes).flatMap flatten = bytes.take (nss.map sum).sum := by
  induction nss generalizing bytes with
  | nil => rfl
  | cons ns nss ih => rw [dealAll,flatMap_cons,ih,deal_flatten,map_cons,sum_cons,take_add]

def dealtAttrib (bswenc : Bool) : PktAttrib where
  encrypt := .tkip
  bswenc := bswenc
  qosEn := true
  priority := 5
  ra := Vector.replicate 6 2
  dst := Vector.replicate 6 4
  src := Vector.replicate 6 6
  dot11tkiptxmickey := Vector.replicate 32 1

def dealt (layout : Layout) (bytes : List U8) : XmitFrame where
  attrib := dealtAttrib layout.bswenc
  llc := Vector.replicate 8 0
  first := deal layout.first bytes
  others := dealAll layout.others (bytes.drop layout.first.sum)

def dealtSecurity : SecurityPriv where
  dot118021XGrpKeyid := 1
  dot118021XGrptxmickey := Vector.replicate 6 (Vector.replicate 32 3)
  dot118021XGrprxmickey := Vector.replicate 6 (Vector.replicate 32 3)
  binstallGrpkey := true
  bcheckGrpkey := false

def dealtRx : RxPktAttrib where
  encrypt := .tkip
  hdrlen := 26
  ivLen := 8
  icvLen := 4
  ra := Vector.replicate 6 2
  keyIndex := 0
  priority := 5
  bdecrypted := true

def dealtLink : Link where
  sec := dealtSecurity
  head := []
  tail := []
  receiver := dealtSecurity
  stainfo := some (Vector.replicate 32 1)
  current := 1
  rx := dealtRx
  header := [0x88,0,0,0] ++ replicate 6 4 ++ replicate 6 6 ++ replicate 10 0
  iv := replicate 8 0
  icv := replicate 4 0

theorem dealt_unicast : isMcast (Vector.replicate 6 2) = false := by decide

theorem dealt_key (bswenc : Bool) : micKeyTx dealtSecurity (dealtAttrib bswenc) = Vector.replicate 32 1 := by
  rw [micKeyTx]
  show (if isMcast (Vector.replicate 6 2) then _ else _) = _
  rw [dealt_unicast]
  rfl

theorem dealt_null (bswenc : Bool) : isNullKey (micKeyTx dealtSecurity (dealtAttrib bswenc)) = false := by
  rw [dealt_key]
  decide

theorem dealtLink_peers (bswenc : Bool) : dealtLink.Peers (dealtAttrib bswenc) where
  sent := rfl
  received := rfl
  key := by
    show micKeyRx dealtSecurity (some (Vector.replicate 32 1)) dealtRx = some (micKeyTx dealtSecurity (dealtAttrib bswenc))
    rw [dealt_key]
    simp only [micKeyRx,dealtRx,dealt_unicast]
    rfl
  da := rfl
  sa := rfl
  priority := rfl
  header := rfl
  iv := rfl
  icv := rfl

def Layout.total (layout : Layout) : Nat := layout.first.sum + (layout.others.map sum).sum

theorem dealt_layout (whole : bytes.length = layout.total) : (dealt layout bytes).layout = layout := by
  rw [Layout.total] at whole
  have first := deal_lengths layout.first bytes (by omega)
  have others := dealAll_lengths layout.others (bytes.drop layout.first.sum) (by rw [length_drop]; omega)
  rw [XmitFrame.layout,dealt,first,others]
  rfl

theorem dealt_payload (whole : bytes.length = layout.total) : (dealt layout bytes).payload = bytes := by
  rw [Layout.total] at whole
  rw [XmitFrame.payload,dealt,deal_flatten,dealAll_flatten,← take_add,take_of_length_le (by omega)]

theorem Layout.total_skipped (layout : Layout) : layout.total = (layout.first.take layout.hashed).sum + layout.skipped := by
  have split := congrArg sum (take_append_drop layout.hashed layout.first)
  rw [sum_append] at split
  rw [Layout.total,Layout.skipped]
  omega

theorem skipped_disagrees (layout : Layout) (skipped : layout.skipped ≠ 0) :
    ¬∀ (link : Link) (frame : XmitFrame), frame.layout = layout → link.Peers frame.attrib → link.Agrees frame := by
  intro always
  have total := layout.total_skipped
  have peers := dealtLink_peers layout.bswenc
  have length : ∀ last : U8, (replicate (layout.total-1) (0 : U8) ++ [last]).length = layout.total := by
    intro last
    rw [length_append,length_replicate,length_singleton]
    omega
  have code : ∀ last : U8, michael (micKeyTx dealtSecurity (dealtAttrib layout.bswenc)).toList
        (prefixOf (dealtAttrib layout.bswenc) ++ ((dealt layout []).llc.toList ++
          (replicate (layout.total-1) (0 : U8)).take ((layout.first.take layout.hashed).sum))) =
      rtwSecgetmic (rtwSecmicappend (rtwSecmicappend (rtwSecmicsetkey (micKeyTx dealtSecurity (dealtAttrib layout.bswenc)).toList)
        (prefixOf (dealtAttrib layout.bswenc) ++ ((dealt layout []).llc.toList ++ replicate (layout.total-1) (0 : U8))))
        [last]) := by
    intro last
    have shape := dealt_layout (length last)
    have same := (always dealtLink (dealt layout _) shape peers).same peers (dealt_null _)
    rw [sentMic,wholeMic,shape,dealt_payload (length last)] at same
    have hashed : ((dealt layout (replicate (layout.total-1) (0 : U8) ++ [last])).first.take layout.hashed).flatten =
        (replicate (layout.total-1) (0 : U8)).take ((layout.first.take layout.hashed).sum) := by
      rw [dealt,deal_take,deal_flatten,take_append_of_le_length (by rw [length_replicate]; omega)]
    rw [hashed] at same
    rw [← append_append,append_assoc,append_assoc]
    exact same
  have both := (code 0).symm.trans (code 1)
  exact rtwSecgetmic_last ((rtwSecmicsetkey_aligned _).append _) (by decide) both

-- However the data are split, feeding them piece by piece is feeding them at
-- once; but only the slices of the first request are fed.
theorem tkip_mic_agrees (layout : Layout) :
    (∀ (micdata : MicData) (pieces : List (List U8)), pieces.foldl rtwSecmicappend micdata = rtwSecmicappend micdata pieces.flatten) ∧
    ((∀ (link : Link) (frame : XmitFrame), frame.layout = layout → link.Peers frame.attrib → link.Agrees frame) ↔
      layout.skipped = 0) := by
  refine ⟨append_pieces,?_⟩
  constructor
  · intro always
    by_contra skipped
    exact skipped_disagrees layout skipped always
  · intro none_ link frame shape peers
    have left : frame.left = [] := by
      rw [← length_eq_zero_iff,frame.left_length,shape,none_]
    apply peers.agrees
    rw [sentMic,wholeMic,frame.payload_left,left,append_nil]

theorem tkip_mic_fragments : ¬∀ (layout : Layout) (link : Link) (frame : XmitFrame),
    frame.layout = layout → link.Peers frame.attrib → link.Agrees frame := by
  intro always
  exact skipped_disagrees {bswenc := true, first := [206], others := [[94]]} (by decide) (always _)

theorem mic_guards {link : Link} (peers : link.Peers attrib) (data : List U8) :
    (∀ key : List U8, (recvframeChkmic link.receiver link.stainfo link.current link.rx
        (link.frame data (michael key (prefixOf attrib ++ data)))).res ↔
      keyBytes key = keyBytes (micKeyTx link.sec attrib).toList) ∧
    ∀ front b b' rest, prefixOf attrib ++ data = front ++ b :: rest → b ≠ b' →
      (recvframeChkmic link.receiver link.stainfo link.current link.rx
        (link.frame data (michael (micKeyTx link.sec attrib).toList (front ++ b' :: rest)))).res = false := by
  constructor
  · intro key
    rw [recvframeChkmic_res peers (michael_length ..),decide_eq_true_eq,eq_comm]
    exact mic_keys ..
  · intro front b b' rest sent differ
    rw [recvframeChkmic_res peers (michael_length ..)]
    apply decide_eq_false
    rw [← prefixOf,sent,michael,michael,append_append,append_append]
    have aligned := (rtwSecmicsetkey_aligned (micKeyTx link.sec attrib).toList).append front
    have apart := (apart_bytes aligned differ).append (aligned.appendbyte b) (aligned.appendbyte b') rest
    exact apart.getmic ((aligned.appendbyte b).append rest) ((aligned.appendbyte b').append rest)

theorem mic_guards_dealt : (recvframeChkmic dealtLink.receiver dealtLink.stainfo dealtLink.current dealtLink.rx
    (dealtLink.frame [7] (michael (replicate 8 1) (prefixOf (dealtAttrib true) ++ [7])))).res := by
  refine ((mic_guards (dealtLink_peers true) [7]).1 (replicate 8 1)).mpr ?_
  change keyBytes _ = keyBytes (micKeyTx dealtSecurity (dealtAttrib true)).toList
  rw [dealt_key]
  rfl
end Rtl8852au.TkipMic
