import Rtl8852au.RecvPort

namespace Rtl8852au.Recv
open List Option Bool

-- The group-addressed frames that need an MME.
def groupProtected (ptr : Bytes) : Bool := isMcast (getAddr1 ptr) && (leaves ptr || robustAction ptr)

structure CompleteMme (cfg : Config) (frame : RecvFrame) : Prop where
  inside : 24 + mmeOffset cfg ≤ frame.len
  element : frame.rxData (mmeAt cfg frame) = mmeIe
  length : (frame.rxData (mmeAt cfg frame + 1)).toNat = mmeOffset cfg - 2
  keyId : le16 frame.rxData (mmeAt cfg frame + 2) = cfg.bipKeyid % 2^16

structure Guarded (frame : RecvFrame) (cfg : Config) (peer : StationConf) (micValid : Bool) : Prop where
  unicast : getPrivacy frame.mpdu = false → isMcast (getAddr1 frame.rxData) = false →
    leaves frame.rxData = false ∧ (peer.pairwiseKeyInstalled → robustAction frame.rxData = false)
  group : groupProtected frame.rxData → CompleteMme cfg frame ∧ micValid

def underMfp (frame : RecvFrame) (cfg : Config) (peer : Option StationConf) : Bool :=
  cfg.bipKey && peer.any StationConf.mfp && getFrameType frame.rxData == .mgnt

def countedIpn (ipns : List Nat) : Note → List Nat
  | .dispatched frame cfg peer _ =>
    if underMfp frame cfg peer && groupProtected frame.rxData then ipns ++ [mmeIpn cfg frame] else ipns
  | .bipKey => []
  | _ => ipns

def acceptedIpns (log : List Note) : List Nat := log.foldl countedIpn []

theorem appendFragment_bytes {next : RecvFrame} (below : i < prframe.len - prframe.attrib.icvLen) :
    (appendFragment prframe next).rxData i = prframe.rxData i := by
  have tail : prframe.len - prframe.attrib.icvLen ≤ (recvframePullTail prframe prframe.attrib.icvLen).len ∧
      (recvframePullTail prframe prframe.attrib.icvLen).rxData = prframe.rxData := by
    unfold recvframePullTail
    split
    · exact ⟨Nat.le_refl _,rfl⟩
    · exact ⟨Nat.sub_le _ _,rfl⟩
  have outside (count : Nat) : ¬((recvframePullTail prframe prframe.attrib.icvLen).len ≤ i ∧
      i < (recvframePullTail prframe prframe.attrib.icvLen).len + count) := by omega
  unfold appendFragment recvframePut
  simp only
  split <;> simp only [outside,if_false,tail.2]

theorem joinFragments_last (join : joinFragments prframe curPn number (rest ++ [last]) = some result) :
    ∃ middle, joinFragments prframe curPn number rest = some middle ∧ result = appendFragment middle last := by
  induction rest generalizing prframe curPn number with
  | nil =>
    obtain ⟨_,_,_,made⟩ := joinFragments_next.mp join
    cases made
    exact ⟨prframe,rfl,rfl⟩
  | cons next rest ih =>
    obtain ⟨order,track,count,join⟩ := joinFragments_next.mp join
    obtain ⟨middle,before,same⟩ := ih join
    exact ⟨middle,joinFragments_next.mpr ⟨order,track,count,before⟩,same⟩

def dataInFront (sta : Station) : Bool :=
  match sta.defragQ with
  | [] => true
  | first :: rest => getFrameType first.rxData == .data && decide (24 + first.attrib.icvLen ≤ first.len) &&
      fitsBehind first.room (first.len-first.attrib.icvLen) (rest.map partOf)

def wholeMme (cfg : Config) (pkt : RxPacket) : Bool :=
  let mme := pkt.len - mmeOffset cfg
  pkt.mpdu mme != mmeIe || (decide (24 + mmeOffset cfg ≤ pkt.len) && (pkt.mpdu (mme+1)).toNat == mmeOffset cfg - 2)

def mfpPeer (s : Rx) (ptr : Bytes) : Bool := (rtwGetStainfo s (getAddr2 ptr)).any fun found => found.2.conf.mfp

-- A group-addressed frame that ends the association or is an action frame does
-- not come encrypted, and hardware marks no frame as decrypted with a wrong MIC.
def mgmtSound (s : Rx) : Event → Bool
  | .rx pkt =>
    let ptr := pkt.mpdu
    getFrameType ptr != .mgnt || !s.cfg.bipKey || !mfpPeer s ptr ||
      ((pkt.swDec || pkt.bipMic) && (mgntLast s pkt).all (fun found => dataInFront found.2) &&
        (!isMcast (getAddr1 ptr) || !getPrivacy ptr || !(leaves ptr || getFrameSubType ptr == wifiAction)) &&
        (!groupProtected ptr || wholeMme s.cfg pkt))
  | _ => true

inductive Cleared (s : Rx) (pkt : RxPacket) (sta : Station) (f : RecvFrame) : Rx → RecvFrame → Prop where
  | decrypted : f.attrib.privacy → Cleared s pkt sta f s (decryptMgmt pkt sta f).1
  | unicast : f.attrib.privacy = false → isMcast (getAddr1 f.rxData) = false → leaves f.rxData = false →
      (robustAction f.rxData && sta.conf.pairwiseKeyInstalled) = false → Cleared s pkt sta f s f
  | group : f.attrib.privacy = false → isMcast (getAddr1 f.rxData) → groupProtected f.rxData = false → Cleared s pkt sta f s f
  | verified : f.attrib.privacy = false → isMcast (getAddr1 f.rxData) → rtwBipVerify s pkt f = (s',.success) →
      Cleared s pkt sta f s' f

theorem plainMgmt_cleared (checked : plainMgmt s pkt sta f = (s',.success)) (plain : f.attrib.privacy = false) :
    Cleared s pkt sta f s' f := by
  unfold plainMgmt at checked
  simp only at checked
  split at checked
  · rename_i group
    split at checked
    · cases checked
    · split at checked
      · rcases verified : rtwBipVerify s pkt f with ⟨t,result⟩
        rw [verified] at checked
        cases result with
        | success =>
          cases checked
          exact .verified plain group verified
        | fail => cases checked
        | handled => cases checked
      · rename_i other
        cases checked
        refine .group plain group ?_
        simp only [not_eq_true,or_eq_false_iff] at other
        simp [groupProtected,other]
  · rename_i unicast
    split at checked
    · cases checked
    · rename_i stays
      split at checked
      · cases checked
      · rename_i other
        cases checked
        exact .unicast plain (by simpa using unicast) (by simpa using stays) (by simpa using other)

theorem validateMgmtProtect_cleared (checked : validateMgmtProtect s pkt f = (s',g,.success)) (bipKey : s.cfg.bipKey)
    (found : rtwGetStainfo s (getAddr2 f.rxData) = some (key,sta)) (mfp : sta.conf.mfp) : Cleared s pkt sta f s' g := by
  unfold validateMgmtProtect at checked
  simp only [bipKey,found,mfp,Bool.not_true,Bool.false_eq_true,if_false] at checked
  split at checked
  · rename_i privacy
    simp only [Prod.mk.injEq] at checked
    obtain ⟨rfl,rfl,_⟩ := checked
    exact .decrypted privacy
  · rename_i plain
    rcases result : plainMgmt s pkt sta f with ⟨t,ret⟩
    rw [result] at checked
    cases checked
    exact plainMgmt_cleared result (by simpa using plain)

theorem decryptMgmt_header (below : i < 24) : (decryptMgmt pkt sta f).1.rxData i = f.rxData i := by
  unfold decryptMgmt
  simp only
  split
  · rfl
  · simp only [below,if_true]
    split
    · rfl
    · rename_i done
      obtain ⟨data,kept,isFrame⟩ := decryptor_spec done
      rw [isFrame]
      exact kept i (by simp only; omega)

structure SameHeader (p q : Bytes) : Prop where
  bytes : ∀ i < 24, p i = q i

section
variable (same : SameHeader p q)
include same

theorem SameHeader.subType : getFrameSubType p = getFrameSubType q := by
  unfold getFrameSubType le16
  rw [same.bytes 0 (by decide),same.bytes 1 (by decide)]

theorem SameHeader.leaves : leaves p = leaves q := by
  unfold Recv.leaves
  rw [same.subType]

theorem SameHeader.addr1 : getAddr1 p = getAddr1 q := by
  unfold getAddr1 addrAt
  apply leBytes_congr
  intro i below
  exact same.bytes _ (by omega)

theorem SameHeader.type : getFrameType p = getFrameType q :=
  getFrameType_congr (same.bytes 0 (by decide)) (same.bytes 1 (by decide))
end

theorem joined_data (front : dataInFront sta) (number : g.attrib.fragNum ≠ 0)
    (queue : sta.defragQ ++ [tracked sta2 g] = first :: rest) (start : first.attrib.fragNum = 0)
    (join : joinedFrom first rest = some prframe) : getFrameType prframe.rxData = .data := by
  unfold dataInFront at front
  rcases waiting : sta.defragQ with _ | ⟨head,others⟩
  · rw [waiting] at queue
    have alone : tracked sta2 g = first := (cons.inj queue).1
    rw [← alone] at start
    exact absurd start number
  · rw [waiting,cons_append] at queue
    obtain ⟨rfl,rfl⟩ := cons.inj queue
    simp only [waiting,and_eq_true,beq_iff_eq,decide_eq_true_eq] at front
    obtain ⟨⟨data,long⟩,fits⟩ := front
    obtain ⟨middle,before,rfl⟩ := joinFragments_last join
    have behind := joinFragments_front before (by omega) fits
    have same : SameHeader (appendFragment middle (tracked sta2 g)).rxData head.rxData := by
      refine ⟨?_⟩
      intro i below
      have further := behind.long
      rw [appendFragment_bytes (by omega)]
      exact behind.bytes i (by omega)
    rw [same.type]
    exact data

structure Handed (s : Rx) (pkt : RxPacket) (s3 : Rx) (prframe : RecvFrame) (peer : StationConf) : Prop where
  guarded : Guarded prframe s3.cfg peer pkt.bipMic
  counted : groupProtected prframe.rxData → s.bipRxpn < mmeIpn s3.cfg prframe ∧ s3.bipRxpn = mmeIpn s3.cfg prframe

theorem unicast_handed (unicast : isMcast (getAddr1 f.rxData) = false) (stays : leaves f.rxData = false)
    (other : (robustAction f.rxData && peer.pairwiseKeyInstalled) = false) : Handed s pkt t f peer := by
  have single : groupProtected f.rxData = false := by simp [groupProtected,unicast]
  refine ⟨⟨?_,by simp [single]⟩,by simp [single]⟩
  intro _ _
  refine ⟨stays,?_⟩
  intro installed
  simpa [installed] using other

theorem group_handed (group : isMcast (getAddr1 f.rxData)) (other : groupProtected f.rxData = false) :
    Handed s pkt t f peer :=
  ⟨⟨by simp [group],by simp [other]⟩,by simp [other]⟩

theorem verified_handed (verified : rtwBipVerify s pkt f = (s',.success)) (bytes : f.rxData = pkt.mpdu) (len : f.len = pkt.len)
    (hardware : f.attrib.bdecrypted = !pkt.swDec) (trusted : (pkt.swDec || pkt.bipMic))
    (whole : (!groupProtected pkt.mpdu || wholeMme s.cfg pkt))
    (group : isMcast (getAddr1 pkt.mpdu)) : Handed s pkt s' f peer := by
  rcases rtwBipVerify_ways verified with ⟨_,failed⟩ | ⟨_,element,keyId,newer,mic,rfl,_⟩
  · exact absurd rfl failed
  · refine ⟨⟨by simp [bytes,group],?_⟩,fun _ => ⟨newer,rfl⟩⟩
    intro need
    rw [bytes] at need
    have mme : wholeMme s.cfg pkt := by simpa [need] using whole
    have at_ : mmeAt s.cfg f = pkt.len - mmeOffset s.cfg := by simp [mmeAt,len]
    rw [bytes,at_] at element
    simp only [wholeMme,element,bne_self_eq_false,Bool.false_or,Bool.and_eq_true,decide_eq_true_eq,beq_iff_eq] at mme
    have complete : CompleteMme s.cfg f := by
      refine ⟨by rw [len]; exact mme.1,?_,?_,keyId⟩
      · rw [bytes,at_]
        exact element
      · rw [bytes,at_]
        exact mme.2
    refine ⟨complete,?_⟩
    · rcases mic with marked | valid
      · rw [hardware,not_eq_true'] at marked
        simpa [marked] using trusted
      · exact valid

theorem decrypted_handed (privacy : getPrivacy f.mpdu) (apart : isMcast (getAddr1 f.rxData) →
    (leaves f.rxData || getFrameSubType f.rxData == wifiAction) = false) : Handed s pkt t f peer := by
  have other : groupProtected f.rxData = false := by
    cases group : isMcast (getAddr1 f.rxData) with
    | false => simp [groupProtected,group]
    | true =>
      have kind := apart group
      simp only [or_eq_false_iff] at kind
      simp [groupProtected,robustAction,kind]
  exact ⟨⟨by simp [privacy],by simp [other]⟩,by simp [other]⟩

theorem mfpPeer_found {pkt : RxPacket} (bytes : f.rxData = pkt.mpdu) (peer : peerConf s f = some conf) (mfp : conf.mfp) :
    ∃ key sta, rtwGetStainfo s (getAddr2 f.rxData) = some (key,sta) ∧ sta.conf = conf ∧ mfpPeer s pkt.mpdu := by
  unfold peerConf at peer
  simp only [map_eq_some_iff] at peer
  obtain ⟨⟨key,sta⟩,found,rfl⟩ := peer
  refine ⟨key,sta,found,rfl,?_⟩
  rw [bytes] at found
  have protected_ : sta.conf.mfp := mfp
  simp [mfpPeer,found,protected_]

theorem mgmtSound_mfp (allowed : mgmtSound s (.rx pkt)) (type : getFrameType pkt.mpdu = .mgnt) (bipKey : s.cfg.bipKey)
    (peer : mfpPeer s pkt.mpdu) : (pkt.swDec || pkt.bipMic) ∧
    (mgntLast s pkt).all (fun found => dataInFront found.2) ∧
      (!isMcast (getAddr1 pkt.mpdu) || !getPrivacy pkt.mpdu || !(leaves pkt.mpdu || getFrameSubType pkt.mpdu == wifiAction)) ∧
      (!groupProtected pkt.mpdu || wholeMme s.cfg pkt) := by
  simp only [mgmtSound,type,bne_self_eq_false,bipKey,Bool.not_true,peer,Bool.false_or,Bool.and_eq_true] at allowed
  exact ⟨allowed.1.1.1,allowed.1.1.2,allowed.1.2,allowed.2⟩

theorem cleared_handed (cleared : Cleared s pkt sta (parsed f) s' g) (bytes : f.rxData = pkt.mpdu) (mpdu : f.mpdu = pkt.mpdu)
    (len : f.len = pkt.len) (hardware : f.attrib.bdecrypted = !pkt.swDec) (trusted : (pkt.swDec || pkt.bipMic))
    (apart : (!isMcast (getAddr1 pkt.mpdu) || !getPrivacy pkt.mpdu || !(leaves pkt.mpdu || getFrameSubType pkt.mpdu == wifiAction)))
    (whole : (!groupProtected pkt.mpdu || wholeMme s.cfg pkt)) : Handed s pkt s' g sta.conf := by
  have privacy : (parsed f).attrib.privacy = getPrivacy pkt.mpdu := by simp [parsed,parseHeader,bytes]
  cases cleared with
  | decrypted secret =>
    rw [privacy] at secret
    have header : SameHeader (decryptMgmt pkt sta (parsed f)).1.rxData pkt.mpdu :=
      ⟨fun i below => (decryptMgmt_header below).trans (congrFun bytes i)⟩
    refine decrypted_handed ?_ ?_
    · rw [decryptMgmt_same.mpdu]
      exact mpdu ▸ secret
    · intro group
      rw [header.addr1] at group
      rw [header.leaves,header.subType]
      simpa [group,secret] using apart
  | unicast _ single stays other => exact unicast_handed single stays other
  | group _ group other => exact group_handed group other
  | verified _ group verified => exact verified_handed verified bytes len hardware trusted whole (bytes ▸ group)

theorem dispatched_handed (entered : Entered s pkt s1 f1) (version : getVersion f1.rxData = 0)
    (type : getFrameType f1.rxData = .mgnt)
    (protection : validateMgmtProtect s1 pkt (parsed f1) = (s2,g,.success))
    (defrag : recvframeChkDefrag s2 g = (s3,.continue_,some prframe)) (allowed : mgmtSound s (.rx pkt))
    (bipKey : s3.cfg.bipKey) (peer : peerConf s1 f1 = some conf) (mfp : conf.mfp)
    (now : getFrameType prframe.rxData = .mgnt) : Handed s pkt s3 prframe conf := by
  have located := mgntLast_eq entered version type protection
  have kept := mgmtProtect_ways protection
  have ways := chkDefrag_ways defrag
  obtain ⟨taken,_,_⟩ := entered
  obtain ⟨f0,rest,_,rfl,_,_,full⟩ := taken.spec
  cases full rfl
  have cfg : s3.cfg = s.cfg := by
    have here : (takenFor s pkt f0 rest).cfg = s.cfg := rfl
    rw [(Shuffled.defrag ways).cfg,kept.silent.cfg,here]
  obtain ⟨key,sta,found,rfl,mfpHere⟩ := mfpPeer_found (s := takenFor s pkt f0 rest) rfl peer mfp
  obtain ⟨trusted,front,apart,whole⟩ := mgmtSound_mfp allowed type (cfg ▸ bipKey) mfpHere
  have cleared := validateMgmtProtect_cleared protection (by rw [← bipKey,cfg]; rfl) found mfp
  cases ways with
  | whole =>
    have handed := cleared_handed cleared rfl rfl rfl rfl trusted apart whole
    exact ⟨handed.guarded,handed.counted⟩
  | joined last number collected queue start join =>
    rw [located last number,collected] at front
    have data := joined_data (by simpa using front) number queue start join
    rw [data] at now
    cases now

structure Aside (s s' : Rx) : Prop where
  cfg : s'.cfg = s.cfg
  bipRxpn : s.bipRxpn ≤ s'.bipRxpn
  dispatched : ∀ frame cfg peer mic, .dispatched frame cfg peer mic ∈ s'.log → .dispatched frame cfg peer mic ∈ s.log
  ipns : acceptedIpns s'.log = acceptedIpns s.log

theorem Aside.refl (s : Rx) : Aside s s := ⟨rfl,Nat.le_refl _,fun _ _ _ _ noted => noted,rfl⟩

theorem Aside.trans (first : Aside s t) (second : Aside t u) : Aside s u :=
  ⟨second.cfg.trans first.cfg,Nat.le_trans first.bipRxpn second.bipRxpn,
    fun _ _ _ _ noted => first.dispatched _ _ _ _ (second.dispatched _ _ _ _ noted),second.ipns.trans first.ipns⟩

theorem acceptedIpns_note (s : Rx) (n : Note) : acceptedIpns (s.note n).log = countedIpn (acceptedIpns s.log) n := by
  unfold acceptedIpns Rx.note
  rw [foldl_append]
  rfl

theorem Aside.note (other : ∀ frame cfg peer mic, n ≠ .dispatched frame cfg peer mic) (quiet : ∀ ipns, countedIpn ipns n = ipns) :
    Aside s (s.note n) := by
  refine ⟨rfl,Nat.le_refl _,?_,by rw [acceptedIpns_note,quiet]⟩
  intro frame cfg peer mic noted
  rcases mem_append.mp noted with before | now
  · exact before
  · exact absurd (mem_singleton.mp now).symm (other frame cfg peer mic)

theorem countedIpn_buffers (n : Note) (here : ofBuffers n) (ipns : List Nat) : countedIpn ipns n = ipns := by
  cases n <;> first | rfl | cases here

theorem Shuffled.aside (shuffled : Shuffled s s') : Aside s s' := by
  obtain ⟨notes,log,buffers⟩ := shuffled.log
  refine ⟨shuffled.cfg,Nat.le_of_eq shuffled.bipRxpn.symm,?_,?_⟩
  · intro frame cfg peer mic noted
    rw [log] at noted
    rcases mem_append.mp noted with before | now
    · exact before
    · exact absurd (buffers _ now) (by simp [ofBuffers])
  · unfold acceptedIpns
    rw [log,foldl_append]
    exact foldl_buffers countedIpn_buffers buffers _

theorem pnDecache_aside (fresh : pnDecache s key sta f = some s') : Aside s s' := by
  obtain ⟨_,_,rfl,_⟩ := pnDecache_spec fresh
  exact ⟨rfl,Nat.le_refl _,fun _ _ _ _ noted => noted,rfl⟩

theorem noteAccepted_aside : Aside s (noteAccepted s f) := by
  rcases noteAccepted_ways s f with same | ⟨_,_,same⟩ <;> rw [same]
  · exact .refl s
  · exact .note (by simp) (fun _ => rfl)

theorem DataFrame.aside (data : DataFrame s f s' g ret) : Aside s s' := by
  cases data with
  | refused => exact .refl s
  | repeated => exact Shuffled.setStation.aside
  | plaintext _ _ _ pn => exact pnDecache_aside pn
  | accepted _ _ _ pn => exact (pnDecache_aside pn).trans noteAccepted_aside

theorem Protected.aside (checked : Protected s pkt f s' g ret) : Aside s s' := by
  rcases checked.ways with rfl | ⟨newer,rfl⟩
  · exact .refl _
  · exact Aside.trans (t := {s with bipRxpn:=mmeIpn s.cfg f}) ⟨rfl,Nat.le_of_lt newer,fun _ _ _ _ noted => noted,rfl⟩
      (.note (by simp) fun _ => rfl)

theorem Entered.aside (entered : Entered s pkt s1 f1) : Aside s s1 := by
  obtain ⟨taken,_,_⟩ := entered
  exact taken.shuffled.aside

theorem Checked.aside (checked : Checked s pkt s2 f) : Aside s s2 := by
  obtain ⟨entered,validated,_⟩ := checked
  cases validated with
  | data _ result => exact entered.aside.trans (dataFrame_ways result).aside

theorem Aside.delivered : Aside s (delivered s f ethTypes) := by
  rw [← note_each_msdu]
  induction ethTypes generalizing s with
  | nil => exact .refl s
  | cons ethType rest ih => exact Aside.trans (.note (by simp) fun _ => rfl) ih

structure MgmtInv (s : Rx) : Prop where
  guarded : ∀ frame cfg peer mic, .dispatched frame cfg (some peer) mic ∈ s.log → underMfp frame cfg (some peer) →
    Guarded frame cfg peer mic
  increasing : (acceptedIpns s.log).Pairwise (· < ·)
  below : ∀ ipn ∈ acceptedIpns s.log, ipn ≤ s.bipRxpn

theorem MgmtInv.aside (inv : MgmtInv s) (aside : Aside s s') : MgmtInv s' := by
  refine ⟨fun frame cfg peer mic noted => inv.guarded frame cfg peer mic (aside.dispatched _ _ _ _ noted),?_,?_⟩
  · rw [aside.ipns]
    exact inv.increasing
  · rw [aside.ipns]
    intro ipn member
    exact Nat.le_trans (inv.below ipn member) aside.bipRxpn

theorem underMfp_spec (mfp : underMfp frame cfg peer) : ∃ conf, peer = some conf ∧ cfg.bipKey ∧ conf.mfp ∧
    getFrameType frame.rxData = .mgnt := by
  unfold underMfp at mfp
  cases peer with
  | none => simp at mfp
  | some conf =>
    simp only [any_some,and_eq_true,beq_iff_eq] at mfp
    exact ⟨conf,rfl,mfp.1.1,mfp.1.2,mfp.2⟩

theorem MgmtInv.dispatch (inv : MgmtInv before) (aside : Aside before s)
    (handed : ∀ conf, peer = some conf → underMfp frame s.cfg (some conf) → Handed before pkt s frame conf) :
    MgmtInv (s.note (.dispatched frame s.cfg peer pkt.bipMic)) := by
  have now := inv.aside aside
  refine ⟨?_,?_,?_⟩
  · intro other cfg conf mic noted mfp
    rcases mem_append.mp noted with earlier | last
    · exact now.guarded other cfg conf mic earlier mfp
    · cases mem_singleton.mp last
      exact (handed conf rfl mfp).guarded
  · rw [acceptedIpns_note]
    simp only [countedIpn]
    split
    · rename_i counted
      simp only [and_eq_true] at counted
      obtain ⟨conf,rfl,_⟩ := underMfp_spec counted.1
      obtain ⟨newer,_⟩ := (handed conf rfl counted.1).counted counted.2
      refine pairwise_append.mpr ⟨now.increasing,by simp,?_⟩
      intro a earlier b last
      rw [mem_singleton.mp last]
      rw [aside.ipns] at earlier
      exact Nat.lt_of_le_of_lt (inv.below a earlier) newer
    · exact now.increasing
  · rw [acceptedIpns_note]
    intro ipn member
    simp only [countedIpn] at member
    have rxpn : (s.note (.dispatched frame s.cfg peer pkt.bipMic)).bipRxpn = s.bipRxpn := rfl
    rw [rxpn]
    split at member
    · rename_i counted
      simp only [and_eq_true] at counted
      obtain ⟨conf,rfl,_⟩ := underMfp_spec counted.1
      obtain ⟨_,recorded⟩ := (handed conf rfl counted.1).counted counted.2
      rcases mem_append.mp member with earlier | last
      · exact now.below ipn earlier
      · rw [mem_singleton.mp last]
        exact Nat.le_of_eq recorded.symm
    · exact now.below ipn member

theorem validated_mgmt (inv : MgmtInv s) (allowed : mgmtSound s (.rx pkt)) (entered : Entered s pkt s1 f1)
    (validated : Validated s1 pkt f1 s2 f2 ret) : MgmtInv s2 := by
  cases validated with
  | refused => exact inv.aside entered.aside
  | mgnt _ _ protection defrag =>
    have aside := (mgmtProtect_ways protection).aside.trans (Shuffled.defrag (chkDefrag_ways defrag)).aside
    exact inv.aside (entered.aside.trans aside)
  | dispatched version type protection defrag =>
    have aside := (mgmtProtect_ways protection).aside.trans (Shuffled.defrag (chkDefrag_ways defrag)).aside
    refine MgmtInv.aside (inv.dispatch (entered.aside.trans aside) ?_) Shuffled.dispatched.aside
    intro conf peer mfp
    obtain ⟨_,same,bipKey,mfp,now⟩ := underMfp_spec mfp
    cases same
    exact dispatched_handed entered version type protection defrag allowed bipKey peer mfp now
  | data _ result => exact inv.aside (entered.aside.trans (dataFrame_ways result).aside)

theorem round_mgmt (inv : MgmtInv s) (allowed : mgmtSound s (.rx pkt)) (round : Round s pkt s') : MgmtInv s' := by
  cases round with
  | noBuffer => exact inv
  | died taken =>
    have after := inv.aside taken.shuffled.aside
    exact ⟨after.guarded,after.increasing,after.below⟩
  | refused taken => exact inv.aside (taken.shuffled.trans .free).aside
  | invalid entered validated => exact (validated_mgmt inv allowed entered validated).aside Shuffled.free.aside
  | queued checked defrag => exact inv.aside (checked.aside.trans (Shuffled.defrag (chkDefrag_ways defrag)).aside)
  | @dropped s2 f s3 state prframe g checked defrag _ _ =>
    have after := inv.aside (checked.aside.trans (Shuffled.defrag (chkDefrag_ways defrag)).aside)
    cases prframe with
    | none => exact after
    | some p => exact after.aside Shuffled.free.aside
  | delivered checked defrag =>
    have before := checked.aside.trans (Shuffled.defrag (chkDefrag_ways defrag)).aside
    exact inv.aside (before.trans (Aside.delivered.trans Shuffled.free.aside))
  | twice checked defrag =>
    have before := checked.aside.trans (Shuffled.defrag (chkDefrag_ways defrag)).aside
    exact inv.aside (before.trans (Aside.delivered.trans (Shuffled.free.trans .free).aside))

theorem rxStep_mgmt (inv : MgmtInv s) (allowed : mgmtSound s event) : MgmtInv (rxStep s event) := by
  unfold rxStep
  split
  · exact inv
  · cases event with
    | rx pkt => exact round_mgmt inv allowed rtwCoreRxProcess_ways
    | rxStop => exact inv.aside rxStop_shuffled.aside
    | sta op => exact inv.aside (Shuffled.staOp s op).aside
    | config cfg => exact ⟨inv.guarded,inv.increasing,inv.below⟩
    | groupKey keyId alg seq =>
      have noted : MgmtInv (s.note (.groupKey keyId)) := inv.aside (.note (by simp) fun _ => rfl)
      exact ⟨noted.guarded,noted.increasing,noted.below⟩
    | bipKey keyId seq =>
      have empty : acceptedIpns (setBipKey s keyId seq).log = [] := acceptedIpns_note s .bipKey
      refine ⟨?_,by rw [empty]; exact .nil,by simp [empty]⟩
      intro frame cfg peer mic noted
      rcases mem_append.mp noted with before | now
      · exact inv.guarded frame cfg peer mic before
      · simp at now

-- What reaches the dispatcher from a station with frame protection was protected,
-- and no group-addressed frame came twice.
theorem mgmt_frames_protected (path : Machine.Reached rxStep (fun s event => mgmtSound s event = true) (rtwInitRecvPriv cfg) s) :
    (∀ frame cfg peer mic, .dispatched frame cfg (some peer) mic ∈ s.log → underMfp frame cfg (some peer) = true →
      Guarded frame cfg peer mic) ∧ (acceptedIpns s.log).Pairwise (· < ·) := by
  have start : MgmtInv (rtwInitRecvPriv cfg) := by
    refine ⟨?_,.nil,by simp [acceptedIpns,rtwInitRecvPriv]⟩
    intro frame cfg peer mic noted
    cases noted
  have inv := path.invariant MgmtInv start fun _ _ inv allowed => rxStep_mgmt inv allowed
  exact ⟨inv.guarded,inv.increasing⟩

def mfpConf : StationConf := {openConf with privacy:=.aes,mfp:=true,pairwiseKeyInstalled:=true}

def deauthFrame (protection : UInt8) (body : List UInt8) : RxPacket :=
  {plainPacket 1 ([0xC0,protection,0,0] ++ [0xFF,0xFF,0xFF,0xFF,0xFF,0xFF] ++ [0x20,0,0,0,0,0] ++ [0x20,0,0,0,0,0] ++
    [0x10,0] ++ body) with bmc := true}

def deauthRun (pkt : RxPacket) : List Event := [.sta (.alloc 0x20 mfpConf),.bipKey 4 0,.rx pkt]
def bipDeauth : RxPacket := deauthFrame 0 ([7,0] ++ [76,16,4,0] ++ [1,0,0,0,0,0] ++ [1,2,3,4,5,6,7,8])

theorem mgmt_frames_protected_run :
    acceptedIpns (Machine.run rxStep (rtwInitRecvPriv wpaCfg) (deauthRun bipDeauth)).log = [1] ∧
      (∀ frame cfg peer mic, .dispatched frame cfg (some peer) mic ∈ (Machine.run rxStep (rtwInitRecvPriv wpaCfg) (deauthRun bipDeauth)).log →
        underMfp frame cfg (some peer) = true → Guarded frame cfg peer mic) ∧
      (acceptedIpns (Machine.run rxStep (rtwInitRecvPriv wpaCfg) (deauthRun bipDeauth)).log).Pairwise (· < ·) :=
  ⟨by decide +kernel,mgmt_frames_protected (Machine.Reached.start.run (by decide +kernel))⟩

-- Under the group key, which any member of the network has.
def secretDeauth : RxPacket := {deauthFrame 0x40 ([1,0,0,0x60,0,0,0,0] ++ [9,9] ++ [1,2,3,4,5,6,7,8]) with
  swDec := true,bipMic := false,plain := some (bytesOf (replicate 32 0 ++ [7,0]))}

def secretRun : List Event := [.sta (.alloc 0x20 mfpConf),.groupKey 1 .aes 0,.bipKey 4 0,.rx secretDeauth]

def mfpDispatch (note : Note) : Option (Bool × Bool) :=
  match note with
  | .dispatched frame cfg peer mic => some (underMfp frame cfg peer && groupProtected frame.rxData,mic)
  | _ => none

theorem mgmt_frames_unprotected : ¬∀ cfg s,
    Machine.Reached rxStep (fun _ event => ∀ pkt, event = .rx pkt → (pkt.swDec || pkt.bipMic) = true) (rtwInitRecvPriv cfg) s →
    ∀ frame cfg peer mic, .dispatched frame cfg (some peer) mic ∈ s.log → underMfp frame cfg (some peer) = true →
      Guarded frame cfg peer mic := by
  intro all
  have path : Machine.Reached rxStep (fun _ event => ∀ pkt, event = .rx pkt → (pkt.swDec || pkt.bipMic)) (rtwInitRecvPriv wpaCfg)
      (Machine.run rxStep (rtwInitRecvPriv wpaCfg) secretRun) :=
    Machine.Reached.start.run (by simp [Machine.Admitted,secretRun,secretDeauth])
  have handed : (Machine.run rxStep (rtwInitRecvPriv wpaCfg) secretRun).log.filterMap mfpDispatch = [(true,false)] := by
    decide +kernel
  obtain ⟨note,noted,isDispatch⟩ := mem_filterMap.mp (handed ▸ mem_singleton.mpr rfl)
  cases note with
  | dispatched frame cfg peer mic =>
    simp only [mfpDispatch,some.injEq,Prod.mk.injEq,and_eq_true] at isDispatch
    obtain ⟨⟨mfp,group⟩,noMic⟩ := isDispatch
    obtain ⟨conf,rfl,_⟩ := underMfp_spec mfp
    have valid := ((all wpaCfg _ path frame cfg conf mic noted mfp).group group).2
    rw [noMic] at valid
    cases valid
  | _ => cases isDispatch
end Rtl8852au.Recv
