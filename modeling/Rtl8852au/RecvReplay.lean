import Rtl8852au.RecvArrival

namespace Rtl8852au.Recv
open Function List Nat Bool

def ownKeyId (ptr : Bytes) : Nat := ccmph2Keyid (le64 ptr (ownHdrlen ptr))

-- The cipher of a group-addressed frame does not depend on the station.
def groupCipher (cfg : Config) (ptr : Bytes) : Cipher :=
  if getPrivacy ptr then
    match cfg.authAlg with
    | .ieee8021x => cfg.grpPrivacy
    | _ => cfg.privacyAlg
  else .noPrivacy

def countedPn (keyId : Nat) (pns : List Nat) : Note → List Nat
  | .accepted k pn => if k = keyId then pns ++ [pn] else pns
  | .groupKey k => if k = keyId then [] else pns
  | _ => pns

def acceptedPns (keyId : Nat) (log : List Note) : List Nat := log.foldl (countedPn keyId) []
def storedPn (s : Rx) (keyId : Nat) : Nat := s.ivSeq keyId % 2^48
def farBehind (new old : Nat) : Bool := decide (new + 2^47 ≤ old)

-- The buffer was left with AES exactly when the frame has a packet number.
def rightCipher (cfg : Config) (ptr : Bytes) (f : RecvFrame) : Bool := (f.attrib.encrypt == .aes) == (groupCipher cfg ptr).hasPn

def freshGroupPn (s : Rx) : Event → Bool
  | .rx pkt =>
    let ptr := pkt.mpdu
    getFrameType ptr != .data || !isMcast (getAddr1 ptr) ||
      (s.freeQueue.head?.all (rightCipher s.cfg ptr) &&
        (!(groupCipher s.cfg ptr).hasPn || (ownPn ptr != 0 && !farBehind (ownPn ptr) (storedPn s (ownKeyId ptr)))))
  | .config cfg => cfg.mode == .sta
  | _ => true

theorem ccmph2Pn_lt (ch : Nat) : ccmph2Pn ch < 2^48 := by
  unfold ccmph2Pn
  refine or_lt_two_pow ?_ ?_
  · exact Nat.lt_of_le_of_lt Nat.and_le_right (by decide)
  · rw [shiftRight_eq_div_pow]
    have masked : ch &&& 0xFFFFFFFF00000000 ≤ 0xFFFFFFFF00000000 := and_le_right
    omega

theorem validPnChk_spec (valid : validPnChk new old) (near : farBehind new old = false) : old = 0 ∨ old < new := by
  unfold validPnChk at valid
  simp only [or_eq_true,beq_iff_eq] at valid
  rcases valid with zero | ahead
  · exact .inl zero
  · refine .inr (Nat.lt_of_not_le fun back => ?_)
    have close : ¬new + 2^47 ≤ old := by simpa [farBehind] using near
    have distance : (old + 2^64 - new) % 2^64 = old - new := by omega
    rw [distance,testBit_lt_two_pow (by omega)] at ahead
    cases ahead

structure Quiet (s s' : Rx) : Prop where
  cfg : s'.cfg = s.cfg
  ivSeq : s'.ivSeq = s.ivSeq
  pns : ∀ keyId, acceptedPns keyId s'.log = acceptedPns keyId s.log

theorem Quiet.refl (s : Rx) : Quiet s s := ⟨rfl,rfl,fun _ => rfl⟩

theorem Quiet.trans (first : Quiet s t) (second : Quiet t u) : Quiet s u :=
  ⟨second.cfg.trans first.cfg,second.ivSeq.trans first.ivSeq,fun keyId => (second.pns keyId).trans (first.pns keyId)⟩

theorem acceptedPns_note (keyId : Nat) (s : Rx) (n : Note) :
    acceptedPns keyId (s.note n).log = countedPn keyId (acceptedPns keyId s.log) n := by
  unfold acceptedPns Rx.note
  rw [foldl_append]
  rfl

theorem countedPn_buffers (n : Note) (here : ofBuffers n) (pns : List Nat) : countedPn keyId pns n = pns := by
  cases n <;> first | rfl | cases here

theorem Shuffled.quiet (shuffled : Shuffled s s') : Quiet s s' := by
  refine ⟨shuffled.cfg,shuffled.ivSeq,?_⟩
  intro keyId
  obtain ⟨notes,log,buffers⟩ := shuffled.log
  unfold acceptedPns
  rw [log,foldl_append]
  exact foldl_buffers countedPn_buffers buffers _

theorem Quiet.note (quiet : ∀ keyId pns, countedPn keyId pns n = pns) : Quiet s (s.note n) :=
  ⟨rfl,rfl,fun keyId => by rw [acceptedPns_note,quiet]⟩

theorem Quiet.free : Quiet s (rtwFreeRecvframe s f) := Shuffled.free.quiet
theorem Quiet.setStation : Quiet s (s.setStation key sta) := Shuffled.setStation.quiet
theorem Quiet.defrag (defrag : Defrag s f s' state prframe) : Quiet s s' := (Shuffled.defrag defrag).quiet

theorem Protected.quiet (checked : Protected s pkt f s' g ret) : Quiet s s' := by
  rcases checked.ways with rfl | ⟨_,rfl⟩
  · exact .refl _
  · exact Quiet.trans (t := {s with bipRxpn:=mmeIpn s.cfg f}) ⟨rfl,rfl,fun _ => rfl⟩ (.note fun _ _ => rfl)

theorem Quiet.delivered : Quiet s (delivered s f ethTypes) := by
  rw [← note_each_msdu]
  induction ethTypes generalizing s with
  | nil => exact .refl s
  | cons ethType rest ih => exact Quiet.trans (Quiet.note fun _ _ => rfl) ih

theorem Taken.quiet (taken : Taken s pkt s' f state) : Quiet s s' := taken.shuffled.quiet

structure ReplayInv (s : Rx) : Prop where
  station : s.cfg.mode = .sta
  increasing : ∀ keyId, (acceptedPns keyId s.log).Pairwise (· < ·)
  below : ∀ keyId, ∀ pn ∈ acceptedPns keyId s.log, 0 < pn ∧ pn ≤ storedPn s keyId

theorem ReplayInv.quiet (inv : ReplayInv s) (quiet : Quiet s s') : ReplayInv s' := by
  have stored (keyId : Nat) : storedPn s' keyId = storedPn s keyId := by
    unfold storedPn
    rw [quiet.ivSeq]
  refine ⟨quiet.cfg ▸ inv.station,?_,?_⟩
  · intro keyId
    rw [quiet.pns]
    exact inv.increasing keyId
  · intro keyId pn member
    rw [quiet.pns] at member
    rw [stored]
    exact inv.below keyId pn member

theorem ReplayInv.above (inv : ReplayInv s) (valid : validPnChk new (storedPn s keyId))
    (near : farBehind new (storedPn s keyId) = false) : ∀ pn ∈ acceptedPns keyId s.log, pn < new := by
  intro pn member
  obtain ⟨positive,bound⟩ := inv.below keyId pn member
  rcases validPnChk_spec valid near with zero | ahead
  · omega
  · omega

def storePn (s : Rx) (keyId pn : Nat) : Rx := {s with ivSeq:=update s.ivSeq keyId pn}

theorem storedPn_self (s : Rx) (keyId : Nat) (small : new < 2^48) : storedPn (storePn s keyId new) keyId = new := by
  simp only [storedPn,storePn,update_self]
  exact mod_eq_of_lt small

theorem storedPn_other (s : Rx) (new : Nat) (other : key ≠ keyId) : storedPn (storePn s keyId new) key = storedPn s key := by
  simp only [storedPn,storePn,update_of_ne other]

section
variable (inv : ReplayInv s) (above : ∀ pn ∈ acceptedPns keyId s.log, pn < new)
include inv above

theorem ReplayInv.advance (small : new < 2^48) :
    ReplayInv (storePn s keyId new) := by
  refine ⟨inv.station,inv.increasing,?_⟩
  intro other pn member
  obtain ⟨positive,bound⟩ := inv.below other pn member
  refine ⟨positive,?_⟩
  by_cases same : other = keyId
  · subst same
    rw [storedPn_self s other small]
    exact Nat.le_of_lt (above pn member)
  · rw [storedPn_other s new same]
    exact bound

theorem ReplayInv.accept (positive : 0 < new)
    (small : new < 2^48) : ReplayInv ((storePn s keyId new).note (.accepted keyId new)) := by
  have before := inv.advance above small
  have stored := storedPn_self s keyId small
  refine ⟨inv.station,?_,?_⟩
  · intro other
    rw [acceptedPns_note]
    simp only [countedPn]
    split
    · rename_i same
      subst same
      refine pairwise_append.mpr ⟨before.increasing _,by simp,?_⟩
      intro a earlier b last
      rw [mem_singleton.mp last]
      exact above a earlier
    · exact before.increasing other
  · intro other pn member
    rw [acceptedPns_note] at member
    simp only [countedPn] at member
    split at member
    · rename_i same
      subst same
      rcases mem_append.mp member with earlier | last
      · exact before.below _ pn earlier
      · rw [mem_singleton.mp last]
        exact ⟨positive,Nat.le_of_eq stored.symm⟩
    · exact before.below other pn member
end

theorem ownCipher_group (cfg : Config) (sta : Station) (ptr : Bytes) (group : isMcast (getAddr1 ptr)) :
    ownCipher cfg sta ptr = groupCipher cfg ptr := by
  unfold ownCipher groupCipher getEncryAlgo
  rw [group]
  cases cfg.authAlg <;> rfl

theorem recvBcastPnDecache_spec (fresh : recvBcastPnDecache cfg ivSeq a ptr = some ivSeq') (station : cfg.mode = .sta)
    (own : a.hdrlen = ownHdrlen ptr) :
    (a.encrypt = .aes ∧ validPnChk (ownPn ptr) (ivSeq (ownKeyId ptr) % 2^48) ∧
      ivSeq' = update ivSeq (ownKeyId ptr) (ownPn ptr)) ∨ (a.encrypt ≠ .aes ∧ ivSeq' = ivSeq) := by
  unfold recvBcastPnDecache at fresh
  simp only [own] at fresh
  split at fresh
  · rename_i checked
    split at fresh
    · rename_i valid
      cases fresh
      refine .inl ⟨checked.1,valid,?_⟩
      funext k
      simp [update_apply,ownKeyId,ownPn]
    · cases fresh
  · rename_i unchecked
    cases fresh
    exact .inr ⟨fun aes => unchecked ⟨aes,station⟩,rfl⟩

theorem freshGroupPn_data (allowed : freshGroupPn s (.rx pkt)) (type : getFrameType pkt.mpdu = .data)
    (group : isMcast (getAddr1 pkt.mpdu)) (queue : s.freeQueue = f :: rest) :
    (f.attrib.encrypt = .aes ↔ (groupCipher s.cfg pkt.mpdu).hasPn) ∧
      ((groupCipher s.cfg pkt.mpdu).hasPn →
        0 < ownPn pkt.mpdu ∧ farBehind (ownPn pkt.mpdu) (storedPn s (ownKeyId pkt.mpdu)) = false) := by
  simp only [freshGroupPn,type,bne_self_eq_false,group,Bool.not_true,Bool.false_or,queue,head?_cons,Option.all_some,
    and_eq_true] at allowed
  obtain ⟨right,numbers⟩ := allowed
  refine ⟨?_,?_⟩
  · unfold rightCipher at right
    cases aes : (f.attrib.encrypt == .aes) <;> simp_all
  · intro counted
    rw [counted] at numbers
    simp only [Bool.not_true,Bool.false_or,Bool.and_eq_true,bne_iff_ne,Bool.not_eq_true'] at numbers
    exact ⟨Nat.pos_of_ne_zero numbers.1,numbers.2⟩

theorem pnDecache_replay (fresh : pnDecache t key sta g = some t') (inv : ReplayInv s)
    (allowed : freshGroupPn s (.rx pkt)) (queue : s.freeQueue = f :: rest) (type : getFrameType pkt.mpdu = .data)
    (own : g.attrib.hdrlen = ownHdrlen pkt.mpdu) (ra : g.attrib.ra = getAddr1 pkt.mpdu)
    (left : g.attrib.encrypt = f.attrib.encrypt) (bytes : g.rxData = pkt.mpdu) (quiet : Quiet s t) :
    ReplayInv t' ∧ t'.cfg = s.cfg ∧ (isMcast (getAddr1 pkt.mpdu) → (groupCipher s.cfg pkt.mpdu).hasPn →
        ReplayInv (t'.note (.accepted (ownKeyId pkt.mpdu) (ownPn pkt.mpdu)))) := by
  have inv' := inv.quiet quiet
  unfold pnDecache at fresh
  rw [ra,bytes] at fresh
  cases group : isMcast (getAddr1 pkt.mpdu) with
  | false =>
    simp only [group,false_eq_true,if_false,Option.map_eq_some_iff] at fresh
    obtain ⟨sta',_,rfl⟩ := fresh
    exact ⟨inv'.quiet .setStation,quiet.cfg,by simp⟩
  | true =>
    simp only [group,if_true,Option.map_eq_some_iff] at fresh
    obtain ⟨ivSeq,checked,rfl⟩ := fresh
    obtain ⟨right,numbers⟩ := freshGroupPn_data allowed type group queue
    have set : Quiet t (t.setStation key sta) := .setStation
    have stored : storedPn t (ownKeyId pkt.mpdu) = storedPn s (ownKeyId pkt.mpdu) := by
      unfold storedPn
      rw [quiet.ivSeq]
    rcases recvBcastPnDecache_spec checked inv'.station own with ⟨aes,valid,rfl⟩ | ⟨notAes,rfl⟩
    · obtain ⟨positive,near⟩ := numbers (right.mp (left ▸ aes))
      rw [← stored] at near
      have above := inv'.above valid near
      have small := ccmph2Pn_lt (le64 pkt.mpdu (ownHdrlen pkt.mpdu))
      exact ⟨(inv'.quiet set).advance above small,quiet.cfg,fun _ _ => (inv'.quiet set).accept above positive small⟩
    · refine ⟨inv'.quiet .setStation,quiet.cfg,?_⟩
      intro _ counted
      exact absurd (left.trans (right.mpr counted)) notAes

theorem noteAccepted_replay {pkt : RxPacket} (own : OwnAttrib t pkt.mpdu g.attrib) (bytes : g.mpdu = pkt.mpdu) (inv : ReplayInv s)
    (counted : isMcast (getAddr1 pkt.mpdu) → (groupCipher t.cfg pkt.mpdu).hasPn →
      ReplayInv (s.note (.accepted (ownKeyId pkt.mpdu) (ownPn pkt.mpdu)))) : ReplayInv (noteAccepted s g) := by
  unfold noteAccepted acceptedNote
  simp only [own.ra,own.hdrlen,bytes]
  split
  · rename_i n noted
    split at noted
    · rename_i protected_
      simp only [and_eq_true] at protected_
      obtain ⟨⟨group,_⟩,hasPn⟩ := protected_
      obtain ⟨key,sta,_,cipher⟩ := own.encrypt
      rw [cipher,ownCipher_group _ _ _ group] at hasPn
      cases noted
      exact counted group hasPn
    · cases noted
  · exact inv

section
variable (inv : ReplayInv s) (allowed : freshGroupPn s (.rx pkt))
include inv allowed

theorem data_replay (queue : s.freeQueue = f :: rest)
    (type : getFrameType pkt.mpdu = .data) (quiet : Quiet s t)
    (data : DataFrame t (parsedData (filled s pkt {f with rxReq:=none})) t' g ret) : ReplayInv t' := by
  cases data with
  | refused => exact inv.quiet quiet
  | repeated => exact inv.quiet (quiet.trans .setStation)
  | plaintext _ own _ pn =>
    subst own
    exact (pnDecache_replay pn inv allowed queue type rfl rfl rfl rfl quiet).1
  | @accepted key sta a dst src bssid sta' t' g found own fresh pn isFrame =>
    subst own
    obtain ⟨kept,cfg,counted⟩ := pnDecache_replay pn inv allowed queue type rfl rfl rfl rfl quiet
    have attrib : OwnAttrib t pkt.mpdu g.attrib := by
      rw [isFrame,cfg,← quiet.cfg]
      exact setEncrypt_own (f := filled s pkt {f with rxReq:=none}) dst src bssid found (recvDecache_keeps fresh).2.1
    refine noteAccepted_replay attrib (by rw [isFrame]; rfl) kept ?_
    rw [quiet.cfg]
    exact counted

theorem Entered.replay (entered : Entered s pkt s1 f1)
    (validated : Validated s1 pkt f1 s2 f2 ret) : ReplayInv s2 := by
  obtain ⟨taken,_,_⟩ := entered
  have quiet := taken.quiet
  obtain ⟨f0,rest,queue,_,_,_,full⟩ := taken.spec
  cases full rfl
  cases validated with
  | refused => exact inv.quiet quiet
  | mgnt _ _ protection defrag =>
    exact inv.quiet (quiet.trans ((mgmtProtect_ways protection).quiet.trans (.defrag (chkDefrag_ways defrag))))
  | dispatched _ _ protection defrag =>
    have before := quiet.trans ((mgmtProtect_ways protection).quiet.trans (.defrag (chkDefrag_ways defrag)))
    exact inv.quiet (before.trans ((Quiet.note fun _ _ => rfl).trans Shuffled.dispatched.quiet))
  | data type result => exact data_replay inv allowed queue type quiet (dataFrame_ways result)

theorem Checked.replay (checked : Checked s pkt s2 f) :
    ReplayInv s2 := by
  obtain ⟨entered,validated,_⟩ := checked
  exact entered.replay inv allowed validated

theorem round_replay (round : Round s pkt s') : ReplayInv s' := by
  cases round with
  | noBuffer => exact inv
  | died taken => exact inv.quiet (taken.quiet.trans ⟨rfl,rfl,fun _ => rfl⟩)
  | refused taken => exact inv.quiet (taken.quiet.trans .free)
  | invalid entered validated => exact (entered.replay inv allowed validated).quiet .free
  | queued checked defrag => exact (checked.replay inv allowed).quiet (.defrag (chkDefrag_ways defrag))
  | @dropped s2 f s3 state prframe g checked defrag _ _ =>
    have after := (checked.replay inv allowed).quiet (.defrag (chkDefrag_ways defrag))
    cases prframe with
    | none => exact after
    | some p => exact after.quiet .free
  | delivered checked defrag =>
    exact (checked.replay inv allowed).quiet ((Quiet.defrag (chkDefrag_ways defrag)).trans (Quiet.delivered.trans .free))
  | twice checked defrag =>
    exact (checked.replay inv allowed).quiet
      ((Quiet.defrag (chkDefrag_ways defrag)).trans (Quiet.delivered.trans (Quiet.free.trans .free)))
end

theorem groupKey_replay (inv : ReplayInv s) : ReplayInv (setGroupKey s keyId alg seq) := by
  have log (other : Nat) : acceptedPns other (setGroupKey s keyId alg seq).log = if keyId = other then [] else acceptedPns other s.log :=
    acceptedPns_note other s (.groupKey keyId)
  refine ⟨inv.station,?_,?_⟩
  · intro other
    rw [log]
    split
    · exact .nil
    · exact inv.increasing other
  · intro other pn member
    rw [log] at member
    split at member
    · cases member
    · rename_i different
      have kept : storedPn (setGroupKey s keyId alg seq) other = storedPn s other := by
        unfold storedPn setGroupKey
        cases alg <;> simp only [Rx.note] <;> first | rfl | (split <;> simp [update_of_ne (Ne.symm different)])
      rw [kept]
      exact inv.below other pn member

theorem rxStep_replay (inv : ReplayInv s) (allowed : freshGroupPn s event) : ReplayInv (rxStep s event) := by
  unfold rxStep
  split
  · exact inv
  · cases event with
    | rx pkt => exact round_replay inv allowed rtwCoreRxProcess_ways
    | rxStop => exact inv.quiet rxStop_shuffled.quiet
    | sta op => exact inv.quiet (Shuffled.staOp s op).quiet
    | config cfg => exact ⟨by simpa [freshGroupPn] using allowed,inv.increasing,inv.below⟩
    | groupKey keyId alg seq => exact groupKey_replay inv
    | bipKey keyId seq =>
      have noted := inv.quiet (Quiet.note (s := s) (n := .bipKey) fun _ _ => rfl)
      exact ⟨inv.station,noted.increasing,noted.below⟩

theorem knownTransmitter_left (same : a.ta = b.ta) :
    (knownTransmitter s a ptr unknown).2 = (knownTransmitter s b ptr unknown).2 := by
  unfold knownTransmitter
  rw [same]
  split
  · rfl
  · split <;> rfl

theorem knownTransmitter_attrib : (knownTransmitter s a ptr unknown).1 = a := by
  unfold knownTransmitter
  split
  · rfl
  · split <;> rfl

theorem rtwStaRxDataValidateHdr_left (s : Rx) (ptr : Bytes) (direction : a.toFrDs = b.toFrDs) (aggregate : a.amsdu = b.amsdu) :
    (rtwStaRxDataValidateHdr s a ptr).2 = (rtwStaRxDataValidateHdr s b ptr).2 ∧
      ((rtwStaRxDataValidateHdr s a ptr).2.1 = .success → ∃ dst src bssid,
        (rtwStaRxDataValidateHdr s a ptr).1 = addressed a ptr dst src bssid ∧
        (rtwStaRxDataValidateHdr s b ptr).1 = addressed b ptr dst src bssid) := by
  cases a
  cases b
  cases direction
  cases aggregate
  unfold rtwStaRxDataValidateHdr
  simp only
  split
  · split
    · exact ⟨rfl,by simp⟩
    · split
      · exact ⟨rfl,by simp⟩
      · exact ⟨rfl,fun _ => ⟨_,_,_,rfl,rfl⟩⟩
  · split
    · exact ⟨rfl,by simp⟩
    · split
      · split
        · exact ⟨rfl,by simp⟩
        · exact ⟨knownTransmitter_left rfl,fun _ => ⟨_,_,_,knownTransmitter_attrib,knownTransmitter_attrib⟩⟩
      · split
        · exact ⟨rfl,by simp⟩
        · exact ⟨knownTransmitter_left rfl,fun _ => ⟨_,_,_,knownTransmitter_attrib,knownTransmitter_attrib⟩⟩
      · exact ⟨rfl,by simp⟩

theorem setEncrypt_left (f g : RecvFrame) (s : Rx) (pkt : RxPacket) (cfg : Config) (sta : Station) (dst src bssid : Addr) :
    setEncrypt cfg sta (parseQc (addressed (dataAttrib (parsedData (filled s pkt f))) pkt.mpdu dst src bssid) pkt.mpdu) =
      setEncrypt cfg sta (parseQc (addressed (dataAttrib (parsedData (filled s pkt g))) pkt.mpdu dst src bssid) pkt.mpdu) := by
  obtain ⟨first,isFirst,attrib⟩ := setEncrypt_spec cfg sta
    (parseQc (addressed (dataAttrib (parsedData (filled s pkt f))) pkt.mpdu dst src bssid) pkt.mpdu)
  obtain ⟨second,isSecond,attrib'⟩ := setEncrypt_spec cfg sta
    (parseQc (addressed (dataAttrib (parsedData (filled s pkt g))) pkt.mpdu dst src bssid) pkt.mpdu)
  have same : first = second := isFirst.trans isSecond.symm
  rw [attrib,attrib',same]
  rfl

theorem plaintextAllowed_left (attrib : f.attrib = g.attrib) (bytes : f.rxData = g.rxData) :
    plaintextAllowed cfg sta f = plaintextAllowed cfg sta g := by
  unfold plaintextAllowed etherType
  rw [attrib,bytes]

theorem recvBcastPnDecache_left (same : a.encrypt = .aes ↔ b.encrypt = .aes) (hdrlen : a.hdrlen = b.hdrlen) :
    recvBcastPnDecache cfg ivSeq a ptr = recvBcastPnDecache cfg ivSeq b ptr := by
  unfold recvBcastPnDecache
  rw [hdrlen]
  simp only [same]

theorem pnDecache_left (group : isMcast f.attrib.ra) (ra : f.attrib.ra = g.attrib.ra)
    (same : f.attrib.encrypt = .aes ↔ g.attrib.encrypt = .aes) (hdrlen : f.attrib.hdrlen = g.attrib.hdrlen)
    (bytes : f.rxData = g.rxData) : pnDecache s key sta f = pnDecache s key sta g := by
  unfold pnDecache
  rw [← ra,group,if_pos rfl,if_pos rfl,recvBcastPnDecache_left same hdrlen,bytes]

def dataVerdict (s : Rx) (key : Addr) (sta : Station) (f : RecvFrame) : Ret :=
  if sta.conf.amsduDisable && f.attrib.amsdu then .fail
  else
    match recvDecache sta (parseQc f.attrib f.rxData) with
    | none => .fail
    | some sta =>
      match pnDecache s key sta {f with attrib:=parseQc f.attrib f.rxData} with
      | none => .fail
      | some s =>
        if plaintextAllowed s.cfg sta {f with attrib:=setEncrypt s.cfg sta (parseQc f.attrib f.rxData)} then .success else .fail

theorem validateRecvDataFrame_verdict (header : rxDataValidateHdr s (dataAttrib f) f.rxData = (a,.success,some (key,sta))) :
    (validateRecvDataFrame s f).2.2 = dataVerdict s key sta {f with attrib:=a} := by
  unfold validateRecvDataFrame dataVerdict
  simp only [header]
  split
  · rfl
  · cases recvDecache sta (parseQc a f.rxData) with
    | none => rfl
    | some sta' =>
      simp only
      cases pnDecache s key sta' {f with attrib:=parseQc a f.rxData} with
      | none => rfl
      | some t =>
        simp only
        split <;> rfl

theorem dataVerdict_left (bytes : f.rxData = g.rxData) (aggregate : f.attrib.amsdu = g.attrib.amsdu)
    (fresh : ∀ sta, recvDecache sta (parseQc f.attrib f.rxData) = recvDecache sta (parseQc g.attrib g.rxData))
    (numbers : ∀ sta, pnDecache s key sta {f with attrib:=parseQc f.attrib f.rxData} =
      pnDecache s key sta {g with attrib:=parseQc g.attrib g.rxData})
    (cipher : ∀ cfg sta, setEncrypt cfg sta (parseQc f.attrib f.rxData) = setEncrypt cfg sta (parseQc g.attrib g.rxData)) :
    dataVerdict s key sta f = dataVerdict s key sta g := by
  unfold dataVerdict
  rw [aggregate,fresh]
  split
  · rfl
  · split
    · rfl
    · rename_i sta' _
      rw [numbers]
      split
      · rfl
      · rename_i t _
        have allowed : plaintextAllowed t.cfg sta' {f with attrib:=setEncrypt t.cfg sta' (parseQc f.attrib f.rxData)} =
            plaintextAllowed t.cfg sta' {g with attrib:=setEncrypt t.cfg sta' (parseQc g.attrib g.rxData)} :=
          plaintextAllowed_left (cipher t.cfg sta') bytes
        rw [allowed]

theorem validateRecvDataFrame_left (station : s.cfg.mode = .sta) (group : isMcast (getAddr1 pkt.mpdu))
    (same : f.attrib.encrypt = .aes ↔ g.attrib.encrypt = .aes) :
    (validateRecvDataFrame s (parsedData (filled s pkt f))).2.2 = (validateRecvDataFrame s (parsedData (filled s pkt g))).2.2 := by
  have header := rtwStaRxDataValidateHdr_left (a := dataAttrib (parsedData (filled s pkt f)))
    (b := dataAttrib (parsedData (filled s pkt g))) s pkt.mpdu rfl rfl
  obtain ⟨verdict,attribs⟩ := header
  rcases first : rtwStaRxDataValidateHdr s (dataAttrib (parsedData (filled s pkt f))) pkt.mpdu with ⟨a,ret,found⟩
  rcases second : rtwStaRxDataValidateHdr s (dataAttrib (parsedData (filled s pkt g))) pkt.mpdu with ⟨b,ret',found'⟩
  rw [first,second] at verdict attribs
  cases verdict
  have one : rxDataValidateHdr s (dataAttrib (parsedData (filled s pkt f))) (parsedData (filled s pkt f)).rxData = (a,ret,found) := by
    unfold rxDataValidateHdr
    rw [station]
    exact first
  have other : rxDataValidateHdr s (dataAttrib (parsedData (filled s pkt g))) (parsedData (filled s pkt g)).rxData = (b,ret,found) := by
    unfold rxDataValidateHdr
    rw [station]
    exact second
  cases ret with
  | fail => simp only [validateRecvDataFrame,one,other]
  | handled => simp only [validateRecvDataFrame,one,other]
  | success =>
    rcases found with _ | ⟨key,sta⟩
    · simp only [validateRecvDataFrame,one,other]
    · rw [validateRecvDataFrame_verdict one,validateRecvDataFrame_verdict other]
      obtain ⟨dst,src,bssid,rfl,rfl⟩ := attribs rfl
      apply dataVerdict_left
      · rfl
      · rfl
      · intro sta
        rfl
      · intro sta
        exact pnDecache_left group rfl same rfl rfl
      · intro cfg sta
        exact setEncrypt_left f g s pkt cfg sta dst src bssid

-- Packet numbers strictly increase under a key, and nothing but the encryption a
-- buffer was left with makes a difference.
theorem group_replay_protected {cfg : Config} (station : cfg.mode = .sta)
    (path : Machine.Reached rxStep (fun s event => freshGroupPn s event = true) (rtwInitRecvPriv cfg) s) :
    (∀ keyId, (acceptedPns keyId s.log).Pairwise (· < ·)) ∧
      ∀ pkt f g, isMcast (getAddr1 pkt.mpdu) = true → rightCipher s.cfg pkt.mpdu f = true → rightCipher s.cfg pkt.mpdu g = true →
        (validateRecvDataFrame s (parsedData (filled s pkt f))).2.2 = (validateRecvDataFrame s (parsedData (filled s pkt g))).2.2 := by
  have start : ReplayInv (rtwInitRecvPriv cfg) := ⟨station,fun _ => .nil,fun _ _ member => nomatch member⟩
  have inv := path.invariant ReplayInv start fun _ _ inv allowed => rxStep_replay inv allowed
  refine ⟨inv.increasing,?_⟩
  intro pkt f g group first second
  refine validateRecvDataFrame_left inv.station group ?_
  simp only [rightCipher,beq_iff_eq] at first second
  have same : (f.attrib.encrypt == .aes) = (g.attrib.encrypt == .aes) := first.trans second.symm
  rw [Bool.eq_iff_iff] at same
  simpa using same

def ccmpCfg : Config := {openCfg with authAlg:=.ieee8021x,privacyAlg:=.aes,grpPrivacy:=.aes}

def broadcastOf (req seq : Nat) (protection : UInt8) (body : List UInt8) : RxPacket :=
  {plainPacket req ([0x08,protection,0,0] ++ [0xFF,0xFF,0xFF,0xFF,0xFF,0xFF] ++ [0x20,0,0,0,0,0] ++ [0x30,0,0,0,0,0] ++
    [(seq*16).toUInt8,(seq/16).toUInt8] ++ body) with bmc := true}

def ccmpBroadcast (req seq : Nat) (pn : UInt8) : RxPacket :=
  broadcastOf req seq 0x42 ([pn,0,0,0x60,0,0,0,0] ++ [0xAA,0xAA,3,0,0,0,8,0] ++ [1,2,3,4,5,6,7,8])

-- What giving the first buffers back unused leaves: they are behind the others.
def unused (f : RecvFrame) : RecvFrame := {f with rxReq:=none,len:=0,hasPkt:=false}

def turned (s : Rx) (front rest : List RecvFrame) : Rx :=
  {s with
    freeQueue := rest ++ front.map unused
    stations := fun key => (s.stations key).map fun sta =>
      {sta with defragQ:=sta.defragQ.filter fun g => front.all fun f => g.id != f.id}
    log := s.log ++ front.flatMap fun f => [.alloc f.id,.free f.id none]}

theorem rxStop_turns (idle : s.inProcess = none) (free : s.freeQueue = f :: rest) (once : ∀ g ∈ rest, g.id ≠ f.id)
    (counted : 0 < s.freeCnt) : rxStep s .rxStop = turned s [f] rest := by
  have kept : rest.filter (fun g => g.id != f.id) = rest := filter_eq_self.mpr fun g member => by simp [once g member]
  unfold rxStep
  rw [idle]
  simp only [rxStop,rtwAllocRecvframe,free,rtwFreeRecvframe,Rx.unlink,Rx.note,turned,kept,Nat.sub_add_cancel counted]
  simp [unused]

theorem turned_cons (s : Rx) (f : RecvFrame) (front rest : List RecvFrame) :
    turned (turned s [f] (front ++ rest)) front (rest ++ [unused f]) = turned s (f :: front) rest := by
  simp [turned,comp_def,filter_filter,Bool.and_comm]

theorem rxStops_turn (front : List RecvFrame) (some : front ≠ []) (idle : s.inProcess = none) (free : s.freeQueue = front ++ rest)
    (once : (s.freeQueue.map RecvFrame.id).Nodup) (counted : 0 < s.freeCnt) :
    Machine.run rxStep s (replicate front.length .rxStop) = turned s front rest := by
  induction front generalizing s rest with
  | nil => exact absurd rfl some
  | cons f front ih =>
    rw [free,cons_append,map_cons] at once
    have apart : ∀ g ∈ front ++ rest, g.id ≠ f.id :=
      fun g member same => (nodup_cons.mp once).1 (same ▸ mem_map_of_mem member)
    have first := rxStop_turns idle (free.trans (cons_append ..)) apart counted
    have still : ((turned s [f] (front ++ rest)).freeQueue.map RecvFrame.id).Nodup := by
      have moved := (perm_append_singleton f.id ((front ++ rest).map RecvFrame.id)).symm.nodup_iff.mp once
      simpa [turned,unused] using moved
    unfold Machine.run at ih ⊢
    rw [length_cons,replicate_succ,foldl_cons,first]
    cases front with
    | nil => rfl
    | cons g front =>
      have others := ih (s := turned s [f] (g :: front ++ rest)) (by simp) idle (append_assoc ..) still counted
      rw [others]
      exact turned_cons s f (g :: front) rest

theorem rxStops_fresh {origin : Rx} (path : Machine.Reached rxStep (fun s event => freshGroupPn s event = true) origin s) (n : Nat) :
    Machine.Reached rxStep (fun s event => freshGroupPn s event = true) origin (Machine.run rxStep s (replicate n .rxStop)) := by
  induction n generalizing s with
  | zero => exact path
  | succ n ih => exact ih (.step path rfl)

def ccmpConf : StationConf := {openConf with privacy:=.aes}

def ccmpUnicast (req : Nat) : Event :=
  .rx (plainPacket req ([0x08,0x42,0,0] ++ [0x10,0,0,0,0,0] ++ [0x20,0,0,0,0,0] ++ [0x30,0,0,0,0,0] ++ [(req*16).toUInt8,0] ++
    [1,0,0,0x20,0,0,0,0] ++ [0xAA,0xAA,3,0,0,0,8,0] ++ [1,2,3,4,5,6,7,8]))

-- Two frames leave AES in their buffers, which come to the front again and take
-- two group-addressed frames.
def ccmpUnicasts : Rx := Machine.run rxStep (rtwInitRecvPriv ccmpCfg)
  [.sta (.alloc 0x20 ccmpConf),.groupKey 1 .aes 0,ccmpUnicast 1,.sta (.conf 0x20 ccmpConf),ccmpUnicast 2]

def ccmpTurned : Rx := turned ccmpUnicasts (ccmpUnicasts.freeQueue.take 254) (ccmpUnicasts.freeQueue.drop 254)
def ccmpGroup : List Event := [.rx (ccmpBroadcast 3 1 7),.sta (.conf 0x20 ccmpConf),.rx (ccmpBroadcast 4 2 8)]

theorem ccmpTurned_reached :
    Machine.Reached rxStep (fun s event => freshGroupPn s event = true) (rtwInitRecvPriv ccmpCfg) ccmpTurned := by
  have path : Machine.Reached rxStep (fun s event => freshGroupPn s event = true) (rtwInitRecvPriv ccmpCfg) ccmpUnicasts :=
    Machine.Reached.start.run (by decide +kernel)
  have ids : ccmpUnicasts.freeQueue.map RecvFrame.id = (range 256).drop 2 ++ (range 256).take 2 := by decide +kernel
  have once : ((range 256).drop 2 ++ (range 256).take 2).Nodup := by
    rw [perm_append_comm.nodup_iff,take_append_drop]
    exact nodup_range
  have turns := rxStops_turn (ccmpUnicasts.freeQueue.take 254) (ne_nil_of_length_pos (by decide +kernel))
    (Option.isNone_iff_eq_none.mp (by decide +kernel)) (take_append_drop 254 _).symm (ids ▸ once) (by decide +kernel)
  rw [ccmpTurned,← turns]
  exact rxStops_fresh path _

theorem group_replay_protected_run :
    acceptedPns 1 (Machine.run rxStep ccmpTurned ccmpGroup).log = [7,8] ∧
      (∀ keyId, (acceptedPns keyId (Machine.run rxStep ccmpTurned ccmpGroup).log).Pairwise (· < ·)) ∧
      (validateRecvDataFrame ccmpTurned (parsedData (filled ccmpTurned (ccmpBroadcast 3 1 7)
        {blankFrame 0 with attrib:={blankAttrib with encrypt:=.aes}}))).2.2 =
      (validateRecvDataFrame ccmpTurned (parsedData (filled ccmpTurned (ccmpBroadcast 3 1 7)
        {blankFrame 1 with attrib:={blankAttrib with encrypt:=.aes,amsdu:=true}}))).2.2 :=
  have fresh : Machine.Admitted rxStep (fun s event => freshGroupPn s event = true) ccmpTurned ccmpGroup := by decide +kernel
  ⟨by decide +kernel,(group_replay_protected rfl (ccmpTurned_reached.run fresh)).1,
    (group_replay_protected rfl ccmpTurned_reached).2 _ _ _ (by decide +kernel) (by decide +kernel) (by decide +kernel)⟩

def replayedBroadcasts : List Event :=
  [.sta (.alloc 0x20 openConf),.groupKey 1 .aes 0,.rx (ccmpBroadcast 1 1 7),.sta (.conf 0x20 openConf),
    .rx (ccmpBroadcast 2 2 7)]

-- Neither buffer was left with AES, so neither packet number is looked at.
theorem group_replay_accepted : ¬∀ cfg s, cfg.mode = .sta →
    Machine.Reached rxStep (fun _ event => ∀ cfg', event = .config cfg' → cfg'.mode = .sta) (rtwInitRecvPriv cfg) s →
    ∀ keyId, (acceptedPns keyId s.log).Pairwise (· < ·) := by
  intro all
  have path : Machine.Reached rxStep (fun _ event => ∀ cfg', event = .config cfg' → cfg'.mode = .sta) (rtwInitRecvPriv ccmpCfg)
      (Machine.run rxStep (rtwInitRecvPriv ccmpCfg) replayedBroadcasts) :=
    Machine.Reached.start.run (by simp [Machine.Admitted,replayedBroadcasts])
  have increasing := all ccmpCfg _ rfl path 1
  have twice : acceptedPns 1 (Machine.run rxStep (rtwInitRecvPriv ccmpCfg) replayedBroadcasts).log = [7,7] := by decide +kernel
  rw [twice] at increasing
  exact absurd increasing (by decide)
end Rtl8852au.Recv
