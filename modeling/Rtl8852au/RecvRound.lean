import Rtl8852au.RecvProcess

namespace Rtl8852au.Recv
open Bool

structure SameBuffer (f g : RecvFrame) : Prop where
  id : g.id = f.id
  rxReq : g.rxReq = f.rxReq

theorem SameBuffer.refl (f : RecvFrame) : SameBuffer f f := ⟨rfl,rfl⟩

theorem SameBuffer.trans (first : SameBuffer f g) (second : SameBuffer g h) : SameBuffer f h :=
  ⟨second.id.trans first.id,second.rxReq.trans first.rxReq⟩

structure SameFrame (f g : RecvFrame) : Prop extends SameBuffer f g where
  hasPkt : g.hasPkt = f.hasPkt
  mpdu : g.mpdu = f.mpdu

theorem SameFrame.refl (f : RecvFrame) : SameFrame f f := ⟨.refl f,rfl,rfl⟩

theorem SameFrame.trans (first : SameFrame f g) (second : SameFrame g h) : SameFrame f h :=
  ⟨first.toSameBuffer.trans second.toSameBuffer,second.hasPkt.trans first.hasPkt,second.mpdu.trans first.mpdu⟩

theorem decryptor_spec (done : decryptor pkt f = some g) :
    ∃ data, (∀ i, i < f.attrib.hdrlen + f.attrib.ivLen → data i = f.rxData i) ∧
      g = {f with rxData:=data,attrib:={f.attrib with bdecrypted:=true}} := by
  have replaced (plain : Bytes) : ∀ i, i < f.attrib.hdrlen + f.attrib.ivLen → (decrypted f plain).rxData i = f.rxData i :=
    fun i below => if_pos below
  unfold decryptor at done
  simp only at done
  split at done
  · split at done <;> first
      | (simp only [Option.map_eq_some_iff] at done
         obtain ⟨plain,_,rfl⟩ := done
         exact ⟨_,replaced plain,rfl⟩)
      | (simp only [Option.some.injEq] at done
         subst done
         first | exact ⟨_,replaced _,rfl⟩ | exact ⟨f.rxData,fun _ _ => rfl,rfl⟩)
  · simp only [Option.some.injEq] at done
    subst done
    exact ⟨f.rxData,fun _ _ => rfl,rfl⟩

theorem decryptor_same (done : decryptor pkt f = some g) : SameFrame f g := by
  obtain ⟨_,_,rfl⟩ := decryptor_spec done
  exact ⟨⟨rfl,rfl⟩,rfl,rfl⟩

theorem decryptMgmt_same : SameFrame f (decryptMgmt pkt sta f).1 := by
  unfold decryptMgmt
  simp only
  split
  · exact ⟨⟨rfl,rfl⟩,rfl,rfl⟩
  · split
    · exact ⟨⟨rfl,rfl⟩,rfl,rfl⟩
    · rename_i done
      obtain ⟨_,_,rfl⟩ := decryptor_spec done
      exact ⟨⟨rfl,rfl⟩,rfl,rfl⟩

inductive Protected (s : Rx) (pkt : RxPacket) (f : RecvFrame) : Rx → RecvFrame → Ret → Prop where
  | plain : Protected s pkt f s f ret
  | decrypted : rtwGetStainfo s (getAddr2 f.rxData) = some (key,sta) → Protected s pkt f s (decryptMgmt pkt sta f).1 ret
  | verified : rtwBipVerify s pkt f = (s',.success) → Protected s pkt f s' f .success

theorem rtwBipVerify_ways (verified : rtwBipVerify s pkt f = (s',ret)) :
    (s' = s ∧ ret ≠ .success) ∨
      (24 + bipMicLen s.cfg ≤ f.len ∧ f.rxData (mmeAt s.cfg f) = mmeIe ∧
        le16 f.rxData (mmeAt s.cfg f + 2) = s.cfg.bipKeyid % 2^16 ∧ s.bipRxpn < mmeIpn s.cfg f ∧
        (f.attrib.bdecrypted ∨ pkt.bipMic) ∧
        s' = {s with bipRxpn:=mmeIpn s.cfg f}.note (.ipn (mmeIpn s.cfg f)) ∧ ret = .success) := by
  unfold rtwBipVerify at verified
  simp only at verified
  split at verified
  · cases verified
    exact .inl ⟨rfl,by decide⟩
  · rename_i long
    split at verified
    · cases verified
      exact .inl ⟨rfl,by decide⟩
    · rename_i start
      split at verified
      · cases verified
        exact .inl ⟨rfl,by decide⟩
      · rename_i keyId
        split at verified
        · cases verified
          exact .inl ⟨rfl,by decide⟩
        · rename_i newer
          have facts : 24 + bipMicLen s.cfg ≤ f.len ∧ f.rxData (mmeAt s.cfg f) = mmeIe ∧
              le16 f.rxData (mmeAt s.cfg f + 2) = s.cfg.bipKeyid % 2^16 ∧ s.bipRxpn < mmeIpn s.cfg f :=
            ⟨by omega,by simpa using start,by simpa using keyId,by omega⟩
          obtain ⟨long,start,keyId,newer⟩ := facts
          split at verified
          · rename_i hardware
            cases verified
            exact .inr ⟨long,start,keyId,newer,.inl hardware,rfl,rfl⟩
          · split at verified
            · cases verified
              exact .inl ⟨rfl,by decide⟩
            · split at verified
              · rename_i mic
                cases verified
                exact .inr ⟨long,start,keyId,newer,.inr mic,rfl,rfl⟩
              · cases verified
                exact .inl ⟨rfl,by decide⟩

theorem plainMgmt_ways (checked : plainMgmt s pkt sta f = (s',ret)) : Protected s pkt f s' f ret := by
  unfold plainMgmt at checked
  simp only at checked
  split at checked
  · split at checked
    · cases checked
      exact .plain
    · split at checked
      · rcases verified : rtwBipVerify s pkt f with ⟨t,result⟩
        rw [verified] at checked
        cases result with
        | success =>
          cases checked
          exact .verified verified
        | fail | handled =>
          rcases rtwBipVerify_ways verified with ⟨rfl,_⟩ | ⟨_,_,_,_,_,_,impossible⟩
          · cases checked
            exact .plain
          · cases impossible
      · cases checked
        exact .plain
  · split at checked
    · cases checked
      exact .plain
    · split at checked
      · cases checked
        exact .plain
      · cases checked
        exact .plain

theorem mgmtProtect_ways (checked : validateMgmtProtect s pkt f = (s',g,ret)) : Protected s pkt f s' g ret := by
  unfold validateMgmtProtect at checked
  split at checked
  · cases checked
    exact .plain
  · split at checked
    · cases checked
      exact .plain
    · rename_i found
      split at checked
      · cases checked
        exact .plain
      · split at checked
        · cases checked
          exact .decrypted found
        · cases checked
          exact plainMgmt_ways rfl

theorem noteAccepted_ways (s : Rx) (f : RecvFrame) :
    noteAccepted s f = s ∨ ∃ keyId pn, noteAccepted s f = s.note (.accepted keyId pn) := by
  unfold noteAccepted acceptedNote
  dsimp only
  split
  · rename_i n noted
    split at noted
    · cases noted
      exact .inr ⟨_,_,rfl⟩
    · cases noted
  · exact .inl rfl

section
variable (checked : Protected s pkt f s' g ret)
include checked

theorem Protected.ways : s' = s ∨
    s.bipRxpn < mmeIpn s.cfg f ∧ s' = {s with bipRxpn:=mmeIpn s.cfg f}.note (.ipn (mmeIpn s.cfg f)) := by
  cases checked with
  | plain => exact .inl rfl
  | decrypted => exact .inl rfl
  | verified verified =>
    rcases rtwBipVerify_ways verified with ⟨same,_⟩ | ⟨_,_,_,newer,_,same,_⟩
    · exact .inl same
    · exact .inr ⟨newer,same⟩

theorem Protected.same : SameFrame f g := by
  cases checked with
  | plain => exact .refl f
  | decrypted => exact decryptMgmt_same
  | verified => exact .refl f

theorem Protected.refused (failed : ret ≠ .success) : s' = s := by
  cases checked with
  | plain => rfl
  | decrypted => rfl
  | verified => exact absurd rfl failed
end

def addressed (a : Attrib) (ptr : Bytes) (dst src bssid : Addr) : Attrib :=
  {a with ra:=getAddr1 ptr,ta:=getAddr2 ptr,dst,src,bssid}

def HeaderOf (s : Rx) (a : Attrib) (ptr : Bytes) (a' : Attrib) (found : Option (Addr × Station)) : Prop :=
  (∃ dst src bssid, a' = addressed a ptr dst src bssid) ∧ ∃ pair, found = some pair ∧ rtwGetStainfo s (getAddr2 ptr) = some pair

theorem knownTransmitter_spec (known : knownTransmitter s (addressed a ptr dst src bssid) hdr unknown = (a',.success,found))
    (refusing : unknown ≠ .success) : HeaderOf s a ptr a' found := by
  unfold knownTransmitter at known
  split at known
  · cases known
    exact absurd rfl refusing
  · rename_i pair lookup
    split at known
    · cases known
    · cases known
      exact ⟨⟨_,_,_,rfl⟩,pair,rfl,lookup⟩

theorem rtwStaRxDataValidateHdr_spec (valid : rtwStaRxDataValidateHdr s a ptr = (a',.success,found)) :
    HeaderOf s a ptr a' found := by
  unfold rtwStaRxDataValidateHdr at valid
  simp only at valid
  split at valid
  · split at valid
    · cases valid
    · split at valid
      · cases valid
      · rename_i pair lookup
        cases valid
        exact ⟨⟨_,_,_,rfl⟩,pair,rfl,lookup⟩
  · split at valid
    · cases valid
    · split at valid
      · split at valid
        · cases valid
        · exact knownTransmitter_spec valid (by decide)
      · split at valid
        · cases valid
        · exact knownTransmitter_spec valid (by decide)
      · cases valid

theorem rtwApRxDataValidateHdr_spec (valid : rtwApRxDataValidateHdr s a ptr = (a',.success,found)) :
    HeaderOf s a ptr a' found := by
  unfold rtwApRxDataValidateHdr at valid
  simp only at valid
  split at valid
  · cases valid
  · split at valid
    · split at valid
      · cases valid
      · exact knownTransmitter_spec valid (by decide)
    · exact knownTransmitter_spec valid (by decide)
    · cases valid

theorem adhocRxDataValidateHdr_spec (valid : adhocRxDataValidateHdr s a ptr = (a',.success,found)) :
    HeaderOf s a ptr a' found := by
  unfold adhocRxDataValidateHdr at valid
  simp only at valid
  split at valid
  · unfold sta2staDataFrame at valid
    split at valid
    · cases valid
    · split at valid
      · cases valid
      · split at valid
        · cases valid
        · split at valid
          · cases valid
          · rename_i pair lookup
            cases valid
            exact ⟨⟨_,_,_,rfl⟩,pair,rfl,lookup⟩
  · cases valid
  · cases valid
  · cases valid

theorem rxDataValidateHdr_spec (valid : rxDataValidateHdr s a ptr = (a',.success,found)) : HeaderOf s a ptr a' found := by
  unfold rxDataValidateHdr at valid
  split at valid
  · exact rtwApRxDataValidateHdr_spec valid
  · exact rtwStaRxDataValidateHdr_spec valid
  · exact adhocRxDataValidateHdr_spec valid

inductive DataFrame (s : Rx) (f : RecvFrame) : Rx → RecvFrame → Ret → Prop where
  | refused : SameFrame f g → ret ≠ .success → DataFrame s f s g ret
  | repeated : rtwGetStainfo s (getAddr2 f.rxData) = some (key,sta) → a = addressed (dataAttrib f) f.rxData dst src bssid →
      recvDecache sta (parseQc a f.rxData) = some sta' → DataFrame s f (s.setStation key sta') {f with attrib:=parseQc a f.rxData} .fail
  | plaintext : rtwGetStainfo s (getAddr2 f.rxData) = some (key,sta) → a = addressed (dataAttrib f) f.rxData dst src bssid →
      recvDecache sta (parseQc a f.rxData) = some sta' →
      pnDecache s key sta' {f with attrib:=parseQc a f.rxData} = some s' →
      DataFrame s f s' {f with attrib:=setEncrypt s'.cfg sta' (parseQc a f.rxData)} .fail
  | accepted : rtwGetStainfo s (getAddr2 f.rxData) = some (key,sta) → a = addressed (dataAttrib f) f.rxData dst src bssid →
      recvDecache sta (parseQc a f.rxData) = some sta' →
      pnDecache s key sta' {f with attrib:=parseQc a f.rxData} = some s' →
      g = {f with attrib:=setEncrypt s'.cfg sta' (parseQc a f.rxData)} → plaintextAllowed s'.cfg sta' g →
      DataFrame s f (noteAccepted s' g) g .success

theorem dataFrame_ways (valid : validateRecvDataFrame s f = (s',g,ret)) : DataFrame s f s' g ret := by
  unfold validateRecvDataFrame at valid
  simp only at valid
  split at valid
  · rename_i a key sta header
    obtain ⟨⟨dst,src,bssid,own⟩,pair,found,lookup⟩ := rxDataValidateHdr_spec header
    cases found
    split at valid
    · cases valid
      exact .refused ⟨⟨rfl,rfl⟩,rfl,rfl⟩ (by decide)
    · split at valid
      · cases valid
        exact .refused ⟨⟨rfl,rfl⟩,rfl,rfl⟩ (by decide)
      · rename_i sta' fresh
        split at valid
        · cases valid
          exact .repeated lookup own fresh
        · rename_i s2 pn
          split at valid
          · rename_i allowed
            cases valid
            exact .accepted lookup own fresh pn rfl allowed
          · cases valid
            exact .plaintext lookup own fresh pn
  · cases valid
    exact .refused ⟨⟨rfl,rfl⟩,rfl,rfl⟩ (by decide)
  · rename_i found notSome notNone _
    cases valid
    refine .refused ⟨⟨rfl,rfl⟩,rfl,rfl⟩ ?_
    intro success
    cases found with
    | none => exact notNone success rfl
    | some pair => exact notSome pair.1 pair.2 success rfl

theorem validateRecvDataFrame_same (valid : validateRecvDataFrame s f = (s',g,ret)) : SameFrame f g := by
  cases dataFrame_ways valid with
  | refused same => exact same
  | repeated => exact ⟨⟨rfl,rfl⟩,rfl,rfl⟩
  | plaintext => exact ⟨⟨rfl,rfl⟩,rfl,rfl⟩
  | accepted _ _ _ _ own => rw [own]; exact ⟨⟨rfl,rfl⟩,rfl,rfl⟩

inductive Validated (s : Rx) (pkt : RxPacket) (f : RecvFrame) : Rx → RecvFrame → Ret → Prop where
  | refused : SameFrame f g → Validated s pkt f s g .fail
  | mgnt : getVersion f.rxData = 0 → getFrameType f.rxData = .mgnt → validateMgmtProtect s pkt (parsed f) = (s1,g,.success) →
      recvframeChkDefrag s1 g = (s2,state,prframe) → Validated s pkt f s2 g .fail
  | dispatched : getVersion f.rxData = 0 → getFrameType f.rxData = .mgnt → validateMgmtProtect s pkt (parsed f) = (s1,g,.success) →
      recvframeChkDefrag s1 g = (s2,.continue_,some prframe) →
      Validated s pkt f (mgtDispatcher (s2.note (.dispatched prframe s2.cfg (peerConf s f) pkt.bipMic)) pkt) g .fail
  | data : getFrameType f.rxData = .data → validateRecvDataFrame s (parsedData f) = (s',g,ret) →
      Validated s pkt f s' g ret

theorem validateRecvMgntFrame_ways (version : getVersion f.rxData = 0) (type : getFrameType f.rxData = .mgnt)
    (validated : validateRecvMgntFrame s pkt (parsed f) = (s',g)) : Validated s pkt f s' g .fail := by
  have read : SameFrame f (parsed f) := ⟨⟨rfl,rfl⟩,rfl,rfl⟩
  unfold validateRecvMgntFrame at validated
  rcases protection : validateMgmtProtect s pkt (parsed f) with ⟨s1,h,ret⟩
  have ways := mgmtProtect_ways protection
  simp only [protection] at validated
  cases ret with
  | success =>
    rcases defrag : recvframeChkDefrag s1 h with ⟨s2,state,prframe⟩
    simp only [defrag] at validated
    rcases state with _ | _ | _ | _ | _
    · cases prframe with
      | none => cases validated; exact .mgnt version type protection defrag
      | some prframe => cases validated; exact .dispatched version type protection defrag
    all_goals cases validated; exact .mgnt version type protection defrag
  | fail | handled =>
    have unchanged := ways.refused (by decide)
    cases validated
    rw [unchanged]
    exact .refused (read.trans ways.same)

theorem validateRecvFrame_ways (validated : validateRecvFrame s pkt f = (s',g,ret)) : Validated s pkt f s' g ret := by
  have read : SameFrame f (parsed f) := ⟨⟨rfl,rfl⟩,rfl,rfl⟩
  unfold validateRecvFrame at validated
  split at validated
  · cases validated
    exact .refused (.refl f)
  · rename_i version
    cases type : getFrameType f.rxData with
    | mgnt =>
      rw [type] at validated
      cases validated
      exact validateRecvMgntFrame_ways (by simpa using version) type rfl
    | ctrl =>
      rw [type] at validated
      cases validated
      exact .refused read
    | data =>
      rw [type] at validated
      exact .data type validated
    | unknown =>
      rw [type] at validated
      cases validated
      exact .refused read

theorem Validated.same (validated : Validated s pkt f s' g ret) : SameFrame f g := by
  cases validated with
  | refused same => exact same
  | mgnt _ _ protection _ => exact SameFrame.trans (g := parsed f) ⟨⟨rfl,rfl⟩,rfl,rfl⟩ (mgmtProtect_ways protection).same
  | dispatched _ _ protection _ =>
    exact SameFrame.trans (g := parsed f) ⟨⟨rfl,rfl⟩,rfl,rfl⟩ (mgmtProtect_ways protection).same
  | data _ result => exact SameFrame.trans (g := parsedData f) ⟨⟨rfl,rfl⟩,rfl,rfl⟩ (validateRecvDataFrame_same result)

inductive Taken (s : Rx) (pkt : RxPacket) : Rx → RecvFrame → RxState → Prop where
  | intro : rtwAllocRecvframe s = some (f,t) → rtwCoreUpdateRecvframe t pkt f = (s',g,state) → Taken s pkt s' g state

def takenFor (s : Rx) (pkt : RxPacket) (f : RecvFrame) (rest : List RecvFrame) : Rx :=
  {s with freeQueue:=rest,freeCnt:=s.freeCnt - 1,log:=s.log ++ [.alloc f.id,.attach f.id pkt.req]}

theorem Taken.spec (taken : Taken s pkt s1 f1 state) : ∃ f rest, s.freeQueue = f :: rest ∧ s1 = takenFor s pkt f rest ∧
    f1.id = f.id ∧ f1.rxReq = some pkt.req ∧ (state = .continue_ → f1 = filled s pkt {f with rxReq:=none}) := by
  cases taken with
  | intro alloc update =>
    unfold rtwAllocRecvframe at alloc
    split at alloc
    · cases alloc
    · rename_i f rest queue
      cases alloc
      refine ⟨f,rest,queue,?_⟩
      have log : (({s with freeQueue:=rest,freeCnt:=s.freeCnt - 1}.note (.alloc f.id)).note (.attach f.id pkt.req)) =
          takenFor s pkt f rest := by simp [Rx.note,takenFor]
      unfold rtwCoreUpdateRecvframe at update
      simp only [log] at update
      split at update
      · cases update
        exact ⟨rfl,rfl,rfl,by simp⟩
      · split at update
        · cases update
          exact ⟨rfl,rfl,rfl,by simp⟩
        · split at update
          · cases update
            exact ⟨rfl,rfl,rfl,by simp⟩
          · cases update
            exact ⟨rfl,rfl,rfl,fun _ => rfl⟩

inductive Entered (s : Rx) (pkt : RxPacket) : Rx → RecvFrame → Prop where
  | intro : Taken s pkt s1 f1 .continue_ → (f1.attrib.icvErr || f1.attrib.crcErr) = false → s1.cfg.up →
      Entered s pkt s1 f1

inductive Checked (s : Rx) (pkt : RxPacket) : Rx → RecvFrame → Prop where
  | intro : Entered s pkt s1 f1 → Validated s1 pkt f1 s2 f2 .success → decryptor pkt f2 = some f3 →
      Checked s pkt s2 f3

def delivered (s : Rx) (f : RecvFrame) (ethTypes : List Nat) : Rx :=
  {s with log:=s.log ++ ethTypes.map fun ethType => .msdu ethType f}

def Built (f : RecvFrame) (ethType : Nat) : Prop :=
  f.attrib.amsdu ∨ wlanhdrToEthhdr f (rtwRecvLlcParse (msduBytes f) (msduLen f)) = some ethType

theorem note_each_msdu (s : Rx) (f : RecvFrame) (ethTypes : List Nat) :
    ethTypes.foldl (fun s ethType => s.note (.msdu ethType f)) s = delivered s f ethTypes := by
  induction ethTypes generalizing s with
  | nil => simp [delivered]
  | cons ethType rest ih =>
    rw [List.foldl_cons,ih]
    simp [delivered,Rx.note]

inductive PostProcess (s : Rx) (f : RecvFrame) (ethTypes : List Nat) : Rx → RxState → Prop where
  | kept : PostProcess s f ethTypes (delivered s f ethTypes) .drop
  | freed : SameBuffer f g → PostProcess s f ethTypes (rtwFreeRecvframe (delivered s f ethTypes) g) .done
  | noPkt : f.hasPkt = false → PostProcess s f ethTypes (rtwFreeRecvframe (delivered s f ethTypes) f) .drop

theorem coreRxProcessMsdu_ways (post : coreRxProcessMsdu s pkt f = (s',state)) :
    ∃ ethTypes, (∀ ethType ∈ ethTypes, Built f ethType) ∧ PostProcess s f ethTypes s' state := by
  have nothing : delivered s f [] = s := by simp [delivered]
  have dropped : PostProcess s f [] s .drop := by simpa [nothing] using (PostProcess.kept : PostProcess s f [] _ .drop)
  unfold coreRxProcessMsdu at post
  simp only at post
  split at post
  · cases post
    exact ⟨[],by simp,dropped⟩
  · split at post
    · cases post
      exact ⟨[],by simp,dropped⟩
    · rename_i ethType built
      -- Forwarding comes first, with the same header.
      obtain ⟨forwarded,isBuilt,noted⟩ : ∃ forwarded, (∀ e ∈ forwarded, Built f e) ∧
          (if (msduAct s.cfg pkt 0).1 then s.note (.msdu ethType f) else s) = delivered s f forwarded := by
        split
        · exact ⟨[ethType],by simpa [Built] using .inr built,by simp [delivered,Rx.note]⟩
        · exact ⟨[],by simp,nothing.symm⟩
      rw [noted] at post
      split at post
      · cases post
        exact ⟨forwarded,isBuilt,.freed ⟨rfl,rfl⟩⟩
      · split at post
        · cases post
          exact ⟨forwarded,isBuilt,.kept⟩
        · unfold rtwRecvIndicatepkt at post
          split at post
          · cases post
            have last : (delivered s f forwarded).note (.msdu ethType f) = delivered s f (forwarded ++ [ethType]) := by
              simp [delivered,Rx.note]
            rw [last]
            refine ⟨_,?_,.freed (.refl f)⟩
            intro e member
            rcases List.mem_append.mp member with earlier | now
            · exact isBuilt e earlier
            · rw [List.mem_singleton.mp now]
              exact .inr built
          · rename_i noPkt
            cases post
            exact ⟨forwarded,isBuilt,.noPkt (by simpa using noPkt)⟩

theorem rtwCoreRxDataPostProcess_ways (post : rtwCoreRxDataPostProcess s pkt f = (s',state)) :
    ∃ ethTypes, (∀ ethType ∈ ethTypes, Built f ethType) ∧ PostProcess s f ethTypes s' state := by
  unfold rtwCoreRxDataPostProcess at post
  split at post
  · rename_i amsdu
    cases post
    unfold amsduToMsdu
    simp only [note_each_msdu]
    exact ⟨_,fun _ _ => .inl amsdu,.freed (.refl f)⟩
  · exact coreRxProcessMsdu_ways post

inductive Passed (s : Rx) (pkt : RxPacket) (f : RecvFrame) : RecvFrame → Prop where
  | intro : (if f.attrib.privacy then recvframeChkmic s pkt f else some f) = some g → portctrl s g = some h → Passed s pkt f h

inductive Round (s : Rx) (pkt : RxPacket) : Rx → Prop where
  | noBuffer : rtwAllocRecvframe s = none → Round s pkt s
  | died : Taken s pkt s' f state → Round s pkt {s' with inProcess:=some f}
  | refused : Taken s pkt s' f state → Round s pkt (rtwFreeRecvframe s' f)
  | invalid : Entered s pkt s1 f1 → Validated s1 pkt f1 s2 f2 ret → Round s pkt (rtwFreeRecvframe s2 f2)
  | queued : Checked s pkt s2 f → recvframeChkDefrag s2 f = (s3,.defrag,prframe) → Round s pkt s3
  | dropped : Checked s pkt s2 f → recvframeChkDefrag s2 f = (s3,state,prframe) → state ≠ .defrag →
      (∀ p, prframe = some p → SameBuffer p g) → Round s pkt (rxNext s3 (prframe.map fun _ => g))
  | delivered : Checked s pkt s2 f → recvframeChkDefrag s2 f = (s3,.continue_,some prframe) → Passed s3 pkt prframe g →
      (∀ ethType ∈ ethTypes, Built g ethType) → SameBuffer g h →
      Round s pkt (rtwFreeRecvframe (delivered s3 g ethTypes) h)
  | twice : Checked s pkt s2 f → recvframeChkDefrag s2 f = (s3,.continue_,some prframe) → prframe.hasPkt = false →
      Passed s3 pkt prframe g → (∀ ethType ∈ ethTypes, Built g ethType) →
      Round s pkt (rtwFreeRecvframe (rtwFreeRecvframe (delivered s3 g ethTypes) g) g)

theorem chkmic_same (passed : (if f.attrib.privacy then recvframeChkmic s pkt f else some f) = some g) : SameFrame f g := by
  split at passed
  · unfold recvframeChkmic recvframePullTail at passed
    split at passed
    · split at passed
      · cases passed
      · cases passed
        split <;> exact ⟨⟨rfl,rfl⟩,rfl,rfl⟩
    · cases passed
      exact .refl _
  · cases passed
    exact .refl _

theorem portctrl_same (passed : portctrl s f = some g) : g = f := by
  unfold portctrl at passed
  split at passed
  · split at passed
    · cases passed
      rfl
    · split at passed
      · cases passed
      · cases passed
        rfl
  · cases passed
    rfl

theorem Passed.same (passed : Passed s pkt f g) : SameFrame f g := by
  obtain ⟨mic,port⟩ := passed
  rw [portctrl_same port]
  exact chkmic_same mic

def rxData (s : Rx) (pkt : RxPacket) (f : RecvFrame) : Rx :=
  match rtwCoreRxDataPreProcess s pkt f with
  | (s,.defrag,_) => s
  | (s,.continue_,some f) =>
    match rtwCoreRxDataPostProcess s pkt f with
    | (s,.done) => s
    | (s,_) => rxNext s (some f)
  | (s,_,prframe) => rxNext s prframe

theorem rxData_passed (checked : Checked s pkt s2 f) (defrag : recvframeChkDefrag s2 f = (s3,.continue_,some prframe))
    (passed : Passed s3 pkt prframe g) :
    Round s pkt (match rtwCoreRxDataPostProcess s3 pkt g with
      | (s,.done) => s
      | (s,_) => rxNext s (some g)) := by
  rcases post : rtwCoreRxDataPostProcess s3 pkt g with ⟨s4,state⟩
  obtain ⟨ethTypes,built,ways⟩ := rtwCoreRxDataPostProcess_ways post
  cases ways with
  | kept => exact .delivered checked defrag passed built (.refl g)
  | freed same => exact .delivered checked defrag passed built same
  | noPkt none_ => exact .twice checked defrag (passed.same.hasPkt.symm.trans none_) passed built

theorem rxData_ways (taken : Entered s pkt s1 f1) (validated : Validated s1 pkt f1 s2 f2 .success) :
    Round s pkt (rxData s2 pkt f2) := by
  unfold rxData rtwCoreRxDataPreProcess
  cases plain : decryptor pkt f2 with
  | none => exact .invalid taken validated
  | some f3 =>
    have checked := Checked.intro taken validated plain
    rcases defrag : recvframeChkDefrag s2 f3 with ⟨s3,state,prframe⟩
    have dropped (other : state ≠ .defrag) : Round s pkt (rxNext s3 prframe) := by
      cases prframe with
      | none => exact .dropped (g := f3) checked defrag other (by simp)
      | some p => exact .dropped (g := p) checked defrag other (by simp [SameBuffer.refl])
    cases state with
    | continue_ =>
      cases prframe with
      | none => simpa only [defrag] using dropped (by decide)
      | some p =>
        simp only [defrag]
        cases mic : (if p.attrib.privacy then recvframeChkmic s3 pkt p else some p) with
        | none => exact dropped (by decide)
        | some q =>
          have same := (chkmic_same mic).toSameBuffer
          cases port : portctrl s3 q with
          | none =>
            simp only [port]
            have freed : Round s pkt (rxNext s3 ((some p).map fun _ => q)) := .dropped checked defrag (by decide) (by simpa using same)
            exact freed
          | some g =>
            simp only [port]
            exact rxData_passed checked defrag (.intro mic port)
    | defrag => simpa only [defrag] using Round.queued checked defrag
    | done => simpa only [defrag] using dropped (by decide)
    | drop => simpa only [defrag] using dropped (by decide)
    | fail => simpa only [defrag] using dropped (by decide)

theorem rtwCoreRxProcess_ways : Round s pkt (rtwCoreRxProcess s pkt) := by
  unfold rtwCoreRxProcess
  rcases alloc : rtwAllocRecvframe s with _ | ⟨f,t⟩
  · exact .noBuffer alloc
  · rcases update : rtwCoreUpdateRecvframe t pkt f with ⟨s1,f1,state⟩
    have taken := Taken.intro alloc update
    have stopped : Round s pkt (if f1.hasAdapter then rxNext s1 (some f1) else {s1 with inProcess:=some f1}) := by
      split
      · exact .refused taken
      · exact .died taken
    cases state with
    | continue_ =>
      simp only [update]
      split
      · exact .refused taken
      · rename_i sound
        split
        · exact .refused taken
        · rename_i up
          have entered := Entered.intro taken (by simpa using sound) (by simpa using up)
          rcases validated : validateRecvFrame s1 pkt f1 with ⟨s2,f2,ret⟩
          have ways := validateRecvFrame_ways validated
          cases ret with
          | success => exact rxData_ways entered ways
          | fail => exact .invalid entered ways
          | handled => exact .invalid entered ways
    | done => simpa only [update] using stopped
    | drop => simpa only [update] using stopped
    | fail => simpa only [update] using stopped
    | defrag => simpa only [update] using stopped

section
variable (s : Rx) (key : Addr) (sta : Station) (first : RecvFrame) (rest : List RecvFrame)

def givenUp : Rx := rtwFreeRecvframeQueue (rtwFreeRecvframe ((setDefragQ s key sta rest).note (.unqueue first.id)) first) rest

def reassembled : Rx :=
  (rtwFreeRecvframeQueue ((setDefragQ s key sta rest).note (.unqueue first.id)) rest).note (.joined (first :: rest))
end

def joinedFrom (first : RecvFrame) (rest : List RecvFrame) : Option RecvFrame :=
  joinFragments first (if first.attrib.encrypt.hasPn then framePn first else 0) 1 rest

inductive Defrag (s : Rx) (f : RecvFrame) : Rx → RxState → Option RecvFrame → Prop where
  | whole : f.attrib.mfrag = false → f.attrib.fragNum = 0 → Defrag s f s .continue_ (some f)
  | noQueue : defragQueue s f = none → Defrag s f s .drop (some f)
  | first : f.attrib.mfrag → f.attrib.fragNum = 0 → defragQueue s f = some (key,sta) →
      Defrag s f (collected (rtwFreeRecvframeQueue s sta.defragQ) key {sta with defragQ:=[]} (tracked sta f)) .defrag
        (some (tracked sta f))
  | next : f.attrib.mfrag → f.attrib.fragNum ≠ 0 → defragQueue s f = some (key,sta) →
      Defrag s f (collected s key sta (tracked sta f)) .defrag (some (tracked sta f))
  | failed : f.attrib.mfrag = false → f.attrib.fragNum ≠ 0 → defragQueue s f = some (key,sta) →
      sta.defragQ ++ [tracked sta f] = first :: rest →
      Defrag s f (givenUp (collected s key sta (tracked sta f)) key {sta with defragQ:=first :: rest} first rest) .drop none
  | joined : f.attrib.mfrag = false → f.attrib.fragNum ≠ 0 → defragQueue s f = some (key,sta) →
      sta.defragQ ++ [tracked sta f] = first :: rest → first.attrib.fragNum = 0 → joinedFrom first rest = some prframe →
      Defrag s f (reassembled (collected s key sta (tracked sta f)) key {sta with defragQ:=first :: rest} first rest)
        .continue_ (some prframe)

theorem recvframeDefrag_ways (queue : a.defragQ = first :: rest) :
    recvframeDefrag s k a = (givenUp s k a first rest,none) ∨
      (first.attrib.fragNum = 0 ∧ ∃ prframe, joinedFrom first rest = some prframe ∧
        recvframeDefrag s k a = (reassembled s k a first rest,some prframe)) := by
  unfold recvframeDefrag
  rw [queue]
  by_cases number : first.attrib.fragNum = 0
  · cases join : joinedFrom first rest with
    | none =>
      refine .inl ?_
      unfold joinedFrom at join
      simp only [number,bne_self_eq_false,false_eq_true,if_false,join]
      rfl
    | some prframe =>
      refine .inr ⟨number,prframe,rfl,?_⟩
      unfold joinedFrom at join
      simp only [number,bne_self_eq_false,false_eq_true,if_false,join]
      rfl
  · refine .inl ?_
    simp only [bne_iff_ne.mpr number,if_true]
    rfl

theorem chkDefrag_ways (result : recvframeChkDefrag s f = (s',state,prframe)) : Defrag s f s' state prframe := by
  unfold recvframeChkDefrag at result
  split at result
  · rename_i whole
    simp only [and_eq_true,not_eq_true',beq_iff_eq] at whole
    cases result
    exact .whole whole.1 whole.2
  · rename_i fragment
    split at result
    · rename_i none_
      cases result
      exact .noQueue none_
    · rename_i key sta found
      cases more : f.attrib.mfrag with
      | true =>
        simp only [tracked,more,if_true] at result
        by_cases number : f.attrib.fragNum = 0
        · simp only [number,beq_self_eq_true,if_true] at result
          cases result
          exact .first more number found
        · simp only [beq_eq_false_iff_ne.mpr number,false_eq_true,if_false] at result
          cases result
          exact .next more number found
      | false =>
        have number : f.attrib.fragNum ≠ 0 := by simpa [more] using fragment
        have single : (tracked sta f).attrib.mfrag = false := more
        rcases queue : sta.defragQ ++ [tracked sta f] with _ | ⟨first,rest⟩
        · simp at queue
        · simp only [single,false_eq_true,if_false,queue] at result
          rcases recvframeDefrag_ways (s := collected s key sta (tracked sta f)) (k := key)
            (a := {sta with defragQ:=first :: rest}) rfl with failed | ⟨start,p,join,done⟩
          · rw [failed] at result
            cases result
            exact .failed more number found queue
          · rw [done] at result
            cases result
            exact .joined more number found queue start join
end Rtl8852au.Recv
