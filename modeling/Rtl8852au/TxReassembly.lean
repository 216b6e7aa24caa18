import Rtl8852au.TxHeadRun

namespace Rtl8852au.TxHead
open List Prod Option
open Recv (Bytes Addr Cipher Rx RecvFrame isMcast getSequence getFragNum getMFrag recvframeChkDefrag)
open TxFrag (getWlFragParas payloadTotalsz wlHead wlTail sub32)

structure Filled (s : Tx) (a : PktAttrib) (sta : Sta) (nrFrags k : Nat) (h : Heading) (sta' : Sta) : Prop extends SameSta sta sta' where
  tx : h.tx = s.setSta a.psta sta'
  attrib : SameAttrib a h.attrib
  length : h.wlhdr.length = k
  seq : ∀ (i : Nat) hdr, h.wlhdr[i]? = some hdr → getSequence hdr = (sta.txseqTid a.priority + 1 + i) % 4096
  fragNum : ∀ (i : Nat) hdr, h.wlhdr[i]? = some hdr → getFragNum hdr = 0
  mfrag : ∀ (i : Nat) hdr, h.wlhdr[i]? = some hdr → getMFrag hdr = decide (i ≠ nrFrags - 1)
  pn : a.encrypt.hasPn → ∀ (i : Nat) hdr, h.wlhdr[i]? = some hdr → headPn a hdr = (sta.txpn + 1 + i) % 2^48
  seqNow : sta'.txseqTid a.priority % 4096 = (sta.txseqTid a.priority + k) % 4096
  pnNow : a.encrypt.hasPn → sta'.txpn % 2^48 = (sta.txpn+k) % 2^48
  counted : Counted s.cfg sta → Counted s.cfg sta'

theorem getElem?_snoc {l : List α} (found : (l ++ [x])[i]? = some y) : l[i]? = some y ∨ (i = l.length ∧ y = x) := by
  rcases Nat.lt_trichotomy i l.length with before | here | after
  · exact .inl (by rwa [getElem?_append_left before] at found)
  · subst here
    simp only [getElem?_concat_length,some.injEq] at found
    exact .inr ⟨rfl,found.symm⟩
  · rw [getElem?_eq_none (by simp; omega)] at found
    cases found

theorem headPn_same (same : SameAttrib a b) : headPn b hdr = headPn a hdr := by
  unfold headPn
  rw [same.hdrlen]

theorem Filled.more (filled : Filled s a sta nrFrags k h sta') (linked : Linked s a sta) (ciphered : Ciphered s.cfg sta a)
    (raw : Nat → Bytes) : ∃ sta'', Filled s a sta nrFrags (k+1) (fillHead raw nrFrags h k) sta'' := by
  have linkedNow : Linked h.tx h.attrib sta' := by
    rw [filled.tx]
    exact linked.set filled.asoc filled.attrib.ra filled.attrib.psta
  have cfg : h.tx.cfg = s.cfg := by rw [filled.tx]; rfl
  have cipheredNow : Ciphered h.tx.cfg sta' h.attrib := by
    unfold Ciphered
    rw [filled.attrib.encrypt,cfg,getEncryAlgo_congr filled.privacy]
    exact ciphered
  obtain ⟨sta'',hdr,headed⟩ := fillHead_spec raw nrFrags k linkedNow cipheredNow
  have next := nextSeq_eq sta' a.priority
  have seqNow := filled.seqNow
  have priority := filled.attrib.priority
  have seq := headed.seq
  have txseqTid := headed.txseqTid
  rw [priority] at seq txseqTid
  refine ⟨sta'',⟨headed.asoc.trans filled.asoc,headed.privacy.trans filled.privacy⟩,?_,filled.attrib.trans headed.attrib,?_,
    ?_,?_,?_,?_,?_,?_,?_⟩
  · rw [headed.tx,filled.tx,filled.attrib.psta]
    simp [Tx.setSta]
  · rw [headed.wlhdr,length_append,filled.length]
    rfl
  · intro i hdr' found
    rw [headed.wlhdr] at found
    rcases getElem?_snoc found with old | ⟨rfl,rfl⟩
    · exact filled.seq i hdr' old
    · have length := filled.length
      omega
  · intro i hdr' found
    rw [headed.wlhdr] at found
    rcases getElem?_snoc found with old | ⟨rfl,rfl⟩
    · exact filled.fragNum i hdr' old
    · exact headed.fragNum
  · intro i hdr' found
    rw [headed.wlhdr] at found
    rcases getElem?_snoc found with old | ⟨rfl,rfl⟩
    · exact filled.mfrag i hdr' old
    · rw [filled.length]
      exact headed.mfrag
  · intro hasPn i hdr' found
    rw [headed.wlhdr] at found
    rcases getElem?_snoc found with old | ⟨rfl,rfl⟩
    · exact filled.pn hasPn i hdr' old
    · have pnNow := filled.pnNow hasPn
      obtain ⟨pn,_⟩ := headed.pn (by rw [filled.attrib.encrypt]; exact hasPn)
      rw [headPn_same filled.attrib] at pn
      rw [pn,filled.length]
      omega
  · rw [txseqTid,next]
    omega
  · intro hasPn
    have pnNow := filled.pnNow hasPn
    obtain ⟨_,pn⟩ := headed.pn (by rw [filled.attrib.encrypt]; exact hasPn)
    rw [pn]
    omega
  · intro counted
    have later := headed.counted
    rw [cfg] at later
    exact later (filled.counted counted)

theorem coreWlanFillHead_filled (linked : Linked s a sta) (ciphered : Ciphered s.cfg sta a) (raw : Nat → Bytes) (nrFrags : Nat) :
    ∃ sta', Filled s a sta nrFrags nrFrags (coreWlanFillHead s a raw nrFrags) sta' := by
  have rounds : ∀ k, ∃ sta', Filled s a sta nrFrags k ((range k).foldl (fillHead raw nrFrags) ⟨s,a,[]⟩) sta' := by
    intro k
    induction k with
    | zero =>
      exact ⟨sta,⟨rfl,rfl⟩,(setSta_same (rtwGetStainfo_known linked.found)).symm,.refl a,rfl,by simp,by simp,by simp,by simp,rfl,
        fun _ => rfl,id⟩
    | succ k ih =>
      obtain ⟨sta',filled⟩ := ih
      rw [range_succ,foldl_append]
      exact filled.more linked ciphered raw
  exact rounds nrFrags

theorem dataCipher_cases (cfg : Config) (sta : Sta) (etherType : Nat) :
    dataCipher cfg sta etherType = .noPrivacy ∨ dataCipher cfg sta etherType = getEncryAlgo cfg sta := by
  unfold dataCipher
  split
  · exact .inl rfl
  · exact .inr rfl

theorem updateAttribSecInfo_cipher (info : updateAttribSecInfo cfg sta m bmcast = some (encrypt,keyIdx)) :
    encrypt = .noPrivacy ∨ encrypt = getEncryAlgo cfg sta := by
  unfold updateAttribSecInfo at info
  simp only at info
  split at info
  · split at info
    · cases info
    · exact .inl (mk.inj (some.inj info)).1.symm
  · split at info
    · cases info
    · rw [← (mk.inj (some.inj info)).1]
      exact dataCipher_cases cfg sta m.etherType

theorem updateAttrib_spec (made : updateAttrib s m = some a) : ∃ sta, Linked s a sta ∧ Ciphered s.cfg sta a := by
  unfold updateAttrib at made
  simp only at made
  split at made
  · cases made
  · rename_i key sta found
    split at made
    · cases made
    · rename_i asoc
      split at made
      · cases made
      · rename_i encrypt keyIdx info
        obtain rfl := some.inj made
        exact ⟨sta,⟨found,by simpa using asoc⟩,updateAttribSecInfo_cipher info⟩

theorem coreTx_spec (sent : coreTx s m = some h) (made : updateAttrib s m = some a) : ∃ fragsz nrFrags,
    getWlFragParas m.fragLen a.toPktAttrib = some (fragsz,nrFrags) ∧ h = coreWlanFillHead s a m.raw nrFrags := by
  obtain ⟨a',made',rest⟩ := bind_eq_some_iff.mp sent
  obtain rfl : a' = a := some.inj (made'.symm.trans made)
  obtain ⟨paras,cut,buffered⟩ := bind_eq_some_iff.mp rest
  refine ⟨paras.1,paras.2,cut,?_⟩
  split at buffered
  · exact (some.inj buffered).symm
  · cases buffered

def FitsOne (m : Msdu) (a : PktAttrib) : Prop :=
  payloadTotalsz a.toPktAttrib ≤ sub32 m.fragLen (wlHead a.toPktAttrib + wlTail a.toPktAttrib)

instance (m : Msdu) (a : PktAttrib) : Decidable (FitsOne m a) := inferInstanceAs (Decidable (_ ≤ _))

theorem getWlFragParas_count (cut : getWlFragParas m.fragLen a.toPktAttrib = some (fragsz,nrFrags)) :
    0 < nrFrags ∧ (nrFrags = 1 ↔ FitsOne m a) := by
  unfold FitsOne
  unfold getWlFragParas at cut
  simp only at cut
  split at cut
  · rename_i longer
    split at cut
    · cases cut
    · rename_i positive
      obtain ⟨rfl,rfl⟩ := mk.inj (some.inj cut)
      have two := (Nat.le_div_iff_mul_le (x := 2) (Nat.pos_of_ne_zero positive)).mpr (show _ ≤ payloadTotalsz a.toPktAttrib +
        sub32 m.fragLen (wlHead a.toPktAttrib + wlTail a.toPktAttrib) - 1 by omega)
      omega
  · obtain ⟨_,rfl⟩ := mk.inj (some.inj cut)
    omega

def Kept (s : Tx) : Prop := ∀ key sta, s.stas key = some sta → Counted s.cfg sta

theorem Kept.update (kept : Kept s) (new : ∀ sta, entry = some sta → Counted s.cfg sta) :
    Kept {s with stas:=Function.update s.stas key entry} := by
  intro other sta known
  by_cases this : other = key
  · subst this
    exact new sta (by simpa using known)
  · exact kept other sta (by simpa [Function.update_of_ne this] using known)

theorem freshSta_counted (cfg : Config) : Counted cfg freshSta := ⟨by simp [freshSta],fun _ => ⟨0,rfl,rfl⟩⟩

theorem staOp_counted (counted : ∀ sta, entry = some sta → Counted cfg sta) (known : staOp entry op = some sta) : Counted cfg sta := by
  cases op with
  | alloc =>
    obtain rfl := some.inj known
    exact freshSta_counted cfg
  | free => cases known
  | conf asoc qosOption blocked =>
    obtain ⟨old,found,rfl⟩ := map_eq_some_iff.mp known
    exact ⟨(counted old found).sent,(counted old found).used⟩
  | key privacy pn =>
    obtain ⟨old,found,rfl⟩ := map_eq_some_iff.mp known
    exact ⟨(counted old found).sent,fun _ => ⟨pn % 2^64,rfl,rfl⟩⟩

theorem mgmtPn_counted (counted : Counted cfg sta) : Counted cfg (mgmtPn sta) := by
  unfold mgmtPn
  split
  · exact takePn_counted counted
  · exact counted

theorem coreTx_kept (kept : Kept s) (sent : coreTx s m = some h) : Kept h.tx := by
  cases made : updateAttrib s m with
  | none => simp [coreTx,made] at sent
  | some a =>
    obtain ⟨sta,linked,ciphered⟩ := updateAttrib_spec made
    obtain ⟨_,nrFrags,_,rfl⟩ := coreTx_spec sent made
    obtain ⟨sta',filled⟩ := coreWlanFillHead_filled linked ciphered m.raw nrFrags
    rw [filled.tx]
    refine kept.update ?_
    intro new found
    obtain rfl := some.inj found
    exact filled.counted (kept a.psta sta (rtwGetStainfo_known linked.found))

theorem txStep_kept (kept : Kept s) (event : Event) : Kept (txStep s event) := by
  cases event with
  | msdu m =>
    cases sent : coreTx s m with
    | none => simpa [txStep,sent] using kept
    | some h => simpa [txStep,sent] using coreTx_kept kept sent
  | sta key op => exact kept.update fun sta known => staOp_counted (kept key) known
  | mgmt key =>
    refine kept.update ?_
    intro sta known
    obtain ⟨old,found,rfl⟩ := map_eq_some_iff.mp known
    exact mgmtPn_counted (kept key old found)

theorem reached_kept (path : Machine.Reached txStep (fun _ _ => True) (rtwInitXmitPriv cfg) s) : Kept s :=
  path.invariant Kept (fun _ _ known => by cases known) fun _ event kept _ => txStep_kept kept event

structure Carries (a : PktAttrib) (hdr : Bytes) (f : RecvFrame) : Prop where
  data : ∀ i < a.hdrlen + a.ivLen, f.rxData i = hdr i
  fragNum : f.attrib.fragNum = getFragNum hdr
  mfrag : f.attrib.mfrag = getMFrag hdr
  seqNum : f.attrib.seqNum = getSequence hdr
  hdrlen : f.attrib.hdrlen = a.hdrlen
  ivLen : f.attrib.ivLen = a.ivLen
  encrypt : f.attrib.encrypt = a.encrypt

def fedDefrag (s : Rx) : List RecvFrame → List RecvFrame
  | [] => []
  | f :: rest =>
    match recvframeChkDefrag s f with
    | (s,.continue_,some prframe) => prframe :: fedDefrag s rest
    | (s,_,_) => fedDefrag s rest

structure Reassemblable (sta : Sta) (a : PktAttrib) (wlhdr : List Bytes) : Prop where
  seq : ∃ seq, (∀ hdr ∈ wlhdr, getSequence hdr = seq) ∧ ∀ prev, sta.sent a.priority = some prev → seq = (prev+1) % 4096
  fragNum : ∀ (i : Nat) hdr, wlhdr[i]? = some hdr → getFragNum hdr = i
  mfrag : ∀ (i : Nat) hdr, wlhdr[i]? = some hdr → getMFrag hdr = decide (i+1 < wlhdr.length)
  pn : a.encrypt.hasPn → ∃ first, ∀ (i : Nat) hdr, wlhdr[i]? = some hdr → headPn a hdr = first + i ∧ headPn a hdr ∉ sta.used
  rebuilt : ∀ rx frames, List.Forall₂ (Carries a) wlhdr frames →
    (∀ f ∈ frames, (Recv.rtwGetStainfo rx f.attrib.ta).isSome) → ∃ f, fedDefrag rx frames = [f]

theorem fedDefrag_whole (rx : Rx) (mfrag : f.attrib.mfrag = false) (fragNum : f.attrib.fragNum = 0) : fedDefrag rx [f] = [f] := by
  simp [fedDefrag,recvframeChkDefrag,mfrag,fragNum]

theorem Filled.onlyOne (filled : Filled s a sta nrFrags nrFrags h sta') (reassemblable : Reassemblable sta a h.wlhdr) : nrFrags < 2 := by
  by_contra many
  have length := filled.length
  obtain ⟨seq,common,_⟩ := reassemblable.seq
  have zero := filled.seq 0 _ (getElem?_eq_getElem (show 0 < h.wlhdr.length by omega))
  have one := filled.seq 1 _ (getElem?_eq_getElem (show 1 < h.wlhdr.length by omega))
  rw [common _ (getElem_mem _)] at zero one
  omega

section
variable (filled : Filled s a sta 1 1 h sta') (counted : Counted s.cfg sta) (ciphered : Ciphered s.cfg sta a)
include filled counted ciphered

theorem Filled.newPn
    (hasPn : a.encrypt.hasPn) (found : h.wlhdr[0]? = some hdr) : headPn a hdr ∉ sta.used ↔ sta.used.length < 2^48 := by
  have other : Cipher.isWep (getEncryAlgo s.cfg sta) = false := by
    rcases ciphered with none | algo
    · rw [none] at hasPn
      cases hasPn
    · rw [← algo]
      cases cipher : a.encrypt <;> simp [cipher,Recv.Cipher.hasPn] at hasPn <;> rfl
  obtain ⟨base,used,stands⟩ := counted.used other
  have pn := filled.pn hasPn 0 hdr found
  have next : headPn a hdr = (base + sta.used.length + 1) % 2^48 := by
    rw [pn]
    omega
  rw [next]
  have new := @CyclicCounter.next_new (2^48) base sta.used.length (by decide)
  rwa [← used] at new

theorem Filled.reassemblable
    (left : a.encrypt.hasPn → sta.used.length < 2^48) : Reassemblable sta a h.wlhdr := by
  obtain ⟨hdr,only⟩ := length_eq_one_iff.mp filled.length
  have found : h.wlhdr[0]? = some hdr := by rw [only]; rfl
  have first : ∀ (i : Nat) hdr', h.wlhdr[i]? = some hdr' → i = 0 ∧ hdr' = hdr := by
    intro i hdr' here
    rw [only] at here
    cases i with
    | zero => exact ⟨rfl,(some.inj here).symm⟩
    | succ i => cases here
  have mfrag : getMFrag hdr = false := by simpa using filled.mfrag 0 hdr found
  refine ⟨⟨getSequence hdr,?_,?_⟩,?_,?_,?_,?_⟩
  · intro hdr' member
    rw [only,mem_singleton] at member
    rw [member]
  · intro prev sent
    rw [filled.seq 0 hdr found,← counted.sent _ prev sent,Nat.add_zero]
  · intro i hdr' here
    obtain ⟨rfl,rfl⟩ := first i hdr' here
    exact filled.fragNum 0 hdr' here
  · intro i hdr' here
    obtain ⟨rfl,rfl⟩ := first i hdr' here
    rw [mfrag,filled.length]
    rfl
  · intro hasPn
    refine ⟨headPn a hdr,?_⟩
    intro i hdr' here
    obtain ⟨rfl,rfl⟩ := first i hdr' here
    exact ⟨rfl,(filled.newPn counted ciphered hasPn found).mpr (left hasPn)⟩
  · intro rx frames received _
    rw [only] at received
    cases received with | cons carries none =>
    cases none
    exact ⟨_,fedDefrag_whole rx (carries.mfrag.trans mfrag) (carries.fragNum.trans (filled.fragNum 0 hdr found))⟩
end

-- The headers are right exactly for a packet that is not fragmented, while the
-- packet numbers of the key last.
theorem fragments_reassemblable (path : Machine.Reached txStep (fun _ _ => True) (rtwInitXmitPriv cfg) s)
    (made : updateAttrib s m = some a) (known : s.stas a.psta = some sta) (sent : coreTx s m = some h) :
    Reassemblable sta a h.wlhdr ↔ FitsOne m a ∧ (a.encrypt.hasPn = true → sta.used.length < 2^48) := by
  obtain ⟨sta0,linked,ciphered⟩ := updateAttrib_spec made
  obtain rfl : sta0 = sta := some.inj ((rtwGetStainfo_known linked.found).symm.trans known)
  obtain ⟨fragsz,nrFrags,cut,rfl⟩ := coreTx_spec sent made
  obtain ⟨positive,single⟩ := getWlFragParas_count cut
  obtain ⟨sta',filled⟩ := coreWlanFillHead_filled linked ciphered m.raw nrFrags
  have counted := reached_kept path a.psta sta0 known
  constructor
  · intro reassemblable
    have few := filled.onlyOne reassemblable
    obtain rfl : nrFrags = 1 := by omega
    refine ⟨single.mp rfl,?_⟩
    intro hasPn
    have found := getElem?_eq_getElem (show 0 < (coreWlanFillHead s a m.raw 1).wlhdr.length by rw [filled.length]; omega)
    obtain ⟨_,new⟩ := reassemblable.pn hasPn
    exact (filled.newPn counted ciphered hasPn found).mp (new 0 _ found).2
  · rintro ⟨fits,left⟩
    obtain rfl := single.mpr fits
    exact filled.reassemblable counted ciphered left

def wpaStation : Config where
  mode := .sta
  macAddr := 0x22
  bssid := 0x44
  selfSta := 0x22
  qosOption := true
  acmMask := 0
  authAlg := .ieee8021x
  privacyAlg := .aes
  privacyKeyIndex := 0
  grpKeyid := 1
  busetkipkey := false

def keyed : List Event := [.sta 0x44 .alloc,.sta 0x44 (.conf true true false),.sta 0x44 (.key .aes 0)]
def keyedTx : Tx := Machine.run txStep (rtwInitXmitPriv wpaStation) keyed

theorem keyedTx_reached : Machine.Reached txStep (fun _ _ => True) (rtwInitXmitPriv wpaStation) keyedTx :=
  Machine.Reached.start.run ⟨trivial,trivial,trivial,trivial⟩

def packetOf (pktlen fragLen : Nat) : Msdu where
  etherType := 0x0800
  dst := 0x66
  src := 0x22
  ra := 0
  ta := 0
  pktlen
  userPriority := 0
  htcEn := false
  handshake := false
  swEncrypt := false
  ampdu := false
  fragLen
  txreqBuf := true
  raw := fun _ _ => 0

theorem fragments_reassemblable_whole : ∃ a sta h, updateAttrib keyedTx (packetOf 1000 2346) = some a ∧
    coreTx keyedTx (packetOf 1000 2346) = some h ∧ a.encrypt = .aes ∧ Reassemblable sta a h.wlhdr := by
  have small : (updateAttrib keyedTx (packetOf 1000 2346)).map (fun a =>
      (a.encrypt,decide (FitsOne (packetOf 1000 2346) a),(keyedTx.stas a.psta).map fun sta => sta.used.length)) =
      some (.aes,true,some 0) := by decide +kernel
  have headed : (coreTx keyedTx (packetOf 1000 2346)).isSome := by decide +kernel
  obtain ⟨h,sent⟩ := isSome_iff_exists.mp headed
  obtain ⟨a,made,facts⟩ := map_eq_some_iff.mp small
  simp only [mk.injEq,decide_eq_true_eq] at facts
  obtain ⟨aes,fits,new⟩ := facts
  obtain ⟨sta,known,unused⟩ := map_eq_some_iff.mp new
  exact ⟨a,sta,h,made,sent,aes,
    (fragments_reassemblable keyedTx_reached made known sent).mpr ⟨fits,fun _ => by rw [unused]; decide⟩⟩

-- Two fragments of one packet get the sequence numbers 1 and 2.
theorem fragments_apart : ¬∀ cfg s m a sta h, Machine.Reached txStep (fun _ _ => True) (rtwInitXmitPriv cfg) s →
    updateAttrib s m = some a → s.stas a.psta = some sta → coreTx s m = some h → Reassemblable sta a h.wlhdr := by
  intro always
  have numbers : (coreTx keyedTx (packetOf 1000 600)).map (fun h => h.wlhdr.map getSequence) = some [1,2] := by decide +kernel
  obtain ⟨h,sent,seqs⟩ := map_eq_some_iff.mp numbers
  obtain ⟨a,made,_⟩ := bind_eq_some_iff.mp sent
  obtain ⟨sta,linked,_⟩ := updateAttrib_spec made
  obtain ⟨seq,common,_⟩ := (always _ _ _ a sta h keyedTx_reached made (rtwGetStainfo_known linked.found) sent).seq
  have every : ∀ number ∈ [1,2], number = seq := by
    intro number member
    rw [← seqs] at member
    obtain ⟨hdr,inside,rfl⟩ := mem_map.mp member
    exact common hdr inside
  have one := every 1 (by simp)
  have two := every 2 (by simp)
  omega
end Rtl8852au.TxHead
