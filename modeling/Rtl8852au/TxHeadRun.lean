import Rtl8852au.TxHeadFields

namespace Rtl8852au.TxHead
open Function
open Recv (Bytes Addr Cipher le16 isMcast getSequence getFragNum getMFrag)

structure Linked (s : Tx) (a : PktAttrib) (sta : Sta) : Prop where
  found : rtwGetStainfo s a.ra = some (a.psta,sta)
  asoc : sta.asoc

def Ciphered (cfg : Config) (sta : Sta) (a : PktAttrib) : Prop := a.encrypt = .noPrivacy ∨ a.encrypt = getEncryAlgo cfg sta

structure Counted (cfg : Config) (sta : Sta) : Prop where
  sent : ∀ tid prev, sta.sent tid = some prev → sta.txseqTid tid = prev
  used : Cipher.isWep (getEncryAlgo cfg sta) = false → ∃ base,
    sta.used = CyclicCounter.issued (2^48) base sta.used.length ∧ sta.txpn % 2^48 = (base+sta.used.length) % 2^48

structure SameAttrib (a b : PktAttrib) : Prop where
  encrypt : b.encrypt = a.encrypt
  hdrlen : b.hdrlen = a.hdrlen
  ivLen : b.ivLen = a.ivLen
  priority : b.priority = a.priority
  ra : b.ra = a.ra
  psta : b.psta = a.psta

theorem SameAttrib.refl (a : PktAttrib) : SameAttrib a a := ⟨rfl,rfl,rfl,rfl,rfl,rfl⟩

theorem SameAttrib.trans (ab : SameAttrib a b) (bc : SameAttrib b c) : SameAttrib a c :=
  ⟨bc.encrypt.trans ab.encrypt,bc.hdrlen.trans ab.hdrlen,bc.ivLen.trans ab.ivLen,bc.priority.trans ab.priority,
    bc.ra.trans ab.ra,bc.psta.trans ab.psta⟩

structure SameSta (a b : Sta) : Prop where
  asoc : b.asoc = a.asoc
  privacy : b.privacy = a.privacy

theorem getEncryAlgo_congr (same : a.privacy = b.privacy) : getEncryAlgo cfg a = getEncryAlgo cfg b := by
  unfold getEncryAlgo
  rw [same]

theorem rtwGetStainfo_setSta (found : rtwGetStainfo s addr = some (key,sta)) :
    rtwGetStainfo (s.setSta key sta') addr = some (key,sta') := by
  obtain ⟨old,known,pair⟩ := Option.map_eq_some_iff.mp found
  obtain ⟨rfl,rfl⟩ := Prod.mk.inj pair
  simp [rtwGetStainfo,Tx.setSta]

theorem rtwGetStainfo_known (found : rtwGetStainfo s addr = some (key,sta)) : s.stas key = some sta := by
  obtain ⟨old,known,pair⟩ := Option.map_eq_some_iff.mp found
  obtain ⟨rfl,rfl⟩ := Prod.mk.inj pair
  exact known

theorem numbered_attrib (sta : Sta) (a : PktAttrib) :
    SameAttrib a (numbered sta a).2 ∧ (numbered sta a).2.seqnum = nextSeq sta a.priority := by
  unfold numbered
  simp only
  split
  · exact ⟨⟨rfl,rfl,rfl,rfl,rfl,rfl⟩,rfl⟩
  · split
    · exact ⟨⟨rfl,rfl,rfl,rfl,rfl,rfl⟩,rfl⟩
    · exact ⟨⟨rfl,rfl,rfl,rfl,rfl,rfl⟩,rfl⟩

structure Numbered (a : PktAttrib) (sta sta' : Sta) : Prop extends SameSta sta sta' where
  txseqTid : sta'.txseqTid = update sta.txseqTid a.priority (nextSeq sta a.priority)
  sent : sta'.sent = update sta.sent a.priority (some (nextSeq sta a.priority))
  txpn : sta'.txpn = sta.txpn
  used : sta'.used = sta.used

theorem numbered_sta (sta : Sta) (a : PktAttrib) : Numbered a sta (numbered sta a).1 := by
  unfold numbered
  simp only
  split
  · exact ⟨⟨rfl,rfl⟩,rfl,rfl,rfl,rfl⟩
  · split
    · exact ⟨⟨rfl,rfl⟩,rfl,rfl,rfl,rfl⟩
    · exact ⟨⟨rfl,rfl⟩,rfl,rfl,rfl,rfl⟩

theorem Numbered.counted (numbered : Numbered a sta sta') (counted : Counted cfg sta) : Counted cfg sta' := by
  constructor
  · intro tid prev sent
    rw [numbered.sent] at sent
    rw [numbered.txseqTid]
    by_cases this : tid = a.priority
    · subst this
      simpa using sent
    · rw [update_of_ne this] at sent ⊢
      exact counted.sent tid prev sent
  · rw [getEncryAlgo_congr numbered.privacy,numbered.used,numbered.txpn]
    exact counted.used

theorem takePn_next (sta : Sta) : (takePn sta 0xFFFFFFFFFFFF).txpn % 2^48 = (sta.txpn+1) % 2^48 := by
  unfold takePn
  simp only
  split
  · rename_i last
    rw [last]
    rfl
  · omega

theorem takePn_counted (counted : Counted cfg sta) : Counted cfg (takePn sta 0xFFFFFFFFFFFF) := by
  refine ⟨counted.sent,?_⟩
  intro cipher
  obtain ⟨base,used,stands⟩ := counted.used cipher
  have next : (takePn sta 0xFFFFFFFFFFFF).txpn % 2^48 = (base + sta.used.length + 1) % 2^48 := by
    rw [takePn_next]
    omega
  refine ⟨base,?_,next⟩
  have new : (takePn sta 0xFFFFFFFFFFFF).used = (base + sta.used.length + 1) % 2^48 :: sta.used := by rw [← next]; rfl
  rw [new,List.length_cons,CyclicCounter.issued,← used]

theorem takePn_wep (wep : Cipher.isWep (getEncryAlgo cfg sta)) (counted : Counted cfg sta) : Counted cfg (takePn sta last) := by
  refine ⟨counted.sent,?_⟩
  intro other
  have algo : getEncryAlgo cfg (takePn sta last) = getEncryAlgo cfg sta := getEncryAlgo_congr rfl
  rw [algo,wep] at other
  cases other

structure Sealed (s : Tx) (a : PktAttrib) (sta sta' : Sta) (s' : Tx) (a' : PktAttrib) : Prop extends SameSta sta sta' where
  tx : s' = s.setSta a.psta sta'
  attrib : SameAttrib a a'
  txseqTid : sta'.txseqTid = sta.txseqTid
  counted : Counted s.cfg sta → Counted s.cfg sta'
  pn : a.encrypt.hasPn → sta'.txpn % 2^48 = (sta.txpn+1) % 2^48 ∧ ∃ old kid, a'.iv = aesIv old sta'.txpn kid

theorem setSta_same {s : Tx} (known : s.stas key = some sta) : s.setSta key sta = s := by
  have same : update s.stas key (some sta) = s.stas := by
    rw [← known]
    exact update_eq_self key s.stas
  unfold Tx.setSta
  rw [same]

theorem updateAttribSecIvInfo_spec (known : s.stas a.psta = some sta) (ciphered : Ciphered s.cfg sta a) :
    ∃ sta', Sealed s a sta sta' (updateAttribSecIvInfo s a).1 (updateAttribSecIvInfo s a).2 := by
  have wep : Cipher.isWep a.encrypt → Cipher.isWep (getEncryAlgo s.cfg sta) := by
    intro wep
    rcases ciphered with none | algo
    · rw [none] at wep
      cases wep
    · rwa [← algo]
  have unsealed : (a.encrypt.hasPn → False) → Sealed s a sta sta s a := by
    intro without
    exact ⟨⟨rfl,rfl⟩,(setSta_same known).symm,.refl a,rfl,id,fun counts => (without counts).elim⟩
  have wepSealed : ∀ iv, Cipher.isWep a.encrypt → (a.encrypt.hasPn → False) →
      Sealed s a sta (takePn sta 0xFFFFFF) (s.setSta a.psta (takePn sta 0xFFFFFF)) {a with iv:=iv} := by
    intro iv is without
    exact ⟨⟨rfl,rfl⟩,rfl,⟨rfl,rfl,rfl,rfl,rfl,rfl⟩,rfl,takePn_wep (wep is),fun counts => (without counts).elim⟩
  have pnSealed : ∀ old kid, Sealed s a sta (takePn sta 0xFFFFFFFFFFFF) (s.setSta a.psta (takePn sta 0xFFFFFFFFFFFF))
      {a with iv:=aesIv old (takePn sta 0xFFFFFFFFFFFF).txpn kid} := by
    intro old kid
    exact ⟨⟨rfl,rfl⟩,rfl,⟨rfl,rfl,rfl,rfl,rfl,rfl⟩,rfl,takePn_counted,fun _ => ⟨takePn_next sta,old,kid,rfl⟩⟩
  unfold updateAttribSecIvInfo
  rw [known]
  simp only
  cases cipher : a.encrypt with
  | noPrivacy => exact ⟨sta,unsealed (by simp [cipher,Cipher.hasPn])⟩
  | tkipWtmic => exact ⟨sta,unsealed (by simp [cipher,Cipher.hasPn])⟩
  | sms4 => exact ⟨sta,unsealed (by simp [cipher,Cipher.hasPn])⟩
  | wep40 => exact ⟨_,wepSealed _ (by rw [cipher]; rfl) (by simp [cipher,Cipher.hasPn])⟩
  | wep104 => exact ⟨_,wepSealed _ (by rw [cipher]; rfl) (by simp [cipher,Cipher.hasPn])⟩
  | tkip =>
    exact ⟨takePn sta 0xFFFFFFFFFFFF,⟨rfl,rfl⟩,rfl,⟨rfl,rfl,rfl,rfl,rfl,rfl⟩,rfl,takePn_counted,fun counts => by simp [cipher,Cipher.hasPn] at counts⟩
  | aes => exact ⟨_,pnSealed _ _⟩
  | gcmp => exact ⟨_,pnSealed _ _⟩
  | gcmp256 => exact ⟨_,pnSealed _ _⟩
  | ccmp256 => exact ⟨_,pnSealed _ _⟩

theorem rtwMakeWlanhdr_linked (linked : Linked s a sta) : rtwMakeWlanhdr s hdr a =
    (s.setSta a.psta (numbered sta a).1,(numbered sta a).2,setSeqNum (wlanFields s.cfg hdr a) (nextSeq sta a.priority)) := by
  unfold rtwMakeWlanhdr
  simp only [linked.found,linked.asoc]
  rw [if_neg (by simp),if_neg (by simp),(numbered_attrib sta a).2]

theorem Linked.set (linked : Linked s a sta) (asoc : sta'.asoc = sta.asoc) (ra : a'.ra = a.ra) (psta : a'.psta = a.psta) :
    Linked (s.setSta a.psta sta') a' sta' := by
  constructor
  · rw [ra,psta]
    exact rtwGetStainfo_setSta linked.found
  · rw [asoc]
    exact linked.asoc

structure Headed (nrFrags idx : Nat) (h h' : Heading) (sta sta' : Sta) (hdr : Bytes) : Prop extends SameSta sta sta' where
  tx : h'.tx = h.tx.setSta h.attrib.psta sta'
  attrib : SameAttrib h.attrib h'.attrib
  wlhdr : h'.wlhdr = h.wlhdr ++ [hdr]
  seq : getSequence hdr = nextSeq sta h.attrib.priority
  fragNum : getFragNum hdr = 0
  mfrag : getMFrag hdr = decide (idx ≠ nrFrags - 1)
  txseqTid : sta'.txseqTid h.attrib.priority = nextSeq sta h.attrib.priority
  counted : Counted h.tx.cfg sta → Counted h.tx.cfg sta'
  pn : h.attrib.encrypt.hasPn →
    headPn h.attrib hdr = (sta.txpn+1) % 2^48 ∧ sta'.txpn % 2^48 = (sta.txpn+1) % 2^48

def flagged (nrFrags idx : Nat) (hdr : Bytes) : Bytes := if idx = nrFrags - 1 then clearMFrag hdr else setMFrag hdr

theorem flagged_mfrag (nrFrags idx : Nat) (hdr : Bytes) : getMFrag (flagged nrFrags idx hdr) = decide (idx ≠ nrFrags - 1) := by
  unfold flagged
  split
  · rename_i last
    rw [getMFrag_clearMFrag]
    simp [last]
  · rename_i more
    rw [getMFrag_setMFrag]
    simp [more]

theorem flagged_outside (outside : 2 ≤ i) : flagged nrFrags idx hdr i = hdr i := by
  unfold flagged
  split
  · exact setLe16_outside outside
  · exact setLe16_outside outside

theorem seqctl_congr {p q : Bytes} (low : p 22 = q 22) (high : p 23 = q 23) :
    getSequence p = getSequence q ∧ getFragNum p = getFragNum q := by
  unfold getSequence getFragNum
  rw [le16_congr low high]
  exact ⟨rfl,rfl⟩

theorem getMFrag_congr {p q : Bytes} (low : p 0 = q 0) (high : p 1 = q 1) : getMFrag p = getMFrag q := by
  unfold getMFrag
  rw [le16_congr low high]

def withSnap (idx : Nat) (a : PktAttrib) (hdr : Bytes) : Bytes :=
  if idx = 0 then rtwPutSnap hdr (a.hdrlen+a.ivLen) a.etherType else hdr

theorem withSnap_outside (outside : i < a.hdrlen + a.ivLen) : withSnap idx a hdr i = hdr i := by
  unfold withSnap rtwPutSnap
  split
  · exact memcpy_outside (.inl outside)
  · rfl

theorem wlanFields_numbered (cfg : Config) (raw : Bytes) (a : PktAttrib) (sta : Sta) :
    getSequence (setSeqNum (wlanFields cfg raw a) (nextSeq sta a.priority)) = nextSeq sta a.priority ∧
      getFragNum (setSeqNum (wlanFields cfg raw a) (nextSeq sta a.priority)) = 0 := by
  have clear : le16 (wlanFields cfg raw a) 22 = 0 := by
    unfold le16
    rw [wlanFields_seqctl cfg raw a (by omega) (by omega),wlanFields_seqctl cfg raw a (by omega) (by omega)]
    rfl
  exact setSeqNum_reads _ clear (nextSeq_lt sta a.priority)

theorem head_reads (control : getSequence hdr = seq ∧ getFragNum hdr = 0) (kept : ∀ i < 24, final i = flagged nrFrags idx hdr i) :
    getSequence final = seq ∧ getFragNum final = 0 ∧ getMFrag final = decide (idx ≠ nrFrags - 1) := by
  have same := seqctl_congr ((kept 22 (by omega)).trans (flagged_outside (by omega)))
    ((kept 23 (by omega)).trans (flagged_outside (by omega)))
  have mfrag := getMFrag_congr (kept 0 (by omega)) (kept 1 (by omega))
  exact ⟨same.1.trans control.1,same.2.trans control.2,mfrag.trans (flagged_mfrag nrFrags idx hdr)⟩

theorem fillHead_bare (made : rtwMakeWlanhdr h.tx (raw idx) h.attrib = (s,a,hdr)) (bare : a.ivLen = 0) :
    fillHead raw nrFrags h idx = ⟨s,a,h.wlhdr ++ [withSnap idx a (flagged nrFrags idx hdr)]⟩ := by
  unfold fillHead
  rw [made]
  simp only [bare]
  rfl

theorem fillHead_iv (made : rtwMakeWlanhdr h.tx (raw idx) h.attrib = (s,a,hdr)) (iv : a.ivLen ≠ 0)
    (done : updateAttribSecIvInfo s a = (s',a')) : fillHead raw nrFrags h idx =
      ⟨s',a',h.wlhdr ++ [withSnap idx a' (memcpy (flagged nrFrags idx hdr) a'.hdrlen a'.iv a'.ivLen)]⟩ := by
  unfold fillHead
  rw [made]
  simp only [if_pos iv,done]
  rfl

theorem fillHead_spec (raw : Nat → Bytes) (nrFrags idx : Nat) (linked : Linked h.tx h.attrib sta)
    (ciphered : Ciphered h.tx.cfg sta h.attrib) :
    ∃ sta' hdr, Headed nrFrags idx h (fillHead raw nrFrags h idx) sta sta' hdr := by
  obtain ⟨same,_⟩ := numbered_attrib sta h.attrib
  have given := numbered_sta sta h.attrib
  have fields := wlanFields_numbered h.tx.cfg (raw idx) h.attrib sta
  have counts : (numbered sta h.attrib).1.txseqTid h.attrib.priority = nextSeq sta h.attrib.priority := by
    rw [given.txseqTid,update_self]
  generalize plain : setSeqNum (wlanFields h.tx.cfg (raw idx) h.attrib) (nextSeq sta h.attrib.priority) = hdr at fields
  generalize numberedEq : numbered sta h.attrib = n at same given counts
  obtain ⟨sta1,a1⟩ := n
  have made : rtwMakeWlanhdr h.tx (raw idx) h.attrib = (h.tx.setSta h.attrib.psta sta1,a1,hdr) := by
    rw [rtwMakeWlanhdr_linked linked,numberedEq,plain]
  have room := h.attrib.room
  by_cases bare : a1.ivLen = 0
  · have final : fillHead raw nrFrags h idx = _ := fillHead_bare made bare
    have kept : ∀ i < 24, withSnap idx a1 (flagged nrFrags idx hdr) i = flagged nrFrags idx hdr i := fun i inside =>
      withSnap_outside (by rw [same.hdrlen]; omega)
    have read := head_reads fields kept
    refine ⟨sta1,_,given.toSameSta,?_,?_,?_,read.1,read.2.1,read.2.2,counts,given.counted,?_⟩
    · rw [final]
    · rw [final]
      exact same
    · rw [final]
    · intro hasPn
      have lens : h.attrib.ivLen = (secLens h.attrib.encrypt).1 := h.attrib.ivFits
      rw [← same.ivLen,bare] at lens
      cases cipher : h.attrib.encrypt <;> simp [cipher,secLens,Recv.Cipher.hasPn] at lens hasPn
  · have known : (h.tx.setSta h.attrib.psta sta1).stas a1.psta = some sta1 := by
      rw [same.psta]
      exact update_self ..
    have ciphered1 : Ciphered (h.tx.setSta h.attrib.psta sta1).cfg sta1 a1 := by
      unfold Ciphered
      rw [same.encrypt,getEncryAlgo_congr given.privacy]
      exact ciphered
    obtain ⟨sta2,done⟩ := updateAttribSecIvInfo_spec known ciphered1
    generalize ivEq : updateAttribSecIvInfo (h.tx.setSta h.attrib.psta sta1) a1 = r at done
    obtain ⟨tx2,a2⟩ := r
    have final : fillHead raw nrFrags h idx = _ := fillHead_iv made bare ivEq
    have attribs := same.trans done.attrib
    have kept : ∀ i < 24, withSnap idx a2 (memcpy (flagged nrFrags idx hdr) a2.hdrlen a2.iv a2.ivLen) i = flagged nrFrags idx hdr i := by
      intro i inside
      rw [withSnap_outside (by rw [attribs.hdrlen]; omega),memcpy_outside (.inl (by rw [attribs.hdrlen]; omega))]
    have read := head_reads fields kept
    refine ⟨sta2,_,?_,?_,?_,?_,read.1,read.2.1,read.2.2,?_,?_,?_⟩
    · exact ⟨done.asoc.trans given.asoc,done.privacy.trans given.privacy⟩
    · rw [final]
      have moved := done.tx
      rw [same.psta] at moved
      simpa [Tx.setSta] using moved
    · rw [final]
      exact attribs
    · rw [final]
    · rw [done.txseqTid]
      exact counts
    · intro counted
      exact done.counted (given.counted counted)
    · intro hasPn
      obtain ⟨next,old,kid,iv⟩ := done.pn (by rw [same.encrypt]; exact hasPn)
      rw [given.txpn] at next
      refine ⟨?_,next⟩
      have eight : a2.ivLen = 8 := by
        rw [a2.ivFits,attribs.encrypt]
        cases cipher : h.attrib.encrypt <;> simp [cipher,secLens,Recv.Cipher.hasPn] at hasPn ⊢
      rw [← next]
      have held : ∀ i < 8, withSnap idx a2 (memcpy (flagged nrFrags idx hdr) a2.hdrlen a2.iv a2.ivLen) (h.attrib.hdrlen+i) =
          aesIv old sta2.txpn kid i := by
        intro i inside
        rw [withSnap_outside (by rw [attribs.hdrlen,eight]; omega),← attribs.hdrlen,memcpy_inside (by omega),iv]
      exact aesIv_pn _ held

end Rtl8852au.TxHead
