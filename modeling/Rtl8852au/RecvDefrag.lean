import Rtl8852au.RecvRound

namespace Rtl8852au.Recv
open Option Bool

section
variable (ptr : Bytes)

-- What an MPDU says about itself.
def ownA4 : Nat := if getToFrDs ptr = 3 then 6 else 0
def ownTid : Nat := if isQos ptr then getPriority ptr (ownA4 ptr) else 0
def ownHdrlen : Nat := (if isQos ptr then 26 else 24) + ownA4 ptr + (if getOrder ptr then 4 else 0)
def ownPn : Nat := ccmph2Pn (le64 ptr (ownHdrlen ptr))

def ownCipher (cfg : Config) (sta : Station) (ptr : Bytes) : Cipher :=
  if getPrivacy ptr then getEncryAlgo cfg sta (isMcast (getAddr1 ptr)) else .noPrivacy

structure Alike (f g : RecvFrame) : Prop where
  seq : getSequence g.mpdu = getSequence f.mpdu
  tid : ownTid g.mpdu = ownTid f.mpdu
  privacy : getPrivacy g.mpdu = getPrivacy f.mpdu
  encrypt : g.attrib.encrypt = f.attrib.encrypt

structure Intact (fragments : List RecvFrame) : Prop where
  numbered : ∀ i f, fragments[i]? = some f → getFragNum f.mpdu = i
  transmitter : ∀ f ∈ fragments, ∀ g ∈ fragments, getAddr2 g.mpdu = getAddr2 f.mpdu
  alike : ∀ f ∈ fragments, ∀ g ∈ fragments, Alike f g
  keytrack : ∀ f ∈ fragments, ∀ g ∈ fragments, g.keytrack = f.keytrack
  unicast : ∀ f ∈ fragments, isMcast (getAddr1 f.mpdu) = false
  consecutive : ∀ i f g, fragments[i]? = some f → fragments[i+1]? = some g → getPrivacy f.mpdu →
    f.attrib.encrypt.hasPn → ownPn g.mpdu = ownPn f.mpdu + 1

def mgntLast (s : Rx) (pkt : RxPacket) : Option (Addr × Station) :=
  match rtwAllocRecvframe s with
  | none => none
  | some (f,s) =>
    match rtwCoreUpdateRecvframe s pkt f with
    | (s,f,.continue_) =>
      if f.attrib.icvErr || f.attrib.crcErr || !s.cfg.up || getVersion f.rxData != 0 || getFrameType f.rxData != .mgnt then none
      else
        match validateMgmtProtect s pkt (parsed f) with
        | (s,f,.success) => if !f.attrib.mfrag && f.attrib.fragNum != 0 then defragQueue s f else none
        | _ => none
    | _ => none

def isFragment : Bool := getMFrag ptr || getFragNum ptr != 0

def startsMsdu : Bool := getMFrag ptr && getFragNum ptr == 0
end

def sameMsdu (cfg : Config) (sta : Station) (ptr : Bytes) (g : RecvFrame) : Bool :=
  getSequence g.mpdu == getSequence ptr && ownTid g.mpdu == ownTid ptr && getPrivacy g.mpdu == getPrivacy ptr &&
    g.attrib.encrypt == ownCipher cfg sta ptr

-- The tests that are missing: a data fragment is individually addressed on both
-- sides and belongs to the fragments it is put behind, and a management frame
-- is not put behind any.
def oneMsdu (s : Rx) : Event → Bool
  | .rx pkt =>
    let ptr := pkt.mpdu
    (getFrameType ptr != .data || !isFragment ptr ||
      (!isMcast (getAddr1 ptr) && !isMcast (getAddr2 ptr) &&
        (startsMsdu ptr || (s.stations (getAddr2 ptr)).all fun sta => sta.defragQ.all (sameMsdu s.cfg sta ptr)))) &&
      (mgntLast s pkt).all fun found => found.2.defragQ.isEmpty
  | _ => true

theorem appendFragment_same : SameFrame prframe (appendFragment prframe next) := by
  unfold appendFragment recvframePut recvframePullTail
  simp only
  split <;> split <;> exact ⟨⟨rfl,rfl⟩,rfl,rfl⟩

theorem appendFragment_keytrack : (appendFragment prframe next).keytrack = prframe.keytrack := by
  unfold appendFragment recvframePut recvframePullTail
  simp only
  split <;> split <;> rfl

theorem joinFragments_next : joinFragments prframe curPn number (next :: rest) = some result ↔
    (next.attrib.encrypt.hasPn → framePn next = curPn+1) ∧ next.keytrack = prframe.keytrack ∧
      next.attrib.fragNum = number ∧ joinFragments (appendFragment prframe next)
        (if next.attrib.encrypt.hasPn then framePn next else curPn) (number+1) rest = some result := by
  rw [joinFragments]
  split
  · rename_i order
    simp only [and_eq_true,bne_iff_ne] at order
    exact iff_of_false nofun fun turn => order.2 (turn.1 order.1)
  · rename_i order
    have inOrder : next.attrib.encrypt.hasPn → framePn next = curPn + 1 := by simpa using order
    split
    · rename_i track
      exact iff_of_false nofun fun turn => by simp [turn.2.1] at track
    · rename_i track
      split
      · rename_i count
        exact iff_of_false nofun fun turn => by simp [turn.2.2.1] at count
      · rename_i count
        have same : next.keytrack = prframe.keytrack := by simpa using Eq.symm (by simpa using track)
        have counted : next.attrib.fragNum = number := by simpa using Eq.symm (by simpa using count)
        exact ⟨fun join => ⟨inOrder,same,counted,join⟩,fun turn => turn.2.2.2⟩

section
variable (join : joinFragments prframe curPn number rest = some result)
include join

theorem joinFragments_same : SameFrame prframe result := by
  induction rest generalizing prframe curPn number with
  | nil =>
    cases join
    exact .refl _
  | cons next rest ih => exact appendFragment_same.trans (ih (joinFragments_next.mp join).2.2.2)

theorem joinFragments_numbered :
    ∀ i f, rest[i]? = some f → f.attrib.fragNum = number + i ∧ f.keytrack = prframe.keytrack := by
  induction rest generalizing prframe curPn number with
  | nil =>
    intro i f at_
    simp at at_
  | cons next rest ih =>
    obtain ⟨_,track,count,join⟩ := joinFragments_next.mp join
    intro i f at_
    cases i with
    | zero =>
      have head : next = f := by simpa using at_
      rw [← head]
      exact ⟨count,track⟩
    | succ i =>
      obtain ⟨order,same⟩ := ih join i f (by simpa using at_)
      exact ⟨by omega,same.trans appendFragment_keytrack⟩

theorem joinFragments_consecutive
    (all : ∀ f ∈ rest, f.attrib.encrypt.hasPn) : ∀ i f, rest[i]? = some f → framePn f = curPn + 1 + i := by
  induction rest generalizing prframe curPn number with
  | nil =>
    intro i f at_
    simp at at_
  | cons next rest ih =>
    have protectedNext := all next (by simp)
    obtain ⟨order,_,_,join⟩ := joinFragments_next.mp join
    have pn := order protectedNext
    rw [if_pos protectedNext,pn] at join
    intro i f at_
    cases i with
    | zero =>
      have head : next = f := by simpa using at_
      rw [← head,pn]
    | succ i =>
      have later := ih join (fun f member => all f (by simp [member])) i f (by simpa using at_)
      omega
end

structure Shrinks (s s' : Rx) : Prop where
  queues : ∀ key sta', s'.stations key = some sta' → ∀ f ∈ sta'.defragQ, ∃ sta, s.stations key = some sta ∧ f ∈ sta.defragQ
  joined : ∀ fragments, .joined fragments ∈ s'.log → .joined fragments ∈ s.log

theorem Shrinks.refl (s : Rx) : Shrinks s s := ⟨fun _ sta known _ member => ⟨sta,known,member⟩,fun _ noted => noted⟩

theorem Shrinks.trans (first : Shrinks s t) (second : Shrinks t u) : Shrinks s u := by
  refine ⟨?_,fun fragments noted => first.joined _ (second.joined _ noted)⟩
  intro key sta' known f member
  obtain ⟨sta,between,there⟩ := second.queues key sta' known f member
  exact first.queues key sta between f there

theorem Shrinks.logged (stations : s'.stations = s.stations) (log : s'.log = s.log ++ notes)
    (other : ∀ fragments, .joined fragments ∉ notes) : Shrinks s s' := by
  refine ⟨fun _ sta known _ member => ⟨sta,stations ▸ known,member⟩,?_⟩
  intro fragments noted
  rw [log] at noted
  exact (List.mem_append.mp noted).resolve_right (other fragments)

theorem Shrinks.note (other : ∀ fragments, n ≠ .joined fragments) : Shrinks s (s.note n) :=
  .logged rfl rfl fun fragments noted => other fragments (List.mem_singleton.mp noted).symm

theorem Shrinks.setStation (known : s.stations key = some sta) (kept : sta'.defragQ = sta.defragQ) :
    Shrinks s (s.setStation key sta') := by
  refine ⟨?_,fun _ noted => noted⟩
  intro other found there f member
  by_cases same : other = key
  · subst same
    have now : sta' = found := by simpa [Rx.setStation] using there
    rw [← now,kept] at member
    exact ⟨sta,known,member⟩
  · exact ⟨found,by simpa [Rx.setStation,same] using there,member⟩

theorem Shrinks.free : Shrinks s (rtwFreeRecvframe s f) := by
  refine Shrinks.trans (t := s.unlink f.id) ⟨?_,fun _ noted => noted⟩ ?_
  · intro key sta' known g member
    simp only [Rx.unlink,map_eq_some_iff] at known
    obtain ⟨sta,before,rfl⟩ := known
    exact ⟨sta,before,(List.mem_filter.mp member).1⟩
  · refine Shrinks.trans (t := {s.unlink f.id with
      freeQueue := (s.unlink f.id).freeQueue ++ [{f with len:=0,hasPkt:=false}],freeCnt := (s.unlink f.id).freeCnt + 1})
      ⟨fun _ sta known _ member => ⟨sta,known,member⟩,fun _ noted => noted⟩ ?_
    exact .note (by simp)

theorem free_removes (known : (rtwFreeRecvframe s f).stations key = some sta) : ∀ g ∈ sta.defragQ, g.id ≠ f.id := by
  have stations : (rtwFreeRecvframe s f).stations key = (s.unlink f.id).stations key := rfl
  simp only [stations,Rx.unlink,map_eq_some_iff] at known
  obtain ⟨before,_,rfl⟩ := known
  intro g member
  simpa using (List.mem_filter.mp member).2

theorem Shrinks.freeQueue : Shrinks s (rtwFreeRecvframeQueue s q) := by
  induction q generalizing s with
  | nil => exact .refl s
  | cons f rest ih => exact Shrinks.free.trans ih

theorem freeQueue_removes (known : (rtwFreeRecvframeQueue s queue).stations key = some sta) :
    ∀ g ∈ sta.defragQ, ∀ f ∈ queue, g.id ≠ f.id := by
  induction queue generalizing s with
  | nil => simp
  | cons first rest ih =>
    intro g member f there
    rcases List.mem_cons.mp there with rfl | later
    · obtain ⟨sta',between,before⟩ := (Shrinks.freeQueue (s := rtwFreeRecvframe s f) (q := rest)).queues key sta known g member
      exact free_removes between g before
    · exact ih known g member f later

theorem freeQueue_known (known : s.stations key = some sta) :
    ∃ sta', (rtwFreeRecvframeQueue s queue).stations key = some sta' := by
  induction queue generalizing s sta with
  | nil => exact ⟨sta,known⟩
  | cons f rest ih =>
    have next : (rtwFreeRecvframe s f).stations key = some {sta with defragQ:=sta.defragQ.filter fun g => g.id != f.id} := by
      have stations : (rtwFreeRecvframe s f).stations key = (s.unlink f.id).stations key := rfl
      rw [stations]
      simp [Rx.unlink,known]
    exact ih next

theorem rtwGetStainfo_spec (found : rtwGetStainfo s addr = some (key,sta)) :
    s.stations key = some sta ∧ key = if isMcast addr then s.cfg.selfSta else addr := by
  unfold rtwGetStainfo at found
  simp only [map_eq_some_iff,Prod.mk.injEq] at found
  obtain ⟨sta',known,rfl,rfl⟩ := found
  exact ⟨known,rfl⟩

theorem recvDecache_keeps (fresh : recvDecache sta a = some sta') :
    sta'.defragQ = sta.defragQ ∧ sta'.conf = sta.conf ∧ sta'.keytrack = sta.keytrack := by
  unfold recvDecache at fresh
  simp only at fresh
  split at fresh
  · cases fresh
  · split at fresh
    · split at fresh
      all_goals
        split at fresh
        · cases fresh
        · cases fresh
          exact ⟨rfl,rfl,rfl⟩
    · split at fresh
      all_goals
        split at fresh
        · cases fresh
        · cases fresh
          exact ⟨rfl,rfl,rfl⟩

theorem recvUcastPnDecache_keeps (fresh : recvUcastPnDecache sta a ptr = some sta') : sta'.defragQ = sta.defragQ := by
  unfold recvUcastPnDecache at fresh
  simp only at fresh
  split at fresh
  · cases fresh
  · split at fresh
    · split at fresh
      · cases fresh
        rfl
      · cases fresh
        rfl
    · cases fresh
      rfl

theorem pnDecache_spec (fresh : pnDecache s key sta f = some s') :
    ∃ sta' ivSeq, s' = {s.setStation key sta' with ivSeq:=ivSeq} ∧ sta'.defragQ = sta.defragQ := by
  unfold pnDecache at fresh
  split at fresh
  · obtain ⟨ivSeq,_,rfl⟩ := map_eq_some_iff.mp fresh
    exact ⟨sta,ivSeq,rfl,rfl⟩
  · obtain ⟨sta',kept,rfl⟩ := map_eq_some_iff.mp fresh
    exact ⟨sta',s.ivSeq,rfl,recvUcastPnDecache_keeps kept⟩

theorem pnDecache_shrinks (known : s.stations key = some sta) (kept : sta'.defragQ = sta.defragQ)
    (fresh : pnDecache s key sta' f = some s') : Shrinks s s' := by
  obtain ⟨now,ivSeq,rfl,same⟩ := pnDecache_spec fresh
  have set := Shrinks.setStation known (same.trans kept)
  exact ⟨set.queues,set.joined⟩

theorem noteAccepted_shrinks : Shrinks s (noteAccepted s f) := by
  rcases noteAccepted_ways s f with same | ⟨_,_,same⟩ <;> rw [same]
  · exact .refl s
  · exact .note (by simp)

theorem DataFrame.shrinks (data : DataFrame s f s' g ret) : Shrinks s s' := by
  cases data with
  | refused => exact .refl s
  | repeated found _ fresh => exact .setStation (rtwGetStainfo_spec found).1 (recvDecache_keeps fresh).1
  | plaintext found _ fresh pn => exact pnDecache_shrinks (rtwGetStainfo_spec found).1 (recvDecache_keeps fresh).1 pn
  | accepted found _ fresh pn =>
    exact (pnDecache_shrinks (rtwGetStainfo_spec found).1 (recvDecache_keeps fresh).1 pn).trans noteAccepted_shrinks

theorem Protected.shrinks (checked : Protected s pkt f s' g ret) : Shrinks s s' := by
  rcases checked.ways with rfl | ⟨_,rfl⟩
  · exact .refl _
  · exact Shrinks.trans (t := {s with bipRxpn:=mmeIpn s.cfg f}) ⟨fun _ sta known _ member => ⟨sta,known,member⟩,fun _ noted => noted⟩
      (.note (by simp))

theorem staOp_shrinks (s : Rx) (op : StaOp) : Shrinks s (staOp s op) := by
  cases op with
  | alloc addr conf =>
    simp only [staOp,rtwAllocStainfo]
    split
    · exact .refl s
    · refine ⟨?_,fun _ noted => noted⟩
      intro key sta known f member
      by_cases same : key = addr
      · subst same
        have now : newStation conf = sta := by simpa [Rx.setStation] using known
        rw [← now] at member
        exact absurd member (by simp [newStation])
      · exact ⟨sta,by simpa [Rx.setStation,same] using known,member⟩
  | free addr =>
    simp only [staOp,rtwFreeStainfo]
    split
    · exact .refl s
    · refine Shrinks.freeQueue.trans ⟨?_,fun _ noted => noted⟩
      intro key sta known f member
      by_cases same : key = addr
      · subst same
        simp at known
      · exact ⟨sta,by simpa [same] using known,member⟩
  | conf addr conf =>
    simp only [staOp]
    split
    · exact .refl s
    · rename_i known
      exact .setStation known rfl
  | key addr =>
    simp only [staOp]
    split
    · exact .refl s
    · rename_i known
      exact .setStation known rfl

theorem mgtDispatcher_shrinks : Shrinks s (mgtDispatcher s pkt) := by
  unfold mgtDispatcher
  generalize pkt.dispatched = ops
  induction ops generalizing s with
  | nil => exact .refl s
  | cons op rest ih => exact (staOp_shrinks s op).trans ih

theorem delivered_shrinks : Shrinks s (delivered s f ethTypes) := .logged rfl rfl (by simp)
theorem takenFor_shrinks : Shrinks s (takenFor s pkt f rest) := .logged rfl rfl (by simp)

theorem setEncrypt_spec (cfg : Config) (sta : Station) (a : Attrib) : ∃ encrypt,
    encrypt = (if a.privacy then getEncryAlgo cfg sta (isMcast a.ra) else .noPrivacy) ∧
      setEncrypt cfg sta a = {a with encrypt,ivLen:=(setIceIvLen encrypt).1,icvLen:=(setIceIvLen encrypt).2} := by
  unfold setEncrypt
  cases a.privacy with
  | true => exact ⟨_,rfl,rfl⟩
  | false => exact ⟨.noPrivacy,rfl,rfl⟩

theorem hasPn_ivLen (cipher : Cipher) (counted : cipher.hasPn) : (setIceIvLen cipher).1 = 8 := by
  cases cipher <;> first | rfl | cases counted

theorem leBytes_congr {p q : Bytes} (same : ∀ i < count, p (at_+i) = q (at_+i)) :
    leBytes p at_ count = leBytes q at_ count := by
  have listed (r : Bytes) : leBytes r at_ count =
      ((List.range count).map fun i => r (at_+i)).foldr (fun byte high => byte.toNat + 0x100*high) 0 := by
    rw [List.foldr_map]
    rfl
  rw [listed p,listed q,List.map_congr_left fun i member => same i (List.mem_range.mp member)]

theorem getFrameType_congr {p q : Bytes} (first : p 0 = q 0) (second : p 1 = q 1) : getFrameType p = getFrameType q := by
  have same : le16 p 0 = le16 q 0 := by unfold le16; rw [first,second]
  unfold getFrameType
  rw [same]

theorem ownHdrlen_ge (ptr : Bytes) : 24 ≤ ownHdrlen ptr := by
  unfold ownHdrlen
  split <;> omega

structure OwnAttrib (s : Rx) (ptr : Bytes) (a : Attrib) : Prop where
  ra : a.ra = getAddr1 ptr
  ta : a.ta = getAddr2 ptr
  mfrag : a.mfrag = getMFrag ptr
  fragNum : a.fragNum = getFragNum ptr
  privacy : a.privacy = getPrivacy ptr
  amsdu : a.amsdu = (isQos ptr && getAMsdu ptr (ownA4 ptr))
  hdrlen : a.hdrlen = ownHdrlen ptr
  encrypt : ∃ key sta, rtwGetStainfo s (getAddr2 ptr) = some (key,sta) ∧ a.encrypt = ownCipher s.cfg sta ptr
  ivLen : a.ivLen = (setIceIvLen a.encrypt).1
  icvLen : a.icvLen = (setIceIvLen a.encrypt).2

structure DataOf (s : Rx) (pkt : RxPacket) (f : RecvFrame) : Prop extends OwnAttrib s pkt.mpdu f.attrib where
  mpdu : f.mpdu = pkt.mpdu
  type : getFrameType pkt.mpdu = .data
  header : ∀ i, i < f.attrib.hdrlen + f.attrib.ivLen → f.rxData i = pkt.mpdu i

theorem DataOf.typeNow (data : DataOf s pkt f) : getFrameType f.rxData = .data := by
  have long := ownHdrlen_ge pkt.mpdu
  rw [← data.hdrlen] at long
  exact (getFrameType_congr (data.header 0 (by omega)) (data.header 1 (by omega))).trans data.type

theorem DataOf.pn (data : DataOf s pkt f) (counted : f.attrib.encrypt.hasPn) : framePn f = ownPn f.mpdu := by
  unfold framePn ownPn le64
  rw [data.mpdu,data.hdrlen]
  refine congrArg _ (leBytes_congr fun i below => ?_)
  apply data.header
  rw [data.hdrlen,data.ivLen,hasPn_ivLen _ counted]
  omega

theorem DataFrame.success (data : DataFrame s f s' g .success) : ∃ key sta sta' dst src bssid t,
    rtwGetStainfo s (getAddr2 f.rxData) = some (key,sta) ∧
      recvDecache sta (parseQc (addressed (dataAttrib f) f.rxData dst src bssid) f.rxData) = some sta' ∧
      pnDecache s key sta' {f with attrib:=parseQc (addressed (dataAttrib f) f.rxData dst src bssid) f.rxData} = some t ∧
      g = {f with attrib:=setEncrypt t.cfg sta' (parseQc (addressed (dataAttrib f) f.rxData dst src bssid) f.rxData)} ∧
      plaintextAllowed t.cfg sta' g ∧ s' = noteAccepted t g := by
  cases data with
  | refused _ failed => exact absurd rfl failed
  | accepted found own fresh pn accepted allowed =>
    rw [own] at fresh pn accepted
    exact ⟨_,_,_,_,_,_,_,found,fresh,pn,accepted,allowed,rfl⟩

theorem setEncrypt_own (dst src bssid : Addr) (found : rtwGetStainfo s (getAddr2 f.rxData) = some (key,sta))
    (conf : sta'.conf = sta.conf) :
    OwnAttrib s f.rxData (setEncrypt s.cfg sta'
      (parseQc (addressed (dataAttrib (parsedData f)) f.rxData dst src bssid) f.rxData)) := by
  obtain ⟨encrypt,cipher,attrib⟩ := setEncrypt_spec s.cfg sta'
    (parseQc (addressed (dataAttrib (parsedData f)) f.rxData dst src bssid) f.rxData)
  rw [attrib]
  refine ⟨rfl,rfl,rfl,rfl,rfl,rfl,rfl,⟨key,sta,found,?_⟩,rfl,rfl⟩
  rw [cipher]
  unfold ownCipher getEncryAlgo
  rw [conf]
  rfl

theorem Checked.data (checked : Checked s pkt s2 f) : DataOf s pkt f ∧ Shrinks s s2 := by
  obtain ⟨entered,validated,plain⟩ := checked
  obtain ⟨taken,_,_⟩ := entered
  obtain ⟨f0,rest,queue,rfl,_,_,full⟩ := taken.spec
  cases full rfl
  cases validated with
  | data type result =>
    have ways := dataFrame_ways result
    refine ⟨?_,takenFor_shrinks.trans ways.shrinks⟩
    obtain ⟨key,sta,sta',dst,src,bssid,t,found,fresh,pn,rfl,_,_⟩ := ways.success
    obtain ⟨now,ivSeq,rfl,_⟩ := pnDecache_spec pn
    have own := setEncrypt_own (s := takenFor s pkt f0 rest) (f := filled s pkt {f0 with rxReq:=none}) dst src bssid
      found (recvDecache_keeps fresh).2.1
    obtain ⟨bytes,kept,rfl⟩ := decryptor_spec plain
    exact ⟨{own with},rfl,type,kept⟩

structure Own (key : Addr) (f : RecvFrame) : Prop where
  transmitter : getAddr2 f.mpdu = key
  unicast : isMcast (getAddr1 f.mpdu) = false
  fragNum : f.attrib.fragNum = getFragNum f.mpdu
  pn : f.attrib.encrypt.hasPn → framePn f = ownPn f.mpdu

structure Collectable (key : Addr) (queue : List RecvFrame) : Prop where
  own : ∀ f ∈ queue, Own key f
  alike : ∀ f ∈ queue, ∀ g ∈ queue, Alike f g

structure DefragInv (s : Rx) : Prop where
  queues : ∀ key sta, s.stations key = some sta → Collectable key sta.defragQ
  intact : ∀ fragments, .joined fragments ∈ s.log → Intact fragments

theorem Alike.refl (f : RecvFrame) : Alike f f := ⟨rfl,rfl,rfl,rfl⟩
theorem Alike.symm (alike : Alike f g) : Alike g f := ⟨alike.seq.symm,alike.tid.symm,alike.privacy.symm,alike.encrypt.symm⟩

theorem Collectable.subset (all : Collectable key queue) (less : ∀ f ∈ queue', f ∈ queue) : Collectable key queue' :=
  ⟨fun f member => all.own f (less f member),fun f first g second => all.alike f (less f first) g (less g second)⟩

theorem Collectable.snoc (all : Collectable key queue) (own : Own key f) (alike : ∀ g ∈ queue, Alike f g) :
    Collectable key (queue ++ [f]) := by
  refine ⟨?_,?_⟩
  · intro g member
    rcases List.mem_append.mp member with before | now
    · exact all.own g before
    · rw [List.mem_singleton.mp now]
      exact own
  · intro g first h second
    rcases List.mem_append.mp first with before | now
    · rcases List.mem_append.mp second with before' | now'
      · exact all.alike g before h before'
      · rw [List.mem_singleton.mp now']
        exact (alike g before).symm
    · rw [List.mem_singleton.mp now]
      rcases List.mem_append.mp second with before' | now'
      · exact alike h before'
      · rw [List.mem_singleton.mp now']
        exact .refl f

theorem DefragInv.shrink (inv : DefragInv s) (less : Shrinks s s') : DefragInv s' := by
  refine ⟨?_,fun fragments noted => inv.intact fragments (less.joined fragments noted)⟩
  intro key sta' known
  cases queue : sta'.defragQ with
  | nil => exact ⟨by simp,by simp⟩
  | cons first rest =>
    rw [← queue]
    obtain ⟨sta,before,_⟩ := less.queues key sta' known first (by simp [queue])
    refine (inv.queues key sta before).subset ?_
    intro f member
    obtain ⟨found,again,there⟩ := less.queues key sta' known f member
    cases before.symm.trans again
    exact there

theorem DefragInv.collected (inv : DefragInv s) (all : Collectable key (sta.defragQ ++ [f])) :
    DefragInv (collected s key sta f) := by
  refine DefragInv.shrink (s := setDefragQ s key sta (sta.defragQ ++ [f])) ⟨?_,inv.intact⟩ (.note (by simp))
  intro other found known
  by_cases same : other = key
  · subst same
    have now : {sta with defragQ:=sta.defragQ ++ [f]} = found := by simpa [setDefragQ,Rx.setStation] using known
    rw [← now]
    exact all
  · exact inv.queues other found (by simpa [setDefragQ,Rx.setStation,same] using known)

theorem freeQueue_emptied (known : (rtwFreeRecvframeQueue s rest).stations key' = some sta') (member : f ∈ sta'.defragQ)
    (here : ∀ sta, s.stations key = some sta → ∀ g ∈ sta.defragQ, g ∈ rest) : key' ≠ key := by
  rintro rfl
  obtain ⟨sta,before,there⟩ := (Shrinks.freeQueue (s := s) (q := rest)).queues key' sta' known f member
  exact freeQueue_removes known f member f (here sta before f there) rfl

theorem setDefragQ_queues (known : (setDefragQ s key sta rest).stations key = some sta') : sta'.defragQ = rest := by
  have now : {sta with defragQ:=rest} = sta' := by simpa [setDefragQ,Rx.setStation] using known
  rw [← now]

theorem setDefragQ_other (known : (setDefragQ s key sta rest).stations key' = some sta') (other : key' ≠ key) :
    s.stations key' = some sta' := by simpa [setDefragQ,Rx.setStation,other] using known

theorem emptied_shrinks (less : Shrinks ((setDefragQ (collected s key sta f) key sta' rest).note (.unqueue buffer)) t)
    (empty : ∀ key' found g, t.stations key' = some found → g ∈ found.defragQ → key' ≠ key) : Shrinks s t := by
  refine ⟨?_,?_⟩
  · intro key' found known g member
    have other := empty key' found g known member
    obtain ⟨before,set,there⟩ := less.queues key' found known g member
    exact ⟨before,setDefragQ_other (setDefragQ_other set other) other,there⟩
  · intro fragments noted
    have unqueued := (Shrinks.note (s := setDefragQ (collected s key sta f) key sta' rest) (n := .unqueue buffer) (by simp)).joined _
      (less.joined fragments noted)
    exact (Shrinks.note (s := setDefragQ s key sta (sta.defragQ ++ [f])) (n := .queue f.id key) (by simp)).joined _ unqueued

theorem givenUp_shrinks : Shrinks s (givenUp (collected s key sta f) key sta' first rest) := by
  refine emptied_shrinks (Shrinks.free.trans Shrinks.freeQueue) ?_
  intro key' found g known member
  refine freeQueue_emptied known member ?_
  intro between there h inside
  obtain ⟨before,set,there⟩ := Shrinks.free.queues key between there h inside
  rwa [setDefragQ_queues set] at there

theorem reassembled_keeps (inv : DefragInv s) (intact : Intact (first :: rest)) :
    DefragInv (reassembled (collected s key sta f) key sta' first rest) := by
  have less : Shrinks s (rtwFreeRecvframeQueue ((setDefragQ (collected s key sta f) key sta' rest).note (.unqueue first.id)) rest) := by
    refine emptied_shrinks Shrinks.freeQueue ?_
    intro key' found g known member
    refine freeQueue_emptied known member ?_
    intro between there h inside
    rwa [setDefragQ_queues there] at inside
  have before := inv.shrink less
  refine ⟨before.queues,?_⟩
  intro fragments noted
  rcases List.mem_append.mp noted with earlier | now
  · exact before.intact fragments earlier
  · cases List.mem_singleton.mp now
    exact intact

theorem free_collected_shrinks (known : s.stations key = some before) (less : ∀ g ∈ sta.defragQ, g ∈ before.defragQ)
    (same : SameBuffer f h) : Shrinks s (rtwFreeRecvframe (collected s key sta f) h) := by
  refine ⟨?_,?_⟩
  · intro key' found there g member
    have removed := free_removes there g member
    obtain ⟨between,set,inside⟩ := Shrinks.free.queues key' found there g member
    by_cases here : key' = key
    · subst here
      rw [setDefragQ_queues set] at inside
      rcases List.mem_append.mp inside with old | new
      · exact ⟨before,known,less g old⟩
      · rw [List.mem_singleton.mp new] at removed
        exact absurd same.id.symm removed
    · exact ⟨between,setDefragQ_other set here,inside⟩
  · intro fragments noted
    exact (Shrinks.note (s := setDefragQ s key sta (sta.defragQ ++ [f])) (n := .queue f.id key) (by simp)).joined _
      (Shrinks.free.joined fragments noted)

theorem reassembled_intact (all : Collectable key (first :: rest)) (start : first.attrib.fragNum = 0)
    (join : joinedFrom first rest = some prframe) : Intact (first :: rest) := by
  have numbered := joinFragments_numbered join
  have tracks : ∀ f ∈ first :: rest, f.keytrack = first.keytrack := by
    intro f member
    rcases List.mem_cons.mp member with rfl | later
    · rfl
    · obtain ⟨i,at_⟩ := List.mem_iff_getElem?.mp later
      exact (numbered i f at_).2
  refine ⟨?_,?_,all.alike,?_,fun f member => (all.own f member).unicast,?_⟩
  · intro i f at_
    have own := (all.own f (List.mem_of_getElem? at_)).fragNum
    cases i with
    | zero =>
      have head : first = f := by simpa using at_
      rw [← own,← head,start]
    | succ i =>
      have order := (numbered i f (by simpa using at_)).1
      rw [← own,order]
      omega
  · intro f member g member'
    rw [(all.own f member).transmitter,(all.own g member').transmitter]
  · intro f member g member'
    rw [tracks f member,tracks g member']
  · intro i f g at_ next _ counted
    have member := List.mem_of_getElem? at_
    have all' : ∀ h ∈ first :: rest, h.attrib.encrypt.hasPn := by
      intro h inside
      rw [(all.alike f member h inside).encrypt]
      exact counted
    have own (h : RecvFrame) (inside : h ∈ first :: rest) := (all.own h inside).pn (all' h inside)
    unfold joinedFrom at join
    rw [all' first (by simp),if_pos rfl] at join
    have pns := joinFragments_consecutive join (fun h inside => all' h (by simp [inside]))
    have later := pns i g (by simpa using next)
    rw [own g (List.mem_of_getElem? next)] at later
    cases i with
    | zero =>
      have head : first = f := by simpa using at_
      rw [later,← own f member,← head]
    | succ i =>
      have now := pns i f (by simpa using at_)
      rw [own f member] at now
      omega

theorem mgntLast_eq (entered : Entered s pkt s1 f1) (version : getVersion f1.rxData = 0) (type : getFrameType f1.rxData = .mgnt)
    (protection : validateMgmtProtect s1 pkt (parsed f1) = (s2,g,.success)) (more : g.attrib.mfrag = false)
    (number : g.attrib.fragNum ≠ 0) : mgntLast s pkt = defragQueue s2 g := by
  obtain ⟨taken,sound,up⟩ := entered
  obtain ⟨alloc,update⟩ := taken
  unfold mgntLast
  simp only [alloc,update,protection]
  simp [sound,up,version,type,more,number]

theorem mgnt_keeps (inv : DefragInv s) (defrag : Defrag s f s' state prframe)
    (apart : f.attrib.mfrag = false → f.attrib.fragNum ≠ 0 → ∀ key sta, defragQueue s f = some (key,sta) → sta.defragQ = [])
    (known : ∀ key sta, defragQueue s f = some (key,sta) → s.stations key = some sta) :
    DefragInv (rtwFreeRecvframe s' f) ∧ (state = .continue_ → DefragInv s') := by
  cases defrag with
  | whole => exact ⟨inv.shrink .free,fun _ => inv⟩
  | noQueue => exact ⟨inv.shrink .free,fun _ => inv⟩
  | first more number found =>
    obtain ⟨sta',after⟩ := freeQueue_known (known _ _ found)
    exact ⟨inv.shrink (Shrinks.freeQueue.trans (free_collected_shrinks after (by simp) ⟨rfl,rfl⟩)),by simp⟩
  | next more number found =>
    refine ⟨inv.shrink ?_,by simp⟩
    exact free_collected_shrinks (known _ _ found) (fun _ member => member) ⟨rfl,rfl⟩
  | failed => exact ⟨inv.shrink (givenUp_shrinks.trans .free),by simp⟩
  | joined more number found queue start join =>
    rw [apart more number _ _ found] at queue
    cases queue
    exact absurd start number

theorem defragQueue_known (found : defragQueue s f = some (key,sta)) : s.stations key = some sta := by
  unfold defragQueue at found
  split at found
  · rename_i pair lookup
    cases found
    exact (rtwGetStainfo_spec lookup).1
  · split at found
    · exact (rtwGetStainfo_spec found).1
    · cases found

theorem oneMsdu_data (allowed : oneMsdu s (.rx pkt)) (type : getFrameType pkt.mpdu = .data)
    (fragment : isFragment pkt.mpdu) : isMcast (getAddr1 pkt.mpdu) = false ∧ isMcast (getAddr2 pkt.mpdu) = false ∧
      (startsMsdu pkt.mpdu = false → ∀ sta, s.stations (getAddr2 pkt.mpdu) = some sta → ∀ g ∈ sta.defragQ,
        sameMsdu s.cfg sta pkt.mpdu g) := by
  simp only [oneMsdu,type,bne_self_eq_false,fragment,Bool.not_true,Bool.false_or,Bool.and_eq_true,Bool.not_eq_true',
    or_eq_true] at allowed
  obtain ⟨⟨⟨receiver,transmitter⟩,matching⟩,_⟩ := allowed
  refine ⟨receiver,transmitter,?_⟩
  intro later sta known g member
  rcases matching with start | all
  · rw [later] at start
    cases start
  · rw [known] at all
    exact List.all_eq_true.mp (by simpa using all) g member

theorem Checked.fragment (checked : Checked s pkt s2 f) (allowed : oneMsdu s (.rx pkt))
    (fragment : isFragment pkt.mpdu) (found : defragQueue s2 f = some (key,sta)) :
    Own key (tracked sta f) ∧ (startsMsdu pkt.mpdu = false → ∀ g ∈ sta.defragQ, Alike (tracked sta f) g) := by
  obtain ⟨data,less⟩ := checked.data
  obtain ⟨receiver,transmitter,matching⟩ := oneMsdu_data allowed data.type fragment
  have lookup : rtwGetStainfo s2 (getAddr2 pkt.mpdu) = some (key,sta) := by
    unfold defragQueue at found
    rw [data.ta] at found
    split at found
    · rename_i pair lookup
      rw [lookup,found]
    · rw [data.typeNow] at found
      simp at found
  obtain ⟨known,isKey⟩ := rtwGetStainfo_spec lookup
  rw [transmitter] at isKey
  have isKey : key = getAddr2 pkt.mpdu := by simpa using isKey
  refine ⟨⟨?_,?_,?_,fun counted => data.pn counted⟩,?_⟩
  · rw [isKey]
    exact congrArg getAddr2 data.mpdu
  · exact (congrArg (fun ptr => isMcast (getAddr1 ptr)) data.mpdu).trans receiver
  · exact data.fragNum.trans (congrArg getFragNum data.mpdu.symm)
  · intro later g member
    obtain ⟨sta0,before,there⟩ := less.queues key sta known g member
    rw [isKey] at before
    have same := matching later sta0 before g there
    simp only [sameMsdu,and_eq_true,beq_iff_eq] at same
    obtain ⟨⟨⟨seq,tid⟩,privacy⟩,encrypt⟩ := same
    obtain ⟨key1,sta1,lookup1,cipher⟩ := data.encrypt
    obtain ⟨known1,isKey1⟩ := rtwGetStainfo_spec lookup1
    rw [transmitter] at isKey1
    have isKey1 : key1 = getAddr2 pkt.mpdu := by simpa using isKey1
    rw [isKey1,before] at known1
    cases known1
    have mpdu : (tracked sta f).mpdu = pkt.mpdu := data.mpdu
    refine ⟨?_,?_,?_,?_⟩
    · rw [mpdu,seq]
    · rw [mpdu,tid]
    · rw [mpdu,privacy]
    · exact encrypt.trans cipher.symm

theorem data_keeps (inv : DefragInv s) (checked : Checked s pkt s2 f) (allowed : oneMsdu s (.rx pkt))
    (defrag : Defrag s2 f s3 state prframe) : DefragInv s3 := by
  obtain ⟨data,less⟩ := checked.data
  have inv2 := inv.shrink less
  cases defrag with
  | whole => exact inv2
  | noQueue => exact inv2
  | first more number found =>
    obtain ⟨own,_⟩ := checked.fragment allowed (by simp [isFragment,← data.mfrag,more]) found
    refine (inv2.shrink .freeQueue).collected ?_
    exact Collectable.snoc ⟨by simp,by simp⟩ own (by simp)
  | next more number found =>
    obtain ⟨own,alike⟩ := checked.fragment allowed (by simp [isFragment,← data.mfrag,more]) found
    refine inv2.collected ?_
    exact (inv2.queues _ _ (defragQueue_known found)).snoc own
      (alike (by simp [startsMsdu,← data.mfrag,← data.fragNum,more,number]))
  | failed => exact inv2.shrink givenUp_shrinks
  | joined more number found queue start join =>
    obtain ⟨own,alike⟩ := checked.fragment allowed (by simp [isFragment,← data.mfrag,← data.fragNum,more,number]) found
    have all := (inv2.queues _ _ (defragQueue_known found)).snoc own (alike (by simp [startsMsdu,← data.mfrag,more]))
    rw [queue] at all
    exact reassembled_keeps inv2 (reassembled_intact all start join)

theorem Validated.keeps (inv : DefragInv s) (entered : Entered s pkt s1 f1) (allowed : oneMsdu s (.rx pkt))
    (validated : Validated s1 pkt f1 s2 f2 ret) : DefragInv (rtwFreeRecvframe s2 f2) := by
  have inv1 : DefragInv s1 := by
    obtain ⟨taken,_,_⟩ := entered
    obtain ⟨f0,rest,_,rfl,_⟩ := taken.spec
    exact inv.shrink takenFor_shrinks
  have apart {t : Rx} (version : getVersion f1.rxData = 0) (type : getFrameType f1.rxData = .mgnt)
      (protection : validateMgmtProtect s1 pkt (parsed f1) = (t,f2,.success)) : f2.attrib.mfrag = false → f2.attrib.fragNum ≠ 0 →
        ∀ key sta, defragQueue t f2 = some (key,sta) → sta.defragQ = [] := by
    intro more number key sta found
    rw [← mgntLast_eq entered version type protection more number] at found
    simp only [oneMsdu,found,and_eq_true] at allowed
    simpa using allowed.2
  cases validated with
  | refused => exact inv1.shrink .free
  | mgnt version type protection defrag =>
    have inv' := inv1.shrink (mgmtProtect_ways protection).shrinks
    exact (mgnt_keeps inv' (chkDefrag_ways defrag) (apart version type protection) (fun _ _ => defragQueue_known)).1
  | dispatched version type protection defrag =>
    have inv' := inv1.shrink (mgmtProtect_ways protection).shrinks
    have after := (mgnt_keeps inv' (chkDefrag_ways defrag) (apart version type protection) (fun _ _ => defragQueue_known)).2 rfl
    exact after.shrink ((Shrinks.note (by simp)).trans (mgtDispatcher_shrinks.trans .free))
  | data type result => exact inv1.shrink ((dataFrame_ways result).shrinks.trans .free)

theorem rxNext_keeps (inv : DefragInv s) : DefragInv (rxNext s prframe) := by
  cases prframe with
  | none => exact inv
  | some f => exact inv.shrink .free

theorem Taken.shrinks (taken : Taken s pkt s' f state) : Shrinks s s' := by
  obtain ⟨f0,rest,_,rfl,_⟩ := taken.spec
  exact takenFor_shrinks

theorem round_keeps (inv : DefragInv s) (allowed : oneMsdu s (.rx pkt)) (round : Round s pkt s') : DefragInv s' := by
  cases round with
  | noBuffer => exact inv
  | died taken =>
    have after := inv.shrink taken.shrinks
    exact ⟨after.queues,after.intact⟩
  | refused taken => exact inv.shrink (taken.shrinks.trans .free)
  | invalid entered validated => exact validated.keeps inv entered allowed
  | queued checked defrag => exact data_keeps inv checked allowed (chkDefrag_ways defrag)
  | dropped checked defrag => exact rxNext_keeps (data_keeps inv checked allowed (chkDefrag_ways defrag))
  | delivered checked defrag =>
    exact (data_keeps inv checked allowed (chkDefrag_ways defrag)).shrink (delivered_shrinks.trans .free)
  | twice checked defrag =>
    exact (data_keeps inv checked allowed (chkDefrag_ways defrag)).shrink
      (delivered_shrinks.trans (Shrinks.free.trans .free))

theorem rxStep_keeps_fragments (inv : DefragInv s) (allowed : oneMsdu s event) : DefragInv (rxStep s event) := by
  unfold rxStep
  split
  · exact inv
  · cases event with
    | rx pkt => exact round_keeps inv allowed rtwCoreRxProcess_ways
    | rxStop =>
      simp only [rxStop,rtwAllocRecvframe]
      cases s.freeQueue with
      | nil => exact inv
      | cons f rest =>
        have taken : Shrinks s ({s with freeQueue:=rest,freeCnt:=s.freeCnt - 1}.note (.alloc f.id)) :=
          Shrinks.trans (t := {s with freeQueue:=rest,freeCnt:=s.freeCnt - 1})
            ⟨fun _ sta known _ member => ⟨sta,known,member⟩,fun _ noted => noted⟩ (.note (by simp))
        exact inv.shrink (taken.trans .free)
    | sta op => exact inv.shrink (staOp_shrinks s op)
    | config cfg => exact ⟨inv.queues,inv.intact⟩
    | groupKey keyId alg seq =>
      have noted := inv.shrink (Shrinks.note (s := s) (n := .groupKey keyId) (by simp))
      exact ⟨noted.queues,noted.intact⟩
    | bipKey keyId seq =>
      have noted := inv.shrink (Shrinks.note (s := s) (n := .bipKey) (by simp))
      exact ⟨noted.queues,noted.intact⟩

-- In a run in which every fragment meets the tests that are missing, whatever is
-- reassembled is one MSDU.
theorem reassembled_msdus_intact (path : Machine.Reached rxStep (fun s event => oneMsdu s event = true) (rtwInitRecvPriv cfg) s) :
    ∀ fragments, .joined fragments ∈ s.log → Intact fragments := by
  have inv : DefragInv s := by
    refine path.invariant DefragInv ⟨?_,?_⟩ fun _ _ inv allowed => rxStep_keeps_fragments inv allowed
    · intro key sta known
      cases known
    · intro fragments noted
      cases noted
  exact inv.intact

def openCfg : Config where
  mode := .sta
  up := true
  monitor := false
  asoc := true
  linking := false
  macAddr := 0x10
  bssid := 0x20
  selfSta := 0x10
  authAlg := .opened
  privacyAlg := .noPrivacy
  grpPrivacy := .noPrivacy
  bipKey := false
  bipKeyid := 0
  bipCmac128 := true
  amsduNonSpp := false

def openConf : StationConf where
  privacy := .noPrivacy
  mfp := false
  amsduDisable := false
  ieee8021xBlocked := false
  pairwiseKeyInstalled := false

def bytesOf (bytes : List UInt8) : Bytes := fun i => bytes.getD i 0

def plainPacket (req : Nat) (mpdu : List UInt8) : RxPacket where
  req := req
  mpdu := bytesOf mpdu
  len := mpdu.length
  room := 2048
  bmc := false
  swDec := false
  icvErr := false
  crcErr := false
  pktOk := true
  plain := none
  micOk := true
  bipAlloc := true
  bipMic := true
  mgmtAlloc := true
  act := fun _ => (false,true)
  subAlloc := fun _ => true
  indicateOk := true
  dispatched := []

def fragmentOf (req seq number : Nat) (more : Bool) : RxPacket :=
  plainPacket req ([0x08,if more then 0x06 else 0x02,0,0] ++ [0x10,0,0,0,0,0] ++ [0x20,0,0,0,0,0] ++ [0x30,0,0,0,0,0] ++
    [(seq*16+number).toUInt8,(seq/16).toUInt8] ++ [0xAA,0xAA,3,0,0,0,8,0])

def fragmentsOf (note : Note) : Option (List RecvFrame) :=
  match note with
  | .joined fragments => some fragments
  | _ => none

def twoFragments (second : Nat) : List Event :=
  [.sta (.alloc 0x20 openConf),.rx (fragmentOf 1 1 0 true),.rx (fragmentOf 2 second 1 false)]

theorem reassembled_msdus_intact_run :
    (((Machine.run rxStep (rtwInitRecvPriv openCfg) (twoFragments 1)).log.filterMap fragmentsOf).map fun fragments =>
        fragments.map fun f => getSequence f.mpdu) = [[1,1]] ∧
      ∀ fragments, .joined fragments ∈ (Machine.run rxStep (rtwInitRecvPriv openCfg) (twoFragments 1)).log → Intact fragments :=
  ⟨by decide +kernel,reassembled_msdus_intact (Machine.Reached.start.run (by decide +kernel))⟩

-- The last fragment of one MSDU is put behind the first one of another.
theorem reassembled_msdus_mixed : ¬∀ cfg s, Machine.Reached rxStep (fun _ _ => True) (rtwInitRecvPriv cfg) s →
    ∀ fragments, .joined fragments ∈ s.log → Intact fragments := by
  intro all
  have path : Machine.Reached rxStep (fun _ _ => True) (rtwInitRecvPriv openCfg)
      (Machine.run rxStep (rtwInitRecvPriv openCfg) (twoFragments 2)) :=
    Machine.Reached.start.run (by simp [Machine.Admitted,twoFragments])
  have intact := all openCfg _ path
  have numbers : (((Machine.run rxStep (rtwInitRecvPriv openCfg) (twoFragments 2)).log.filterMap fragmentsOf).map fun fragments =>
      fragments.map fun f => getSequence f.mpdu) = [[1,2]] := by decide +kernel
  obtain ⟨fragments,member,sequences⟩ := List.mem_map.mp (numbers ▸ List.mem_singleton.mpr rfl)
  obtain ⟨note,noted,isJoined⟩ := List.mem_filterMap.mp member
  cases note with
  | joined queue =>
    cases isJoined
    have alike := (intact fragments noted).alike
    rcases fragments with _ | ⟨first,_ | ⟨second,rest⟩⟩
    · simp at sequences
    · simp at sequences
    · have same := (alike first (by simp) second (by simp)).seq
      simp only [List.map_cons,List.cons.injEq] at sequences
      omega
  | _ => cases isJoined
end Rtl8852au.Recv
