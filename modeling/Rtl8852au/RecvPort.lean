import Rtl8852au.RecvArrival

namespace Rtl8852au.Recv
open List Option Bool

variable {next : RecvFrame}

structure Part where
  head : Nat
  icv : Nat
  len : Nat

def partOf (f : RecvFrame) : Part := ⟨f.attrib.hdrlen+f.attrib.ivLen,f.attrib.icvLen,f.len⟩

def fitsBehind (room : Nat) : Nat → List Part → Bool
  | _,[] => true
  | front,part :: rest =>
    decide (part.head + part.icv ≤ part.len) && decide (front + (part.len-part.head) ≤ room) &&
      fitsBehind room (front + (part.len - part.head - part.icv)) rest

theorem appendFragment_front (whole : prframe.attrib.icvLen ≤ prframe.len)
    (long : (partOf next).head + (partOf next).icv ≤ (partOf next).len)
    (room : prframe.len - prframe.attrib.icvLen + ((partOf next).len - (partOf next).head) ≤ prframe.room) :
    ∃ data, appendFragment prframe next = {prframe with
        rxData := data,len := prframe.len - prframe.attrib.icvLen + ((partOf next).len - (partOf next).head)
        attrib := {prframe.attrib with icvLen:=next.attrib.icvLen}
        plain := prframe.plain || next.plain,blocked := prframe.blocked || next.blocked} ∧
      ∀ i, i < prframe.len - prframe.attrib.icvLen → data i = prframe.rxData i := by
  simp only [partOf] at long room
  have pulled : next.attrib.hdrlen + next.attrib.ivLen ≤ next.len := by omega
  unfold appendFragment recvframePut recvframePullTail recvframePull partOf
  simp only [whole,pulled,room,if_true]
  refine ⟨_,rfl,?_⟩
  intro i below
  exact if_neg fun inside => by omega

structure Behind (front : Nat) (prframe : RecvFrame) (rest : List RecvFrame) (result : RecvFrame) : Prop where
  attrib : result.attrib = {prframe.attrib with icvLen:=result.attrib.icvLen}
  bytes : ∀ i < front, result.rxData i = prframe.rxData i
  long : front + result.attrib.icvLen ≤ result.len
  inside : prframe.len ≤ prframe.room ∨ rest ≠ [] → result.len ≤ prframe.room

theorem joinFragments_front (join : joinFragments prframe curPn number rest = some result)
    (whole : prframe.attrib.icvLen ≤ prframe.len)
    (fits : fitsBehind prframe.room (prframe.len-prframe.attrib.icvLen) (rest.map partOf)) :
    Behind (prframe.len-prframe.attrib.icvLen) prframe rest result := by
  induction rest generalizing prframe curPn number with
  | nil =>
    cases join
    exact ⟨rfl,fun _ _ => rfl,by omega,by simp⟩
  | cons next rest ih =>
    simp only [map_cons,fitsBehind,and_eq_true,decide_eq_true_eq] at fits
    obtain ⟨⟨long,room⟩,later⟩ := fits
    obtain ⟨data,isNext,front⟩ := appendFragment_front whole long room
    obtain ⟨_,_,_,join⟩ := joinFragments_next.mp join
    rw [isNext] at join
    have enough : next.attrib.icvLen ≤ prframe.len - prframe.attrib.icvLen + ((partOf next).len - (partOf next).head) := by
      simp only [partOf] at long ⊢
      omega
    have further : prframe.len - prframe.attrib.icvLen + ((partOf next).len - (partOf next).head) - next.attrib.icvLen =
        prframe.len - prframe.attrib.icvLen + ((partOf next).len - (partOf next).head - (partOf next).icv) := by
      simp only [partOf] at long ⊢
      omega
    have behind := ih join enough (by simpa only [further] using later)
    refine ⟨behind.attrib,?_,?_,?_⟩
    · intro i below
      exact (behind.bytes i (by simp only [further]; omega)).trans (front i below)
    · have long' := behind.long
      simp only [further] at long'
      omega
    · intro _
      exact behind.inside (.inl room)

def suspect (f : RecvFrame) : Bool := f.plain || f.blocked

theorem appendFragment_suspect : suspect (appendFragment prframe next) = (suspect prframe || suspect next) := by
  have pulled : suspect (recvframePull next (next.attrib.hdrlen+next.attrib.ivLen)) = suspect next := by
    unfold recvframePull
    split <;> rfl
  have cut : suspect (recvframePullTail prframe prframe.attrib.icvLen) = suspect prframe := by
    unfold recvframePullTail
    split <;> rfl
  rw [← pulled,← cut]
  unfold appendFragment recvframePut suspect
  simp only
  split <;> simp only [Bool.or_assoc,Bool.or_left_comm]

theorem joinFragments_suspect (join : joinFragments prframe curPn number rest = some result) :
    suspect result = (suspect prframe || rest.any suspect) := by
  induction rest generalizing prframe curPn number with
  | nil =>
    cases join
    simp
  | cons next rest ih => rw [ih (joinFragments_next.mp join).2.2.2,appendFragment_suspect,any_cons,Bool.or_assoc]

def eapolAt (ptr : Bytes) (body : Nat) : Bool := be16 ptr (body+6) == eapolType

-- An LLC header that is removed, with the EtherType of EAPOL.
def eapolShaped (ptr : Bytes) (body : Nat) : Bool := rtwRecvLlcParse (fun i => ptr (body+i)) 8 && eapolAt ptr body
def micLen (cipher : Cipher) : Nat := if cipher = .tkip then 8 else 0

structure EapolFrame (f : RecvFrame) : Prop where
  single : f.attrib.amsdu = false
  shaped : eapolShaped f.rxData (msduAt f)
  long : msduAt f + 8 + f.attrib.icvLen + micLen f.attrib.encrypt ≤ f.len
  short : f.len < 2^16

theorem Passed.cut (passed : Passed s pkt f g) : ∃ cut, cut ≤ micLen f.attrib.encrypt ∧ g = {f with len:=f.len - cut} := by
  obtain ⟨mic,port⟩ := passed
  rw [portctrl_same port]
  have none_ : ∃ cut, cut ≤ micLen f.attrib.encrypt ∧ f = {f with len:=f.len - cut} := ⟨0,Nat.zero_le _,rfl⟩
  split at mic
  · unfold recvframeChkmic recvframePullTail at mic
    split at mic
    · rename_i tkip
      split at mic
      · cases mic
      · cases mic
        split
        · exact ⟨8,by simp [micLen,tkip],rfl⟩
        · exact none_
    · cases mic
      exact none_
  · cases mic
    exact none_

theorem Passed.port (passed : Passed s pkt f g) (net : s.cfg.authAlg = .ieee8021x) (blocked : blockedNow s g.attrib.ta) :
    etherType g = eapolType := by
  obtain ⟨_,port⟩ := passed
  have same := portctrl_same port
  unfold portctrl at port
  rw [if_pos net] at port
  rw [same] at blocked ⊢
  unfold blockedNow at blocked
  split at port
  · rename_i unknown
    rw [unknown] at blocked
    cases blocked
  · rename_i known
    rw [known] at blocked
    split at port
    · cases port
    · rename_i open_
      simp only [any_some] at blocked
      simpa [blocked] using open_

theorem wlanhdrToEthhdr_removed (built : wlanhdrToEthhdr f true = some ethType) : ethType = be16 f.rxData (msduAt f + 6) := by
  have kept : (if f.attrib.encrypt = .noPrivacy then f else recvframePullTail f f.attrib.icvLen).rxData = f.rxData ∧
      msduAt (if f.attrib.encrypt = .noPrivacy then f else recvframePullTail f f.attrib.icvLen) = msduAt f := by
    unfold recvframePullTail
    split
    · exact ⟨rfl,rfl⟩
    · split <;> exact ⟨rfl,rfl⟩
  unfold wlanhdrToEthhdr at built
  generalize (if f.attrib.encrypt = .noPrivacy then f else recvframePullTail f f.attrib.icvLen) = g at built kept
  simp only [if_true] at built
  split at built
  · cases built
  · rw [← some.inj built,kept.1,kept.2]

theorem EapolFrame.delivered (eapol : EapolFrame f) (passed : Passed s pkt f g) (built : Built g ethType) :
    ethType = eapolType := by
  obtain ⟨cut,small,rfl⟩ := passed.cut
  have shaped := eapol.shaped
  simp only [eapolShaped,eapolAt,and_eq_true,beq_iff_eq] at shaped
  obtain ⟨removed,type⟩ := shaped
  have long := eapol.long
  have short := eapol.short
  rcases built with amsdu | built
  · exact absurd amsdu (by simp [eapol.single])
  · have body : 8 ≤ msduLen {f with len:=f.len - cut} := by
      have at_ : msduAt {f with len:=f.len - cut} = msduAt f := rfl
      unfold msduLen toU16
      simp only [at_]
      split <;> omega
    have parse : rtwRecvLlcParse (msduBytes {f with len:=f.len - cut}) (msduLen {f with len:=f.len - cut}) := by
      unfold rtwRecvLlcParse at removed ⊢
      simp only [and_eq_true,decide_eq_true_eq] at removed ⊢
      exact ⟨body,removed.2⟩
    rw [parse] at built
    exact (wlanhdrToEthhdr_removed built).trans type

theorem eapolShaped_congr {p q : Bytes} (same : ∀ i, i < body+8 → p i = q i) : eapolShaped p body = eapolShaped q body := by
  have byte (i : Nat) (below : i < 8) : p (body+i) = q (body+i) := same _ (by omega)
  have six : map (fun i => p (body+i)) (range 6) = map (fun i => q (body+i)) (range 6) :=
    map_congr_left fun i member => byte i (by have := mem_range.mp member; omega)
  unfold eapolShaped eapolAt rtwRecvLlcParse startsWith be16
  simp only [rfc1042Header,bridgeTunnelHeader,length_cons,length_nil,Nat.zero_add,Nat.reduceAdd,six,Nat.add_assoc,
    byte 6 (by decide),byte 7 (by decide)]

def protectedNet (cfg : Config) : Bool := cfg.authAlg == .ieee8021x && cfg.privacyAlg != .noPrivacy

def ownPart (cfg : Config) (sta : Station) (pkt : RxPacket) : Part :=
  let lens := setIceIvLen (ownCipher cfg sta pkt.mpdu)
  ⟨ownHdrlen pkt.mpdu + lens.1,lens.2,pkt.len⟩

-- A frame in one piece that reads as EAPOL is EAPOL: it is no A-MSDU, its LLC
-- header is one that is removed, and it holds that header.
def wholeEapol (cfg : Config) (sta : Station) (pkt : RxPacket) : Bool :=
  let cipher := ownCipher cfg sta pkt.mpdu
  let part := ownPart cfg sta pkt
  let data := clearBytes pkt cipher
  !eapolAt data part.head || (!(isQos pkt.mpdu && getAMsdu pkt.mpdu (ownA4 pkt.mpdu)) && eapolShaped data part.head &&
    decide (part.head + 8 + part.icv + micLen cipher ≤ part.len) && decide (part.len < 2^16))

-- The fragments behind the first one leave its LLC header as it is, and that one
-- is of EAPOL, or keeps the frame from a station that is still blocked.
def joinedEapol (s : Rx) (first : RecvFrame) (rest : List Part) : Bool :=
  first.attrib.fragNum != 0 ||
    (decide (msduAt first + 8 + first.attrib.icvLen + micLen first.attrib.encrypt ≤ first.len) && decide (first.room < 2^16) &&
      fitsBehind first.room (first.len-first.attrib.icvLen) rest &&
      (if eapolAt first.rxData (msduAt first) then !first.attrib.amsdu && eapolShaped first.rxData (msduAt first)
      else blockedNow s first.attrib.ta))

-- An unprotected frame that does not read as EAPOL is dropped on its own.
def refusedPlain (ptr : Bytes) : Bool := !getPrivacy ptr && !eapolAt ptr (ownHdrlen ptr)

def portSoundFor (s : Rx) (sta : Station) (pkt : RxPacket) : Bool :=
  let own := !getPrivacy pkt.mpdu || sta.conf.ieee8021xBlocked
  if getFragNum pkt.mpdu = 0 then !own || wholeEapol s.cfg sta pkt
  else
    match sta.defragQ with
    | [] => true
    | first :: rest => !(own || sta.defragQ.any suspect) || joinedEapol s first (rest.map partOf ++ [ownPart s.cfg sta pkt])

def portSound (s : Rx) : Event → Bool
  | .rx pkt => getFrameType pkt.mpdu != .data || getMFrag pkt.mpdu || refusedPlain pkt.mpdu ||
      (rtwGetStainfo s (getAddr2 pkt.mpdu)).all fun found => portSoundFor s found.2 pkt
  | .config cfg => protectedNet cfg
  | _ => true

theorem clearBytes_plain (pkt : RxPacket) : clearBytes pkt .noPrivacy = pkt.mpdu := by
  unfold clearBytes
  simp [Cipher.inSoftware]

theorem plaintextAllowed_plain {f : RecvFrame} (net : protectedNet cfg) (own : OwnAttrib s ptr a)
    (plain : getPrivacy ptr = false)
    (allowed : plaintextAllowed cfg sta {f with rxData:=ptr,attrib:=a}) : eapolAt ptr (ownHdrlen ptr) := by
  obtain ⟨key,sta',_,cipher⟩ := own.encrypt
  have open_ : a.encrypt = .noPrivacy := by simpa [ownCipher,plain] using cipher
  have head : a.hdrlen + a.ivLen = ownHdrlen ptr := by
    rw [own.hdrlen,own.ivLen,open_]
    rfl
  have privacy : a.privacy = false := own.privacy.trans plain
  simp only [protectedNet,and_eq_true,beq_iff_eq,bne_iff_ne] at net
  unfold plaintextAllowed etherType at allowed
  simp only [net.1,net.2,if_false,if_true,privacy,Bool.false_or,head] at allowed
  split at allowed
  · cases allowed
  · simp only [and_eq_true] at allowed
    exact allowed.1.1

theorem portSound_found (allowed : portSound s (.rx pkt)) (type : getFrameType pkt.mpdu = .data)
    (last : getMFrag pkt.mpdu = false)
    (read : refusedPlain pkt.mpdu = false) (found : rtwGetStainfo s (getAddr2 pkt.mpdu) = some (key,sta)) :
    portSoundFor s sta pkt := by
  simpa [portSound,type,last,read,found] using allowed

section
variable (arrived : Arrived s pkt f) (same : SameStations s s2) (net : protectedNet s.cfg)
include arrived same net

theorem whole_eapol
    (reads : getPrivacy pkt.mpdu = false → eapolAt pkt.mpdu (ownHdrlen pkt.mpdu))
    (found : rtwGetStainfo s (getAddr2 pkt.mpdu) = some (key,sta)) (sound : portSoundFor s sta pkt)
    (number : f.attrib.fragNum = 0) (passed : Passed s2 pkt f g) (built : Built g ethType) (suspicious : suspect g) :
    ethType = eapolType := by
  obtain ⟨key',sta',found',cipher⟩ := arrived.encrypt
  cases found.symm.trans found'
  have head : msduAt f = (ownPart s.cfg sta pkt).head := by
    unfold msduAt ownPart
    rw [arrived.hdrlen,arrived.ivLen,cipher]
  have icv : f.attrib.icvLen = (ownPart s.cfg sta pkt).icv := by
    rw [arrived.icvLen,cipher]
    rfl
  have data : f.rxData = clearBytes pkt (ownCipher s.cfg sta pkt.mpdu) := by rw [arrived.bytes,cipher]
  obtain ⟨cut,_,isCut⟩ := passed.cut
  have blockedHere : blockedNow s (getAddr2 pkt.mpdu) = sta.conf.ieee8021xBlocked := by simp [blockedNow,found]
  have own : (!getPrivacy pkt.mpdu || sta.conf.ieee8021xBlocked) := by
    rw [isCut] at suspicious
    simpa [suspect,arrived.plain,arrived.blocked,blockedHere] using suspicious
  have reading : eapolAt (clearBytes pkt (ownCipher s.cfg sta pkt.mpdu)) (ownPart s.cfg sta pkt).head := by
    cases plain : getPrivacy pkt.mpdu with
    | false =>
      have open_ : ownCipher s.cfg sta pkt.mpdu = .noPrivacy := by simp [ownCipher,plain]
      simpa [open_,clearBytes_plain,ownPart,setIceIvLen] using reads plain
    | true =>
      have blocked : blockedNow s2 g.attrib.ta := by
        rw [isCut,same.conf.blockedNow,arrived.ta,blockedHere]
        simpa [plain] using own
      have alg : s2.cfg.authAlg = .ieee8021x := by
        rw [same.cfg]
        simp only [protectedNet,and_eq_true,beq_iff_eq] at net
        exact net.1
      have type := passed.port alg blocked
      rw [isCut] at type
      unfold etherType at type
      rw [data] at type
      unfold eapolAt
      rw [← head]
      simpa [msduAt] using type
  have number' : getFragNum pkt.mpdu = 0 := by rw [← arrived.fragNum,number]
  simp only [portSoundFor,number',if_true,own,Bool.not_true,Bool.false_or,wholeEapol,reading,Bool.and_eq_true,
    decide_eq_true_eq,not_eq_true'] at sound
  obtain ⟨⟨⟨single,shaped⟩,long⟩,short⟩ := sound
  have eapol : EapolFrame f := by
    refine ⟨arrived.amsdu.trans single,?_,?_,?_⟩
    · rw [data,head]
      exact shaped
    · rw [head,icv,cipher,arrived.len]
      exact long
    · rw [arrived.len]
      exact short
  exact eapol.delivered passed built

theorem joined_eapol
    (found : rtwGetStainfo s (getAddr2 pkt.mpdu) = some (key,sta)) (sound : portSoundFor s sta pkt)
    (number : f.attrib.fragNum ≠ 0) (queue : sta.defragQ ++ [tracked sta2 f] = first :: rest) (start : first.attrib.fragNum = 0)
    (join : joinedFrom first rest = some prframe) (conf : SameConf s2 s3) (passed : Passed s3 pkt prframe g)
    (built : Built g ethType)
    (suspicious : suspect g) : ethType = eapolType := by
  have number' : getFragNum pkt.mpdu ≠ 0 := arrived.fragNum ▸ number
  obtain ⟨key',sta',found',cipher⟩ := arrived.encrypt
  cases found.symm.trans found'
  have part : partOf (tracked sta2 f) = ownPart s.cfg sta pkt := by
    simp only [partOf,tracked,ownPart,arrived.hdrlen,arrived.ivLen,arrived.icvLen,cipher,arrived.len]
  rcases waiting : sta.defragQ with _ | ⟨head,others⟩
  · rw [waiting] at queue
    have alone : tracked sta2 f = first := (cons.inj queue).1
    rw [← alone] at start
    exact absurd start number
  · rw [waiting,cons_append] at queue
    obtain ⟨rfl,rfl⟩ := cons.inj queue
    have blockedHere : blockedNow s (getAddr2 pkt.mpdu) = sta.conf.ieee8021xBlocked := by simp [blockedNow,found]
    simp only [portSoundFor,number',if_false,waiting,or_eq_true,not_eq_true'] at sound
    obtain ⟨cut,_,isCut⟩ := passed.cut
    -- Whatever is wrong with one of the fragments is wrong with the frame.
    have condition : joinedEapol s head (others.map partOf ++ [ownPart s.cfg sta pkt]) → ethType = eapolType := by
      intro condition
      simp only [joinedEapol,start,bne_self_eq_false,Bool.false_or,Bool.and_eq_true,decide_eq_true_eq] at condition
      obtain ⟨⟨⟨long,room⟩,fits⟩,kind⟩ := condition
      have behind := joinFragments_front join (by omega) (by simpa [part] using fits)
      have msdu : msduAt prframe = msduAt head := by
        unfold msduAt
        rw [behind.attrib]
      have bytes (i : Nat) (below : i < msduAt head + 8) : prframe.rxData i = head.rxData i := behind.bytes i (by omega)
      have inside := behind.inside (.inr (by simp))
      split at kind
      · simp only [and_eq_true,not_eq_true'] at kind
        have eapol : EapolFrame prframe := by
          refine ⟨?_,?_,?_,by omega⟩
          · rw [behind.attrib]
            exact kind.1
          · rw [msdu,eapolShaped_congr bytes]
            exact kind.2
          · have further := behind.long
            have encrypt : prframe.attrib.encrypt = head.attrib.encrypt := by rw [behind.attrib]
            rw [msdu,encrypt]
            omega
        exact eapol.delivered passed built
      · rename_i other
        have ta : g.attrib.ta = head.attrib.ta := by
          rw [isCut]
          simp only
          rw [behind.attrib]
        have alg : s3.cfg.authAlg = .ieee8021x := by
          rw [conf.cfg,same.cfg]
          simp only [protectedNet,and_eq_true,beq_iff_eq] at net
          exact net.1
        have blocked : blockedNow s3 g.attrib.ta := by rw [conf.blockedNow,same.conf.blockedNow,ta,kind]
        have type := passed.port alg blocked
        refine absurd ?_ other
        rw [isCut] at type
        unfold etherType be16 at type
        unfold eapolAt be16
        simp only [beq_iff_eq]
        rw [← bytes (msduAt head + 6) (by omega),← bytes (msduAt head + 6 + 1) (by omega),← msdu]
        exact type
    rcases sound with harmless | sound
    · have last : suspect (tracked sta2 f) = (!getPrivacy pkt.mpdu || sta.conf.ieee8021xBlocked) := by
        simp only [suspect,tracked,arrived.plain,arrived.blocked,blockedHere]
      have made : suspect g = suspect prframe := by
        rw [isCut]
        rfl
      rw [made,joinFragments_suspect join,any_append,← Bool.or_assoc,← any_cons] at suspicious
      simp only [any_cons,any_nil,Bool.or_false,last] at suspicious harmless
      simp only [or_eq_false_iff] at harmless
      simp [harmless] at suspicious
    · exact condition sound
end

theorem defragQueue_data (located : defragQueue s f = some pair) (data : getFrameType f.rxData = .data) :
    rtwGetStainfo s f.attrib.ta = some pair := by
  unfold defragQueue at located
  split at located
  · rename_i known
    rw [known,some.inj located]
  · simp [data] at located

theorem passed_eapol (checked : Checked s pkt s2 f) (defrag : recvframeChkDefrag s2 f = (s3,.continue_,some prframe))
    (net : protectedNet s.cfg) (allowed : portSound s (.rx pkt)) (passed : Passed s3 pkt prframe g)
    (built : Built g ethType) (suspicious : suspect g) : ethType = eapolType := by
  obtain ⟨arrived,same,key,sta,sta',a,found,_,own,_,plaintext⟩ := checked.arrived
  have reads (plain : getPrivacy pkt.mpdu = false) : eapolAt pkt.mpdu (ownHdrlen pkt.mpdu) :=
    plaintextAllowed_plain net own plain plaintext
  have read : refusedPlain pkt.mpdu = false := by
    cases plain : getPrivacy pkt.mpdu with
    | true => simp [refusedPlain,plain]
    | false => simp [refusedPlain,reads plain]
  have sound (last : f.attrib.mfrag = false) : portSoundFor s sta pkt :=
    portSound_found allowed arrived.type (arrived.mfrag ▸ last) read found
  have ways := chkDefrag_ways defrag
  have conf := SameConf.defrag ways
  cases ways with
  | whole last number => exact whole_eapol arrived same net reads found (sound last) number passed built suspicious
  | joined last number located queue start join =>
    have lookup := defragQueue_data located arrived.typeNow
    rw [arrived.ta] at lookup
    obtain ⟨before,known,_,queued⟩ := same.found lookup
    cases found.symm.trans known
    rw [queued] at queue
    exact joined_eapol arrived same net found (sound last) number queue start join conf passed built suspicious

structure Silent (s s' : Rx) : Prop where
  cfg : s'.cfg = s.cfg
  msdus : ∀ ethType frame, .msdu ethType frame ∈ s'.log → .msdu ethType frame ∈ s.log

theorem Silent.refl (s : Rx) : Silent s s := ⟨rfl,fun _ _ noted => noted⟩

theorem Silent.trans (first : Silent s t) (second : Silent t u) : Silent s u :=
  ⟨second.cfg.trans first.cfg,fun _ _ noted => first.msdus _ _ (second.msdus _ _ noted)⟩

theorem Silent.note (other : ∀ ethType frame, n ≠ .msdu ethType frame) : Silent s (s.note n) := by
  refine ⟨rfl,?_⟩
  intro ethType frame noted
  rcases mem_append.mp noted with before | now
  · exact before
  · exact absurd (mem_singleton.mp now).symm (other ethType frame)

theorem Shuffled.silent (shuffled : Shuffled s s') : Silent s s' := by
  refine ⟨shuffled.cfg,?_⟩
  intro ethType frame noted
  obtain ⟨notes,log,buffers⟩ := shuffled.log
  rw [log] at noted
  rcases mem_append.mp noted with before | now
  · exact before
  · exact absurd (buffers _ now) (by simp [ofBuffers])

theorem pnDecache_silent (fresh : pnDecache s key sta f = some s') : Silent s s' := by
  obtain ⟨_,_,rfl,_⟩ := pnDecache_spec fresh
  exact ⟨rfl,fun _ _ noted => noted⟩

theorem noteAccepted_silent : Silent s (noteAccepted s f) := by
  rcases noteAccepted_ways s f with same | ⟨_,_,same⟩ <;> rw [same]
  · exact .refl s
  · exact .note (by simp)

theorem DataFrame.silent (data : DataFrame s f s' g ret) : Silent s s' := by
  cases data with
  | refused => exact .refl s
  | repeated => exact Shuffled.setStation.silent
  | plaintext _ _ _ pn => exact pnDecache_silent pn
  | accepted _ _ _ pn => exact (pnDecache_silent pn).trans noteAccepted_silent

theorem Protected.silent (checked : Protected s pkt f s' g ret) : Silent s s' := by
  rcases checked.ways with rfl | ⟨_,rfl⟩
  · exact .refl _
  · exact Silent.trans (t := {s with bipRxpn:=mmeIpn s.cfg f}) ⟨rfl,fun _ _ noted => noted⟩ (.note (by simp))

theorem Validated.silent (validated : Validated s pkt f s' g ret) : Silent s s' := by
  cases validated with
  | refused => exact .refl s
  | mgnt _ _ protection defrag =>
    exact (mgmtProtect_ways protection).silent.trans (Shuffled.defrag (chkDefrag_ways defrag)).silent
  | dispatched _ _ protection defrag =>
    have before := (mgmtProtect_ways protection).silent.trans (Shuffled.defrag (chkDefrag_ways defrag)).silent
    exact before.trans ((Silent.note (by simp)).trans Shuffled.dispatched.silent)
  | data _ result => exact (dataFrame_ways result).silent

theorem Entered.silent (entered : Entered s pkt s1 f1) : Silent s s1 := by
  obtain ⟨taken,_,_⟩ := entered
  exact taken.shuffled.silent

theorem Checked.silent (checked : Checked s pkt s2 f) : Silent s s2 := by
  obtain ⟨entered,validated,_⟩ := checked
  exact entered.silent.trans validated.silent

structure PortInv (s : Rx) : Prop where
  net : protectedNet s.cfg
  eapol : ∀ ethType frame, .msdu ethType frame ∈ s.log → suspect frame → ethType = eapolType

theorem PortInv.silent (inv : PortInv s) (silent : Silent s s') : PortInv s' := by
  refine ⟨?_,fun ethType frame noted => inv.eapol ethType frame (silent.msdus _ _ noted)⟩
  rw [silent.cfg]
  exact inv.net

theorem PortInv.delivered (inv : PortInv s) (right : ∀ ethType ∈ ethTypes, suspect g → ethType = eapolType) :
    PortInv (delivered s g ethTypes) := by
  refine ⟨inv.net,?_⟩
  intro ethType frame noted
  rcases mem_append.mp noted with before | now
  · exact inv.eapol ethType frame before
  · obtain ⟨e,member,isNote⟩ := mem_map.mp now
    cases isNote
    exact right _ member

theorem round_port (inv : PortInv s) (allowed : portSound s (.rx pkt)) (round : Round s pkt s') : PortInv s' := by
  cases round with
  | noBuffer => exact inv
  | died taken =>
    have after := inv.silent taken.shuffled.silent
    exact ⟨after.net,after.eapol⟩
  | refused taken => exact inv.silent (taken.shuffled.trans .free).silent
  | invalid entered validated => exact inv.silent (entered.silent.trans (validated.silent.trans Shuffled.free.silent))
  | queued checked defrag => exact inv.silent (checked.silent.trans (Shuffled.defrag (chkDefrag_ways defrag)).silent)
  | @dropped s2 f s3 state prframe g checked defrag _ _ =>
    have after := inv.silent (checked.silent.trans (Shuffled.defrag (chkDefrag_ways defrag)).silent)
    cases prframe with
    | none => exact after
    | some p => exact after.silent Shuffled.free.silent
  | delivered checked defrag passed built =>
    have before := inv.silent (checked.silent.trans (Shuffled.defrag (chkDefrag_ways defrag)).silent)
    have after := before.delivered fun ethType member => passed_eapol checked defrag inv.net allowed passed (built ethType member)
    exact after.silent Shuffled.free.silent
  | twice checked defrag _ passed built =>
    have before := inv.silent (checked.silent.trans (Shuffled.defrag (chkDefrag_ways defrag)).silent)
    have after := before.delivered fun ethType member => passed_eapol checked defrag inv.net allowed passed (built ethType member)
    exact after.silent (Shuffled.free.trans .free).silent

theorem rxStep_port (inv : PortInv s) (allowed : portSound s event) : PortInv (rxStep s event) := by
  unfold rxStep
  split
  · exact inv
  · cases event with
    | rx pkt => exact round_port inv allowed rtwCoreRxProcess_ways
    | rxStop => exact inv.silent rxStop_shuffled.silent
    | sta op => exact inv.silent (Shuffled.staOp s op).silent
    | config cfg => exact ⟨allowed,inv.eapol⟩
    | groupKey keyId alg seq =>
      have noted : PortInv (s.note (.groupKey keyId)) := inv.silent (.note (by simp))
      exact ⟨noted.net,noted.eapol⟩
    | bipKey keyId seq =>
      have noted : PortInv (s.note .bipKey) := inv.silent (.note (by simp))
      exact ⟨inv.net,noted.eapol⟩

-- What came in the clear or from a blocked station comes out as EAPOL.
theorem clear_msdus_eapol {cfg : Config} (net : protectedNet cfg = true)
    (path : Machine.Reached rxStep (fun s event => portSound s event = true) (rtwInitRecvPriv cfg) s) :
    ∀ ethType frame, .msdu ethType frame ∈ s.log → frame.plain = true ∨ frame.blocked = true → ethType = eapolType := by
  have start : PortInv (rtwInitRecvPriv cfg) := ⟨net,fun _ _ noted => nomatch noted⟩
  have inv := path.invariant PortInv start fun _ _ inv allowed => rxStep_port inv allowed
  intro ethType frame noted suspicious
  refine inv.eapol ethType frame noted ?_
  rw [suspect,or_eq_true]
  exact suspicious

def wpaCfg : Config := {openCfg with authAlg:=.ieee8021x,privacyAlg:=.aes,grpPrivacy:=.aes}

def clearFrame (body : List UInt8) : RxPacket :=
  plainPacket 1 ([0x08,0x02,0,0] ++ [0x10,0,0,0,0,0] ++ [0x20,0,0,0,0,0] ++ [0x30,0,0,0,0,0] ++ [0x10,0] ++ body)

def clearRun (llc : List UInt8) : List Event := [.sta (.alloc 0x20 openConf),.rx (clearFrame (llc ++ [0x88,0x8E,1,3,0,0]))]

def msduOf (note : Note) : Option (Nat × Bool) :=
  match note with
  | .msdu ethType frame => some (ethType,frame.plain)
  | _ => none

theorem clear_msdus_eapol_run :
    (Machine.run rxStep (rtwInitRecvPriv wpaCfg) (clearRun [0xAA,0xAA,3,0,0,0])).log.filterMap msduOf = [(0x888E,true)] ∧
      ∀ ethType frame, .msdu ethType frame ∈ (Machine.run rxStep (rtwInitRecvPriv wpaCfg) (clearRun [0xAA,0xAA,3,0,0,0])).log →
        frame.plain = true ∨ frame.blocked = true → ethType = eapolType :=
  ⟨by decide +kernel,clear_msdus_eapol (by decide) (Machine.Reached.start.run (by decide +kernel))⟩

-- Without an LLC header in front the two bytes are part of the payload, and the
-- frame is handed over with its length in place of an EtherType.
theorem clear_msdus_other : ¬∀ cfg s, protectedNet cfg = true →
    Machine.Reached rxStep (fun _ event => ∀ cfg', event = .config cfg' → protectedNet cfg' = true) (rtwInitRecvPriv cfg) s →
    ∀ ethType frame, .msdu ethType frame ∈ s.log → frame.plain = true ∨ frame.blocked = true → ethType = eapolType := by
  intro all
  have path : Machine.Reached rxStep (fun _ event => ∀ cfg', event = .config cfg' → protectedNet cfg')
      (rtwInitRecvPriv wpaCfg) (Machine.run rxStep (rtwInitRecvPriv wpaCfg) (clearRun [0,0,0,0,0,0])) :=
    Machine.Reached.start.run (by simp [Machine.Admitted,clearRun])
  have delivered : (Machine.run rxStep (rtwInitRecvPriv wpaCfg) (clearRun [0,0,0,0,0,0])).log.filterMap msduOf = [(12,true)] := by
    decide +kernel
  obtain ⟨note,noted,isMsdu⟩ := mem_filterMap.mp (delivered ▸ mem_singleton.mpr rfl)
  cases note with
  | msdu ethType frame =>
    simp only [msduOf,some.injEq,Prod.mk.injEq] at isMsdu
    have eapol := all wpaCfg _ (by decide) path ethType frame noted (.inl isMsdu.2)
    rw [isMsdu.1] at eapol
    exact absurd eapol (by decide)
  | _ => cases isMsdu
end Rtl8852au.Recv
