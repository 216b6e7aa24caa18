import Rtl8852au.RecvDefrag

namespace Rtl8852au.Recv

section
variable (data : Bytes)

def bytesAt (at_ count : Nat) : List UInt8 := (List.range count).map fun i => data (at_+i)
def snapSize : Nat := 6

-- The packet of one subframe: `sub_skb` is a copy, so that nothing that is done with
-- it later touches the frame.
def rtwOsAllocMsduPkt (pdata msduLen : Nat) (remove : Bool) : List UInt8 :=
  bytesAt data pdata 12 ++
    if remove then bytesAt data (pdata+14+snapSize) (msduLen-snapSize)
    else UInt8.ofNat (msduLen/0x100) :: UInt8.ofNat msduLen :: bytesAt data (pdata+14) msduLen

structure ApSide where
  asocListCnt : Nat
  peer : Addr → Bool
  b2u : Nat → Bool
  xmitAlloc : Nat → Bool

structure MsduAct where
  forward : Bool
  indicate : Bool
  deriving DecidableEq,Repr

def fwdChk (ap : ApSide) (index : Nat) (isDaBmc indicate : Bool) : MsduAct :=
  if ap.asocListCnt ≤ 1 then ⟨false,indicate⟩
  else ⟨(isDaBmc && ap.b2u index) || ap.xmitAlloc index,indicate⟩

def rtwApRxMsduActCheck (cfg : Config) (ap : ApSide) (index : Nat) (da sa : Addr) : MsduAct :=
  if sa = cfg.macAddr then ⟨false,false⟩
  else if isMcast da then fwdChk ap index true true
  else if da = cfg.macAddr then ⟨false,true⟩
  else if ap.peer da then fwdChk ap index false false
  else ⟨false,true⟩

abbrev Span := Nat × Nat

structure Deagg where
  pdata : Nat
  aLen : Nat
  index : Nat
  subframes : List (List UInt8)
  forwarded : List (List UInt8)
  reads : List Span

def Deagg.look (s : Deagg) (spans : List Span) : Deagg := {s with reads:=s.reads ++ spans}
def paddingLen (subframeLength : Nat) : Nat := (4 - (subframeLength+14) % 4) % 4

-- `move_to_next`; the second result says whether the loop goes on.
def moveToNext (s : Deagg) (subframeLength : Nat) : Deagg × Bool :=
  let s := {s with pdata:=s.pdata+14,aLen:=s.aLen - 14}
  if maxSubframeCount ≤ s.subframes.length then (s,false)
  else
    let s := {s with pdata:=s.pdata + subframeLength,aLen:=s.aLen - subframeLength}
    if s.aLen = 0 then (s,true)
    else if s.aLen < paddingLen subframeLength then (s,false)
    else ({s with pdata:=s.pdata + paddingLen subframeLength,aLen:=s.aLen - paddingLen subframeLength},true)

structure AmsduConf where
  cfg : Config
  ap : ApSide
  attrib : Attrib

def subframeLength (pdata : Nat) : Nat := be16 data (pdata+12)
def shiftBy (at_ : Nat) : Bytes := fun i => data (at_+i)

def llcHdl (pdata : Nat) : Bool := rtwRecvLlcParse (shiftBy data (pdata+14)) (subframeLength data pdata)
end
section
variable (conf : AmsduConf) (data : Bytes)

def actOf (index pdata : Nat) : MsduAct :=
  if conf.cfg.mode = .ap then rtwApRxMsduActCheck conf.cfg conf.ap index (addrAt data pdata) (addrAt data (pdata+6))
  else ⟨false,true⟩

def msduPkt (data : Bytes) (pdata : Nat) : List UInt8 :=
  rtwOsAllocMsduPkt data pdata (subframeLength data pdata) (llcHdl data pdata)

def takeSubframe (s : Deagg) : Deagg :=
  let act := actOf conf data s.index s.pdata
  let len := subframeLength data s.pdata
  {s with
    index := s.index+1
    reads := s.reads ++ ((if 8 ≤ len then [(s.pdata+14,8)] else []) ++ if act.forward || act.indicate then [(s.pdata+14,len)] else [])
    forwarded := s.forwarded ++ if act.forward then [msduPkt data s.pdata] else []
    subframes := s.subframes ++ if act.indicate then [msduPkt data s.pdata] else []}

def contentOk (pdata : Nat) : Bool := validateAmsduContent conf.cfg conf.attrib (addrAt data pdata) (addrAt data (pdata+6))

def amsduRound (s : Deagg) : Deagg × Bool :=
  let len := subframeLength data s.pdata
  let s := s.look [(s.pdata+12,2)]
  if s.aLen < 14 + len then (s,false)
  else
    let s := s.look [(s.pdata,12)]
    if !contentOk conf data s.pdata then (s,false)
    else moveToNext (takeSubframe conf data s) len

def amsduLoop (conf : AmsduConf) (data : Bytes) : Nat → Deagg → Deagg
  | 0,s => s
  | fuel+1,s =>
    if s.aLen ≤ 14 then s
    else
      match amsduRound conf data s with
      | (s,true) => amsduLoop conf data fuel s
      | (s,false) => s

def deaggStart (aLen : Nat) : Deagg where
  pdata := 0
  aLen := aLen
  index := 0
  subframes := []
  forwarded := []
  reads := []

def amsduBody (f : RecvFrame) : RecvFrame :=
  let body := recvframePull (recvframePull f f.attrib.hdrlen) f.attrib.ivLen
  if f.attrib.encrypt = .noPrivacy then body else recvframePullTail body f.attrib.icvLen

inductive AmsduEvent where
  | forward (pkt : List UInt8)
  | indicate (pkt : List UInt8)
  | free (id : Nat)
  deriving DecidableEq,Repr

def deaggregated (conf : AmsduConf) (body : RecvFrame) : Deagg := amsduLoop conf body.rxData body.len (deaggStart body.len)

def amsduEvents (conf : AmsduConf) (f : RecvFrame) : List AmsduEvent :=
  let s := deaggregated conf (amsduBody f)
  s.forwarded.map .forward ++ s.subframes.map .indicate ++ [.free f.id]

structure Fits (data : Bytes) (size pos : Nat) : Prop where
  header : pos + 14 < size
  whole : pos + 14 + subframeLength data pos ≤ size

def nextSubframe (data : Bytes) (pos : Nat) : Nat := pos + 14 + subframeLength data pos + paddingLen (subframeLength data pos)

-- Subframes one behind the other, from `pos` on, `count` having been indicated before.
inductive Subframes (conf : AmsduConf) (data : Bytes) (size : Nat) : (pos index count : Nat) → List Nat → Prop
  | stop : Subframes conf data size pos index count []
  | next (fits : Fits data size pos) (content : contentOk conf data pos) (room : count < maxSubframeCount)
      (rest : Subframes conf data size (nextSubframe data pos) (index+1)
        (count + (actOf conf data index pos).indicate.toNat) later) : Subframes conf data size pos index count (pos :: later)

def Longest (size pos index count : Nat) (taken : List Nat) : Prop :=
  Subframes conf data size pos index count taken ∧ ∀ other,Subframes conf data size pos index count other → other <+: taken
end

def forwardsOf (conf : AmsduConf) (data : Bytes) : Nat → List Nat → List (List UInt8)
  | _,[] => []
  | index,pos :: rest =>
    (if (actOf conf data index pos).forward then [msduPkt data pos] else []) ++ forwardsOf conf data (index+1) rest

def indicatesOf (conf : AmsduConf) (data : Bytes) : Nat → List Nat → List (List UInt8)
  | _,[] => []
  | index,pos :: rest =>
    (if (actOf conf data index pos).indicate then [msduPkt data pos] else []) ++ indicatesOf conf data (index+1) rest

def SpansInside (size : Nat) (spans : List Span) : Prop := ∀ span ∈ spans,span.1 + span.2 ≤ size

theorem longest_stop (blocked : ¬ (Fits data size pos ∧ contentOk conf data pos ∧ count < maxSubframeCount)) :
    Longest conf data size pos index count [] := by
  refine ⟨.stop,?_⟩
  intro other run
  cases run with
  | stop => exact List.prefix_rfl
  | next fits content room rest => exact absurd ⟨fits,content,room⟩ blocked

theorem longest_next (fits : Fits data size pos) (content : contentOk conf data pos) (room : count < maxSubframeCount)
    (rest : Longest conf data size (nextSubframe data pos) (index+1) (count + (actOf conf data index pos).indicate.toNat) later) :
    Longest conf data size pos index count (pos :: later) := by
  refine ⟨.next fits content room rest.1,?_⟩
  intro other run
  cases run with
  | stop => exact List.nil_prefix
  | next _ _ _ tail =>
    obtain ⟨more,same⟩ := rest.2 _ tail
    exact ⟨more,by rw [List.cons_append,same]⟩

theorem spans_append (old : SpansInside size one) (new : SpansInside size two) : SpansInside size (one ++ two) := by
  intro span member
  rcases List.mem_append.mp member with first | second
  · exact old span first
  · exact new span second

theorem takeSubframe_reads (conf : AmsduConf) (whole : s.pdata + 14 + subframeLength data s.pdata ≤ size)
    (inside : SpansInside size s.reads) :
    SpansInside size (takeSubframe conf data s).reads := by
  unfold takeSubframe
  dsimp only
  apply spans_append inside
  apply spans_append
  · split
    · intro span member
      rw [List.mem_singleton.mp member]
      dsimp only
      omega
    · nofun
  · split
    · intro span member
      rw [List.mem_singleton.mp member]
      exact whole
    · nofun

theorem amsduRound_stops (conf : AmsduConf) (data : Bytes) (s : Deagg)
    (blocked : s.aLen < 14 + subframeLength data s.pdata ∨ contentOk conf data s.pdata = false) :
    ∃ spans,amsduRound conf data s = (s.look spans,false) ∧ (14 < s.aLen → SpansInside (s.pdata+s.aLen) spans) := by
  unfold amsduRound
  dsimp only
  by_cases short : s.aLen < 14 + subframeLength data s.pdata
  · refine ⟨[(s.pdata+12,2)],by simp only [Deagg.look,short,if_true],?_⟩
    intro header span member
    rw [List.mem_singleton.mp member]
    dsimp only
    omega
  · have content : contentOk conf data s.pdata = false := blocked.resolve_left short
    refine ⟨[(s.pdata+12,2),(s.pdata,12)],?_,?_⟩
    · simp only [Deagg.look,short,content,if_false,Bool.not_false,if_true,List.append_assoc]
      rfl
    · intro header
      refine List.forall_mem_cons.mpr ⟨by dsimp only; omega,?_⟩
      intro span member
      rw [List.mem_singleton.mp member]
      dsimp only
      omega

theorem unblocked_parts {s : Deagg} (free : ¬(s.aLen < 14 + subframeLength data s.pdata ∨ contentOk conf data s.pdata = false)) :
    14 + subframeLength data s.pdata ≤ s.aLen ∧ contentOk conf data s.pdata :=
  ⟨Nat.not_lt.mp fun short => free (.inl short),(Bool.not_eq_false _).mp fun bad => free (.inr bad)⟩

theorem amsduRound_takes (enough : 14 + subframeLength data s.pdata ≤ s.aLen) (content : contentOk conf data s.pdata) :
    amsduRound conf data s =
      moveToNext (takeSubframe conf data (s.look [(s.pdata+12,2),(s.pdata,12)])) (subframeLength data s.pdata) := by
  have long : ¬ s.aLen < 14 + subframeLength data s.pdata := Nat.not_lt.mpr enough
  unfold amsduRound
  simp only [Deagg.look,long,content,if_false,Bool.not_true,Bool.false_eq_true,List.append_assoc]
  rfl

structure SameOutput (s t : Deagg) : Prop where
  index : t.index = s.index
  forwarded : t.forwarded = s.forwarded
  subframes : t.subframes = s.subframes
  reads : t.reads = s.reads

inductive Moved (s : Deagg) (len : Nat) : Deagg × Bool → Prop
  | full (t : Deagg) (same : SameOutput s t) (full : maxSubframeCount ≤ s.subframes.length) : Moved s len (t,false)
  | cut (t : Deagg) (same : SameOutput s t) (short : s.aLen < 14 + len + paddingLen len) : Moved s len (t,false)
  | done (t : Deagg) (same : SameOutput s t) (all : s.aLen = 14 + len) (left : t.aLen = 0) : Moved s len (t,true)
  | next (t : Deagg) (same : SameOutput s t) (room : s.subframes.length < maxSubframeCount)
      (pdata : t.pdata = s.pdata + 14 + len + paddingLen len) (aLen : t.aLen + (14 + len + paddingLen len) = s.aLen) :
      Moved s len (t,true)

theorem moveToNext_moved (enough : 14 + len ≤ s.aLen) : Moved s len (moveToNext s len) := by
  unfold moveToNext
  dsimp only
  split
  · rename_i full
    exact .full _ ⟨rfl,rfl,rfl,rfl⟩ full
  · rename_i room
    split
    · rename_i all
      exact .done _ ⟨rfl,rfl,rfl,rfl⟩ (by omega) all
    · split
      · exact .cut _ ⟨rfl,rfl,rfl,rfl⟩ (by omega)
      · exact .next _ ⟨rfl,rfl,rfl,rfl⟩ (by omega) rfl (by dsimp only; omega)

structure Deaggregates (conf : AmsduConf) (data : Bytes) (size : Nat) (s t : Deagg) : Prop where
  reads : SpansInside size t.reads
  taken : ∃ taken,Longest conf data size s.pdata s.index s.subframes.length taken ∧
    t.forwarded = s.forwarded ++ forwardsOf conf data s.index taken ∧
    t.subframes = s.subframes ++ indicatesOf conf data s.index taken

theorem deaggregates_stop (inside : SpansInside size t.reads) (forwarded : t.forwarded = s.forwarded)
    (subframes : t.subframes = s.subframes)
    (blocked : ¬ (Fits data size s.pdata ∧ contentOk conf data s.pdata ∧ s.subframes.length < maxSubframeCount)) :
    Deaggregates conf data size s t where
  reads := inside
  taken := ⟨[],longest_stop blocked,by rw [forwarded]; exact (List.append_nil _).symm,by rw [subframes]; exact (List.append_nil _).symm⟩

structure Trailing (conf : AmsduConf) (data : Bytes) (s t : Deagg) : Prop where
  index : t.index = s.index+1
  forwarded : t.forwarded = s.forwarded ++ if (actOf conf data s.index s.pdata).forward then [msduPkt data s.pdata] else []
  subframes : t.subframes = s.subframes ++ if (actOf conf data s.index s.pdata).indicate then [msduPkt data s.pdata] else []

theorem Trailing.count (behind : Trailing conf data s t) :
    t.subframes.length = s.subframes.length + (actOf conf data s.index s.pdata).indicate.toNat := by
  rw [behind.subframes,List.length_append]
  cases (actOf conf data s.index s.pdata).indicate with
  | true => rfl
  | false => rfl

theorem deaggregates_take (fits : Fits data size s.pdata) (content : contentOk conf data s.pdata)
    (room : s.subframes.length < maxSubframeCount) (behind : Trailing conf data s t) (pdata : t.pdata = nextSubframe data s.pdata)
    (rest : Deaggregates conf data size t u) : Deaggregates conf data size s u where
  reads := rest.reads
  taken := by
    obtain ⟨later,longest,forwarded,subframes⟩ := rest.taken
    rw [pdata,behind.index,behind.count] at longest
    refine ⟨s.pdata :: later,longest_next fits content room longest,?_,?_⟩
    · rw [forwarded,behind.forwarded,behind.index,List.append_assoc]
      rfl
    · rw [subframes,behind.subframes,behind.index,List.append_assoc]
      rfl

section
variable (conf : AmsduConf) (data : Bytes)

theorem taken_behind (s : Deagg) (spans : List Span)
    (same : SameOutput (takeSubframe conf data (s.look spans)) t) :
    Trailing conf data s t where
  index := same.index
  forwarded := same.forwarded
  subframes := same.subframes

theorem amsduLoop_deaggregates (size fuel : Nat) (s : Deagg) (enough : s.aLen ≤ fuel)
    (place : s.pdata + s.aLen = size) (room : s.subframes.length < maxSubframeCount) (inside : SpansInside size s.reads) :
    Deaggregates conf data size s (amsduLoop conf data fuel s) := by
  induction fuel generalizing s with
  | zero => exact deaggregates_stop inside rfl rfl fun able => by have header := able.1.header; omega
  | succ fuel ih =>
    unfold amsduLoop
    split
    · exact deaggregates_stop inside rfl rfl fun able => by have header := able.1.header; omega
    · rename_i header
      by_cases blocked : s.aLen < 14 + subframeLength data s.pdata ∨ contentOk conf data s.pdata = false
      · obtain ⟨spans,round,within⟩ := amsduRound_stops conf data s blocked
        rw [round]
        rw [place] at within
        refine deaggregates_stop (spans_append inside (within (by omega))) rfl rfl ?_
        intro able
        have whole := able.1.whole
        rcases blocked with short | bad
        · omega
        · exact Bool.false_ne_true (bad.symm.trans able.2.1)
      · obtain ⟨long,content⟩ := unblocked_parts blocked
        have fits : Fits data size s.pdata := ⟨by omega,by omega⟩
        rw [amsduRound_takes long content]
        have looked : SpansInside size (s.look [(s.pdata+12,2),(s.pdata,12)]).reads := by
          refine spans_append inside (List.forall_mem_cons.mpr ⟨by dsimp only; omega,?_⟩)
          intro span member
          rw [List.mem_singleton.mp member]
          dsimp only
          omega
        have taken : SpansInside size (takeSubframe conf data (s.look [(s.pdata+12,2),(s.pdata,12)])).reads :=
          takeSubframe_reads conf fits.whole looked
        have moved : Moved (takeSubframe conf data (s.look [(s.pdata+12,2),(s.pdata,12)])) (subframeLength data s.pdata) _ :=
          moveToNext_moved long
        have far : nextSubframe data s.pdata = s.pdata + 14 + subframeLength data s.pdata + paddingLen (subframeLength data s.pdata) := rfl
        generalize moveToNext (takeSubframe conf data (s.look [(s.pdata+12,2),(s.pdata,12)])) (subframeLength data s.pdata) = r at moved ⊢
        -- Where the loop ends, nothing more fits behind the subframe or no more may be indicated.
        have ends : ∀ t : Deagg,SameOutput (takeSubframe conf data (s.look [(s.pdata+12,2),(s.pdata,12)])) t →
            (maxSubframeCount ≤ t.subframes.length ∨ size ≤ nextSubframe data s.pdata + 14) → Deaggregates conf data size s t := by
          intro t same ended
          have behind := taken_behind conf data s _ same
          have moved : Trailing conf data s {t with pdata:=nextSubframe data s.pdata} := ⟨behind.index,behind.forwarded,behind.subframes⟩
          refine deaggregates_take fits content room moved rfl (deaggregates_stop ?_ rfl rfl ?_)
          · rw [same.reads]
            exact taken
          · intro able
            have header := able.1.header
            have free := able.2.2
            dsimp only at header free
            omega
        cases moved with
        | full t same full => exact ends t same (.inl (by rw [same.subframes]; exact full))
        | cut t same short =>
          have left : s.aLen < 14 + subframeLength data s.pdata + paddingLen (subframeLength data s.pdata) := short
          exact ends t same (.inr (by omega))
        | done t same all left =>
          have whole : s.aLen = 14 + subframeLength data s.pdata := all
          have ended : amsduLoop conf data fuel t = t := by
            cases fuel with
            | zero => rfl
            | succ fuel =>
              unfold amsduLoop
              rw [if_pos (by omega)]
          dsimp only
          rw [ended]
          exact ends t same (.inr (by omega))
        | next t same free pdata aLen =>
          have behind := taken_behind conf data s _ same
          have place' : t.pdata = s.pdata + 14 + subframeLength data s.pdata + paddingLen (subframeLength data s.pdata) := pdata
          have left : t.aLen + (14 + subframeLength data s.pdata + paddingLen (subframeLength data s.pdata)) = s.aLen := aLen
          refine deaggregates_take fits content room behind place' (ih t (by omega) (by omega) ?_ ?_)
          · rw [same.subframes]
            exact free
          · rw [same.reads]
            exact taken

theorem amsduLoop_ends (more fuel : Nat) (s : Deagg) (enough : s.aLen ≤ fuel) :
    amsduLoop conf data (fuel+more) s = amsduLoop conf data fuel s := by
  induction fuel generalizing s with
  | zero =>
    cases more with
    | zero => rfl
    | succ more =>
      rw [Nat.zero_add]
      unfold amsduLoop
      rw [if_pos (by omega)]
  | succ fuel ih =>
    have next : fuel + 1 + more = fuel + more + 1 := by omega
    rw [next]
    unfold amsduLoop
    split
    · rfl
    · rename_i header
      by_cases blocked : s.aLen < 14 + subframeLength data s.pdata ∨ contentOk conf data s.pdata = false
      · obtain ⟨spans,round,_⟩ := amsduRound_stops conf data s blocked
        rw [round]
      · obtain ⟨long,content⟩ := unblocked_parts blocked
        rw [amsduRound_takes long content]
        have moved : Moved (takeSubframe conf data (s.look [(s.pdata+12,2),(s.pdata,12)])) (subframeLength data s.pdata) _ :=
          moveToNext_moved long
        generalize moveToNext (takeSubframe conf data (s.look [(s.pdata+12,2),(s.pdata,12)])) (subframeLength data s.pdata) = r at moved ⊢
        cases moved with
        | full t same full => rfl
        | cut t same short => rfl
        | done t same all left => exact ih t (by omega)
        | next t same free pdata aLen =>
          have left : t.aLen + (14 + subframeLength data s.pdata + paddingLen (subframeLength data s.pdata)) = s.aLen := aLen
          exact ih t (by omega)
end

theorem forwardsOf_station (station : conf.cfg.mode ≠ .ap) (index : Nat) (taken : List Nat) :
    forwardsOf conf data index taken = [] := by
  induction taken generalizing index with
  | nil => rfl
  | cons pos rest ih =>
    unfold forwardsOf actOf
    rw [if_neg station,ih]
    rfl

theorem indicatesOf_station (station : conf.cfg.mode ≠ .ap) (index : Nat) (taken : List Nat) :
    indicatesOf conf data index taken = taken.map (msduPkt data) := by
  induction taken generalizing index with
  | nil => rfl
  | cons pos rest ih =>
    unfold indicatesOf actOf
    rw [if_neg station,ih]
    rfl

-- What is done with an aggregate: the packets of the longest run of subframes, each
-- forwarded and handed up as the interface says, and the frame freed once at the end.
theorem amsdu_to_msdu_deaggregates (conf : AmsduConf) (f : RecvFrame) :
    let data := (amsduBody f).rxData
    let size := (amsduBody f).len
    (∀ more,amsduLoop conf data (size+more) (deaggStart size) = amsduLoop conf data size (deaggStart size)) ∧
    SpansInside size (deaggregated conf (amsduBody f)).reads ∧
    ∃ taken,Longest conf data size 0 0 0 taken ∧
      amsduEvents conf f = (forwardsOf conf data 0 taken).map .forward ++ (indicatesOf conf data 0 taken).map .indicate ++ [.free f.id] ∧
      (conf.cfg.mode ≠ .ap → amsduEvents conf f = (taken.map (msduPkt data)).map .indicate ++ [.free f.id]) ∧
      (contentOk conf data 0 = false → amsduEvents conf f = [.free f.id]) := by
  dsimp only
  have room : (0 : Nat) < maxSubframeCount := by decide
  have run := amsduLoop_deaggregates conf (amsduBody f).rxData (amsduBody f).len (amsduBody f).len (deaggStart (amsduBody f).len)
    (Nat.le_refl _) (Nat.zero_add _) room nofun
  obtain ⟨taken,longest,forwarded,subframes⟩ := run.taken
  have events : amsduEvents conf f = (forwardsOf conf (amsduBody f).rxData 0 taken).map .forward ++
      (indicatesOf conf (amsduBody f).rxData 0 taken).map .indicate ++ [.free f.id] := by
    unfold amsduEvents deaggregated
    dsimp only
    rw [forwarded,subframes]
    rfl
  refine ⟨fun more => amsduLoop_ends conf _ more _ _ (Nat.le_refl _),run.reads,taken,longest,events,?_,?_⟩
  · intro station
    rw [events,forwardsOf_station station,indicatesOf_station station]
    rfl
  · intro bad
    have none : taken = [] := by
      have run := longest.1
      cases run with
      | stop => rfl
      | next fits content room rest => exact absurd (bad.symm.trans content) Bool.false_ne_true
    rw [events,none]
    rfl

def pairBytes : List UInt8 := [0x02,0,0,0,0,0,0x04,0,0,0,0,0,0,2,0xA1,0xA2] ++ [0x06,0,0,0,0,0,0x04,0,0,0,0,0,0,2,0xB1,0xB2]

def pairFrame : RecvFrame := {blankFrame 7 with rxData:=fun i => pairBytes.getD i 0,len:=32}
def stationConf : AmsduConf := ⟨openCfg,⟨0,fun _ => false,fun _ => false,fun _ => false⟩,blankAttrib⟩

theorem amsdu_to_msdu_deaggregates_pair : ∃ taken,Longest stationConf (amsduBody pairFrame).rxData 32 0 0 0 taken ∧
    (taken.map (msduPkt (amsduBody pairFrame).rxData)).map .indicate ++ [AmsduEvent.free 7] =
      [.indicate [0x02,0,0,0,0,0,0x04,0,0,0,0,0,0,2,0xA1,0xA2],.indicate [0x06,0,0,0,0,0,0x04,0,0,0,0,0,0,2,0xB1,0xB2],.free 7] := by
  obtain ⟨_,_,taken,longest,_,station,_⟩ := amsdu_to_msdu_deaggregates stationConf pairFrame
  refine ⟨taken,longest,?_⟩
  have events := station (by decide)
  have shown : amsduEvents stationConf pairFrame =
      [.indicate [0x02,0,0,0,0,0,0x04,0,0,0,0,0,0,2,0xA1,0xA2],.indicate [0x06,0,0,0,0,0,0x04,0,0,0,0,0,0,2,0xB1,0xB2],.free 7] := by
    decide +kernel
  exact events.symm.trans shown

def apConf : AmsduConf := ⟨{openCfg with mode:=.ap},⟨2,fun addr => addr = 2,fun _ => false,fun _ => true⟩,blankAttrib⟩

theorem amsdu_to_msdu_hands_up_fails : ¬ ∀ (conf : AmsduConf) (f : RecvFrame),∃ taken,
    Longest conf (amsduBody f).rxData (amsduBody f).len 0 0 0 taken ∧
      amsduEvents conf f = (taken.map (msduPkt (amsduBody f).rxData)).map .indicate ++ [.free f.id] := by
  intro claim
  obtain ⟨taken,_,events⟩ := claim apConf pairFrame
  have first : (amsduEvents apConf pairFrame).head? = some (.forward [0x02,0,0,0,0,0,0x04,0,0,0,0,0,0,2,0xA1,0xA2]) := by decide +kernel
  rw [events] at first
  cases taken with
  | nil => cases first
  | cons pos rest => cases first
end Rtl8852au.Recv
