import Rtl8852au.UsbRxParse

namespace Rtl8852au.UsbRxParse
open Machine Words Option List

variable (env : Env) (mem : Nat → U8) (total : Nat)

def accepted (pos : Nat) : Bool :=
  decide ((parsingRxWd mem pos).pktlen ≠ 0 ∧ pos + (parsingRxWd mem pos).offset + (parsingRxWd mem pos).pktlen ≤ total)

def nextPos (pos : Nat) : Nat := pos + alignOffset env.agg ((parsingRxWd mem pos).offset + (parsingRxWd mem pos).pktlen)

-- The descriptors the bytes lead to, each with its round: the next one while
-- there is a packet structure, a packet and something behind it.
def chain : Nat → Nat → Nat → List (Nat × Nat)
  | 0,_,_ => []
  | fuel+1,round,pos =>
    if env.query round then
      (round,pos) :: if accepted mem total pos && decide (nextPos env mem pos < total) then
        chain fuel (round+1) (nextPos env mem pos) else []
    else []

section
variable (place : Nat × Nat)

def packetAt : RxPkt := singleRx env mem place.1 (parsingRxWd mem place.2) (place.2 + (parsingRxWd mem place.2).offset)

def pktAt : Option RxPkt := if accepted mem total place.2 then some (packetAt env mem place) else none

def acceptedReads : List (Nat × Nat) :=
  let mdata := parsingRxWd mem place.2
  (if mdata.rpktType = rxDescPktTWifi then frameReads env mem place.1 mdata (place.2+mdata.offset)
    else env.content place.1 mdata (place.2+mdata.offset)) ++ copyReads (packetAt env mem place)

def readsAt : List (Nat × Nat) :=
  wdReads (parsingRxWd mem place.2) place.2 ++ if accepted mem total place.2 then acceptedReads env mem place else []

def refersAt : Bool :=
  accepted mem total place.2 && !((parsingRxWd mem place.2).rpktType == rxDescPktTWifi && env.alloc place.1)
end

theorem body_out {s : Loop} (out : env.query s.round = false) : s.body env mem = {s with again:=false} := by
  simp [Loop.body,out]

theorem body_refused {s : Loop} (query : env.query s.round) (len : s.transferLen + s.pktBuf = total) (inside : s.pktBuf ≤ total)
    (refused : accepted mem total s.pktBuf = false) :
    s.body env mem = {s with reads:=s.reads ++ wdReads (parsingRxWd mem s.pktBuf) s.pktBuf,again:=false} := by
  have room : s.pktBuf + s.transferLen.toNat = total := by omega
  simp only [accepted,ne_eq,decide_eq_false_iff_not,not_and,Nat.not_le] at refused
  simp only [Loop.body,query,Bool.not_true,Bool.false_eq_true,if_false,halHandleRxBuffer,room]
  by_cases zero : (parsingRxWd mem s.pktBuf).pktlen = 0
  · simp only [if_pos zero]
  · simp only [if_neg zero,if_pos (refused zero)]

theorem body_accepted {s : Loop} (query : env.query s.round) (len : s.transferLen + s.pktBuf = total) (inside : s.pktBuf ≤ total)
    (fits : accepted mem total s.pktBuf) :
    (s.body env mem).pktBuf = nextPos env mem s.pktBuf ∧
    (s.body env mem).transferLen = s.transferLen - alignOffset env.agg ((parsingRxWd mem s.pktBuf).offset + (parsingRxWd mem s.pktBuf).pktlen) ∧
    (s.body env mem).round = s.round+1 ∧
    (s.body env mem).pkts = s.pkts ++ [packetAt env mem (s.round,s.pktBuf)] ∧
    (s.body env mem).reads = s.reads ++ (wdReads (parsingRxWd mem s.pktBuf) s.pktBuf ++ acceptedReads env mem (s.round,s.pktBuf)) ∧
    (s.body env mem).again = decide (s.transferLen - alignOffset env.agg
      ((parsingRxWd mem s.pktBuf).offset + (parsingRxWd mem s.pktBuf).pktlen) > 0) ∧
    (s.body env mem).refCnt = (if (packetAt env mem (s.round,s.pktBuf)).refers then (s.refCnt+1) % 256 else s.refCnt) ∧
    (s.body env mem).brel = (s.brel && !(packetAt env mem (s.round,s.pktBuf)).refers) := by
  have room : s.pktBuf + s.transferLen.toNat = total := by omega
  obtain ⟨some_,ends⟩ := of_decide_eq_true fits
  have within : ¬s.pktBuf + (parsingRxWd mem s.pktBuf).offset + (parsingRxWd mem s.pktBuf).pktlen > total := by omega
  have apart : s.pktBuf + (parsingRxWd mem s.pktBuf).offset - s.pktBuf = (parsingRxWd mem s.pktBuf).offset := by omega
  by_cases wifi : (parsingRxWd mem s.pktBuf).rpktType = rxDescPktTWifi
  · simp only [Loop.body,query,Bool.not_true,Bool.false_eq_true,if_false,halHandleRxBuffer,room,if_neg some_,if_neg within,
      if_pos wifi,apart,acceptedReads,packetAt,nextPos,append_assoc]
    exact ⟨trivial,trivial,trivial,trivial,trivial,trivial,rfl,trivial⟩
  · simp only [Loop.body,query,Bool.not_true,Bool.false_eq_true,if_false,halHandleRxBuffer,room,if_neg some_,if_neg within,
      if_neg wifi,apart,acceptedReads,packetAt,nextPos,append_assoc]
    exact ⟨trivial,trivial,trivial,trivial,trivial,trivial,rfl,trivial⟩

theorem iterate_stopped {σ : Type u} {more : σ → Bool} {body : σ → σ} {s : σ} (stopped : more s = false) (fuel : Nat) :
    Machine.iterate more body fuel s = s := by
  cases fuel with
  | zero => rfl
  | succ fuel => rw [Machine.iterate,stopped]; rfl

theorem loop_chain (fuel : Nat) {s : Loop} (again : s.again) (len : s.transferLen + s.pktBuf = total) (inside : s.pktBuf ≤ total) :
    (iterate Loop.again (Loop.body env mem) fuel s).pkts =
      s.pkts ++ (chain env mem total fuel s.round s.pktBuf).filterMap (pktAt env mem total) ∧
    (iterate Loop.again (Loop.body env mem) fuel s).reads =
      s.reads ++ (chain env mem total fuel s.round s.pktBuf).flatMap (readsAt env mem total) := by
  induction fuel generalizing s with
  | zero => simp [Machine.iterate,chain]
  | succ fuel ih =>
    rw [Machine.iterate,again,if_pos rfl,chain]
    cases query : env.query s.round with
    | false =>
      rw [body_out env mem query,iterate_stopped rfl]
      simp
    | true =>
      simp only [if_true]
      cases fits : accepted mem total s.pktBuf with
      | false =>
        rw [body_refused env mem total query len inside fits,iterate_stopped rfl]
        simp [pktAt,readsAt,fits]
      | true =>
        obtain ⟨pktBuf,transferLen,round,pkts,reads,next,_,_⟩ := body_accepted env mem total query len inside fits
        have place : nextPos env mem s.pktBuf = s.pktBuf + alignOffset env.agg
          ((parsingRxWd mem s.pktBuf).offset + (parsingRxWd mem s.pktBuf).pktlen) := rfl
        generalize s.body env mem = s' at pktBuf transferLen round pkts reads next
        by_cases more : nextPos env mem s.pktBuf < total
        · have going : s'.again := by
            rw [next]
            exact decide_eq_true (by omega)
          obtain ⟨found,read⟩ := ih going (by omega) (by omega)
          rw [round,pktBuf] at found read
          simp only [more,decide_true,Bool.and_self,if_true]
          refine ⟨?_,?_⟩
          · rw [found,pkts]
            simp [pktAt,fits]
          · rw [read,reads]
            simp [readsAt,fits]
        · have stopped : s'.again = false := by
            rw [next]
            exact decide_eq_false (by omega)
          rw [iterate_stopped stopped,pkts,reads]
          simp [more,pktAt,readsAt,fits]

theorem loop_counts (fuel : Nat) (counted : s.refCnt = s.pkts.countP RxPkt.refers % 256)
    (released : s.brel = decide (s.pkts.countP RxPkt.refers = 0)) : (iterate Loop.again (Loop.body env mem) fuel s).refCnt =
      (iterate Loop.again (Loop.body env mem) fuel s).pkts.countP RxPkt.refers % 256 ∧
    (iterate Loop.again (Loop.body env mem) fuel s).brel =
      decide ((iterate Loop.again (Loop.body env mem) fuel s).pkts.countP RxPkt.refers = 0) := by
  refine iterate_keeps (fun s : Loop => s.refCnt = s.pkts.countP RxPkt.refers % 256 ∧
    s.brel = decide (s.pkts.countP RxPkt.refers = 0)) ?_ ⟨counted,released⟩
  rintro s ⟨counted,released⟩ _
  unfold Loop.body
  split
  · exact ⟨counted,released⟩
  · split
    · exact ⟨counted,released⟩
    · rename_i mdata virAddr reads _
      simp only [countP_append,countP_singleton]
      cases (singleRx env mem s.round mdata virAddr).refers with
      | false => simp [counted,released]
      | true =>
        simp only [if_true,Bool.not_true,Bool.and_false,counted]
        refine ⟨by omega,?_⟩
        simp

theorem align_beyond (agg : Bool) (offset : Nat) : offset ≤ alignOffset agg offset := by
  cases agg with
  | false => exact Nat.le_refl _
  | true =>
    simp only [alignOffset,if_true]
    omega

theorem loop_ends (transferLen : Nat) : (rxLoop env mem transferLen).again = false := by
  refine iterate_exits (fun _ : Loop => True) (fun s : Loop => if s.again then s.transferLen.toNat + 1 else 0) (fun _ _ _ => trivial)
    ?_ trivial (by simp)
  intro s _ again
  simp only [again,if_true]
  unfold Loop.body
  split
  · simp
  · split
    · simp
    · rename_i mdata virAddr reads handled
      have some_ : mdata.pktlen ≠ 0 := by
        intro zero
        unfold halHandleRxBuffer at handled
        dsimp only at handled
        split at handled
        · simp at handled
        · rename_i found
          split at handled
          · simp at handled
          · split at handled
            · simp only [Prod.mk.injEq,some.injEq] at handled
              exact found (handled.1.1 ▸ zero)
            · simp only [Prod.mk.injEq,some.injEq] at handled
              exact found (handled.1.1 ▸ zero)
      have beyond := align_beyond env.agg (virAddr - s.pktBuf + mdata.pktlen)
      dsimp only
      by_cases more : s.transferLen - alignOffset env.agg (virAddr - s.pktBuf + mdata.pktlen) > 0
      · rw [if_pos (decide_eq_true more)]
        omega
      · rw [if_neg (by simpa using more)]
        omega

theorem chain_after (fuel round pos : Nat) : ∀ place ∈ chain env mem total fuel round pos, pos ≤ place.2 := by
  induction fuel generalizing round pos with
  | zero => exact fun _ member => (by cases member)
  | succ fuel ih =>
    intro place member
    rw [chain] at member
    split at member
    · rcases mem_cons.mp member with rfl | later
      · exact Nat.le_refl _
      · split at later
        · exact Nat.le_trans (Nat.le_add_right _ _) (ih _ _ place later)
        · cases later
    · cases member

theorem chain_ordered (fuel round pos : Nat) :
    ((chain env mem total fuel round pos).filterMap (pktAt env mem total)).Pairwise fun a b => a.start + a.len ≤ b.start := by
  induction fuel generalizing round pos with
  | zero => exact .nil
  | succ fuel ih =>
    rw [chain]
    split
    · cases fits : accepted mem total pos with
      | false => simp [pktAt,fits]
      | true =>
        rw [filterMap_cons_some (b := packetAt env mem (round,pos)) (by simp [pktAt,fits]),pairwise_cons]
        simp only [Bool.true_and]
        split
        · refine ⟨?_,ih _ _⟩
          intro later member
          obtain ⟨place,listed,here⟩ := mem_filterMap.mp member
          have after := chain_after env mem total _ _ _ place listed
          have beyond := align_beyond env.agg ((parsingRxWd mem pos).offset + (parsingRxWd mem pos).pktlen)
          unfold pktAt at here
          split at here
          · cases some.inj here
            simp only [packetAt,singleRx]
            unfold nextPos at after
            omega
          · cases here
        · exact ⟨fun _ member => (by cases member),.nil⟩
    · exact .nil

theorem packet_inside {place : Nat × Nat} (here : pktAt env mem total place = some pkt) :
    0 < pkt.len ∧ pkt.start + pkt.len ≤ total := by
  unfold pktAt at here
  split at here
  · rename_i fits
    cases some.inj here
    obtain ⟨some_,ends⟩ := of_decide_eq_true fits
    exact ⟨Nat.pos_of_ne_zero some_,ends⟩
  · cases here

-- Room for everything that is read for one descriptor: its first word, the
-- other words a data or status descriptor has, and what is read of an accepted
-- packet, the header as far as its sequence control for a frame.
def PlaceFits (place : Nat × Nat) : Prop :=
  let mdata := parsingRxWd mem place.2
  place.2+4 ≤ total ∧ (mdata.described → place.2+16 ≤ total ∧ (mdata.longRxd → place.2+30 ≤ total)) ∧
    (accepted mem total place.2 →
      if mdata.rpktType = rxDescPktTWifi then place.2 + mdata.offset + 24 ≤ total
      else ∀ read ∈ env.content place.1 mdata (place.2+mdata.offset), read.1 + read.2 ≤ total)

theorem rxType_wifi (mdata : RMetaData) : rxType mdata = .wifi ↔ mdata.rpktType = rxDescPktTWifi := by
  unfold rxType
  split
  · rename_i wifi
    exact ⟨fun _ => wifi,fun _ => rfl⟩
  · rename_i other
    split
    · exact ⟨fun same => (by cases same),fun wifi => absurd wifi other⟩
    · exact ⟨fun same => (by cases same),fun wifi => absurd wifi other⟩

theorem wd_inside (mdata : RMetaData) (desc : Nat) : (∀ read ∈ wdReads mdata desc, read.1 + read.2 ≤ total) ↔
    desc+4 ≤ total ∧ (mdata.described → desc+16 ≤ total ∧ (mdata.longRxd → desc+30 ≤ total)) := by
  unfold wdReads
  cases mdata.described with
  | false => simp
  | true =>
    cases mdata.longRxd with
    | false =>
      simp only [if_true,Bool.false_eq_true,if_false,append_nil,cons_append,nil_append,forall_mem_cons,
        not_mem_nil,false_implies,implies_true,and_true,forall_const]
      omega
    | true =>
      simp only [if_true,cons_append,nil_append,forall_mem_cons,not_mem_nil,false_implies,implies_true,
        and_true,forall_const]
      omega

theorem frame_inside (round : Nat) (mdata : RMetaData) (hdr : Nat) :
    (∀ read ∈ frameReads env mem round mdata hdr, read.1 + read.2 ≤ total) ↔ hdr+24 ≤ total := by
  constructor
  · intro all
    have last := all (hdr+22,2) (by simp [frameReads])
    exact last
  · intro room read member
    have within : read.1 + read.2 ≤ hdr + 24 := by
      simp only [frameReads,frameOffsetAddress2,frameOffsetAddress3,mem_append,mem_cons,not_mem_nil,or_false] at member
      rcases member with (rfl | rfl | rfl | rfl) | more
      · dsimp only; omega
      · dsimp only; omega
      · exact Nat.le_refl _
      · dsimp only; omega
      · split at more
        · rcases mem_cons.mp more with rfl | address
          · dsimp only; omega
          · split at address
            · cases mem_singleton.mp address; dsimp only; omega
            · split at address
              · cases mem_singleton.mp address; dsimp only; omega
              · cases address
        · cases more
    omega

theorem copy_inside {place : Nat × Nat} (fits : accepted mem total place.2)
    (header : (parsingRxWd mem place.2).rpktType = rxDescPktTWifi → place.2 + (parsingRxWd mem place.2).offset + 24 ≤ total) :
    ∀ read ∈ copyReads (packetAt env mem place), read.1 + read.2 ≤ total := by
  obtain ⟨_,ends⟩ := of_decide_eq_true fits
  intro read member
  unfold copyReads at member
  split at member
  · rename_i wifi
    have room := header ((rxType_wifi _).mp wifi)
    have start : (packetAt env mem place).start = place.2 + (parsingRxWd mem place.2).offset := rfl
    rcases mem_append.mp member with bits | copy
    · rcases mem_cons.mp bits with rfl | bits
      · dsimp only; omega
      · cases mem_singleton.mp bits; dsimp only; omega
    · split at copy
      · cases mem_singleton.mp copy; exact ends
      · cases copy
  · cases member

theorem reads_fit (place : Nat × Nat) :
    (∀ read ∈ readsAt env mem total place, read.1 + read.2 ≤ total) ↔ PlaceFits env mem total place := by
  unfold readsAt PlaceFits
  rw [forall_mem_append,wd_inside,and_assoc]
  refine and_congr_right fun _ => and_congr_right fun _ => ?_
  cases fits : accepted mem total place.2 with
  | false => simp
  | true =>
    simp only [if_true,forall_const,acceptedReads,forall_mem_append]
    by_cases wifi : (parsingRxWd mem place.2).rpktType = rxDescPktTWifi
    · simp only [if_pos wifi,frame_inside]
      exact ⟨fun both => both.1,fun room => ⟨room,copy_inside env mem total fits fun _ => room⟩⟩
    · simp only [if_neg wifi]
      exact ⟨fun both => both.1,fun room => ⟨room,copy_inside env mem total fits fun frame => absurd frame wifi⟩⟩

structure RxFine : Prop where
  ends : (rxLoop env mem total).again = false
  ordered : (phlGetSingleRx env mem total).pkts.Pairwise fun a b => a.start + a.len ≤ b.start
  inside : ∀ pkt ∈ (phlGetSingleRx env mem total).pkts, 0 < pkt.len ∧ pkt.start + pkt.len ≤ total
  reads : ∀ read ∈ (rxLoop env mem total).reads, read.1 + read.2 ≤ total
  counted : (phlGetSingleRx env mem total).pktcnt.getD 0 = (phlGetSingleRx env mem total).pkts.countP RxPkt.refers

def places : List (Nat × Nat) := chain env mem total (total+1) 0 0

theorem pkts_places : (rxLoop env mem total).pkts = (places env mem total).filterMap (pktAt env mem total) ∧
    (rxLoop env mem total).reads = (places env mem total).flatMap (readsAt env mem total) := by
  obtain ⟨pkts,reads⟩ := loop_chain env mem total (total+1) (s := ⟨0,total,0,[],0,true,[],true⟩) rfl (Int.add_zero _) (Nat.zero_le _)
  exact ⟨pkts,reads⟩

theorem packet_refers (place : Nat × Nat) : (packetAt env mem place).refers =
    !((parsingRxWd mem place.2).rpktType == rxDescPktTWifi && env.alloc place.1) := by
  simp only [RxPkt.refers,packetAt,singleRx,rxType_wifi]
  by_cases wifi : (parsingRxWd mem place.2).rpktType = rxDescPktTWifi
  · cases env.alloc place.1 <;> simp [wifi]
  · simp [wifi]

theorem refers_places : (rxLoop env mem total).pkts.countP RxPkt.refers = (places env mem total).countP (refersAt env mem total) := by
  rw [(pkts_places env mem total).1,countP_filterMap]
  congr 1
  funext place
  cases fits : accepted mem total place.2 with
  | false => simp [pktAt,refersAt,fits]
  | true => simp [pktAt,refersAt,fits,packet_refers]

theorem count_fits : (phlGetSingleRx env mem total).pktcnt.getD 0 = (phlGetSingleRx env mem total).pkts.countP RxPkt.refers ↔
    (places env mem total).countP (refersAt env mem total) < 256 := by
  obtain ⟨counted,released⟩ := loop_counts env mem (total+1) (s := ⟨0,total,0,[],0,true,[],true⟩) rfl rfl
  have counted : (rxLoop env mem total).refCnt = (rxLoop env mem total).pkts.countP RxPkt.refers % 256 := counted
  have released : (rxLoop env mem total).brel = decide ((rxLoop env mem total).pkts.countP RxPkt.refers = 0) := released
  rw [← refers_places]
  by_cases none_ : (rxLoop env mem total).pkts.countP RxPkt.refers = 0
  · simp [phlGetSingleRx,released,none_]
  · have some_ : (rxLoop env mem total).pkts.isEmpty = false := by
      cases held : (rxLoop env mem total).pkts with
      | nil => rw [held] at none_; exact absurd rfl none_
      | cons => rfl
    simp only [phlGetSingleRx,released,some_,none_,decide_false,Bool.not_false,Bool.and_self,if_true,getD_some,counted]
    omega

theorem rx_exact (env : Env) (mem : Nat → U8) (total : Nat) : RxFine env mem total ↔
    (∀ place ∈ places env mem total, PlaceFits env mem total place) ∧ (places env mem total).countP (refersAt env mem total) < 256 := by
  obtain ⟨pkts,reads⟩ := pkts_places env mem total
  have inside : (∀ read ∈ (rxLoop env mem total).reads, read.1 + read.2 ≤ total) ↔
      ∀ place ∈ places env mem total, PlaceFits env mem total place := by
    rw [reads]
    constructor
    · intro all place member
      exact (reads_fit env mem total place).mp fun read here => all read (mem_flatMap.mpr ⟨place,member,here⟩)
    · intro all read member
      obtain ⟨place,listed,here⟩ := mem_flatMap.mp member
      exact (reads_fit env mem total place).mpr (all place listed) read here
  constructor
  · intro fine
    exact ⟨inside.mp fine.reads,(count_fits env mem total).mp fine.counted⟩
  · rintro ⟨fit,few⟩
    refine ⟨loop_ends env mem total,?_,?_,inside.mpr fit,(count_fits env mem total).mpr few⟩
    · have ordered := chain_ordered env mem total (total + 1) 0 0
      rwa [← places,← pkts] at ordered
    · intro pkt member
      have member : pkt ∈ (rxLoop env mem total).pkts := member
      rw [pkts] at member
      obtain ⟨place,_,here⟩ := mem_filterMap.mp member
      exact packet_inside env mem total here

def pieceAt (round pos : Nat) : UsbRx.Piece where
  ok := accepted mem total pos
  type := rxType (parsingRxWd mem pos)
  alignOffset := alignOffset env.agg ((parsingRxWd mem pos).offset + (parsingRxWd mem pos).pktlen)
  alloc := env.alloc round

def RxPkt.phlRx (b : Nat) (pkt : RxPkt) : UsbRx.PhlRx := ⟨pkt.type,if pkt.refers then some b else none⟩

def Loop.pc (b : Nat) (s : Loop) : UsbRx.Pc :=
  if s.again then .parse b s.transferLen (s.pkts.map (RxPkt.phlRx b)) s.refCnt s.brel
  else .parsed b (s.pkts.map (RxPkt.phlRx b)) s.refCnt s.brel

def shortFrame : Nat → U8 := fun pos => if pos = 0 then 8 else 0

theorem rx_reads_behind : ¬∀ (env : Env) (mem : Nat → U8) (total : Nat), RxFine env mem total := by
  intro always
  have fine := always ⟨true,fun _ => true,fun _ => false,fun _ => true,fun _ _ _ => []⟩ shortFrame 24
  have inside := fine.reads (38,2) (by decide +kernel)
  exact absurd inside (by decide)

end Rtl8852au.UsbRxParse
