import Mathlib.Data.List.Count
import Rtl8852au.FwDownload

namespace Rtl8852au.Fwdl
open Machine Memory Words BitField Nat Option

def Consecutive : Nat → List FwhdrSectionInfo → Nat → Prop
  | start,[],stop => start = stop
  | start,info::rest,stop => info.addr = start ∧ Consecutive (start+info.len) rest stop

def FwhdrSectionInfo.covers (info : FwhdrSectionInfo) (pos : Nat) : Bool := decide (info.addr ≤ pos ∧ pos < info.addr + info.len)

structure ParserFine (fw : Option (Nat → U8)) (len : Nat) : Prop where
  inside : ∀ pos ∈ (fwhdrParser fw len).reads, pos+4 ≤ len
  table : ∀ info ∈ (fwhdrParser fw len).info, info.sectionInfo.length ≤ fwdlSectionMaxNum
  sections : (fwhdrParser fw len).ret = .success → ∃ info, (fwhdrParser fw len).info = some info ∧
    Consecutive info.hdrLen info.sectionInfo len ∧
    ∀ pos, info.sectionInfo.countP (fun section_ => section_.covers pos) = if info.hdrLen ≤ pos ∧ pos < len then 1 else 0

def selected (info : FwBinInfo) (redl : Bool) : List FwhdrSectionInfo := info.sectionInfo.filter fun section_ => !redl || section_.redl

-- In its state and with no transmit failure: the packets fall into one group
-- for each selected section, which makes up the bytes of that section.
def Phase2Fine (fw : Nat → U8) (info : FwBinInfo) (redl : Bool) (polls : Nat → Nat) : Prop :=
  ∃ groups : List (List (List U8)), (fwdlPhase2 .pathRdy fw info redl (fun _ => none) polls).2.2 = groups.flatten ∧
    groups.map List.flatten = (selected info redl).map (fun section_ => bytesAt fw section_.addr section_.len) ∧
    ∀ packet ∈ groups.flatten, packet ≠ [] ∧ packet.length ≤ fwdlSectionPerPktLen

-- A register the loops write: the address of the segment, or a word of the
-- window that shows it.
def Writes (reg : Nat) : Prop :=
  reg = rAxFilterModelAddr ∨ rAxIndirAccessEntry ≤ reg ∧ reg+4 ≤ rAxIndirAccessEntry+romdlSegLen

def MemoryFine (answers : WriteAnswers) (buffer : Nat → U8) (addr len : Nat) : Prop :=
  match writeMemory answers buffer addr len with
  | .ret _ => True
  | .loops content start => (∃ t, Leads (writeStep content) start t ∧ t.pc = .done) ∧
    ∀ t, Leads (writeStep content) start t → (∀ pos ∈ t.reads, pos+4 ≤ len) ∧ ∀ write ∈ t.regs, Writes write.1

theorem consecutive_le (run : Consecutive start sections stop) : start ≤ stop := by
  induction sections generalizing start with
  | nil => exact le_of_eq run
  | cons info rest ih => exact le_trans (le_add_right start info.len) (ih run.2)

theorem consecutive_covers (run : Consecutive start sections stop) (pos : Nat) :
    sections.countP (fun info => info.covers pos) = if start ≤ pos ∧ pos < stop then 1 else 0 := by
  induction sections generalizing start with
  | nil =>
    cases run
    rw [List.countP_nil,if_neg (by omega)]
  | cons info rest ih =>
    obtain ⟨here,next⟩ := run
    have beyond := consecutive_le next
    rw [List.countP_cons,ih next]
    by_cases inside : start ≤ pos ∧ pos < start + info.len
    · have covered : info.covers pos := decide_eq_true (by omega)
      rw [covered,if_neg (by omega),if_pos rfl,if_pos (by omega)]
    · have apart : info.covers pos = false := decide_eq_false (by omega)
      rw [apart,if_neg Bool.false_ne_true,add_zero]
      by_cases later : start + info.len ≤ pos ∧ pos < stop
      · rw [if_pos later,if_pos (by omega)]
      · rw [if_neg later,if_neg (by omega)]

section
variable (fw : Nat → U8)

theorem parse_sections (count : Nat) (p : Parse) :
    ∃ sections, (parseSections fw count p).sections = p.sections ++ sections ∧
      Consecutive p.binPtr sections (parseSections fw count p).binPtr := by
  induction count generalizing p with
  | zero => exact ⟨[],(List.append_nil _).symm,rfl⟩
  | succ count ih =>
    let cur := fwhdrSectionParser fw p.pos p.binPtr
    obtain ⟨sections,listed,run⟩ := ih ⟨p.pos+fwhdrSectionLen,p.binPtr+cur.len,p.reads ++ [p.pos+4,p.pos],p.sections ++ [cur]⟩
    refine ⟨cur::sections,?_,rfl,run⟩
    rw [parseSections,listed,List.append_assoc]
    rfl

theorem parse_reads (count : Nat) (p : Parse) (pos : Nat) :
    pos ∈ (parseSections fw count p).reads ↔
      pos ∈ p.reads ∨ ∃ i < count, pos = p.pos + i*fwhdrSectionLen + 4 ∨ pos = p.pos + i*fwhdrSectionLen := by
  induction count generalizing p with
  | zero => simp [parseSections]
  | succ count ih =>
    rw [parseSections,ih]
    simp only [List.mem_append,List.mem_cons,List.not_mem_nil,or_false]
    constructor
    · rintro ((before | here) | ⟨i,below,later⟩)
      · exact .inl before
      · exact .inr ⟨0,succ_pos _,by simpa using here⟩
      · exact .inr ⟨i+1,succ_lt_succ below,by simp only [fwhdrSectionLen] at later ⊢; omega⟩
    · rintro (before | ⟨i,below,here⟩)
      · exact .inl (.inl before)
      · cases i with
        | zero => exact .inl (.inr (by simpa using here))
        | succ i => exact .inr ⟨i,lt_of_succ_lt_succ below,by simp only [fwhdrSectionLen] at here ⊢; omega⟩

-- Room for the header, for the section headers as far as they are read, and
-- for the entries in the table.
def HeaderFits (fw : Nat → U8) (len : Nat) : Prop :=
  fwhdrHdrLen ≤ len ∧ sectionNum fw ≤ fwdlSectionMaxNum ∧
    (sectionNum fw = 0 ∨ fwhdrHdrLen + (sectionNum fw - 1)*fwhdrSectionLen + 8 ≤ len)

theorem reads_inside (len : Nat) :
    (∀ pos ∈ (sectionsOf fw).reads, pos+4 ≤ len) ↔
      fwhdrHdrLen ≤ len ∧ (sectionNum fw = 0 ∨ fwhdrHdrLen + (sectionNum fw - 1)*fwhdrSectionLen + 8 ≤ len) := by
  simp only [sectionsOf,parse_reads,List.mem_cons,List.not_mem_nil,or_false,fwhdrHdrLen,fwhdrSectionLen]
  constructor
  · intro all
    have header := all 28 (by simp)
    refine ⟨header,?_⟩
    by_cases none_ : sectionNum fw = 0
    · exact .inl none_
    · have last := all _ (.inr ⟨sectionNum fw - 1,by omega,.inl rfl⟩)
      exact .inr (by omega)
  · rintro ⟨header,sections⟩ pos (first | ⟨i,below,here⟩)
    · omega
    · have inside := sections.resolve_left (by omega)
      have before : i*16 ≤ (sectionNum fw - 1)*16 := mul_le_mul_right 16 (by omega)
      omega

theorem parser_exact (len : Nat) (some_ : len ≠ 0) : ParserFine (some fw) len ↔ HeaderFits fw len := by
  have parsed : fwhdrParser (some fw) len =
      ⟨if len ≠ (sectionsOf fw).binPtr then .fwBin else .success,some (fillPartSz fw),some (fwhdrInfo fw),(sectionsOf fw).reads⟩ := by
    simp only [fwhdrParser,if_neg some_]
  have many : (fwhdrInfo fw).sectionInfo.length = sectionNum fw := (fwhdrInfo fw).counted
  constructor
  · intro fine
    have inside := fine.inside
    have table := fine.table
    rw [parsed] at inside table
    obtain ⟨header,sections⟩ := (reads_inside fw len).mp inside
    exact ⟨header,many ▸ table _ rfl,sections⟩
  · rintro ⟨header,few,sections⟩
    refine ⟨?_,?_,?_⟩
    · rw [parsed]
      exact (reads_inside fw len).mpr ⟨header,sections⟩
    · rw [parsed]
      intro info member
      cases member
      exact many ▸ few
    · rw [parsed]
      intro success
      have ends : len = (sectionsOf fw).binPtr := by
        by_contra apart
        simp [apart] at success
      obtain ⟨listed,all,run⟩ := parse_sections (fillPartSz fw) (sectionNum fw) ⟨fwhdrHdrLen,hdrLen fw,[24,28,8],[]⟩
      have run : Consecutive (hdrLen fw) (fwhdrInfo fw).sectionInfo len := by
        have same : (fwhdrInfo fw).sectionInfo = listed := all
        rw [same,ends]
        exact run
      exact ⟨fwhdrInfo fw,rfl,run,consecutive_covers run⟩

theorem pktLen_size (some_ : residueLen ≠ 0) :
    ∃ pktLen, (if residueLen ≥ fwdlSectionPerPktLen then fwdlSectionPerPktLen else residueLen) = pktLen ∧
      pktLen ≤ fwdlSectionPerPktLen ∧ pktLen ≤ residueLen ∧ pktLen ≠ 0 := by
  by_cases large : residueLen ≥ fwdlSectionPerPktLen
  · exact ⟨fwdlSectionPerPktLen,if_pos large,le_refl _,large,by decide⟩
  · exact ⟨residueLen,if_neg large,Nat.le_of_not_le large,Nat.le_refl _,some_⟩

theorem section_sent (info : FwhdrSectionInfo) (sent : List (List U8)) :
    ∃ group, (sectionsDownload fw (fun _ => none) info sent).sent = sent ++ group ∧
      (sectionsDownload fw (fun _ => none) info sent).ret = .success ∧ group.flatten = bytesAt fw info.addr info.len ∧
      ∀ packet ∈ group, packet ≠ [] ∧ packet.length ≤ fwdlSectionPerPktLen := by
  let inv : Dl → Prop := fun d => d.ret = .success ∧ ∃ group done, d.sent = sent ++ group ∧ done + d.residueLen = info.len ∧
    d.section_ = info.addr + done ∧ group.flatten = bytesAt fw info.addr done ∧
    ∀ packet ∈ group, packet ≠ [] ∧ packet.length ≤ fwdlSectionPerPktLen
  have kept : ∀ d, inv d → d.more → inv (d.body fw fun _ => none) := by
    rintro d ⟨success,group,done,listed,rest,place,bytes,sizes⟩ again
    have some_ : d.residueLen ≠ 0 := by
      intro zero
      simp [Dl.more,zero] at again
    obtain ⟨pktLen,chosen,small,part,full⟩ := pktLen_size some_
    refine ⟨rfl,group ++ [bytesAt fw d.section_ pktLen],done+pktLen,?_,?_,?_,?_,?_⟩
    · simp only [Dl.body,chosen,listed,List.append_assoc]
    · simp only [Dl.body,chosen]
      omega
    · simp only [Dl.body,chosen,place]
      omega
    · rw [List.flatten_append,bytes,bytesAt_append,place]
      simp
    · intro packet member
      rcases List.mem_append.mp member with before | last
      · exact sizes packet before
      · cases List.mem_singleton.mp last
        refine ⟨fun empty => full ?_,by rw [bytesAt_length]; exact small⟩
        simpa using congrArg List.length empty
  have start : inv ⟨info.addr,info.len,sent,.success⟩ :=
    ⟨rfl,[],0,(List.append_nil _).symm,zero_add _,rfl,rfl,fun _ member => by cases member⟩
  have finish : (sectionsDownload fw (fun _ => none) info sent).more = false := by
    refine iterate_exits (fun d : Dl => True) Dl.residueLen (fun _ _ _ => trivial) ?_ trivial (le_refl _)
    intro d _ again
    simp only [Dl.more,Bool.and_eq_true,bne_iff_ne,ne_eq] at again
    obtain ⟨pktLen,chosen,_,part,full⟩ := pktLen_size again.1
    simp only [Dl.body,chosen]
    omega
  have ended : inv (sectionsDownload fw (fun _ => none) info sent) := iterate_keeps inv kept start
  obtain ⟨success,group,done,listed,rest,_,bytes,sizes⟩ := ended
  refine ⟨group,listed,success,?_,sizes⟩
  have residue : (sectionsDownload fw (fun _ => none) info sent).residueLen = 0 := by
    have success : (sectionsDownload fw (fun _ => none) info sent).ret = .success := success
    simpa [Dl.more,success] using finish
  have whole : done = info.len := by
    have rest : done + (sectionsDownload fw (fun _ => none) info sent).residueLen = info.len := rest
    omega
  rw [bytes,whole]

theorem sections_sent (redl : Bool) (sections : List FwhdrSectionInfo) (sent : List (List U8)) :
    ∃ groups : List (List (List U8)), (downloadSections fw (fun _ => none) redl sections sent) = (.success,sent ++ groups.flatten) ∧
      groups.map List.flatten = (sections.filter fun section_ => !redl || section_.redl).map
        (fun section_ => bytesAt fw section_.addr section_.len) ∧
      ∀ packet ∈ groups.flatten, packet ≠ [] ∧ packet.length ≤ fwdlSectionPerPktLen := by
  induction sections generalizing sent with
  | nil => exact ⟨[],by simp [downloadSections],rfl,by simp⟩
  | cons info rest ih =>
    cases chosen : !redl || info.redl with
    | false =>
      obtain ⟨groups,all,bytes,sizes⟩ := ih sent
      exact ⟨groups,by rw [downloadSections,chosen]; exact all,by rw [List.filter_cons,chosen]; exact bytes,sizes⟩
    | true =>
      obtain ⟨group,listed,success,whole,small⟩ := section_sent fw info sent
      obtain ⟨groups,all,bytes,sizes⟩ := ih (sent ++ group)
      refine ⟨group::groups,?_,?_,?_⟩
      · rw [downloadSections,chosen]
        simp only [if_true,success,ne_eq,not_true_eq_false,if_false,listed,all,List.flatten_cons,List.append_assoc]
      · rw [List.filter_cons,chosen]
        simp only [if_true,List.map_cons,whole,bytes]
      · intro packet member
        rcases List.mem_append.mp member with first | later
        · exact small packet first
        · exact sizes packet later

theorem phase2_fine (info : FwBinInfo) (redl : Bool) (polls : Nat → Nat) : Phase2Fine fw info redl polls := by
  obtain ⟨groups,all,bytes,sizes⟩ := sections_sent fw redl info.sectionInfo []
  refine ⟨groups,?_,bytes,sizes⟩
  simp [fwdlPhase2,all]
end

theorem segSize_size (some_ : dlSize ≠ 0) :
    ∃ segSize, (if dlSize ≥ romdlSegLen then romdlSegLen else dlSize) = segSize ∧ segSize ≠ 0 ∧ segSize ≤ dlSize ∧
      segSize ≤ romdlSegLen ∧ (segSize = romdlSegLen ∨ segSize = dlSize) := by
  by_cases large : dlSize ≥ romdlSegLen
  · exact ⟨romdlSegLen,if_pos large,by decide,large,le_refl _,.inl rfl⟩
  · exact ⟨dlSize,if_neg large,some_,Nat.le_refl _,Nat.le_of_not_le large,.inr rfl⟩

structure Aligned (len : Nat) (s : WriteState) : Prop where
  inside : ∀ pos ∈ s.reads, pos+4 ≤ len
  writes : ∀ write ∈ s.regs, Writes write.1
  rest : s.dlSize ≤ len ∧ s.dlSize % 4 = 0
  outer : s.pc = .outer → s.index = (len-s.dlSize) % 0x100000000
  inner : s.pc = .inner → s.segSize ≤ s.dlSize ∧ s.segSize ≤ romdlSegLen ∧ s.segSize ≠ 0 ∧ s.segBytes ≤ s.segSize ∧
    s.segBytes % 4 = 0 ∧ s.segSize % 4 = 0 ∧ s.index = (len - s.dlSize + (s.segSize-s.segBytes)) % 0x100000000 ∧
    s.writeAddr = rAxIndirAccessEntry + (s.segSize-s.segBytes)

theorem step_aligned (content : Nat → U8) (aligned : Aligned len s) : Aligned len (writeStep content s) := by
  rcases s with ⟨pc,dlSize,targetAddr,segSize,segBytes,writeAddr,index,reads,regs⟩
  obtain ⟨inside,writes,rest,outer,inner⟩ := aligned
  dsimp only at inside writes rest outer inner
  cases pc with
  | outer =>
    by_cases zero : dlSize = 0
    · simp only [writeStep,if_pos zero]
      exact ⟨inside,writes,rest,fun away => (by cases away),fun away => (by cases away)⟩
    · obtain ⟨segSize,chosen,some_,part,small,either⟩ := segSize_size zero
      simp only [writeStep,if_neg zero,chosen]
      refine ⟨inside,?_,rest,fun away => (by cases away),fun _ => ?_⟩
      · intro write member
        rcases List.mem_append.mp member with before | here
        · exact writes write before
        · rw [List.mem_singleton.mp here]
          exact .inl rfl
      have words : segSize % 4 = 0 := by
        rcases either with full | last
        · rw [full]; decide
        · rw [last]; exact rest.2
      exact ⟨part,small,some_,Nat.le_refl _,words,words,by rw [outer rfl,Nat.sub_self,Nat.add_zero],by rw [Nat.sub_self]; rfl⟩
  | inner =>
    obtain ⟨part,small,some_,left,words,sizes,place,window⟩ := inner rfl
    by_cases zero : segBytes = 0
    · simp only [writeStep,if_pos zero]
      refine ⟨inside,writes,⟨?_,?_⟩,fun _ => ?_,fun away => (by cases away)⟩
      · dsimp only
        omega
      · dsimp only
        omega
      · dsimp only
        rw [place]
        congr 1
        omega
    · simp only [romdlSegLen] at small
      have next : (segBytes + 0xfffffffc) % 0x100000000 = segBytes - 4 := by omega
      simp only [writeStep,if_neg zero,next]
      refine ⟨?_,?_,rest,fun away => (by cases away),fun _ => ?_⟩
      · intro pos member
        rcases List.mem_append.mp member with before | here
        · exact inside pos before
        · rw [List.mem_singleton.mp here,place]
          omega
      · intro write member
        rcases List.mem_append.mp member with before | here
        · exact writes write before
        · rw [List.mem_singleton.mp here,window]
          simp only [Writes,rAxIndirAccessEntry,romdlSegLen]
          omega
      · refine ⟨part,small,some_,?_,?_,sizes,?_,?_⟩
        · dsimp only
          omega
        · dsimp only
          omega
        · dsimp only
          rw [place]
          omega
        · dsimp only
          rw [window,rAxIndirAccessEntry]
          omega
  | done => exact ⟨inside,writes,rest,fun away => (by cases away),fun away => (by cases away)⟩

def writeMeasure (s : WriteState) : Nat :=
  match s.pc with
  | .outer => 2*s.dlSize + 1
  | .inner => 2*(s.dlSize-s.segSize) + s.segBytes + 2
  | .done => 0

theorem measure_drops (content : Nat → U8) (aligned : Aligned len s) (going : ¬s.pc = .done) :
    writeMeasure (writeStep content s) < writeMeasure s := by
  rcases s with ⟨pc,dlSize,targetAddr,segSize,segBytes,writeAddr,index,reads,regs⟩
  obtain ⟨_,_,rest,_,inner⟩ := aligned
  dsimp only at rest inner
  cases pc with
  | outer =>
    by_cases zero : dlSize = 0
    · simp only [writeStep,if_pos zero,writeMeasure]
      omega
    · obtain ⟨segSize,chosen,some_,part,_,either⟩ := segSize_size zero
      simp only [writeStep,if_neg zero,chosen,writeMeasure]
      simp only [romdlSegLen] at either
      omega
  | inner =>
    obtain ⟨part,small,some_,left,words,sizes,_⟩ := inner rfl
    by_cases zero : segBytes = 0
    · simp only [writeStep,if_pos zero,writeMeasure]
      omega
    · simp only [romdlSegLen] at small
      have next : (segBytes + 0xfffffffc) % 0x100000000 = segBytes - 4 := by omega
      simp only [writeStep,if_neg zero,writeMeasure,next]
      omega
  | done => exact absurd rfl going

-- An odd number of bytes never comes to nothing in steps of four: the last
-- segment is the one that does not end.
def Stuck (s : WriteState) : Prop :=
  s.dlSize % 4 ≠ 0 ∧ s.pc ≠ .done ∧ (s.pc = .inner → s.segSize ≤ s.dlSize ∧
    (s.segSize = romdlSegLen ∨ s.segSize = s.dlSize) ∧ s.segBytes % 4 = s.segSize % 4)

theorem step_stuck (content : Nat → U8) (stuck : Stuck s) : Stuck (writeStep content s) := by
  rcases s with ⟨pc,dlSize,targetAddr,segSize,segBytes,writeAddr,index,reads,regs⟩
  obtain ⟨odd,going,inner⟩ := stuck
  dsimp only at odd going inner
  cases pc with
  | outer =>
    have some_ : dlSize ≠ 0 := by
      intro zero
      exact odd (by rw [zero])
    obtain ⟨segSize,chosen,_,part,_,either⟩ := segSize_size some_
    simp only [writeStep,if_neg some_,chosen]
    exact ⟨odd,Pc.noConfusion,fun _ => ⟨part,either,rfl⟩⟩
  | inner =>
    obtain ⟨part,either,same⟩ := inner rfl
    by_cases zero : segBytes = 0
    · -- only a full segment comes to its end
      have full : segSize = 0x40000 := by
        rcases either with full | last
        · exact full
        · rw [zero] at same
          omega
      simp only [writeStep,if_pos zero]
      refine ⟨?_,Pc.noConfusion,fun away => (by cases away)⟩
      dsimp only
      omega
    · simp only [writeStep,if_neg zero]
      refine ⟨odd,Pc.noConfusion,fun _ => ⟨part,either,?_⟩⟩
      dsimp only
      omega
  | done => exact absurd rfl going

theorem memory_exact (answers : WriteAnswers) (buffer : Nat → U8) (addr len : Nat) :
    MemoryFine answers buffer addr len ↔
      (answers.entry = 0xAAAAAAAA ∧ answers.entry4 = 0xBBBBBBBB ∧ answers.block.isSome → 4 ∣ len) := by
  unfold MemoryFine writeMemory
  by_cases first : answers.entry = 0xAAAAAAAA
  · by_cases second : answers.entry4 = 0xBBBBBBBB
    · simp only [first,second,ne_eq,not_true_eq_false,if_false]
      cases answers.block with
      | none => simp
      | some block =>
        simp only [isSome_some,and_self,forall_const]
        constructor
        · rintro ⟨⟨t,path,done⟩,_⟩
          by_contra odd
          have stuck := path.keeps Stuck ⟨fun even => odd (dvd_of_mod_eq_zero even),Pc.noConfusion,fun away => (by cases away)⟩
            (fun _ stuck => step_stuck _ stuck)
          exact stuck.2.1 done
        · intro words
          have start : Aligned len ⟨.outer,len,addr,0,0,0,0,[],[]⟩ :=
            ⟨fun _ member => (by cases member),fun _ member => (by cases member),⟨le_refl _,mod_eq_zero_of_dvd words⟩,fun _ => by simp,fun away => (by cases away)⟩
          refine ⟨Leads.arrives (fun s => s.pc = .done) (Aligned len) writeMeasure (fun _ aligned _ => step_aligned _ aligned)
            (fun _ aligned going => measure_drops _ aligned going) start,?_⟩
          intro t path
          have reached := path.keeps (Aligned len) start fun _ aligned => step_aligned _ aligned
          exact ⟨reached.inside,reached.writes⟩
    · rw [if_neg (not_not_intro first),if_pos second]
      exact ⟨fun _ all => absurd all.2.1 second,fun _ => trivial⟩
  · rw [if_pos first]
    exact ⟨fun _ all => absurd all.1 first,fun _ => trivial⟩

structure FwdlFine (image : Option (Nat → U8)) (imageLen : Nat) (fw : Nat → U8) (info : FwBinInfo) (redl : Bool) (polls : Nat → Nat)
    (answers : WriteAnswers) (buffer : Nat → U8) (addr len : Nat) : Prop where
  parser : ParserFine image imageLen
  phase2 : Phase2Fine fw info redl polls
  memory : MemoryFine answers buffer addr len

theorem fwdl_exact (image : Option (Nat → U8)) (imageLen : Nat) (fw : Nat → U8) (info : FwBinInfo) (redl : Bool) (polls : Nat → Nat)
    (answers : WriteAnswers) (buffer : Nat → U8) (addr len : Nat) :
    FwdlFine image imageLen fw info redl polls answers buffer addr len ↔
      (∀ fw ∈ image, imageLen ≠ 0 → HeaderFits fw imageLen) ∧
      (answers.entry = 0xAAAAAAAA ∧ answers.entry4 = 0xBBBBBBBB ∧ answers.block.isSome → 4 ∣ len) := by
  have parser : ParserFine image imageLen ↔ ∀ fw ∈ image, imageLen ≠ 0 → HeaderFits fw imageLen := by
    cases image with
    | none =>
      refine ⟨fun _ fw member => (by cases member),fun _ => ⟨?_,?_,?_⟩⟩
      · exact fun pos member => (by cases member)
      · exact fun info member => (by cases member)
      · exact fun success => (by cases success)
    | some fw =>
      simp only [mem_def,some.injEq,forall_eq']
      by_cases zero : imageLen = 0
      · have parsed : fwhdrParser (some fw) imageLen = ⟨.bufSz,some fw,none,[]⟩ := by simp only [fwhdrParser,if_pos zero]
        refine ⟨fun _ some_ => absurd zero some_,fun _ => ⟨?_,?_,?_⟩⟩
        · rw [parsed]; exact fun pos member => (by cases member)
        · rw [parsed]; exact fun info member => (by cases member)
        · rw [parsed]; exact fun success => (by cases success)
      · rw [parser_exact fw imageLen zero]
        exact ⟨fun fits _ => fits,fun fits => fits zero⟩
  rw [← parser,← memory_exact answers buffer addr len]
  exact ⟨fun fine => ⟨fine.parser,fine.memory⟩,fun both => ⟨both.1,phase2_fine fw info redl polls,both.2⟩⟩

-- A section of two bytes is never written to the end.
theorem fwdl_runs_on : ¬∀ (image : Option (Nat → U8)) (imageLen : Nat) (fw : Nat → U8) (info : FwBinInfo) (redl : Bool)
    (polls : Nat → Nat) (answers : WriteAnswers) (buffer : Nat → U8) (addr len : Nat),
    FwdlFine image imageLen fw info redl polls answers buffer addr len := by
  intro always
  have fine := (always none 0 (fun _ => 0) ⟨0,32,0,[],rfl⟩ false (fun _ => 7) ⟨0xAAAAAAAA,0xBBBBBBBB,some fun _ => 0⟩
    (fun _ => 0) 0x18900000 2).memory
  have words := (memory_exact _ _ _ _).mp fine ⟨rfl,rfl,rfl⟩
  exact absurd words (by decide)

end Rtl8852au.Fwdl
