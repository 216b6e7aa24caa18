import Rtl8852au.Efuse

namespace Rtl8852au.Efuse

inductive Access where
  | read (efuseIdx : Nat)
  | write (eepromIdx : Nat)
  deriving DecidableEq,Repr

section
variable (shape : Shape) (phyMap : Bytes)

def headerAccesses (efuseIdx : Nat) : List Access :=
  if shape.phySize ≤ efuseIdx then []
  else if phyMap efuseIdx = 0xFF then [.read efuseIdx]
  else if shape.isBt ∧ phyMap efuseIdx &&& 0xF ≠ 0xF then [.read efuseIdx]
  else [.read efuseIdx,.read (efuseIdx+1)]

-- In the mask configuration the byte is not read.
def byteAccesses (cfg : ParserCfg) (efuseIdx eepromIdx : Nat) : List Access :=
  match cfg with
  | .map => [.read efuseIdx,.write eepromIdx]
  | .mask => [.write eepromIdx]

def wordAccesses (shape : Shape) (cfg : ParserCfg) (blkIdx : UInt8) (i efuseIdx : Nat) : List Access :=
  let eepromIdx := (blkIdx.toNat <<< 3) + (i <<< 1)
  if shape.logSize < eepromIdx + 1 then []
  else
    let first := byteAccesses cfg efuseIdx eepromIdx
    if shape.phySize - 1 < efuseIdx + 1 then first else first ++ byteAccesses cfg (efuseIdx+1) (eepromIdx+1)

def wordsAccesses (shape : Shape) (cfg : ParserCfg) (phyMap : Bytes) (blkIdx wordEn : UInt8) : List Nat → Cursor → List Access
  | [],_ => []
  | i :: rest,c =>
    if wordEn.toNat.testBit i then wordsAccesses shape cfg phyMap blkIdx wordEn rest c
    else wordAccesses shape cfg blkIdx i c.efuseIdx ++
      match parseWord shape cfg phyMap blkIdx i c with
      | .error _ => []
      | .ok c => wordsAccesses shape cfg phyMap blkIdx wordEn rest c

def loopAccesses (shape : Shape) (cfg : ParserCfg) (phyMap : Bytes) : Nat → Cursor → List Access
  | 0,_ => []
  | fuel+1,c => headerAccesses shape phyMap c.efuseIdx ++
    match readHeader shape phyMap c.efuseIdx with
    | .stop _ => []
    | .entry blkIdx wordEn efuseIdx =>
      if shape.phySize - 1 ≤ efuseIdx then []
      else wordsAccesses shape cfg phyMap blkIdx wordEn [0,1,2,3] {c with efuseIdx} ++
        match parseWords shape cfg phyMap blkIdx wordEn [0,1,2,3] {c with efuseIdx} with
        | .error _ => []
        | .ok c => loopAccesses shape cfg phyMap fuel c

def parserAccesses (cfg : ParserCfg) : List Access := loopAccesses shape cfg phyMap (shape.phySize+1) ⟨blankMap,shape.start⟩

def logMapOf : Except Bytes Cursor → Bytes
  | .error logMap => logMap
  | .ok c => c.logMap

def present (wordEn : UInt8) (indices : List Nat) : List Nat := indices.filter (fun i => !wordEn.toNat.testBit i)
def InLog (shape : Shape) (blkIdx : UInt8) (i : Nat) : Prop := (blkIdx.toNat <<< 3) + (i <<< 1) < shape.logSize

def Whole (idx next : Nat) : Prop :=
  ∃ blkIdx wordEn first,readHeader shape phyMap idx = .entry blkIdx wordEn first ∧ first+1 < shape.phySize ∧
    next = first + 2*(present wordEn [0,1,2,3]).length ∧ next ≤ shape.phySize ∧
    ∀ i ∈ present wordEn [0,1,2,3],InLog shape blkIdx i

inductive EntryFrom (shape : Shape) (phyMap : Bytes) : Nat → Nat → Prop where
  | here : EntryFrom shape phyMap idx idx
  | later : Whole shape phyMap idx next → EntryFrom shape phyMap next target → EntryFrom shape phyMap idx target

def WordBeyond (shape : Shape) (blkIdx : UInt8) (first : Nat) (words : List Nat) : Prop :=
  ∃ before i after,words = before ++ i :: after ∧ first + 2*before.length = shape.phySize ∧ ∀ j ∈ before ++ [i],InLog shape blkIdx j

def Beyond (cfg : ParserCfg) (idx : Nat) : Prop :=
  idx+1 = shape.phySize ∧ phyMap idx ≠ 0xFF ∧ ¬ (shape.isBt ∧ phyMap idx &&& 0xF ≠ 0xF) ∨
    cfg = .map ∧ ∃ blkIdx wordEn first,readHeader shape phyMap idx = .entry blkIdx wordEn first ∧ first+1 < shape.phySize ∧
      WordBeyond shape blkIdx first (present wordEn [0,1,2,3])
end

open List

structure ParserSafe (shape : Shape) (phyMap : Bytes) (cfg : ParserCfg) : Prop where
  terminates : ∀ more,parseLoop shape cfg phyMap (shape.phySize+1+more) ⟨blankMap,shape.start⟩ = eepromParser shape phyMap cfg
  reads : ∀ a,.read a ∈ parserAccesses shape phyMap cfg → a < shape.phySize
  writes : ∀ a,.write a ∈ parserAccesses shape phyMap cfg → a < shape.logSize
  marks : ∀ a,logMapOf (eepromParser shape phyMap .mask) a =
    if .write a ∈ parserAccesses shape phyMap .map then 0x00 else 0xFF

theorem header_ahead (read : readHeader shape phyMap idx = .entry blkIdx wordEn first) : idx < first := by
  unfold readHeader at read
  dsimp only at read
  split at read
  · cases read
  · split at read
    · cases read
    · split at read
      · cases read; omega
      · split at read
        · cases read
        · split at read
          · cases read; omega
          · cases read; omega

theorem word_outcome (shape : Shape) (cfg : ParserCfg) (phyMap : Bytes) (blkIdx : UInt8) (i : Nat) (c : Cursor) :
    (InLog shape blkIdx i ∧ c.efuseIdx+2 ≤ shape.phySize ∧
      ∃ logMap,parseWord shape cfg phyMap blkIdx i c = .ok ⟨logMap,c.efuseIdx+2⟩) ∨
    (¬ (InLog shape blkIdx i ∧ c.efuseIdx+2 ≤ shape.phySize) ∧
      ∃ logMap,parseWord shape cfg phyMap blkIdx i c = .error logMap) := by
  unfold parseWord InLog
  dsimp only
  split
  · exact .inr ⟨fun both => by omega,_,rfl⟩
  · split
    · exact .inr ⟨fun both => by omega,_,rfl⟩
    · split
      · exact .inr ⟨fun both => by omega,_,rfl⟩
      · exact .inl ⟨by omega,by omega,_,rfl⟩

theorem present_cons (absent : wordEn.toNat.testBit i) : present wordEn (i :: rest) = present wordEn rest := by
  unfold present
  rw [filter_cons_of_neg]
  rw [absent]
  decide

theorem present_cons_held (held : wordEn.toNat.testBit i ≠ true) : present wordEn (i :: rest) = i :: present wordEn rest := by
  unfold present
  rw [filter_cons_of_pos]
  rw [Bool.eq_false_iff.mpr held]
  rfl

theorem words_outcome (shape : Shape) (cfg : ParserCfg) (phyMap : Bytes) (blkIdx wordEn : UInt8) (indices : List Nat) (c : Cursor)
    (inside : c.efuseIdx ≤ shape.phySize) :
    let last := c.efuseIdx + 2*(present wordEn indices).length
    (last ≤ shape.phySize ∧ (∀ i ∈ present wordEn indices,InLog shape blkIdx i) ∧
      ∃ logMap,parseWords shape cfg phyMap blkIdx wordEn indices c = .ok ⟨logMap,last⟩) ∨
    (¬ (last ≤ shape.phySize ∧ ∀ i ∈ present wordEn indices,InLog shape blkIdx i) ∧
      ∃ logMap,parseWords shape cfg phyMap blkIdx wordEn indices c = .error logMap) := by
  induction indices generalizing c with
  | nil => exact .inl ⟨inside,nofun,_,rfl⟩
  | cons i rest ih =>
    unfold parseWords
    by_cases absent : wordEn.toNat.testBit i
    · rw [if_pos absent,present_cons absent]
      exact ih c inside
    · rw [if_neg absent,present_cons_held absent]
      dsimp only
      rw [length_cons]
      rcases word_outcome shape cfg phyMap blkIdx i c with ⟨inLog,room,logMap,taken⟩ | ⟨out,logMap,failed⟩
      · rw [taken]
        dsimp only
        have later := ih ⟨logMap,c.efuseIdx+2⟩ room
        dsimp only at later
        have same : c.efuseIdx + 2 + 2*(present wordEn rest).length = c.efuseIdx + 2*((present wordEn rest).length+1) := by omega
        rw [same] at later
        rcases later with ⟨fits,all,done⟩ | ⟨not,done⟩
        · exact .inl ⟨fits,forall_mem_cons.mpr ⟨inLog,all⟩,done⟩
        · refine .inr ⟨fun both => not ⟨both.1,(forall_mem_cons.mp both.2).2⟩,done⟩
      · rw [failed]
        refine .inr ⟨fun both => out ⟨(forall_mem_cons.mp both.2).1,?_⟩,logMap,rfl⟩
        have fits := both.1
        omega

theorem loop_ends (shape : Shape) (cfg : ParserCfg) (phyMap : Bytes) (more fuel : Nat) (c : Cursor)
    (enough : shape.phySize - c.efuseIdx < fuel) :
    parseLoop shape cfg phyMap (fuel+more) c = parseLoop shape cfg phyMap fuel c := by
  induction fuel generalizing c with
  | zero => omega
  | succ fuel ih =>
    have next : fuel + 1 + more = fuel + more + 1 := by omega
    rw [next]
    unfold parseLoop
    cases read : readHeader shape phyMap c.efuseIdx with
    | stop efuseIdx => rfl
    | entry blkIdx wordEn first =>
      have ahead := header_ahead read
      dsimp only
      split
      · rfl
      · rename_i near
        rcases words_outcome shape cfg phyMap blkIdx wordEn [0,1,2,3] {c with efuseIdx:=first} (by dsimp only; omega) with
          ⟨fits,_,logMap,taken⟩ | ⟨_,logMap,failed⟩
        · rw [taken]
          dsimp only at fits ⊢
          exact ih _ (by dsimp only; omega)
        · rw [failed]

theorem word_beyond_cons : WordBeyond shape blkIdx first (i :: rest) ↔
    InLog shape blkIdx i ∧ (first = shape.phySize ∨ WordBeyond shape blkIdx (first+2) rest) := by
  constructor
  · rintro ⟨before,j,after,split,last,inLog⟩
    cases before with
    | nil =>
      injection split with same _
      subst same
      exact ⟨inLog i mem_cons_self,.inl last⟩
    | cons k before =>
      injection split with same others
      subst same
      refine ⟨inLog i mem_cons_self,.inr ⟨before,j,after,others,?_,fun l member => inLog l (mem_cons_of_mem i member)⟩⟩
      rw [length_cons] at last
      omega
  · rintro ⟨inLog,here | ⟨before,j,after,rfl,last,others⟩⟩
    · exact ⟨[],i,rest,rfl,here,fun j member => by rw [mem_singleton.mp member]; exact inLog⟩
    · refine ⟨i :: before,j,after,rfl,?_,forall_mem_cons.mpr ⟨inLog,others⟩⟩
      rw [length_cons]
      omega

def ReadsInside (shape : Shape) (accesses : List Access) : Prop := ∀ a,.read a ∈ accesses → a < shape.phySize

theorem reads_append : ReadsInside shape (one ++ two) ↔ ReadsInside shape one ∧ ReadsInside shape two := by
  constructor
  · intro inside
    exact ⟨fun a member => inside a (mem_append_left _ member),fun a member => inside a (mem_append_right _ member)⟩
  · rintro ⟨first,second⟩ a member
    rcases mem_append.mp member with one | two
    · exact first a one
    · exact second a two

theorem byte_reads : ReadsInside shape (byteAccesses cfg efuseIdx eepromIdx) ↔ (cfg = .map → efuseIdx < shape.phySize) := by
  cases cfg with
  | map =>
    refine ⟨fun inside _ => inside efuseIdx mem_cons_self,fun inside a member => ?_⟩
    rcases mem_cons.mp member with read | write
    · injection read with same
      rw [same]
      exact inside rfl
    · cases mem_singleton.mp write
  | mask => exact ⟨fun _ no => (nomatch no),fun _ a member => nomatch mem_singleton.mp member⟩

section
variable (shape : Shape) (cfg : ParserCfg)

theorem word_reads (blkIdx : UInt8) (i efuseIdx : Nat) (inside : efuseIdx ≤ shape.phySize) :
    ReadsInside shape (wordAccesses shape cfg blkIdx i efuseIdx) ↔
      ¬ (cfg = .map ∧ InLog shape blkIdx i ∧ efuseIdx = shape.phySize) := by
  unfold wordAccesses InLog
  dsimp only
  split
  · refine ⟨fun _ both => ?_,fun _ => nofun⟩
    have inLog := both.2.1
    omega
  · split
    · rw [byte_reads]
      refine ⟨fun low both => ?_,fun no map => ?_⟩
      · have below := low both.1
        omega
      · have apart : efuseIdx ≠ shape.phySize := fun last => no ⟨map,by omega,last⟩
        omega
    · rw [reads_append,byte_reads,byte_reads]
      refine ⟨fun low both => ?_,fun _ => ⟨fun _ => by omega,fun _ => by omega⟩⟩
      have below := low.2 both.1
      omega

theorem words_reads (phyMap : Bytes) (blkIdx wordEn : UInt8) (indices : List Nat) (c : Cursor)
    (inside : c.efuseIdx ≤ shape.phySize) :
    ReadsInside shape (wordsAccesses shape cfg phyMap blkIdx wordEn indices c) ↔
      ¬ (cfg = .map ∧ WordBeyond shape blkIdx c.efuseIdx (present wordEn indices)) := by
  induction indices generalizing c with
  | nil =>
    refine ⟨fun _ both => ?_,fun _ => nofun⟩
    obtain ⟨before,i,after,split,_⟩ := both.2
    cases before with
    | nil => cases split
    | cons => cases split
  | cons i rest ih =>
    unfold wordsAccesses
    by_cases absent : wordEn.toNat.testBit i
    · rw [if_pos absent,present_cons absent]
      exact ih c inside
    · rw [if_neg absent,present_cons_held absent,reads_append,word_reads shape cfg blkIdx i c.efuseIdx inside,word_beyond_cons]
      rcases word_outcome shape cfg phyMap blkIdx i c with ⟨inLog,room,logMap,taken⟩ | ⟨out,logMap,failed⟩
      · rw [taken]
        dsimp only
        rw [ih ⟨logMap,c.efuseIdx+2⟩ room]
        have before : c.efuseIdx ≠ shape.phySize := by omega
        exact ⟨fun both no => both.2 ⟨no.1,no.2.2.resolve_left before⟩,
          fun no => ⟨fun both => before both.2.2,fun both => no ⟨both.1,inLog,.inr both.2⟩⟩⟩
      · rw [failed]
        have none : ReadsInside shape [] := nofun
        refine ⟨fun both no => ?_,fun no => ⟨fun both => no ⟨both.1,both.2.1,.inl both.2.2⟩,none⟩⟩
        rcases no.2.2 with here | ⟨before,j,after,_,last,_⟩
        · exact both.1 ⟨no.1,no.2.1,here⟩
        · exact out ⟨no.2.1,by omega⟩

theorem header_reads (shape : Shape) (phyMap : Bytes) (idx : Nat) : ReadsInside shape (headerAccesses shape phyMap idx) ↔
    ¬ (idx+1 = shape.phySize ∧ phyMap idx ≠ 0xFF ∧ ¬ (shape.isBt ∧ phyMap idx &&& 0xF ≠ 0xF)) := by
  have one : idx < shape.phySize → ReadsInside shape [.read idx] := by
    intro low a member
    injection mem_singleton.mp member with same
    rw [same]
    exact low
  unfold headerAccesses
  split
  · exact ⟨fun _ both => by omega,fun _ => nofun⟩
  · split
    · rename_i blank
      exact ⟨fun _ both => both.2.1 blank,fun _ => one (by omega)⟩
    · rename_i written
      split
      · rename_i short
        exact ⟨fun _ both => both.2.2 short,fun _ => one (by omega)⟩
      · rename_i long
        constructor
        · intro inside both
          have below := inside (idx+1) (mem_cons_of_mem _ mem_cons_self)
          omega
        · intro no a member
          have apart : idx + 1 ≠ shape.phySize := fun last => no ⟨last,written,long⟩
          rcases mem_cons.mp member with first | second
          · injection first with same; omega
          · injection mem_singleton.mp second with same; omega

theorem loop_reads (phyMap : Bytes) (fuel : Nat) (c : Cursor)
    (enough : shape.phySize - c.efuseIdx < fuel) :
    ReadsInside shape (loopAccesses shape cfg phyMap fuel c) ↔
      ∀ idx,EntryFrom shape phyMap c.efuseIdx idx → ¬ Beyond shape phyMap cfg idx := by
  induction fuel generalizing c with
  | zero => omega
  | succ fuel ih =>
    have steps : (∀ idx,EntryFrom shape phyMap c.efuseIdx idx → ¬ Beyond shape phyMap cfg idx) ↔
        ¬ Beyond shape phyMap cfg c.efuseIdx ∧ ∀ next,Whole shape phyMap c.efuseIdx next →
          ∀ idx,EntryFrom shape phyMap next idx → ¬ Beyond shape phyMap cfg idx := by
      refine ⟨fun all => ⟨all _ .here,fun next whole idx path => all idx (.later whole path)⟩,fun both idx path => ?_⟩
      cases path with
      | here => exact both.1
      | later whole path => exact both.2 _ whole idx path
    rw [steps]
    unfold loopAccesses
    rw [reads_append,header_reads]
    have none : ReadsInside shape [] := nofun
    unfold Beyond
    rw [not_or,and_assoc]
    refine and_congr_right fun _ => ?_
    cases read : readHeader shape phyMap c.efuseIdx with
    | stop efuseIdx =>
      refine ⟨fun _ => ⟨?_,?_⟩,fun _ => none⟩
      · rintro ⟨_,_,_,_,found,_⟩
        cases found
      · rintro next ⟨_,_,_,found,_⟩
        rw [read] at found
        cases found
    | entry blkIdx wordEn first =>
      dsimp only
      have own : (cfg = .map ∧ ∃ blkIdx' wordEn' first',Header.entry blkIdx wordEn first = .entry blkIdx' wordEn' first' ∧
          first'+1 < shape.phySize ∧ WordBeyond shape blkIdx' first' (present wordEn' [0,1,2,3])) ↔
          first+1 < shape.phySize ∧ cfg = .map ∧ WordBeyond shape blkIdx first (present wordEn [0,1,2,3]) := by
        constructor
        · rintro ⟨map,_,_,_,same,near,beyond⟩
          cases same
          exact ⟨near,map,beyond⟩
        · rintro ⟨near,map,beyond⟩
          exact ⟨map,_,_,_,rfl,near,beyond⟩
      rw [own]
      split
      · rename_i far
        refine ⟨fun _ => ⟨fun both => ?_,?_⟩,fun _ => none⟩
        · have near := both.1
          omega
        · rintro next ⟨_,_,_,found,near,_⟩
          rw [read] at found
          cases found
          omega
      · rename_i near
        have room : first + 1 < shape.phySize := by omega
        have ahead := header_ahead read
        rw [reads_append,words_reads shape cfg phyMap blkIdx wordEn [0,1,2,3] {c with efuseIdx:=first} (by dsimp only; omega)]
        refine and_congr ⟨fun no both => no both.2,fun no both => no ⟨room,both⟩⟩ ?_
        rcases words_outcome shape cfg phyMap blkIdx wordEn [0,1,2,3] {c with efuseIdx:=first} (by dsimp only; omega) with
          ⟨fits,inLog,logMap,taken⟩ | ⟨out,logMap,failed⟩
        · rw [taken]
          dsimp only at fits ⊢
          rw [ih ⟨logMap,first + 2*(present wordEn [0,1,2,3]).length⟩ (by dsimp only; omega)]
          constructor
          · rintro later next ⟨_,_,_,found,_,rfl,_⟩
            rw [read] at found
            cases found
            exact later
          · intro all
            exact all _ ⟨blkIdx,wordEn,first,read,room,rfl,fits,inLog⟩
        · rw [failed]
          refine ⟨fun _ => ?_,fun _ => none⟩
          rintro next ⟨_,_,_,found,_,rfl,fits,inLog⟩
          rw [read] at found
          cases found
          exact absurd ⟨fits,inLog⟩ out
end

def WritesInside (shape : Shape) (accesses : List Access) : Prop := ∀ a,.write a ∈ accesses → a < shape.logSize

theorem writes_append (one : WritesInside shape first) (two : WritesInside shape second) :
    WritesInside shape (first ++ second) := by
  intro a member
  rcases mem_append.mp member with left | right
  · exact one a left
  · exact two a right

theorem byte_writes (inside : eepromIdx < shape.logSize) : WritesInside shape (byteAccesses cfg efuseIdx eepromIdx) := by
  intro a member
  cases cfg with
  | map =>
    rcases mem_cons.mp member with read | write
    · cases read
    · injection mem_singleton.mp write with same; omega
  | mask => injection mem_singleton.mp member with same; omega

theorem word_writes (even : shape.logSize % 2 = 0) (cfg : ParserCfg) (blkIdx : UInt8) (i efuseIdx : Nat) :
    WritesInside shape (wordAccesses shape cfg blkIdx i efuseIdx) := by
  unfold wordAccesses
  dsimp only
  rw [Nat.shiftLeft_eq,Nat.shiftLeft_eq]
  split
  · exact nofun
  · have first : WritesInside shape (byteAccesses cfg efuseIdx (blkIdx.toNat*2^3 + i*2^1)) := byte_writes (by omega)
    split
    · exact first
    · exact writes_append first (byte_writes (by omega))

theorem words_writes (even : shape.logSize % 2 = 0) (cfg : ParserCfg) (phyMap : Bytes) (blkIdx wordEn : UInt8)
    (indices : List Nat) (c : Cursor) : WritesInside shape (wordsAccesses shape cfg phyMap blkIdx wordEn indices c) := by
  induction indices generalizing c with
  | nil => exact nofun
  | cons i rest ih =>
    unfold wordsAccesses
    split
    · exact ih c
    · refine writes_append (word_writes even cfg blkIdx i c.efuseIdx) ?_
      split
      · exact nofun
      · exact ih _

theorem header_writes (shape : Shape) (phyMap : Bytes) (idx : Nat) : WritesInside shape (headerAccesses shape phyMap idx) := by
  intro a member
  unfold headerAccesses at member
  split at member
  · cases member
  · split at member
    · cases mem_singleton.mp member
    · split at member
      · cases mem_singleton.mp member
      · rcases mem_cons.mp member with first | second
        · cases first
        · cases mem_singleton.mp second

theorem loop_writes (even : shape.logSize % 2 = 0) (cfg : ParserCfg) (phyMap : Bytes) (fuel : Nat) (c : Cursor) :
    WritesInside shape (loopAccesses shape cfg phyMap fuel c) := by
  induction fuel generalizing c with
  | zero => exact nofun
  | succ fuel ih =>
    unfold loopAccesses
    refine writes_append (header_writes shape phyMap c.efuseIdx) ?_
    split
    · exact nofun
    · split
      · exact nofun
      · refine writes_append (words_writes even _ _ _ _ _ _) ?_
        split
        · exact nofun
        · exact ih _

theorem byte_marks : .write a ∈ byteAccesses cfg efuseIdx eepromIdx ↔ a = eepromIdx := by
  cases cfg with
  | map => simp [byteAccesses]
  | mask => simp [byteAccesses]

theorem put_mask (logMap : Bytes) (eepromIdx : Nat) (value8 : UInt8) (a : Nat) :
    putByte .mask logMap eepromIdx value8 a = if a = eepromIdx then 0x00 else logMap a := Function.update_apply ..

theorem marks_append (access : Access) (one two : List Access) (value : UInt8) :
    (if access ∈ one ++ two then 0x00 else value) = if access ∈ two then 0x00 else if access ∈ one then 0x00 else value := by
  simp only [mem_append]
  by_cases late : access ∈ two
  · rw [if_pos late,if_pos (.inr late)]
  · rw [if_neg late]
    simp only [late,or_false]

section
variable (shape : Shape) (phyMap : Bytes)

theorem word_marks (blkIdx : UInt8) (i : Nat) (c : Cursor) (a : Nat) :
    logMapOf (parseWord shape .mask phyMap blkIdx i c) a =
      if .write a ∈ wordAccesses shape .map blkIdx i c.efuseIdx then 0x00 else c.logMap a := by
  unfold parseWord wordAccesses
  dsimp only
  generalize blkIdx.toNat <<< 3 + i <<< 1 = eepromIdx
  by_cases out : shape.logSize < eepromIdx+1
  · rw [if_pos out,if_pos out,if_neg not_mem_nil]
    rfl
  · rw [if_neg out,if_neg out]
    by_cases last : shape.phySize - 1 < c.efuseIdx+1
    · rw [if_pos last,if_pos last]
      unfold logMapOf
      dsimp only
      rw [put_mask]
      simp only [byte_marks]
    · rw [if_neg last,if_neg last,marks_append]
      have put : putByte .mask (putByte .mask c.logMap eepromIdx (phyMap c.efuseIdx)) (eepromIdx+1) (phyMap (c.efuseIdx+1)) a =
          if a = eepromIdx + 1 then 0x00 else if a = eepromIdx then 0x00 else c.logMap a := by
        rw [put_mask,put_mask]
      simp only [byte_marks]
      split
      · exact put
      · exact put

theorem words_marks (blkIdx wordEn : UInt8) (indices : List Nat) (c d : Cursor)
    (same : c.efuseIdx = d.efuseIdx) (a : Nat) :
    logMapOf (parseWords shape .mask phyMap blkIdx wordEn indices c) a =
      if .write a ∈ wordsAccesses shape .map phyMap blkIdx wordEn indices d then 0x00 else c.logMap a := by
  induction indices generalizing c d with
  | nil => exact (if_neg not_mem_nil).symm
  | cons i rest ih =>
    unfold parseWords wordsAccesses
    by_cases absent : wordEn.toNat.testBit i
    · rw [if_pos absent,if_pos absent]
      exact ih c d same
    · rw [if_neg absent,if_neg absent]
      have marks := word_marks shape phyMap blkIdx i c a
      rw [same] at marks
      rcases word_outcome shape .mask phyMap blkIdx i c with ⟨inLog,room,logMap,taken⟩ | ⟨out,logMap,failed⟩
      · rcases word_outcome shape .map phyMap blkIdx i d with ⟨_,_,logMap',taken'⟩ | ⟨out,_⟩
        · rw [taken] at marks
          rw [taken,taken']
          dsimp only
          rw [ih ⟨logMap,c.efuseIdx+2⟩ ⟨logMap',d.efuseIdx+2⟩ (by dsimp only; omega)]
          unfold logMapOf at marks
          dsimp only at marks ⊢
          rw [marks,marks_append]
        · exact absurd ⟨inLog,same ▸ room⟩ out
      · rcases word_outcome shape .map phyMap blkIdx i d with ⟨inLog,room,_⟩ | ⟨_,logMap',failed'⟩
        · exact absurd ⟨inLog,same ▸ room⟩ out
        · rw [failed] at marks
          rw [failed,failed']
          dsimp only
          rw [append_nil]
          exact marks

theorem header_marks (idx a : Nat) : .write a ∉ headerAccesses shape phyMap idx := by
  unfold headerAccesses
  split
  · exact not_mem_nil
  · split
    · simp
    · split
      · simp
      · simp

theorem loop_marks (fuel : Nat) (c d : Cursor) (same : c.efuseIdx = d.efuseIdx) (a : Nat) :
    logMapOf (parseLoop shape .mask phyMap fuel c) a =
      if .write a ∈ loopAccesses shape .map phyMap fuel d then 0x00 else c.logMap a := by
  induction fuel generalizing c d with
  | zero => exact (if_neg not_mem_nil).symm
  | succ fuel ih =>
    unfold parseLoop loopAccesses
    simp only [mem_append,header_marks,false_or]
    rw [same]
    cases readHeader shape phyMap d.efuseIdx with
    | stop efuseIdx => exact (if_neg not_mem_nil).symm
    | entry blkIdx wordEn first =>
      dsimp only
      by_cases far : shape.phySize - 1 ≤ first
      · simp only [if_pos far,not_mem_nil,if_false]
        rfl
      · simp only [if_neg far]
        have marks := words_marks shape phyMap blkIdx wordEn [0,1,2,3] {c with efuseIdx:=first} {d with efuseIdx:=first} rfl a
        have room : first ≤ shape.phySize := by omega
        rcases words_outcome shape .mask phyMap blkIdx wordEn [0,1,2,3] {c with efuseIdx:=first} room with
          ⟨fits,inLog,logMap,taken⟩ | ⟨out,logMap,failed⟩
        · rcases words_outcome shape .map phyMap blkIdx wordEn [0,1,2,3] {d with efuseIdx:=first} room with
            ⟨_,_,logMap',taken'⟩ | ⟨out,_⟩
          · rw [taken] at marks
            simp only [taken,taken']
            rw [ih ⟨logMap,_⟩ ⟨logMap',_⟩ rfl]
            unfold logMapOf at marks
            dsimp only at marks ⊢
            rw [marks,marks_append]
          · exact absurd ⟨fits,inLog⟩ out
        · rcases words_outcome shape .map phyMap blkIdx wordEn [0,1,2,3] {d with efuseIdx:=first} room with
            ⟨fits,inLog,_⟩ | ⟨_,logMap',failed'⟩
          · exact absurd ⟨fits,inLog⟩ out
          · rw [failed] at marks
            simp only [failed,failed',append_nil]
            exact marks
end

theorem parser_safe (shape : Shape) (phyMap : Bytes) (cfg : ParserCfg) (even : shape.logSize % 2 = 0) :
    ParserSafe shape phyMap cfg ↔ ∀ idx,EntryFrom shape phyMap shape.start idx → ¬ Beyond shape phyMap cfg idx := by
  have enough : shape.phySize - shape.start < shape.phySize + 1 := by omega
  rw [← loop_reads shape cfg phyMap (shape.phySize+1) ⟨blankMap,shape.start⟩ enough]
  refine ⟨fun safe => safe.reads,fun reads => ⟨fun more => ?_,reads,loop_writes even cfg phyMap _ _,fun a => ?_⟩⟩
  · exact loop_ends shape cfg phyMap more (shape.phySize+1) ⟨blankMap,shape.start⟩ enough
  · exact loop_marks shape phyMap (shape.phySize+1) ⟨blankMap,shape.start⟩ ⟨blankMap,shape.start⟩ rfl a

-- The word at 0x120, alone in the WLAN bank of the chip.
def wordMap : Bytes := fun a => if a = 4 then 0x32 else if a = 5 then 0x4E else if a = 6 then 0x29 else if a = 7 then 0x81 else 0xFF

theorem parser_safe_word : ParserSafe ((mac8852aHwInfo .usb).shape .wifi) wordMap .map := by
  have entry : readHeader ((mac8852aHwInfo .usb).shape .wifi) wordMap 4 = .entry 0x24 0x0E 6 := by decide
  have rest : readHeader ((mac8852aHwInfo .usb).shape .wifi) wordMap 8 = .stop 8 := readHeader_blank (.inr rfl)
  refine (parser_safe _ _ _ (by decide)).mpr fun idx path => ?_
  have place : idx = 4 ∨ idx = 8 := by
    cases path with
    | here => exact .inl rfl
    | later whole further =>
      obtain ⟨_,_,_,read,_,rfl,_⟩ := whole
      cases entry.symm.trans read
      cases further with
      | here => exact .inr rfl
      | later whole _ =>
        obtain ⟨_,_,_,read,_⟩ := whole
        cases rest.symm.trans read
  rintro (⟨far,_⟩ | ⟨_,_,_,_,read,_,before,_,after,words,full,_⟩)
  · have last : idx + 1 = 1216 := far
    omega
  · rcases place with rfl | rfl
    · cases entry.symm.trans read
      have count := congrArg length words
      have one : (present 0x0E [0,1,2,3]).length = 1 := rfl
      rw [one,length_append,length_cons] at count
      have size : 6 + 2*before.length = 1216 := full
      omega
    · cases rest.symm.trans read

def crowdedMap : Bytes := fun a => if a = 1213 then 0x0C else if a % 2 = 0 then 0x00 else 0x0F

theorem parser_safe_fails : ¬ ∀ bank phyMap cfg,ParserSafe ((mac8852aHwInfo .usb).shape bank) phyMap cfg := by
  intro safe
  have outside : Access.read 1216 ∈ parserAccesses ((mac8852aHwInfo .usb).shape .wifi) crowdedMap .map := by decide +kernel
  have inside := (safe .wifi crowdedMap .map).reads 1216 outside
  exact absurd inside (by decide)
end Rtl8852au.Efuse
