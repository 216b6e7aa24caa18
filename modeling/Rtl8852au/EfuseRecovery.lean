import Mathlib.Tactic.IntervalCases
import Rtl8852au.EfuseBounds
import Rtl8852au.EfuseTorn

namespace Rtl8852au.Efuse
open Fallible Prog List Nat Function UInt8

variable {hw : HwInfo}

def rank (wordEn i : Nat) : Nat := ((range i).filter fun j => !wordEn.testBit j).length

-- A first header byte with the next entry behind it is taken for a header of its
-- own: the block is made of both first bytes, the first byte of the next entry is
-- its word mask too, and the bytes behind stand where the words are looked for.
def strayWord (wordEn : Nat) (bytes : List UInt8) (i : Nat) : Option (UInt8 × UInt8) :=
  if wordEn.testBit i then none
  else some (bytes.getD (2*rank wordEn i) 0xFF,bytes.getD (2*rank wordEn i + 1) 0xFF)

def strayEntry (one two : Nat) (bytes : List UInt8) : Entry where
  blk := 16*(one/128)+3
  word := strayWord (two/128) bytes

structure StrayAt (size idx one two : Nat) (bytes : List UInt8) (phyMap : Bytes) : Prop where
  hdr : phyMap idx = ofNat (one/128) ||| 0x30
  next : phyMap (idx+1) = ofNat (two/128) ||| 0x30
  rest : ∀ k,idx+2+k < size → phyMap (idx+2+k) = bytes.getD k 0xFF

theorem stray_data (small : two < 2048) :
    (strayEntry one two bytes).data [0,1,2,3] = (range (2*rank (two/128) 4)).map fun k => bytes.getD k 0xFF := by
  have nibble : two/128 < 16 := by omega
  unfold strayEntry Entry.data
  dsimp only
  generalize two/128 = wordEn at nibble
  interval_cases wordEn <;> rfl

theorem stray_wordEn (small : two < 2048) : wordEnOf (strayEntry one two bytes).word = ofNat (two/128) := by
  have absent : ∀ i,((strayEntry one two bytes).word i).isNone = (two/128).testBit i := by
    intro i
    unfold strayEntry strayWord
    dsimp only
    cases (two/128).testBit i with
    | true => rfl
    | false => rfl
  have code : ∀ b : Fin 16,(if b.val.testBit 0 then 1 else 0) + (if b.val.testBit 1 then 2 else 0) +
      (if b.val.testBit 2 then 4 else 0) + (if b.val.testBit 3 then 8 else 0) = ofNat b.val := by decide
  unfold wordEnOf
  simp only [absent]
  exact code ⟨two/128,by omega⟩

theorem stray_present (small : two < 2048) : (present (ofNat (two/128)) [0,1,2,3]).length = rank (two/128) 4 := by
  have all : ∀ b : Fin 16,(present (ofNat b.val) [0,1,2,3]).length = rank b.val 4 := by decide
  exact all ⟨two/128,by omega⟩

theorem stray_header (wlan : shape.isBt = false) (stray : StrayAt shape.phySize idx one two bytes phyMap) (first : one < 2048)
    (second : two < 2048) (inside : idx < shape.phySize) :
    readHeader shape phyMap idx = .entry (ofNat (16*(one/128)+3)) (ofNat (two/128)) (idx+2) := by
  have all : ∀ a b : Fin 16,let hdr := ofNat a.val ||| 0x30
      let hdr2 := ofNat b.val ||| 0x30
      hdr ≠ 0xFF ∧ hdr2 ≠ 0xFF ∧ ((hdr2 &&& 0xF0) >>> 4) ||| ((hdr &&& 0x0F) <<< 4) = ofNat (16*a.val+3) ∧
        hdr2 &&& 0x0F = ofNat b.val := by decide +kernel
  obtain ⟨one,two,blk,mask⟩ := all ⟨one/128,by omega⟩ ⟨two/128,by omega⟩
  have notBeyond : ¬ shape.phySize ≤ idx := by omega
  simp only [readHeader,notBeyond,if_false,stray.hdr,stray.next,wlan,Bool.false_eq_true,false_and,one,two,blk,mask]

def Blankish (shape : Shape) (phyMap : Bytes) (idx : Nat) : Prop :=
  shape.phySize ≤ idx ∨ phyMap idx = 0xFF ∨ phyMap (idx+1) = 0xFF

theorem header_stops (wlan : shape.isBt = false) (blank : Blankish shape phyMap idx) :
    ∃ last,readHeader shape phyMap idx = .stop last := by
  rcases blank with beyond | first | second
  · exact ⟨_,readHeader_blank (.inl beyond)⟩
  · exact ⟨_,readHeader_blank (.inr first)⟩
  · unfold readHeader
    simp only [wlan,Bool.false_eq_true,false_and,if_false,second,if_true]
    split
    · exact ⟨_,rfl⟩
    · split
      · exact ⟨_,rfl⟩
      · exact ⟨_,rfl⟩

theorem loop_stops (wlan : shape.isBt = false) (blank : Blankish shape phyMap idx) :
    ∃ last,parseLoop shape cfg phyMap (fuel+1) ⟨logMap,idx⟩ = .ok ⟨logMap,last⟩ := by
  obtain ⟨last,read⟩ := header_stops wlan blank
  refine ⟨last,?_⟩
  unfold parseLoop
  simp only [read]

theorem StrayAt.blank (stray : StrayAt shape.phySize idx one two bytes phyMap) (short : bytes.length ≤ 3)
    (inside : idx + 6 ≤ shape.phySize) (beyond : idx + 4 ≤ a) : Blankish shape phyMap a := by
  have empty : ∀ k,3 ≤ k → bytes.getD k 0xFF = 0xFF := by
    intro k far
    rw [getD_eq_getElem?_getD,getElem?_eq_none (by omega),Option.getD_none]
  rcases lt_trichotomy (a+1) shape.phySize with within | last | past
  · have place : a + 1 = idx+2+(a+1-idx-2) := by omega
    refine .inr (.inr ?_)
    rw [place,stray.rest _ (by omega)]
    exact empty _ (by omega)
  · have place : a = idx+2+(a-idx-2) := by omega
    refine .inr (.inl ?_)
    rw [place,stray.rest _ (by omega)]
    exact empty _ (by omega)
  · exact .inl (by omega)

theorem at_map (f : Nat → UInt8) (there : ∀ k < n,phyMap (idx+k) = f k) : At phyMap idx ((range n).map f) := by
  induction n with
  | zero => trivial
  | succ n ih =>
    rw [range_succ,map_append,at_append]
    refine ⟨ih fun k small => there k (by omega),?_⟩
    rw [length_map,length_range]
    exact ⟨there n (by omega),trivial⟩

structure StrayFits (shape : Shape) (idx one two : Nat) : Prop where
  inside : 8*(16*(one/128)+3)+8 ≤ shape.logSize
  room : idx + 2 + 2*rank (two/128) 4 ≤ shape.phySize

theorem stray_inLog (small : one < 2048) : InLog shape (ofNat (16*(one/128)+3)) i ↔
    8*(16*(one/128)+3)+2*i < shape.logSize := by
  have block : (ofNat (16*(one/128)+3)).toNat = 16*(one/128)+3 := toNat_ofNat_of_lt' (by show _ < 256; omega)
  unfold InLog
  rw [block,shiftLeft_eq,shiftLeft_eq,mul_comm _ (2^3),mul_comm i (2^1)]

theorem stray_fits (bytes : List UInt8) (whole : shape.logSize%16 = 0) (small : one < 2048)
    (named : i ∈ present (ofNat (two/128)) [0,1,2,3])
    (second : two < 2048) (inLog : InLog shape (ofNat (16*(one/128)+3)) i) : (strayEntry one two bytes).Fits shape where
  inside := by
    have start := (stray_inLog small).mp inLog
    show 8*(16*(one/128)+3)+8 ≤ shape.logSize
    omega
  some := by
    obtain ⟨listed,clear⟩ := mem_filter.mp named
    have mask : (ofNat (two/128)).toNat = two/128 := toNat_ofNat_of_lt' (by show _ < 256; omega)
    rw [mask] at clear
    have absent : (two/128).testBit i = false := by simpa using clear
    refine ⟨i,?_,?_⟩
    · simp only [mem_cons,not_mem_nil,or_false] at listed
      omega
    · simp [strayEntry,strayWord,absent]

theorem stray_filled (logMap : Bytes) (fuel : Nat) (wlan : shape.isBt = false) (whole : shape.logSize%16 = 0)
    (stray : StrayAt shape.phySize idx one two bytes phyMap)
    (short : bytes.length ≤ 3) (first : one < 2048) (second : two < 2048) (inside : idx + 6 ≤ shape.phySize)
    (filled : 0 < rank (two/128) 4) :
    (StrayFits shape idx one two ∧ ∃ last,parseLoop shape .map phyMap (fuel+2) ⟨logMap,idx⟩ =
      .ok ⟨(strayEntry one two bytes).applyTo .map [0,1,2,3] logMap,last⟩) ∨
    (¬ StrayFits shape idx one two ∧ ∃ logMap',parseLoop shape .map phyMap (fuel+2) ⟨logMap,idx⟩ = .error logMap') := by
  have header := stray_header wlan stray first second (by omega)
  have near : ¬ shape.phySize - 1 ≤ idx+2 := by omega
  unfold parseLoop
  simp only [header,near,if_false]
  have count := stray_present second
  rcases words_outcome shape .map phyMap (ofNat (16*(one/128)+3)) (ofNat (two/128)) [0,1,2,3] ⟨logMap,idx+2⟩ (by dsimp only; omega) with
    ⟨room,inLog,_,_⟩ | ⟨not,found,failed⟩
  · rw [count] at room
    dsimp only at room
    obtain ⟨i,named⟩ : ∃ i,i ∈ present (ofNat (two/128)) [0,1,2,3] := exists_mem_of_length_pos (by rw [count]; exact filled)
    have fits := stray_fits bytes whole first named second (inLog i named)
    have data := @stray_data two one bytes second
    have there : At phyMap (idx+2) ((strayEntry one two bytes).data [0,1,2,3]) := by
      rw [data]
      exact at_map _ fun k small => stray.rest k (by omega)
    have size : ((strayEntry one two bytes).data [0,1,2,3]).length = 2*rank (two/128) 4 := by rw [data,length_map,length_range]
    have words : parseWords shape .map phyMap _ _ [0,1,2,3] ⟨logMap,idx+2⟩ = _ := parseWords_entry fits (by show 16*(one/128)+3 < 256; omega) (by simp) there
      (by rw [size]; exact room)
    rw [stray_wordEn second,size] at words
    have block : (strayEntry one two bytes).blk = 16*(one/128)+3 := rfl
    rw [block] at words
    rw [words]
    refine .inl ⟨⟨fits.inside,room⟩,loop_stops wlan (stray.blank short inside (by omega))⟩
  · rw [failed]
    refine .inr ⟨fun fits => not ⟨?_,?_⟩,_,rfl⟩
    · rw [count]
      exact fits.room
    · intro i named
      rw [stray_inLog first]
      have listed := (mem_filter.mp named).1
      simp only [mem_cons,not_mem_nil,or_false] at listed
      have inside := fits.inside
      omega

theorem word_elsewhere (other : a/8 ≠ blkIdx.toNat) (bound : i < 4)
    (taken : parseWord shape .map phyMap blkIdx i c = .ok c') : c'.logMap a = c.logMap a := by
  unfold parseWord at taken
  dsimp only at taken
  split at taken
  · cases taken
  · split at taken
    · cases taken
    · split at taken
      · cases taken
      · cases taken
        have place : (blkIdx.toNat <<< 3) + (i <<< 1) = 8*blkIdx.toNat+2*i := by
          rw [shiftLeft_eq,shiftLeft_eq]
          omega
        have first : a ≠ 8*blkIdx.toNat+2*i := by omega
        have second : a ≠ 8*blkIdx.toNat+2*i+1 := by omega
        simp only [place,putByte,update_apply,first,second,if_false]

theorem words_elsewhere (other : a/8 ≠ blkIdx.toNat) (bounds : ∀ i ∈ indices,i < 4)
    (taken : parseWords shape .map phyMap blkIdx wordEn indices c = .ok c') : c'.logMap a = c.logMap a := by
  induction indices generalizing c with
  | nil =>
    cases taken
    rfl
  | cons i rest ih =>
    have later : ∀ j ∈ rest,j < 4 := fun j member => bounds j (mem_cons_of_mem i member)
    unfold parseWords at taken
    split at taken
    · exact ih later taken
    · cases word : parseWord shape .map phyMap blkIdx i c with
      | error logMap => simp [word] at taken
      | ok mid =>
        simp only [word] at taken
        rw [ih later taken,word_elsewhere other (bounds i mem_cons_self) word]

theorem low_block (hdr hdr2 : UInt8) (low : hdr &&& 0x0F ≠ 0x0F) :
    (((hdr2 &&& 0xF0) >>> 4) ||| ((hdr &&& 0x0F) <<< 4)).toNat < 240 := by
  have high : ∀ x : Fin 256,((ofNat x &&& 0xF0) >>> 4).toNat < 16 := by decide +kernel
  have nibble : ∀ x : Fin 256,(ofNat x &&& 0x0F).toNat < 16 := by decide +kernel
  have all : ∀ a b : Fin 16,b ≠ 15 → (ofNat a ||| (ofNat b <<< 4)).toNat < 240 := by decide +kernel
  have one := high ⟨hdr2.toNat,hdr2.toNat_lt⟩
  have two := nibble ⟨hdr.toNat,hdr.toNat_lt⟩
  simp only [UInt8.ofNat_toNat] at one two
  have outcome := all ⟨_,one⟩ ⟨_,two⟩
  simp only [UInt8.ofNat_toNat] at outcome
  apply outcome
  intro same
  apply low
  have value : (hdr &&& 0x0F).toNat = 15 := congrArg Fin.val same
  exact UInt8.toNat_inj.mp value

theorem stray_empty (wlan : shape.isBt = false) (stray : StrayAt shape.phySize idx one two bytes phyMap)
    (short : bytes.length ≤ 3) (low : bytes.getD 0 0xFF &&& 0x0F ≠ 0x0F) (first : one < 2048) (second : two < 2048)
    (inside : idx + 6 ≤ shape.phySize) (empty : rank (two/128) 4 = 0) (last : 1920 ≤ a)
    (done : parseLoop shape .map phyMap (fuel+3) ⟨logMap,idx⟩ = .ok c) : c.logMap a = logMap a := by
  have header := stray_header wlan stray first second (by omega)
  have near : ¬ shape.phySize - 1 ≤ idx+2 := by omega
  have full : two/128 = 15 := by
    have all : ∀ b : Fin 16,rank b.val 4 = 0 → b.val = 15 := by decide
    exact all ⟨two/128,by omega⟩ empty
  have none : parseWords shape .map phyMap (ofNat (16*(one/128)+3)) (ofNat 15) [0,1,2,3] ⟨logMap,idx+2⟩ = .ok ⟨logMap,idx+2⟩ := rfl
  unfold parseLoop at done
  simp only [header,near,if_false,full,none] at done
  unfold parseLoop at done
  cases read : readHeader shape phyMap (idx+2) with
  | stop efuseIdx =>
    simp only [read] at done
    cases done
    rfl
  | entry blkIdx wordEn efuseIdx =>
    have shown : efuseIdx = idx+4 ∧ blkIdx.toNat < 240 := by
      have hdr := stray.rest 0 (by omega)
      simp only [add_zero] at hdr
      unfold readHeader at read
      simp only [hdr,wlan,Bool.false_eq_true,false_and,if_false] at read
      split at read
      · cases read
      · split at read
        · cases read
        · split at read
          · cases read
          · cases read
            exact ⟨rfl,low_block _ _ low⟩
    obtain ⟨rfl,low⟩ := shown
    simp only [read] at done
    split at done
    · cases done
    · rename_i near
      rcases words_outcome shape .map phyMap blkIdx wordEn [0,1,2,3] ⟨logMap,idx+4⟩ (by dsimp only; omega) with
        ⟨room,_,found,taken⟩ | ⟨_,found,failed⟩
      · have kept := words_elsewhere (a := a) (by omega) (by simp) taken
        rw [taken] at done
        dsimp only at done
        have stops : ∃ last,parseLoop shape .map phyMap (fuel+1) ⟨found,idx+4+2*(present wordEn [0,1,2,3]).length⟩ =
            .ok ⟨found,last⟩ := loop_stops wlan (stray.blank short inside (by omega))
        obtain ⟨last,stopped⟩ := stops
        rw [stopped] at done
        cases done
        exact kept
      · rw [failed] at done
        cases done

def physical (hw : HwInfo) (beyond : Nat → UInt8) (cells : Bytes) : Bytes := bounded (hw.phyMapSize .wifi) beyond cells

theorem parse_behind (holds : Holds (hw.shape .wifi) cells entries)
    (same : ∀ a,a < endOf (hw.shape .wifi) entries → cells' a = cells a)
    (room : endOf (hw.shape .wifi) entries+2 ≤ hw.efuseSize) :
    ∃ fuel,∀ beyond,eepromParser (hw.shape .wifi) (physical hw beyond cells') .map =
      parseLoop (hw.shape .wifi) .map (physical hw beyond cells') (fuel+3)
        ⟨applyEntries .map entries blankMap,endOf (hw.shape .wifi) entries⟩ := by
  have count := encodeAll_length holds.fits
  have phy : (hw.shape .wifi).phySize = hw.efuseSize := rfl
  have split : endOf (hw.shape .wifi) entries =
    (hw.shape .wifi).start + (encodeAll (hw.shape .wifi).isBt entries).length := rfl
  refine ⟨hw.efuseSize+1-entries.length-3,fun beyond => ?_⟩
  have there : At (physical hw beyond cells') (hw.shape .wifi).start (encodeAll (hw.shape .wifi).isBt entries) := by
    refine (at_congr fun a _ high => ?_).mpr holds.there
    have inside : a < hw.phyMapSize .wifi := by
      show a < hw.efuseSize
      omega
    rw [physical,bounded,if_pos inside]
    exact same a (by omega)
  unfold eepromParser
  have fuel : (hw.shape .wifi).phySize + 1 = hw.efuseSize+1-entries.length-3 + 3 + entries.length := by omega
  rw [fuel,parseLoop_past (shape_valid hw .wifi) holds.fits there (by omega)]
  rfl

section
variable (hw : HwInfo) (entries : List Entry)

-- What is read of the entries behind the header byte, and the fuses once the next entry is there.
def stubbed : Cursor := ⟨applyEntries .map entries blankMap,endOf (hw.shape .wifi) entries+1⟩

def struck (offset : Nat) (value : UInt8) (cells : Bytes) : Bytes :=
  burnBytes cells (stubbed hw entries).efuseIdx (bytesFor (stubbed hw entries) offset value)

theorem stubbed_place :
    (stubbed hw entries).efuseIdx = endOf (hw.shape .wifi) entries + 1 := rfl
end

theorem struck_outside (out : a < endOf (hw.shape .wifi) entries+1 ∨ endOf (hw.shape .wifi) entries+5 ≤ a) :
    struck hw entries offset value cells a = cells a := by
  have four := @bytesFor_length (stubbed hw entries) offset value
  have place := stubbed_place hw entries
  exact burnBytes_outside (by omega)

theorem stub_parses (holds : Holds (hw.shape .wifi) cells entries) (stub : Stub hw cells entries offset cells')
    (dangles : Dangles hw entries cells') (beyond : Nat → UInt8) :
    eepromParser (hw.shape .wifi) (physical hw beyond cells') .map =
      .ok (stubbed hw entries) := by
  have room := stub.room
  have below : ∀ a,a < endOf (hw.shape .wifi) entries → cells' a = cells a := fun a low => stub.same a (Nat.ne_of_lt low)
  obtain ⟨fuel,parses⟩ := parse_behind holds below (by omega)
  have inMap : ∀ a < hw.efuseSize, physical hw beyond cells' a = cells' a := fun a inside => if_pos inside
  have notBeyond : ¬ (hw.shape .wifi).phySize ≤ endOf (hw.shape .wifi) entries := not_le.mpr dangles.inside
  have stop : readHeader (hw.shape .wifi) (physical hw beyond cells') (endOf (hw.shape .wifi) entries) =
      .stop (endOf (hw.shape .wifi) entries+1) := by
    unfold readHeader
    simp only [notBeyond,if_false,inMap _ dangles.inside,dangles.first,wifi_shape,Bool.false_eq_true,false_and,
      inMap (endOf (hw.shape .wifi) entries+1) (by omega),dangles.second,if_true]
  rw [parses beyond]
  unfold parseLoop
  rw [stop]
  rfl

-- What the fuses hold after both writes, `before` being what was read at the start.
def Recovers (hw : HwInfo) (one two : Nat) (value : UInt8) (before : Bytes) (cells : Bytes) : Prop :=
  ∀ beyond,∃ c,eepromParser (hw.shape .wifi) (physical hw beyond cells) .map = .ok c ∧ c.logMap two = value ∧
    ∀ a < hw.logEfuseSize,a/2 ≠ one/2 → a/2 ≠ two/2 → c.logMap a = before a

def strayBytes (logMap : Bytes) (two : Nat) (value : UInt8) : List UInt8 := ((entryFor logMap two value).encode false).drop 1

structure Coincides (hw : HwInfo) (entries : List Entry) (one two : Nat) (value : UInt8) : Prop where
  block : two/8 = 16*(one/128)+3
  room : endOf (hw.shape .wifi) entries + 2 + 2*rank (two/128) 4 ≤ hw.efuseSize
  there : wordAt (strayWord (two/128) (strayBytes (applyEntries .map entries blankMap) two value) (two%8/2)) two = some value
  others : ∀ a,a/8 = two/8 → a/2 ≠ one/2 → a/2 ≠ two/2 → ∀ found,
    wordAt (strayWord (two/128) (strayBytes (applyEntries .map entries blankMap) two value) (a%8/2)) a = some found →
      found = applyEntries .map entries blankMap a

theorem entry_recovers (holds : Holds (hw.shape .wifi) cells entries) (keeps : Keeps one start entries)
    (done : Done hw cells two value cells') : Recovers hw one two value (applyEntries .map start blankMap) cells' := by
  obtain ⟨entries',holds',values⟩ := done.holds holds
  intro beyond
  refine ⟨_,holds'.bounded.parses (shape_valid hw .wifi),?_,?_⟩
  · rw [values]
    exact update_self ..
  · intro a _ first second
    have other : a ≠ two := fun same => second (by rw [same])
    rw [values]
    exact (update_of_ne other _ _).trans (keeps a first)

theorem bytesFor_stray (hw : HwInfo) (entries : List Entry) (value : UInt8) (small : two < 2048) :
    ∃ hdr2 byte1 byte2,bytesFor (stubbed hw entries) two value = [ofNat (two/128) ||| 0x30,hdr2,byte1,byte2] ∧
      strayBytes (applyEntries .map entries blankMap) two value = [hdr2,byte1,byte2] ∧ hdr2 &&& 0x0F ≠ 0x0F := by
  obtain ⟨byte1,byte2,split⟩ := bytesFor_header (stubbed hw entries) two value
  obtain ⟨hdr,hdr2,header,high,_,_,low⟩ := header_bytes two small
  rw [header,high] at split
  exact ⟨hdr2,byte1,byte2,split,congrArg (drop 1) split,low⟩

theorem stub_stray (holds : Holds (hw.shape .wifi) cells entries) (stub : Stub hw cells entries one cells')
    (adds : Adds hw cells' two value (stubbed hw entries)) (beyond : Nat → UInt8) :
    StrayAt (hw.shape .wifi).phySize (endOf (hw.shape .wifi) entries) one two
      (strayBytes (applyEntries .map entries blankMap) two value) (physical hw beyond (struck hw entries two value cells')) := by
  have room := adds.room
  have four := @bytesFor_length (stubbed hw entries) two value
  have blank : ∀ a,endOf (hw.shape .wifi) entries+1 ≤ a → a < hw.efuseSize → cells' a = 0xFF := by
    intro a low high
    rw [stub.same a (by omega)]
    exact holds.blank a (by omega) high
  rw [stubbed_place] at room
  have there : At (struck hw entries two value cells') _ _ := burnBytes_there cells' _ _ fun a low high =>
    blank a low (by rw [stubbed_place] at high; omega)
  obtain ⟨hdr2,byte1,byte2,split,listed,_⟩ := bytesFor_stray hw entries value (lt_of_lt_of_le adds.inside hw.logBlocks.2)
  rw [split] at there
  obtain ⟨one1,two1,three1,four1,_⟩ := there
  have inMap : ∀ a map,a < hw.efuseSize → physical hw beyond map a = map a := fun a map inside => if_pos inside
  have phy : (hw.shape .wifi).phySize = hw.efuseSize := rfl
  rw [listed,phy]
  refine ⟨?_,?_,?_⟩
  · rw [inMap _ _ (by omega),struck_outside (.inl (by omega))]
    exact stub.hdr
  · rw [inMap _ _ (by omega)]
    exact one1
  · intro k inside
    rw [inMap _ _ inside]
    match k with
    | 0 => exact two1
    | 1 => exact three1
    | 2 => exact four1
    | k+3 =>
      rw [struck_outside (.inr (by omega)),blank _ (by omega) inside]
      rfl

theorem strayEntry_at : (strayEntry one two bytes).applyTo .map [0,1,2,3] logMap a =
    if a/8 = 16*(one/128)+3 then (wordAt (strayWord (two/128) bytes (a%8/2)) a).getD (logMap a) else logMap a := by
  have listed : a%8/2 ∈ [0,1,2,3] := by
    have bound : a%8/2 < 4 := by omega
    simp only [mem_cons,not_mem_nil,or_false]
    omega
  rw [applyTo_at (by simp)]
  simp only [listed,and_true]
  rfl

theorem stray_none (small : two < 2048) (empty : rank (two/128) 4 = 0) :
    wordAt (strayWord (two/128) bytes (two%8/2)) two = none := by
  have all : ∀ b : Fin 16,rank b.val 4 = 0 → ∀ i : Fin 4,b.val.testBit i.val := by decide
  have set := all ⟨two/128,by omega⟩ empty ⟨two%8/2,by omega⟩
  unfold strayWord
  rw [if_pos set]
  rfl

theorem stray_recovers (holds : Holds (hw.shape .wifi) cells entries) (stub : Stub hw cells entries one cells')
    (adds : Adds hw cells' two value (stubbed hw entries)) :
    Recovers hw one two value (applyEntries .map entries blankMap) (struck hw entries two value cells') ↔
      Coincides hw entries one two value := by
  have room := adds.room
  have small : two < 2048 := lt_of_lt_of_le adds.inside hw.logBlocks.2
  have first : one < 2048 := lt_of_lt_of_le stub.inside hw.logBlocks.2
  have needed : applyEntries .map entries blankMap two ≠ value := adds.needed
  have wlan := wifi_shape hw
  have whole := shape_whole hw .wifi
  have phy : (hw.shape .wifi).phySize = hw.efuseSize := rfl
  have below : ∀ a,a < endOf (hw.shape .wifi) entries → struck hw entries two value cells' a = cells a := by
    intro a low
    rw [struck_outside (.inl (by omega))]
    exact stub.same a (Nat.ne_of_lt low)
  rw [stubbed_place] at room
  obtain ⟨fuel,parses⟩ := parse_behind holds below (by omega)
  have stray := stub_stray holds stub adds
  obtain ⟨hdr2,byte1,byte2,_,listed,low⟩ := bytesFor_stray hw entries value small
  have short : (strayBytes (applyEntries .map entries blankMap) two value).length ≤ 3 := by
    rw [listed]
    exact le_refl 3
  generalize struck hw entries two value cells' = after at parses stray ⊢
  rcases Nat.eq_zero_or_pos (rank (two/128) 4) with empty | filled
  · constructor
    · intro recovers
      obtain ⟨c,parsed,held,_⟩ := recovers fun _ => 0xFF
      rw [parses] at parsed
      have full : two/128 = 15 := by
        have all : ∀ b : Fin 16,rank b.val 4 = 0 → b.val = 15 := by decide
        exact all ⟨two/128,by omega⟩ empty
      have low0 : (strayBytes (applyEntries .map entries blankMap) two value).getD 0 0xFF &&& 0x0F ≠ 0x0F := by
        rw [listed]
        exact low
      have kept := stray_empty (a := two) wlan (stray _) short low0 first small (by omega) empty (by omega) parsed
      exact absurd (kept.symm.trans held) needed
    · intro coincides
      exact absurd coincides.there (by rw [stray_none small empty]; nofun)
  · have inLog : two < (hw.shape .wifi).logSize := adds.inside
    constructor
    · intro recovers
      obtain ⟨c,parsed,held,others⟩ := recovers fun _ => 0xFF
      rw [parses] at parsed
      rcases stray_filled (applyEntries .map entries blankMap) (fuel+1) wlan whole (stray _) short first small
        (by omega) filled with ⟨fits,last,taken⟩ | ⟨_,logMap,broken⟩
      · rw [taken] at parsed
        cases parsed
        dsimp only at held others
        rw [strayEntry_at] at held
        have block : two/8 = 16*(one/128)+3 := by
          by_contra other
          rw [if_neg other] at held
          exact needed held
        rw [if_pos block] at held
        refine ⟨block,fits.room,?_,?_⟩
        · cases word : wordAt (strayWord (two/128) (strayBytes (applyEntries .map entries blankMap) two value) (two%8/2)) two with
          | none =>
            rw [word] at held
            exact absurd held needed
          | some found =>
            rw [word] at held
            exact congrArg some held
        · intro a own awayOne awayTwo found word
          have within : a < (hw.shape .wifi).logSize := by omega
          have kept := others a within awayOne awayTwo
          rw [strayEntry_at,if_pos (own.trans block),word] at kept
          exact kept
      · rw [broken] at parsed
        cases parsed
    · intro coincides beyond
      have block := coincides.block
      have fits : StrayFits (hw.shape .wifi) (endOf (hw.shape .wifi) entries) one two := ⟨by omega,coincides.room⟩
      rcases stray_filled (applyEntries .map entries blankMap) (fuel+1) wlan whole (stray beyond) short first small
        (by omega) filled with ⟨_,last,taken⟩ | ⟨not,_⟩
      · refine ⟨_,(parses beyond).trans taken,?_,?_⟩
        · dsimp only
          rw [strayEntry_at,if_pos block,coincides.there]
          rfl
        · intro a _ awayOne awayTwo
          dsimp only
          rw [strayEntry_at]
          split
          · rename_i own
            cases word : wordAt (strayWord (two/128) (strayBytes (applyEntries .map entries blankMap) two value) (a%8/2)) a with
            | none => rfl
            | some found => exact coincides.others a (own.trans block.symm) awayOne awayTwo found word
          · rfl
      · exact absurd fits not

-- A write that fails leaves entries, or one header byte behind them; behind that byte
-- the next write is found only where the two run into a third entry that says the same.
theorem torn_write_recovers (hw : HwInfo) (entries : List Entry) (s s1 s2 : Adapter) (env1 env2 : Env) (one two : UInt32)
    (value1 value2 : UInt8) (e : Stop) (holds : Holds (hw.shape .wifi) (s.bank .wifi).cells entries)
    (cached : ∀ bank,Cached hw bank (s.bank bank)) (cuts : env1.Cuts)
    (failed : macWriteLogEfuse hw env1 one value1 s = (.error e,s1))
    (done : macWriteLogEfuse hw env2 two value2 s1 = (.ok (),s2)) :
    Recovers hw one.toNat two.toNat value2 (applyEntries .map entries blankMap) (s2.bank .wifi).cells ↔
      ¬ Dangles hw entries (s1.bank .wifi).cells ∨ applyEntries .map entries blankMap two.toNat = value2 ∨
        Coincides hw entries one.toNat two.toNat value2 := by
  have start : Sound hw (Wifi (· = (s.bank .wifi).cells)) s := ⟨cached,rfl⟩
  have first := macWriteLogEfuse_done hw (s.bank .wifi).cells env1 one value1 s start
  rw [failed] at first
  have torn : Torn hw (s.bank .wifi).cells one.toNat value1 (s1.bank .wifi).cells := (first cuts).fuses
  have again : Sound hw (Wifi (· = (s1.bank .wifi).cells)) s1 := ⟨(first cuts).cached,rfl⟩
  have second : Done hw (s1.bank .wifi).cells two.toNat value2 (s2.bank .wifi).cells :=
    ((macWriteLogEfuse_done hw (s1.bank .wifi).cells env2 two value2).ok again done).fuses
  rcases torn_cases holds torn with ⟨not,entries',holds',keeps⟩ | ⟨dangles,stub⟩
  · exact ⟨fun _ => .inl not,fun _ => entry_recovers holds' keeps second⟩
  · have found := stub_parses holds stub dangles fun _ => 0xFF
    rcases second with ⟨c,parsed,held,same⟩ | ⟨c,adds,added⟩
    · have known := found.symm.trans parsed
      simp only [Except.ok.injEq] at known
      subst known
      refine ⟨fun _ => .inr (.inl held),fun _ => ?_⟩
      rw [same]
      exact fun beyond => ⟨_,stub_parses holds stub dangles beyond,held,fun _ _ _ _ => rfl⟩
    · have known := found.symm.trans adds.parsed
      simp only [Except.ok.injEq] at known
      subst known
      rw [added]
      refine (stray_recovers holds stub adds).trans ⟨fun coincides => .inr (.inr coincides),?_⟩
      rintro (not | held | coincides)
      · exact absurd dangles not
      · exact absurd held adds.needed
      · exact coincides

def slowEnv : Env := {goodEnv with writeRdy:=fun a => a != 5,unburned:=fun _ => 0xFF}
theorem slowEnv_cuts : slowEnv.Cuts := fun _ => .inr rfl

def tornWrite (one two : UInt32) : Adapter × Adapter :=
  let s1 := (macWriteLogEfuse (mac8852aHwInfo .usb) slowEnv one 0x12 coldAdapter).2
  (s1,(macWriteLogEfuse (mac8852aHwInfo .usb) goodEnv two 0x34 s1).2)

theorem tornWrite_runs (failed : (macWriteLogEfuse (mac8852aHwInfo .usb) slowEnv one 0x12 coldAdapter).1 = .error e)
    (done : (macWriteLogEfuse (mac8852aHwInfo .usb) goodEnv two 0x34 (tornWrite one two).1).1.toOption = some ()) :
    macWriteLogEfuse (mac8852aHwInfo .usb) slowEnv one 0x12 coldAdapter = (.error e,(tornWrite one two).1) ∧
      macWriteLogEfuse (mac8852aHwInfo .usb) goodEnv two 0x34 (tornWrite one two).1 = (.ok (),(tornWrite one two).2) :=
  ⟨Prod.ext failed rfl,ran_of_toOption done⟩

theorem torn_write_recovers_cold : Recovers (mac8852aHwInfo .usb) 0x40 0x18 0x34 (applyEntries .map [] blankMap)
      ((tornWrite 0x40 0x18).2.bank .wifi).cells ↔
    ¬ Dangles (mac8852aHwInfo .usb) [] ((tornWrite 0x40 0x18).1.bank .wifi).cells ∨ applyEntries .map [] blankMap 0x18 = 0x34 ∨
      Coincides (mac8852aHwInfo .usb) [] 0x40 0x18 0x34 := by
  have failed : (macWriteLogEfuse (mac8852aHwInfo .usb) slowEnv 0x40 0x12 coldAdapter).1 = .error (.ret .efuseWrite) := by
    decide +kernel
  have done : (macWriteLogEfuse (mac8852aHwInfo .usb) goodEnv 0x18 0x34 (tornWrite 0x40 0x18).1).1.toOption = some () := by
    decide +kernel
  obtain ⟨first,second⟩ := tornWrite_runs failed done
  exact torn_write_recovers (mac8852aHwInfo .usb) [] coldAdapter _ _ slowEnv goodEnv 0x40 0x18 0x12 0x34 _ coldAdapter_holds
    (fun bank => (coldAdapter_blank bank).2) slowEnv_cuts first second

theorem torn_write_fails : ¬ ∀ (entries : List Entry) (s s1 s2 : Adapter) (env1 env2 : Env)
    (one two : UInt32) (value1 value2 : UInt8)
    (e : Stop),Holds ((mac8852aHwInfo .usb).shape .wifi) (s.bank .wifi).cells entries →
      (∀ bank,Cached (mac8852aHwInfo .usb) bank (s.bank bank)) → env1.Cuts →
      macWriteLogEfuse (mac8852aHwInfo .usb) env1 one value1 s = (.error e,s1) →
      macWriteLogEfuse (mac8852aHwInfo .usb) env2 two value2 s1 = (.ok (),s2) →
      Recovers (mac8852aHwInfo .usb) one.toNat two.toNat value2 (applyEntries .map entries blankMap) (s2.bank .wifi).cells := by
  intro claim
  have failed : (macWriteLogEfuse (mac8852aHwInfo .usb) slowEnv 0x40 0x12 coldAdapter).1 = .error (.ret .efuseWrite) := by
    decide +kernel
  have done : (macWriteLogEfuse (mac8852aHwInfo .usb) goodEnv 0x100 0x34 (tornWrite 0x40 0x100).1).1.toOption = some () := by
    decide +kernel
  obtain ⟨first,second⟩ := tornWrite_runs failed done
  obtain ⟨c,parsed,held,_⟩ := claim [] coldAdapter _ _ slowEnv goodEnv 0x40 0x100 0x12 0x34 _ coldAdapter_holds
    (fun bank => (coldAdapter_blank bank).2) slowEnv_cuts first second fun _ => 0xFF
  have lost : ((eepromParser ((mac8852aHwInfo .usb).shape .wifi) (physical (mac8852aHwInfo .usb) (fun _ => 0xFF)
      ((tornWrite 0x40 0x100).2.bank .wifi).cells) .map).toOption.map fun c => c.logMap 0x100) ≠ some 0x34 := by decide +kernel
  rw [parsed] at lost
  exact lost (congrArg some held)
end Rtl8852au.Efuse
