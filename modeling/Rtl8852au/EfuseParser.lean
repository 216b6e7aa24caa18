import Mathlib.Logic.Function.Basic
import Rtl8852au.Words

namespace Rtl8852au.Efuse
open List Function Option UInt8

abbrev Bytes := Nat → UInt8

inductive ParserCfg where
  | map
  | mask
  deriving DecidableEq,Repr

structure Shape where
  phySize : Nat
  logSize : Nat
  start : Nat
  isBt : Bool
  deriving DecidableEq,Repr

def bt1bEntrySize : Nat := 0x80

def entryHeader (isBt : Bool) (offset : Nat) (wordEn : UInt8) : List UInt8 :=
  if isBt then
    if offset < bt1bEntrySize then
      let blk := ofNat (offset >>> 3)
      [(blk <<< 4) + wordEn]
    else
      let blk := ofNat (offset >>> 3 >>> 3)
      let blkIdx := ofNat (((offset >>> 3) &&& 7) <<< 1)
      [(blkIdx <<< 4) + 0xF,(blk <<< 4) + wordEn]
  else
    let blk := ofNat (offset >>> 3)
    [((blk &&& 0xF0) >>> 4) ||| 0x30,((blk &&& 0x0F) <<< 4) + wordEn]

inductive Header where
  | stop (efuseIdx : Nat)
  | entry (blkIdx wordEn : UInt8) (efuseIdx : Nat)
  deriving DecidableEq,Repr

-- `(hdr & 0xF) != 0xF` marks a one-byte entry of the BT bank. The second byte
-- is read without a look at the size of the map.
def readHeader (shape : Shape) (phyMap : Bytes) (efuseIdx : Nat) : Header :=
  if shape.phySize ≤ efuseIdx then .stop efuseIdx
  else
    let hdr := phyMap efuseIdx
    if hdr = 0xFF then .stop efuseIdx
    else if shape.isBt ∧ hdr &&& 0xF ≠ 0xF then .entry ((hdr &&& 0xF0) >>> 4) (hdr &&& 0x0F) (efuseIdx+1)
    else
      let hdr2 := phyMap (efuseIdx+1)
      if hdr2 = 0xFF then .stop (efuseIdx+1)
      else if shape.isBt then
        .entry ((((hdr2 &&& 0xF0) >>> 4) <<< 3) + (((hdr &&& 0xF0) >>> 4) >>> 1)) (hdr2 &&& 0x0F) (efuseIdx+2)
      else .entry (((hdr2 &&& 0xF0) >>> 4) ||| ((hdr &&& 0x0F) <<< 4)) (hdr2 &&& 0x0F) (efuseIdx+2)

structure Cursor where
  logMap : Bytes
  efuseIdx : Nat

section
variable (cfg : ParserCfg)

def putByte (logMap : Bytes) (eepromIdx : Nat) (value8 : UInt8) : Bytes :=
  match cfg with
  | .map => update logMap eepromIdx value8
  | .mask => update logMap eepromIdx 0x00

-- An error leaves the logical map as it was filled so far.
def parseWord (shape : Shape) (cfg : ParserCfg) (phyMap : Bytes) (blkIdx : UInt8) (i : Nat) (c : Cursor) :
    Except Bytes Cursor :=
  let eepromIdx := (blkIdx.toNat <<< 3) + (i <<< 1)
  if shape.logSize < eepromIdx + 1 then .error c.logMap
  else
    let logMap := putByte cfg c.logMap eepromIdx (phyMap c.efuseIdx)
    if shape.phySize - 1 < c.efuseIdx + 1 then .error logMap
    else
      let logMap := putByte cfg logMap (eepromIdx+1) (phyMap (c.efuseIdx+1))
      if shape.phySize < c.efuseIdx + 2 then .error logMap else .ok ⟨logMap,c.efuseIdx+2⟩

-- A cleared bit of `word_en` means that the word is there.
def parseWords (shape : Shape) (cfg : ParserCfg) (phyMap : Bytes) (blkIdx wordEn : UInt8) :
    List Nat → Cursor → Except Bytes Cursor
  | [],c => .ok c
  | i :: rest,c =>
    if wordEn.toNat.testBit i then parseWords shape cfg phyMap blkIdx wordEn rest c
    else
      match parseWord shape cfg phyMap blkIdx i c with
      | .error logMap => .error logMap
      | .ok c => parseWords shape cfg phyMap blkIdx wordEn rest c

def parseLoop (shape : Shape) (cfg : ParserCfg) (phyMap : Bytes) : Nat → Cursor → Except Bytes Cursor
  | 0,c => .ok c
  | fuel+1,c =>
    match readHeader shape phyMap c.efuseIdx with
    | .stop efuseIdx => .ok {c with efuseIdx}
    | .entry blkIdx wordEn efuseIdx =>
      if shape.phySize - 1 ≤ efuseIdx then .error c.logMap
      else
        match parseWords shape cfg phyMap blkIdx wordEn [0,1,2,3] {c with efuseIdx} with
        | .error logMap => .error logMap
        | .ok c => parseLoop shape cfg phyMap fuel c

def blankMap : Bytes := fun _ => 0xFF

-- Every round consumes a byte, so the fuel is not what stops it.
def eepromParser (shape : Shape) (phyMap : Bytes) (cfg : ParserCfg) : Except Bytes Cursor :=
  parseLoop shape cfg phyMap (shape.phySize+1) ⟨blankMap,shape.start⟩

structure Entry where
  blk : Nat
  word : Nat → Option (UInt8 × UInt8)

def wordEnOf (word : Nat → Option (UInt8 × UInt8)) : UInt8 :=
  (if (word 0).isNone then 1 else 0) + (if (word 1).isNone then 2 else 0) + (if (word 2).isNone then 4 else 0) +
    (if (word 3).isNone then 8 else 0)

def wordBytes : Option (UInt8 × UInt8) → List UInt8
  | none => []
  | some (byte1,byte2) => [byte1,byte2]

def Entry.data (e : Entry) (indices : List Nat) : List UInt8 := indices.flatMap fun i => wordBytes (e.word i)

def Entry.encode (isBt : Bool) (e : Entry) : List UInt8 := entryHeader isBt (8*e.blk) (wordEnOf e.word) ++ e.data [0,1,2,3]

def putWord (logMap : Bytes) (eepromIdx : Nat) : Option (UInt8 × UInt8) → Bytes
  | none => logMap
  | some (byte1,byte2) => putByte cfg (putByte cfg logMap eepromIdx byte1) (eepromIdx+1) byte2

def Entry.applyTo (e : Entry) (indices : List Nat) (logMap : Bytes) : Bytes :=
  indices.foldl (fun logMap i => putWord cfg logMap (8*e.blk+2*i) (e.word i)) logMap

def applyEntries (entries : List Entry) (logMap : Bytes) : Bytes :=
  entries.foldl (fun logMap e => e.applyTo cfg [0,1,2,3] logMap) logMap
end

structure Entry.Fits (shape : Shape) (e : Entry) : Prop where
  some : ∃ i < 4, (e.word i).isSome
  inside : 8*e.blk+8 ≤ shape.logSize

structure Shape.Valid (shape : Shape) : Prop where
  blocks : shape.logSize ≤ if shape.isBt then 1024 else 2048
  start : shape.start ≤ shape.phySize

def At (phyMap : Bytes) : Nat → List UInt8 → Prop
  | _,[] => True
  | idx,byte :: rest => phyMap idx = byte ∧ At phyMap (idx+1) rest

theorem at_append : At phyMap idx (one ++ two) ↔ At phyMap idx one ∧ At phyMap (idx+one.length) two := by
  induction one generalizing idx with
  | nil => simp [At]
  | cons byte rest ih =>
    simp only [cons_append,At,ih,length_cons,and_assoc]
    rw [Nat.add_assoc,Nat.add_comm 1]

theorem nibbles : ∀ low wordEn : Fin 16, wordEn.val < 15 →
    let hdr2 := (ofNat low <<< 4) + ofNat wordEn
    hdr2 ≠ 0xFF ∧ (hdr2 &&& 0xF0) >>> 4 = ofNat low ∧ hdr2 &&& 0x0F = ofNat wordEn := by decide +kernel

theorem first_header : ∀ blk : Fin 256,
    let b := ofNat blk
    let hdr := ((b &&& 0xF0) >>> 4) ||| 0x30
    hdr ≠ 0xFF ∧ b &&& 0x0F = ofNat (blk.val%16) ∧ ofNat (blk.val%16) ||| ((hdr &&& 0x0F) <<< 4) = b := by decide +kernel

theorem wl_header (blk : Fin 256) (wordEn : Fin 15) :
    let b := ofNat blk
    let hdr := ((b &&& 0xF0) >>> 4) ||| 0x30
    let hdr2 := ((b &&& 0x0F) <<< 4) + ofNat wordEn
    hdr ≠ 0xFF ∧ hdr2 ≠ 0xFF ∧ ((hdr2 &&& 0xF0) >>> 4) ||| ((hdr &&& 0x0F) <<< 4) = b ∧
      hdr2 &&& 0x0F = ofNat wordEn := by
  obtain ⟨some,low,whole⟩ := first_header blk
  obtain ⟨more,high,word⟩ := nibbles ⟨blk.val%16,by omega⟩ ⟨wordEn.val,by omega⟩ wordEn.isLt
  dsimp only at more high word ⊢
  rw [low]
  exact ⟨some,more,by rw [high]; exact whole,word⟩

theorem bt_short_header : ∀ (blk : Fin 16) (wordEn : Fin 15),
    let hdr := (ofNat blk <<< 4) + ofNat wordEn
    hdr ≠ 0xFF ∧ hdr &&& 0xF ≠ 0xF ∧ (hdr &&& 0xF0) >>> 4 = ofNat blk ∧ hdr &&& 0x0F = ofNat wordEn := by
  decide +kernel

theorem bt_long_header : ∀ (blk : Fin 128) (wordEn : Fin 15),
    let hdr := (ofNat ((blk.val &&& 7) <<< 1) <<< 4) + 0xF
    let hdr2 := (ofNat (blk.val >>> 3) <<< 4) + ofNat wordEn
    hdr ≠ 0xFF ∧ hdr &&& 0xF = 0xF ∧ hdr2 ≠ 0xFF ∧
      (((hdr2 &&& 0xF0) >>> 4) <<< 3) + (((hdr &&& 0xF0) >>> 4) >>> 1) = ofNat blk ∧
      hdr2 &&& 0x0F = ofNat wordEn := by
  decide +kernel

theorem wordEnOf_spec (word : Nat → Option (UInt8 × UInt8)) :
    (∀ i < 4, (wordEnOf word).toNat.testBit i = (word i).isNone) ∧
    ((∃ i < 4, (word i).isSome) → ∃ w : Fin 15, wordEnOf word = ofNat w) := by
  have cases : ∀ a b c d : Bool, let w : UInt8 := (if a then 1 else 0) + (if b then 2 else 0) + (if c then 4 else 0) +
      (if d then 8 else 0)
      (w.toNat.testBit 0 = a ∧ w.toNat.testBit 1 = b ∧ w.toNat.testBit 2 = c ∧ w.toNat.testBit 3 = d) ∧
      ((a && b && c && d) = false → ∃ v : Fin 15, w = ofNat v) := by decide
  obtain ⟨⟨zero,one,two,three⟩,small⟩ := cases (word 0).isNone (word 1).isNone (word 2).isNone (word 3).isNone
  refine ⟨?_,?_⟩
  · intro i bound
    match i,bound with
    | 0,_ => exact zero
    | 1,_ => exact one
    | 2,_ => exact two
    | 3,_ => exact three
  · rintro ⟨i,bound,held⟩
    apply small
    have there : (word i).isNone = false := by simpa [isNone_iff_eq_none,isSome_iff_ne_none] using held
    match i,bound with
    | 0,_ | 1,_ | 2,_ | 3,_ => simp only [there,Bool.and_false,Bool.false_and]

theorem shiftRight_block (blk : Nat) : (8*blk) >>> 3 = blk := by
  rw [Nat.shiftRight_eq_div_pow]
  omega

theorem entryHeader_length (isBt : Bool) (offset : Nat) (wordEn : UInt8) :
    (entryHeader isBt offset wordEn).length = if isBt ∧ offset < bt1bEntrySize then 1 else 2 := by
  cases isBt with
  | false => simp [entryHeader]
  | true =>
    by_cases short : offset < bt1bEntrySize
    · simp [entryHeader,short]
    · simp [entryHeader,short]

theorem readHeader_entry (valid : shape.Valid) (fits : Entry.Fits shape e) (inside : idx < shape.phySize)
    (there : At phyMap idx (entryHeader shape.isBt (8*e.blk) (wordEnOf e.word))) :
    readHeader shape phyMap idx = .entry (ofNat e.blk) (wordEnOf e.word)
      (idx + (entryHeader shape.isBt (8*e.blk) (wordEnOf e.word)).length) := by
  obtain ⟨w,named⟩ := (wordEnOf_spec e.word).2 fits.some
  have blocks := valid.blocks
  have last := fits.inside
  have notBeyond : ¬ shape.phySize ≤ idx := by omega
  rw [named] at there ⊢
  cases bt : shape.isBt with
  | false =>
    simp only [bt,Bool.false_eq_true,if_false] at blocks there
    simp only [entryHeader,Bool.false_eq_true,if_false,shiftRight_block,At,and_true] at there
    obtain ⟨first,second⟩ := there
    obtain ⟨one,two,blk,mask⟩ := wl_header ⟨e.blk,by omega⟩ w
    simp only [readHeader,notBeyond,if_false,first,second,bt,Bool.false_eq_true,false_and,one,two,blk,mask,
      entryHeader,length_cons,length_nil]
  | true =>
    simp only [bt,if_true] at blocks there
    by_cases short : 8*e.blk < bt1bEntrySize
    · simp only [entryHeader,if_true,short,shiftRight_block,At,and_true] at there
      unfold bt1bEntrySize at short
      obtain ⟨one,low,blk,mask⟩ := bt_short_header ⟨e.blk,by omega⟩ w
      rw [mask] at low
      simp only [readHeader,notBeyond,if_false,there,bt,one,low,ne_eq,not_false_eq_true,if_true,blk,mask,
        entryHeader_length,bt1bEntrySize,short,and_self]
    · simp only [entryHeader,if_true,if_neg short,shiftRight_block,At,and_true] at there
      obtain ⟨first,second⟩ := there
      obtain ⟨one,low,two,blk,mask⟩ := bt_long_header ⟨e.blk,by omega⟩ w
      simp only [readHeader,notBeyond,if_false,first,second,bt,true_and,one,low,two,ne_eq,not_true_eq_false,if_true,
        blk,mask,entryHeader_length,if_neg short]

theorem parseWord_entry (inside : 8*blk+8 ≤ shape.logSize) (small : blk < 256) (bound : i < 4)
    (room : idx + 2 ≤ shape.phySize) (first : phyMap idx = byte1) (second : phyMap (idx+1) = byte2) :
    parseWord shape cfg phyMap (ofNat blk) i ⟨logMap,idx⟩ =
      .ok ⟨putWord cfg logMap (8*blk+2*i) (some (byte1,byte2)),idx+2⟩ := by
  have place : ((ofNat blk).toNat <<< 3) + (i <<< 1) = 8*blk+2*i := by
    rw [toNat_ofNat_of_lt' small,Nat.shiftLeft_eq,Nat.shiftLeft_eq]
    omega
  have inLog : ¬ shape.logSize < 8*blk+2*i+1 := by omega
  have inPhy : ¬ shape.phySize - 1 < idx + 1 := by omega
  have inside2 : ¬ shape.phySize < idx + 2 := by omega
  simp only [parseWord,place,inLog,inPhy,inside2,if_false,first,second,putWord]

theorem parseWords_entry {e : Entry} (fits : e.Fits shape) (small : e.blk < 256) (bounds : ∀ i ∈ indices, i < 4)
    (there : At phyMap idx (e.data indices)) (room : idx + (e.data indices).length ≤ shape.phySize) :
    parseWords shape cfg phyMap (ofNat e.blk) (wordEnOf e.word) indices ⟨logMap,idx⟩ =
      .ok ⟨e.applyTo cfg indices logMap,idx + (e.data indices).length⟩ := by
  induction indices generalizing idx logMap with
  | nil => rfl
  | cons i rest ih =>
    have bit := (wordEnOf_spec e.word).1 i (bounds i (by simp))
    have later : ∀ j ∈ rest, j < 4 := fun j member => bounds j (by simp [member])
    have split : e.data (i :: rest) = wordBytes (e.word i) ++ e.data rest := by simp [Entry.data]
    rw [split] at there room ⊢
    rw [at_append] at there
    cases held : e.word i with
    | none =>
      simp only [held,wordBytes,nil_append,length_nil,Nat.add_zero] at there room ⊢
      simp only [parseWords,bit,held,isNone_none,if_true,ih later there.2 room]
      simp only [Entry.applyTo,foldl_cons,held,putWord]
    | some pair =>
      obtain ⟨byte1,byte2⟩ := pair
      simp only [held,wordBytes,At,and_true,length_append,length_cons,length_nil] at there room ⊢
      obtain ⟨⟨first,second⟩,beyond⟩ := there
      simp only [parseWords,bit,held,isNone_some,Bool.false_eq_true,if_false]
      rw [parseWord_entry fits.inside small (bounds i (by simp)) (by omega) first second]
      simp only [ih later beyond (by omega)]
      simp only [Entry.applyTo,foldl_cons,held]
      congr 2
      omega

def encodeAll (isBt : Bool) (entries : List Entry) : List UInt8 := entries.flatMap (Entry.encode isBt)
def endOf (shape : Shape) (entries : List Entry) : Nat := shape.start + (encodeAll shape.isBt entries).length

structure Holds (shape : Shape) (phyMap : Bytes) (entries : List Entry) : Prop where
  fits : ∀ e ∈ entries, e.Fits shape
  there : At phyMap shape.start (encodeAll shape.isBt entries)
  room : endOf shape entries ≤ shape.phySize
  blank : ∀ a, endOf shape entries ≤ a → a < shape.phySize → phyMap a = 0xFF

theorem Entry.data_length {e : Entry} (fits : e.Fits shape) : 2 ≤ (e.data [0,1,2,3]).length := by
  obtain ⟨i,bound,held⟩ := fits.some
  obtain ⟨pair,held⟩ := isSome_iff_exists.mp held
  have two : (wordBytes (e.word i)).length = 2 := by rw [held]; rfl
  simp only [Entry.data,flatMap_cons,flatMap_nil,length_append]
  match i,bound with
  | 0,_ | 1,_ | 2,_ | 3,_ => omega

theorem readHeader_blank (stop : shape.phySize ≤ idx ∨ phyMap idx = 0xFF) : readHeader shape phyMap idx = .stop idx := by
  unfold readHeader
  rcases stop with beyond | blank
  · rw [if_pos beyond]
  · split
    · rfl
    · simp only [blank,if_true]

section
variable (valid : shape.Valid) (fits : ∀ e ∈ entries, Entry.Fits shape e) (there : At phyMap idx (encodeAll shape.isBt entries)) (room : idx + (encodeAll shape.isBt entries).length ≤ shape.phySize)
include valid fits there room

theorem parseLoop_past :
    parseLoop shape cfg phyMap (fuel+entries.length) ⟨logMap,idx⟩ =
      parseLoop shape cfg phyMap fuel ⟨applyEntries cfg entries logMap,idx + (encodeAll shape.isBt entries).length⟩ := by
  induction entries generalizing idx logMap with
  | nil => rfl
  | cons e rest ih =>
    have own : e.Fits shape := fits e (by simp)
    have others : ∀ f ∈ rest, Entry.Fits shape f := fun f member => fits f (by simp [member])
    have two := Entry.data_length own
    have split : encodeAll shape.isBt (e :: rest) = e.encode shape.isBt ++ encodeAll shape.isBt rest := by simp [encodeAll]
    rw [split,length_append] at room ⊢
    rw [split,at_append] at there
    obtain ⟨here,beyond⟩ := there
    have size : (e.encode shape.isBt).length =
        (entryHeader shape.isBt (8*e.blk) (wordEnOf e.word)).length + (e.data [0,1,2,3]).length := by
      simp [Entry.encode]
    rw [Entry.encode,at_append] at here
    have small : e.blk < 256 := by
      have blocks := valid.blocks
      have inside := own.inside
      split at blocks <;> omega
    have header := readHeader_entry valid own (by omega) here.1
    have inMap : ¬ shape.phySize - 1 ≤ idx + (entryHeader shape.isBt (8*e.blk) (wordEnOf e.word)).length := by omega
    rw [length_cons,← Nat.add_assoc]
    simp only [parseLoop,header,inMap,if_false]
    rw [parseWords_entry own small (by simp) here.2 (by omega)]
    rw [Nat.add_assoc idx,← size,← Nat.add_assoc]
    exact ih others beyond (by omega)

theorem parseLoop_entries
    (stop : shape.phySize ≤ idx + (encodeAll shape.isBt entries).length ∨
      phyMap (idx + (encodeAll shape.isBt entries).length) = 0xFF)
    (enough : entries.length < fuel) :
    parseLoop shape cfg phyMap fuel ⟨logMap,idx⟩ =
      .ok ⟨applyEntries cfg entries logMap,idx + (encodeAll shape.isBt entries).length⟩ := by
  obtain ⟨more,rfl⟩ : ∃ more, fuel = more+1+entries.length := ⟨fuel-1-entries.length,by omega⟩
  rw [parseLoop_past valid fits there room]
  simp only [parseLoop,readHeader_blank stop]
end

theorem encodeAll_length (fits : ∀ e ∈ entries, Entry.Fits shape e) :
    entries.length ≤ (encodeAll shape.isBt entries).length := by
  induction entries with
  | nil => simp
  | cons e rest ih =>
    have two := Entry.data_length (fits e (by simp))
    have others := ih fun f member => fits f (by simp [member])
    simp only [encodeAll,flatMap_cons,length_append,length_cons,Entry.encode] at others ⊢
    omega

theorem Holds.parses (holds : Holds shape phyMap entries) (valid : shape.Valid) :
    eepromParser shape phyMap cfg = .ok ⟨applyEntries cfg entries blankMap,endOf shape entries⟩ := by
  have count := encodeAll_length holds.fits
  have room := holds.room
  unfold endOf at room
  apply parseLoop_entries valid holds.fits holds.there room
  · rcases Nat.lt_or_ge (endOf shape entries) shape.phySize with inside | full
    · exact .inr (holds.blank _ (Nat.le_refl _) inside)
    · exact .inl full
  · omega

theorem at_congr (same : ∀ a, idx ≤ a → a < idx + bytes.length → one a = two a) : At one idx bytes ↔ At two idx bytes := by
  induction bytes generalizing idx with
  | nil => simp [At]
  | cons byte rest ih =>
    simp only [length_cons] at same
    rw [At,At,same idx (Nat.le_refl _) (by omega),ih fun a low high => same a (by omega) (by omega)]

theorem Holds.congr (holds : Holds shape phyMap entries) (same : ∀ a < shape.phySize, other a = phyMap a) :
    Holds shape other entries where
  fits := holds.fits
  room := holds.room
  there := by
    have room := holds.room
    unfold endOf at room
    exact (at_congr fun a _ high => same a (by omega)).mpr holds.there
  blank a low high := by rw [same a high]; exact holds.blank a low high

theorem endOf_append : endOf shape (entries ++ [e]) = endOf shape entries + (e.encode shape.isBt).length := by
  simp [endOf,encodeAll,Nat.add_assoc]

theorem applyEntries_append :
    applyEntries cfg (entries ++ [e]) logMap = e.applyTo cfg [0,1,2,3] (applyEntries cfg entries logMap) := by
  simp [applyEntries]

theorem Holds.append (holds : Holds shape phyMap entries) (fits : Entry.Fits shape e)
    (room : endOf shape entries + (e.encode shape.isBt).length ≤ shape.phySize)
    (there : At other (endOf shape entries) (e.encode shape.isBt))
    (same : ∀ a, a < endOf shape entries ∨ endOf shape entries + (e.encode shape.isBt).length ≤ a → other a = phyMap a) :
    Holds shape other (entries ++ [e]) where
  fits f member := by
    rcases mem_append.mp member with old | new
    · exact holds.fits f old
    · rw [mem_singleton.mp new]
      exact fits
  there := by
    have split : encodeAll shape.isBt (entries ++ [e]) = encodeAll shape.isBt entries ++ e.encode shape.isBt := by
      simp [encodeAll]
    rw [split,at_append]
    refine ⟨?_,there⟩
    exact (at_congr fun a _ high => same a (.inl high)).mpr holds.there
  room := by rw [endOf_append]; exact room
  blank a low high := by
    rw [endOf_append] at low
    rw [same a (.inr low)]
    exact holds.blank a (by omega) high

def wordAt (word : Option (UInt8 × UInt8)) (a : Nat) : Option UInt8 := word.map fun pair => if a%2 = 0 then pair.1 else pair.2

theorem putWord_at (bound : i < 4) : putWord .map logMap (8*blk+2*i) word a =
    if a/8 = blk ∧ a%8/2 = i then (wordAt word a).getD (logMap a) else logMap a := by
  cases word with
  | none => simp [putWord,wordAt]
  | some pair =>
    simp only [putWord,putByte,update_apply,wordAt,map_some,getD_some]
    by_cases second : a = 8*blk+2*i+1
    · have odd : ¬ a%2 = 0 := by omega
      rw [if_pos second,if_pos (by omega),if_neg odd]
    · by_cases first : a = 8*blk+2*i
      · have even : a%2 = 0 := by omega
        rw [if_neg second,if_pos first,if_pos (by omega),if_pos even]
      · rw [if_neg second,if_neg first,if_neg (by omega)]

theorem applyTo_at {e : Entry} (bounds : ∀ i ∈ indices, i < 4) : e.applyTo .map indices logMap a =
    if a/8 = e.blk ∧ a%8/2 ∈ indices then (wordAt (e.word (a%8/2)) a).getD (logMap a) else logMap a := by
  induction indices generalizing logMap with
  | nil => simp [Entry.applyTo]
  | cons i rest ih =>
    have next : e.applyTo .map (i :: rest) logMap = e.applyTo .map rest (putWord .map logMap (8*e.blk+2*i) (e.word i)) := rfl
    rw [next,ih fun j member => bounds j (by simp [member]),putWord_at (bounds i (by simp))]
    by_cases here : a%8/2 = i
    · subst here
      by_cases block : a/8 = e.blk
      · cases e.word (a%8/2) with
        | none => simp [wordAt]
        | some pair => simp [wordAt,block]
      · simp [block]
    · simp [here]

-- What is read behind the end of the map can make the parser fail, but never
-- shows up in a result.
section
variable {shape : Shape} {one two : Bytes} (same : ∀ a < shape.phySize, one a = two a)
include same

theorem parseWord_agree (done : parseWord shape cfg one blkIdx i c = .ok c') :
    parseWord shape cfg two blkIdx i c = .ok c' := by
  have inside : ¬ shape.phySize < c.efuseIdx + 2 := by
    intro beyond
    simp only [parseWord,beyond,if_true] at done
    split at done
    · cases done
    · split at done <;> cases done
  rw [← done]
  simp only [parseWord,same c.efuseIdx (by omega),same (c.efuseIdx+1) (by omega)]

theorem parseWords_agree (done : parseWords shape cfg one blkIdx wordEn indices c = .ok c') :
    parseWords shape cfg two blkIdx wordEn indices c = .ok c' := by
  induction indices generalizing c with
  | nil => exact done
  | cons i rest ih =>
    unfold parseWords at done ⊢
    split
    · rename_i absent
      rw [if_pos absent] at done
      exact ih done
    · rename_i present
      rw [if_neg present] at done
      cases word : parseWord shape cfg one blkIdx i c with
      | error logMap => simp [word] at done
      | ok mid =>
        simp only [word] at done
        simp only [parseWord_agree same word]
        exact ih done

theorem readHeader_agree (inside : idx + 1 < shape.phySize) : readHeader shape one idx = readHeader shape two idx := by
  simp only [readHeader,same idx (by omega),same (idx+1) inside]

section
variable (blank : two shape.phySize = 0xFF)
include blank

theorem readHeader_last (last : idx + 1 = shape.phySize) :
    readHeader shape one idx = readHeader shape two idx ∨
      ∃ blkIdx wordEn, readHeader shape one idx = .entry blkIdx wordEn (shape.phySize+1) := by
  simp only [readHeader,same idx (by omega),last,blank,if_true]
  split
  · exact .inl rfl
  · split
    · exact .inl rfl
    · split
      · exact .inl rfl
      · split
        · exact .inl rfl
        · have next : idx + 2 = shape.phySize + 1 := by omega
          rw [next]
          split
          · exact .inr ⟨_,_,rfl⟩
          · exact .inr ⟨_,_,rfl⟩

theorem parseLoop_agree (done : parseLoop shape cfg one fuel c = .ok c') :
    parseLoop shape cfg two fuel c = .ok c' := by
  induction fuel generalizing c with
  | zero => exact done
  | succ fuel ih =>
    have header : readHeader shape one c.efuseIdx = readHeader shape two c.efuseIdx := by
      rcases Nat.lt_trichotomy (c.efuseIdx+1) shape.phySize with inside | last | beyond
      · exact readHeader_agree same inside
      · rcases readHeader_last same blank last with equal | ⟨blkIdx,wordEn,out⟩
        · exact equal
        · have far : shape.phySize - 1 ≤ shape.phySize + 1 := by omega
          simp [parseLoop,out,far] at done
      · have out : shape.phySize ≤ c.efuseIdx := by omega
        simp only [readHeader,out,if_true]
    unfold parseLoop at done ⊢
    rw [← header]
    cases read : readHeader shape one c.efuseIdx with
    | stop efuseIdx => simpa only [read] using done
    | entry blkIdx wordEn efuseIdx =>
      simp only [read] at done ⊢
      split
      · rename_i far
        simp [far] at done
      · rename_i near
        simp only [near,if_false] at done
        cases words : parseWords shape cfg one blkIdx wordEn [0,1,2,3] {c with efuseIdx} with
        | error logMap => simp [words] at done
        | ok mid =>
          simp only [words] at done
          simp only [parseWords_agree same words]
          exact ih done

theorem eepromParser_agree (done : eepromParser shape one cfg = .ok c) :
    eepromParser shape two cfg = .ok c := parseLoop_agree same blank done
end
end
section
variable (two : ParserCfg)

theorem parseWord_cfg (done : parseWord shape one phyMap blkIdx i c = .ok c') (other : Bytes) :
    ∃ logMap, parseWord shape two phyMap blkIdx i ⟨other,c.efuseIdx⟩ = .ok ⟨logMap,c'.efuseIdx⟩ := by
  unfold parseWord at done ⊢
  dsimp only at done ⊢
  split at done
  · cases done
  · split at done
    · cases done
    · split at done
      · cases done
      · rename_i inLog inPhy inside
        cases done
        simp only [inLog,inPhy,inside,if_false]
        exact ⟨_,rfl⟩

theorem parseWords_cfg (done : parseWords shape one phyMap blkIdx wordEn indices c = .ok c') (other : Bytes) :
    ∃ logMap, parseWords shape two phyMap blkIdx wordEn indices ⟨other,c.efuseIdx⟩ = .ok ⟨logMap,c'.efuseIdx⟩ := by
  induction indices generalizing c other with
  | nil =>
    cases done
    exact ⟨other,rfl⟩
  | cons i rest ih =>
    unfold parseWords at done ⊢
    split at done
    · rename_i absent
      rw [if_pos absent]
      exact ih done other
    · rename_i present
      rw [if_neg present]
      cases word : parseWord shape one phyMap blkIdx i c with
      | error logMap => simp [word] at done
      | ok mid =>
        simp only [word] at done
        obtain ⟨logMap,same⟩ := parseWord_cfg two word other
        simp only [same]
        exact ih done logMap

theorem parseLoop_cfg (done : parseLoop shape one phyMap fuel c = .ok c') (other : Bytes) :
    ∃ logMap, parseLoop shape two phyMap fuel ⟨other,c.efuseIdx⟩ = .ok ⟨logMap,c'.efuseIdx⟩ := by
  induction fuel generalizing c other with
  | zero =>
    cases done
    exact ⟨other,rfl⟩
  | succ fuel ih =>
    unfold parseLoop at done ⊢
    dsimp only
    cases read : readHeader shape phyMap c.efuseIdx with
    | stop efuseIdx =>
      simp only [read] at done
      cases done
      exact ⟨other,rfl⟩
    | entry blkIdx wordEn efuseIdx =>
      simp only [read] at done ⊢
      split at done
      · cases done
      · rename_i near
        rw [if_neg near]
        cases words : parseWords shape one phyMap blkIdx wordEn [0,1,2,3] {c with efuseIdx} with
        | error logMap => simp [words] at done
        | ok mid =>
          simp only [words] at done
          obtain ⟨logMap,same⟩ := parseWords_cfg two words other
          simp only [same]
          exact ih done logMap

theorem eepromParser_cfg (done : eepromParser shape phyMap one = .ok c) :
    ∃ logMap, eepromParser shape phyMap two = .ok ⟨logMap,c.efuseIdx⟩ := parseLoop_cfg two done blankMap
end

end Rtl8852au.Efuse
