import Rtl8852au.EfuseRoundTrip

namespace Rtl8852au.Efuse
open Fallible Prog Option Function UInt8

variable {hw : HwInfo}

def maskBit (w : Nat) : Nat := if w < 4 then w+4 else w-4
def selected (mask : Bytes) (offset : Nat) : Bool := (mask (offset/16)).toNat.testBit (maskBit (offset%16/2))
theorem wordBit_clear : ∀ w i : Fin 8, (~~~wordBit w).toNat.testBit (maskBit i) = !(i == w) := by decide

theorem clearWord_selected (bound : w < 8) :
    selected (if drop then update mask k (mask k &&& ~~~wordBit w) else mask) offset =
      (selected mask offset && !(drop && decide (offset/16 = k ∧ offset%16/2 = w))) := by
  cases drop with
  | false => simp
  | true =>
    unfold selected
    simp only [if_true,Bool.true_and]
    by_cases own : offset/16 = k
    · have bit := wordBit_clear ⟨w,bound⟩ ⟨offset%16/2,by omega⟩
      have same : (decide (offset%16/2 = w)) = ((⟨offset%16/2,by omega⟩ : Fin 8) == ⟨w,bound⟩) := by simp [BEq.beq]
      simp only [own,update_self,UInt8.toNat_and,Nat.testBit_and,true_and,same]
      exact congrArg _ bit
    · simp [own]

theorem clearBlock_selected {drop : Nat → Bool} {words : List Nat} (bounds : ∀ w ∈ words, w < 8) :
    selected (words.foldl (fun mask w =>
      if drop (16*k+2*w) then update mask k (mask k &&& ~~~wordBit w) else mask) mask) offset =
      (selected mask offset && !(drop (16*k+2*(offset%16/2)) && decide (offset/16 = k ∧ offset%16/2 ∈ words))) := by
  induction words generalizing mask with
  | nil => simp
  | cons w rest ih =>
    rw [List.foldl_cons,ih fun v member => bounds v (by simp [member]),clearWord_selected (bounds w (by simp))]
    by_cases here : offset%16/2 = w
    · subst here
      cases drop (16*k+2*(offset%16/2)) with
      | false => simp
      | true => by_cases own : offset/16 = k <;> simp [own]
    · simp [here]

theorem clearWords_selected {drop : Nat → Bool} (even : offset%2 = 0) (inside : offset < 16*(mapSize/16)) :
    selected (clearWords drop mapSize mask) offset = (selected mask offset && !drop offset) := by
  have place : 16*(offset/16)+2*(offset%16/2) = offset := by omega
  have general : ∀ n, selected ((List.range n).foldl (fun mask k =>
      (List.range 8).foldl (fun mask w =>
        if drop (16*k+2*w) then update mask k (mask k &&& ~~~wordBit w) else mask) mask) mask) offset =
      (selected mask offset && !(drop offset && decide (offset/16 < n))) := by
    intro n
    induction n with
    | zero => simp
    | succ n ih =>
      rw [@List.range_succ n,List.foldl_append,List.foldl_cons,List.foldl_nil,clearBlock_selected (by simp),ih]
      by_cases own : offset/16 = n
      · have word : offset%16/2 < 8 := by omega
        rw [own] at place
        simp [own,place,word]
      · have bound : offset/16 < n + 1 ↔ offset/16 < n := by omega
        simp [own,bound]
  have last : offset/16 < mapSize/16 := by omega
  rw [clearWords,general]
  simp [last]

theorem preWordEn_bit (mask : Bytes) (blk : Nat) (bound : j < 4) :
    (preWordEn mask blk).toNat.testBit j = selected mask (8*blk+2*j) := by
  unfold preWordEn selected
  have block : (8*blk+2*j)/16 = blk/2 := by omega
  rw [block]
  split
  · rename_i odd
    have word : (8*blk+2*j)%16/2 = j+4 := by omega
    rw [word,UInt8.toNat_and,Nat.testBit_and]
    have bit : maskBit (j+4) = j := by
      unfold maskBit
      split <;> omega
    have low : (toNat 0x0F).testBit j := by
      match j,bound with
      | 0,_ | 1,_ | 2,_ | 3,_ => rfl
    rw [bit,low,Bool.and_true]
  · rename_i even
    have word : (8*blk+2*j)%16/2 = j := by omega
    rw [word,UInt8.toNat_shiftRight]
    simp [maskBit,bound,Nat.testBit_shiftRight,Nat.add_comm]

theorem preWordEn_lt (mask : Bytes) (blk : Nat) : (preWordEn mask blk).toNat < 16 := by
  unfold preWordEn
  split
  · rw [UInt8.toNat_and]
    exact Nat.lt_of_le_of_lt Nat.and_le_right (by decide)
  · rw [UInt8.toNat_shiftRight]
    have small := (mask (blk/2)).toNat_lt
    simp [Nat.shiftRight_eq_div_pow]
    omega

def pgEntry (info : PgInfo) (pre : UInt8) (blk : Nat) : Entry where
  blk := blk
  word i := if pre.toNat.testBit i then some (info.efuseMap (8*blk+2*i),info.efuseMap (8*blk+2*i+1)) else none

def pgEntryAt (info : PgInfo) (updatedMask : Bytes) (blk : Nat) : Option Entry :=
  if 0 < preWordEn updatedMask blk then some (pgEntry info (preWordEn updatedMask blk) blk) else none

theorem pgEntry_wordEn (small : pre.toNat < 16) : wordEnOf (pgEntry info pre blk).word = pre ^^^ 0x0F := by
  have absent : ∀ i, ((pgEntry info pre blk).word i).isNone = !pre.toNat.testBit i := by
    intro i
    cases bit : pre.toNat.testBit i with
    | false => simp [pgEntry,bit]
    | true => simp [pgEntry,bit]
  have all : ∀ p : Fin 16, (if !(ofNat p).toNat.testBit 0 then (1 : UInt8) else 0) +
      (if !(ofNat p).toNat.testBit 1 then 2 else 0) + (if !(ofNat p).toNat.testBit 2 then 4 else 0) +
      (if !(ofNat p).toNat.testBit 3 then 8 else 0) = ofNat p ^^^ 0x0F := by decide
  simp only [wordEnOf,absent]
  have own := all ⟨pre.toNat,small⟩
  rwa [UInt8.ofNat_toNat] at own

theorem pgEntry_encode (small : pre.toNat < 16) : (pgEntry info pre blk).encode isBt =
    entryHeader isBt (8*blk) (pre ^^^ 0x0F) ++ pgData info pre (8*blk) := by
  have data : (pgEntry info pre blk).data [0,1,2,3] = pgData info pre (8*blk) := by
    unfold Entry.data pgData pgWords
    generalize [0,1,2,3] = indices
    induction indices with
    | nil => rfl
    | cons i rest ih =>
      rw [List.flatMap_cons,List.filter_cons,ih]
      cases bit : pre.toNat.testBit i with
      | false => simp [pgEntry,bit,wordBytes]
      | true => simp [pgEntry,bit,wordBytes]
  rw [Entry.encode,pgEntry_wordEn small,data]
  rfl

theorem pgEntry_fits (small : pre.toNat < 16) (filled : 0 < pre) (inside : 8*blk+8 ≤ shape.logSize) :
    (pgEntry info pre blk).Fits shape where
  some := by
    have all : ∀ p : Fin 16, 0 < p → ∃ i : Fin 4, p.val.testBit i := by decide
    obtain ⟨i,bit⟩ := all ⟨pre.toNat,small⟩ (lt_iff_toNat_lt.mp filled)
    exact ⟨i,i.isLt,by simp only at bit; simp [pgEntry,bit]⟩
  inside := inside

theorem pgData_length : (pgData info pre offset).length = 2*(pgWords pre).length := by
  unfold pgData
  generalize pgWords pre = words
  induction words with
  | nil => rfl
  | cons i rest ih =>
    simp only [List.flatMap_cons,List.length_append,List.length_cons,List.length_nil,ih]
    omega

theorem pgEntry_length (small : pre.toNat < 16) :
    ((pgEntry info pre blk).encode isBt).length =
      (if isBt ∧ 8*blk < bt1bEntrySize then 1 else 2) + 2*(pgWords pre).length := by
  rw [pgEntry_encode small,List.length_append,entryHeader_length,pgData_length]

def pgEntries (info : PgInfo) (updatedMask : Bytes) (n : Nat) : List Entry :=
  (List.range n).filterMap (pgEntryAt info updatedMask)

def pgNumUpTo (updatedMask : Bytes) (n : Nat) : Nat :=
  (List.range n).foldl (fun pgNum blk =>
    let pre := preWordEn updatedMask blk
    if 0 < pre then pgNum + 2 + 2*(pgWords pre).length else pgNum) 0

theorem pgEntries_succ : pgEntries info updatedMask (n+1) =
    pgEntries info updatedMask n ++ (pgEntryAt info updatedMask n).toList := by
  unfold pgEntries
  rw [List.range_succ,List.filterMap_append]
  cases entry : pgEntryAt info updatedMask n with
  | none => simp [entry]
  | some e => simp [entry]

theorem pgNumUpTo_succ : pgNumUpTo updatedMask (n+1) = if 0 < preWordEn updatedMask n then
    pgNumUpTo updatedMask n + 2 + 2*(pgWords (preWordEn updatedMask n)).length else pgNumUpTo updatedMask n := by
  simp [pgNumUpTo,List.range_succ]

theorem pgEntries_ends : endOf shape (entries ++ pgEntries info updatedMask n) ≤ endOf shape entries + pgNumUpTo updatedMask n ∧
    (shape.isBt = false → endOf shape (entries ++ pgEntries info updatedMask n) = endOf shape entries + pgNumUpTo updatedMask n) := by
  induction n with
  | zero => simp [pgEntries,pgNumUpTo]
  | succ n ih =>
    obtain ⟨within,wlan⟩ := ih
    have small := preWordEn_lt updatedMask n
    rw [pgEntries_succ,pgNumUpTo_succ,← List.append_assoc,pgEntryAt]
    split
    · simp only [toList_some,endOf_append,pgEntry_length small]
      exact ⟨by split <;> omega,fun off => by simp [off] at wlan ⊢; omega⟩
    · simp only [toList_none,List.append_nil]
      exact ⟨within,wlan⟩

theorem endOf_pgEntries (wlan : shape.isBt = false) : endOf shape (entries ++ pgEntries info updatedMask n) =
    endOf shape entries + pgNumUpTo updatedMask n := pgEntries_ends.2 wlan

theorem pgEntry_applyTo (bounds : ∀ i ∈ indices, i < 4) : (pgEntry info pre blk).applyTo .map indices logMap a =
    if a/8 = blk ∧ a%8/2 ∈ indices ∧ pre.toNat.testBit (a%8/2) then info.efuseMap a else logMap a := by
  rw [applyTo_at bounds]
  cases bit : pre.toNat.testBit (a%8/2) with
  | false => simp [pgEntry,bit,wordAt]
  | true =>
    simp only [pgEntry,bit,if_true,wordAt,map_some,getD_some,and_true]
    by_cases here : a/8 = blk
    · by_cases even : a%2 = 0
      · have place : 8*blk+2*(a%8/2) = a := by omega
        rw [if_pos even,place]
      · have place : 8*blk+2*(a%8/2)+1 = a := by omega
        rw [if_neg even,place]
    · simp [here]

theorem applyEntries_pgEntries : applyEntries .map (pgEntries info updatedMask n) logMap a =
    if a/8 < n ∧ selected updatedMask (8*(a/8)+2*(a%8/2)) then info.efuseMap a else logMap a := by
  induction n with
  | zero => simp [pgEntries,applyEntries]
  | succ n ih =>
    rw [pgEntries_succ,pgEntryAt]
    split
    · rw [toList_some,applyEntries_append,pgEntry_applyTo (by simp),ih]
      by_cases here : a/8 = n
      · have word : a%8/2 ∈ [0,1,2,3] := by
          have bound : a%8/2 < 4 := by omega
          simp only [List.mem_cons,List.not_mem_nil]
          omega
        rw [← preWordEn_bit updatedMask (a/8) (by omega)]
        simp [here,word]
      · have bound : a/8 < n+1 ↔ a/8 < n := by omega
        simp [here,bound]
    · rename_i empty
      rw [toList_none,List.append_nil,ih]
      by_cases here : a/8 = n
      · have zero : preWordEn updatedMask n = 0 := by
          have none := lt_iff_toNat_lt.not.mp empty
          rw [← UInt8.toNat_inj]
          simpa using none
        have off : selected updatedMask (8*(a/8)+2*(a%8/2)) = false := by
          rw [← preWordEn_bit updatedMask (a/8) (by omega),here,zero]
          simp
        simp [off]
      · have bound : a/8 < n+1 ↔ a/8 < n := by omega
        simp [bound]

-- The write commands that were issued since, all inside the physical maps.
def Asks (hw : HwInfo) (start f : Fuses) : Prop :=
  ∀ bank, ∃ more, (f bank).2 = (start bank).2 ++ more ∧ ∀ r ∈ more, r.1 < hw.phyMapSize bank

structure Appended (hw : HwInfo) (bank : Bank) (start : Fuses) (old new : List Entry) (f : Fuses) : Prop where
  holds : Holds (hw.shape bank) (f bank).1 (old ++ new)
  below : ∀ a < endOf (hw.shape bank) old, (f bank).1 a = (start bank).1 a
  others : ∀ other, other ≠ bank → f other = start other
  asks : Asks hw start f

def Programming (hw : HwInfo) (bank : Bank) (start : Fuses) (old new : List Entry) (s : Adapter) : Prop :=
  Ready hw (Appended hw bank start old new) bank s ∧ (s.bank bank).efuseEnd = endOf (hw.shape bank) (old ++ new)

theorem Asks.issued (asks : Asks hw start (fuses s)) (issued : Issued lo hi (s.bank bank) b) (inside : hi ≤ hw.phyMapSize bank) :
    Asks hw start (fuses (s.setBank bank b)) := by
  intro other
  by_cases here : other = bank
  · subst here
    simp only [fuses,setBank_same]
    obtain ⟨before,first,low⟩ := asks other
    obtain ⟨after,second,high⟩ := issued.requests
    refine ⟨before ++ after,by rw [second,← List.append_assoc]; exact congrArg (· ++ after) first,?_⟩
    intro r member
    rcases List.mem_append.mp member with old | new
    · exact low r old
    · have bound := (high r new).2
      omega
  · simp only [fuses,setBank_other here]
    exact asks other

theorem endOf_le_append : endOf shape old ≤ endOf shape (old ++ new) := by simp [endOf,encodeAll]

theorem Appended.write (appended : Appended hw bank start old new (fuses s)) (fits : e.Fits (hw.shape bank))
    (room : endOf (hw.shape bank) (old ++ new ++ [e]) ≤ hw.phyMapSize bank) :
    Appended hw bank start old (new ++ [e]) (fuses (s.setBank bank ((s.bank bank).burned
      (endOf (hw.shape bank) (old ++ new)) (e.encode (hw.shape bank).isBt)))) where
  holds := by
    rw [endOf_append] at room
    simp only [fuses,setBank_same,← List.append_assoc]
    exact Holds.write appended.holds fits room
  below a low := by
    have order : endOf (hw.shape bank) old ≤ endOf (hw.shape bank) (old ++ new) := endOf_le_append
    simp only [fuses,setBank_same]
    rw [burned_outside (.inl (by omega))]
    exact appended.below a low
  others other apart := by
    simp only [fuses,setBank_other apart]
    exact appended.others other apart
  asks := by
    rw [endOf_append] at room
    exact appended.asks.issued (burned_issued (encode_filled fits)) room

theorem Cached.moveEnd (cached : Cached hw bank b) (invalid : b.logMapValid = false) :
    Cached hw bank {b with efuseEnd:=n} :=
  ⟨cached.phy,fun valid => absurd (invalid.symm.trans valid) (by simp)⟩

def appendReal (env : Env) (bytes : List UInt8) : Call Unit := do
  let b ← current
  writeBytes env b.efuseEnd bytes
  updateCurrent fun b => {b with efuseEnd:=b.efuseEnd + bytes.length}

theorem writeEntry_programming (fits : e.Fits (hw.shape bank))
    (room : endOf (hw.shape bank) (old ++ new ++ [e]) ≤ hw.phyMapSize bank) : Triple (Programming hw bank start old new)
      (appendReal env (e.encode (hw.shape bank).isBt)) (fun _ => Programming hw bank start old (new ++ [e])) (fun _ s => Asks hw start (fuses s)) := by
  refine triple_at fun s holds => at_current ?_
  obtain ⟨ready,endIdx⟩ := holds
  rw [ready.info,endIdx]
  have wrote : Triple (· = s) (writeBytes env (endOf (hw.shape bank) (old ++ new)) (e.encode (hw.shape bank).isBt))
      (fun _ s' => Ready hw (Appended hw bank start old (new ++ [e])) bank s' ∧
        (s'.bank bank).efuseEnd = endOf (hw.shape bank) (old ++ new) ∧ (s'.bank bank).logMapValid = false)
      (fun _ s => Asks hw start (fuses s)) := by
    apply (writeBytes_burns ready.info ready.cellSel).weaken
    · rintro _ _ rfl
      refine ⟨ready.burned (encode_filled fits) (ready.sound.fuses.write fits room),?_⟩
      rw [setBank_same,(burned_issued (encode_filled fits)).efuseEnd,endIdx]
      exact ⟨rfl,(burned_issued (encode_filled fits)).flags.2⟩
    · rintro _ _ ⟨b,issued,rfl⟩
      rw [endOf_append] at room
      exact ready.sound.fuses.asks.issued issued room
  refine chain wrote fun _ => triple_change fun s holds => ?_
  obtain ⟨ready,endIdx,invalid⟩ := holds
  refine ⟨?_,?_⟩
  · rw [ready.info]
    exact ready.setBank ((ready.sound.cached bank).moveEnd invalid) rfl rfl
  · rw [ready.info,setBank_same,← List.append_assoc,endOf_append,← endIdx]

theorem programming_skip (none : pgEntryAt info updatedMask blk = none) :
    pgEntries info updatedMask (blk+1) = pgEntries info updatedMask blk := by
  rw [pgEntries_succ,none,toList_none,List.append_nil]

theorem endOf_pgEntries_mono (order : n ≤ m) :
    endOf shape (old ++ pgEntries info updatedMask n) ≤ endOf shape (old ++ pgEntries info updatedMask m) := by
  induction order with
  | refl => exact Nat.le_refl _
  | step _ ih =>
    refine Nat.le_trans ih ?_
    rw [pgEntries_succ,← List.append_assoc]
    exact endOf_le_append

theorem procPgEfuse_real : procPgEfuse hw env info pre offset false =
    appendReal env (entryHeader (info.efuseMapSize == hw.btLogEfuseSize) offset (pre ^^^ 0x0F) ++ pgData info pre offset) := rfl

theorem procPgEfuse_programming (bt : (info.efuseMapSize == hw.btLogEfuseSize) = (hw.shape bank).isBt)
    (filled : 0 < preWordEn updatedMask blk) (inside : 8*blk+8 ≤ hw.logMapSize bank)
    (room : endOf (hw.shape bank) (old ++ pgEntries info updatedMask (blk+1)) ≤ hw.phyMapSize bank) :
    Triple (Programming hw bank start old (pgEntries info updatedMask blk))
      (procPgEfuse hw env info (preWordEn updatedMask blk) (8*blk) false)
      (fun _ => Programming hw bank start old (pgEntries info updatedMask (blk+1))) (fun _ s => Asks hw start (fuses s)) := by
  have small := preWordEn_lt updatedMask blk
  have entry : pgEntryAt info updatedMask blk = some (pgEntry info (preWordEn updatedMask blk) blk) := if_pos filled
  rw [pgEntries_succ,entry,toList_some] at room ⊢
  rw [procPgEfuse_real,bt,← pgEntry_encode small]
  exact writeEntry_programming (pgEntry_fits small filled inside) (by rwa [List.append_assoc])

theorem programEfuse_programming (bt : (info.efuseMapSize == hw.btLogEfuseSize) = (hw.shape bank).isBt)
    (inside : info.efuseMapSize ≤ hw.logMapSize bank)
    (room : endOf (hw.shape bank) old + pgNum info updatedMask ≤ hw.phyMapSize bank) :
    Triple (Programming hw bank start old []) (programEfuse hw env info updatedMask false)
      (fun _ => Programming hw bank start old (pgEntries info updatedMask (info.efuseMapSize/8)))
      (fun _ s => Asks hw start (fuses s)) := by
  apply triple_each fun done => Programming hw bank start old (done.filterMap (pgEntryAt info updatedMask))
  intro done blk rest split
  obtain ⟨bound,rfl⟩ := range_split split
  have next : List.range blk ++ [blk] = List.range (blk+1) := List.range_succ.symm
  rw [next]
  apply triple_onlyIf
  · intro filled
    refine procPgEfuse_programming bt (by simpa using filled) (by omega) ?_
    refine Nat.le_trans (endOf_pgEntries_mono (by omega)) (Nat.le_trans pgEntries_ends.1 room)
  · intro empty s programming
    have none : pgEntryAt info updatedMask blk = none := if_neg (by simpa using empty)
    have same := programming_skip none
    unfold pgEntries at same
    rw [same]
    exact programming

def leftMask (info : PgInfo) (old : List Entry) : Bytes :=
  clearWords (fun offset => sameWord info.efuseMap (applyEntries .map old blankMap) offset &&
    applyEntries .mask old blankMap offset == 0x00) info.efuseMapSize (copiedMask info)

theorem updateEepromMask_left :
    Triple (Ready hw (Appended hw bank start old []) bank) (updateEepromMask hw env info false)
      (fun updatedMask s => updatedMask = leftMask info old ∧ Programming hw bank start old [] s)
      (fun _ => Ready hw (Appended hw bank start old []) bank) := by
  refine chain require_keeps fun _ => ?_
  refine triple_at fun s ready => at_current (at_use ready ?_)
  refine chain readMap_parsed fun map => ?_
  refine chain (require_exit fun _ parsed => parsed.1) fun _ => ?_
  refine triple_at fun s parsed => ?_
  obtain ⟨ready,valid,fresh⟩ := parsed
  have holds := ready.sound.fuses.holds
  rw [List.append_nil] at holds
  have known := holds.fresh.symm.trans fresh
  simp only [Except.ok.injEq,Cursor.mk.injEq] at known
  obtain ⟨rfl,_⟩ := known
  refine at_use ⟨ready,valid⟩ (with_phyMap fun phyMap => ?_)
  refine chain parse_parsed fun maskMap => chain (within_exit fun _ parsed => parsed.1) fun _ => triple_pure fun s parsed => ?_
  obtain ⟨ready,_,fresh⟩ := parsed
  have holds := ready.sound.fuses.holds
  rw [List.append_nil] at holds
  have known := holds.fresh.symm.trans fresh
  simp only [Except.ok.injEq,Cursor.mk.injEq] at known
  obtain ⟨rfl,endIdx⟩ := known
  exact ⟨rfl,ready,by rw [List.append_nil,endIdx]⟩

theorem procPgEfuseByMap_programming (bt : (info.efuseMapSize == hw.btLogEfuseSize) = (hw.shape bank).isBt)
    (inside : info.efuseMapSize ≤ hw.logMapSize bank) :
    Triple (Ready hw (Appended hw bank start old []) bank) (procPgEfuseByMap hw env info)
      (fun _ => Programming hw bank start old (pgEntries info (leftMask info old) (info.efuseMapSize/8)))
      (fun _ s => Asks hw start (fuses s)) := by
  have exits : ∀ (e : Stop) s, Ready hw (Appended hw bank start old []) bank s → Asks hw start (fuses s) :=
    fun _ _ ready => ready.sound.fuses.asks
  refine chain (require_exit (exits .fault)) fun _ => ?_
  refine chain (updateEepromMask_left.weaken (fun _ _ holds => holds) exits) fun mask => ?_
  refine triple_at fun s holds => ?_
  obtain ⟨rfl,programming⟩ := holds
  have enough : Triple (· = s) (checkEfuseEnough hw info (leftMask info old))
      (fun _ s => Programming hw bank start old [] s ∧
        endOf (hw.shape bank) old + pgNum info (leftMask info old) ≤ hw.phyMapSize bank)
      (fun _ s => Asks hw start (fuses s)) := by
    refine at_look (at_current ?_)
    obtain ⟨ready,endIdx⟩ := programming
    rw [List.append_nil] at endIdx
    rw [ready.info,endIdx]
    apply triple_check
    · rintro s rfl space
      simp only [Bool.not_eq_true',decide_eq_false_iff_not] at space
      exact ⟨⟨ready,by rw [List.append_nil,endIdx]⟩,by omega⟩
    · rintro s rfl
      exact exits .fault s ready
  refine chain enough fun _ => triple_at fun s holds => ?_
  exact at_use holds.1 (programEfuse_programming bt inside holds.2)

def PgInfo.args (info : PgInfo) : PgArgs where
  efuseMap := some info.efuseMap
  efuseMapSize := info.efuseMapSize
  efuseMask := some info.efuseMask
  efuseMaskSize := info.efuseMaskSize

theorem checkPgArgs_passed {before : Adapter → Prop} (exit : ∀ s, before s → inv s) :
    Triple before (checkPgArgs info.args mapSize) (fun checked s => before s ∧ checked = info ∧
      info.efuseMapSize = mapSize ∧ info.efuseMaskSize = info.efuseMapSize>>>4) (fun _ => inv) := by
  refine chain (require_passed exit) fun _ => ?_
  refine chain (require_exit fun s holds => exit s holds.1) fun _ => ?_
  refine chain (require_passed fun s holds => exit s holds.1) fun _ => ?_
  exact triple_pure fun s holds => ⟨holds.1.1,rfl,by simpa [PgInfo.args] using holds.1.2,by simpa [PgInfo.args] using holds.2⟩

theorem adjusted_size : (adjusted info part).efuseMapSize = info.efuseMapSize := by cases part <;> rfl

theorem programming_blind (s : Adapter) (efuse : SmEfuse) (programming : Programming hw bank start old new s) :
    Programming hw bank start old new {s with efuse} := ⟨ready_blind s efuse programming.1,programming.2⟩

theorem pgMapSize_inside : pgMapSize hw isLimit ≤ hw.logMapSize .wifi := by
  unfold pgMapSize
  split
  · exact (hw.limitBlocks hw.intf).2.1
  · exact Nat.le_refl _

theorem pgMapSize_wlan : (pgMapSize hw isLimit == hw.btLogEfuseSize) = (hw.shape .wifi).isBt := by
  have distinct := hw.distinct
  have limit := (hw.limitBlocks hw.intf).2.2
  cases isLimit with
  | false => simp [pgMapSize,HwInfo.shape,HwInfo.logMapSize]
  | true => simp [pgMapSize,HwInfo.shape,HwInfo.logMapSize,distinct,limit]

theorem macPgEfuseByMap_programming :
    Triple (Sound hw (Appended hw .wifi start old [])) (macPgEfuseByMap hw env info.args part isLimit)
      (fun _ s => (info.efuseMapSize = pgMapSize hw isLimit ∧ info.efuseMaskSize = info.efuseMapSize>>>4 ∧
        sameVersion info hw.efuseVersionSize) ∧
        Programming hw .wifi start old (pgEntries (adjusted info part) (leftMask (adjusted info part) old) (info.efuseMapSize/8)) s)
      (fun _ s => Asks hw start (fuses s)) := by
  have exit : ∀ s, Sound hw (Appended hw .wifi start old []) s → Asks hw start (fuses s) := fun _ sound => sound.fuses.asks
  refine chain (checkPgArgs_passed exit) fun checked => triple_at fun s holds => ?_
  obtain ⟨sound,rfl,size,maskSize⟩ := holds
  refine at_use sound (chain (require_passed exit) fun _ => triple_at fun s holds => ?_)
  obtain ⟨sound,version⟩ := holds
  have facts : checked.efuseMapSize = pgMapSize hw isLimit ∧ checked.efuseMaskSize = checked.efuseMapSize>>>4 ∧
      sameVersion checked hw.efuseVersionSize := ⟨size,maskSize,version⟩
  refine at_use sound (enter_bank (fun _ _ holds => holds) exit fun _ => ?_)
  refine chain (triple_exit mapInit_ready fun s ready => exit s ready.sound) fun _ => ?_
  refine chain (triple_exit mapInit_ready fun s ready => exit s ready.sound) fun _ => ?_
  have inside : (adjusted checked part).efuseMapSize ≤ hw.logMapSize .wifi := by
    rw [adjusted_size,facts.1]
    exact pgMapSize_inside
  have bt : ((adjusted checked part).efuseMapSize == hw.btLogEfuseSize) = (hw.shape .wifi).isBt := by
    rw [adjusted_size,facts.1]
    exact pgMapSize_wlan
  refine chain (orIdle_keeps (fun _ _ holds => holds) (procPgEfuseByMap_programming bt inside)) fun _ => ?_
  rw [adjusted_size]
  exact (cnv_keeps programming_blind).weaken (fun _ _ holds => ⟨facts,holds⟩)
    fun _ _ holds => holds.1.sound.fuses.asks

theorem macPgEfuseByMapBt_appended :
    Triple (Sound hw (Appended hw .bt start old [])) (macPgEfuseByMapBt hw env info.args)
      (fun _ => Sound hw (Appended hw .bt start old (pgEntries info (leftMask info old) (info.efuseMapSize/8))))
      (fun _ s => Asks hw start (fuses s)) := by
  have exit : ∀ s, Sound hw (Appended hw .bt start old []) s → Asks hw start (fuses s) := fun _ sound => sound.fuses.asks
  refine chain (checkPgArgs_passed exit) fun checked => triple_at fun s holds => ?_
  obtain ⟨sound,rfl,size,_⟩ := holds
  refine at_use sound (enter_bank (fun _ _ holds => holds) exit fun _ => ?_)
  have inside : checked.efuseMapSize ≤ hw.logMapSize .bt := Nat.le_of_eq size
  have bt : (checked.efuseMapSize == hw.btLogEfuseSize) = (hw.shape .bt).isBt := by
    rw [size]
    simp [HwInfo.shape,HwInfo.logMapSize]
  refine chain (orIdle_keeps (fun _ _ holds => holds) (procPgEfuseByMap_programming bt inside)) fun _ => ?_
  refine chain (triple_mono (fun _ holds => holds.1) (switch_back (fun _ _ holds => holds) ?_) (fun _ _ holds => holds)
    fun _ _ holds => holds) fun _ => triple_exit leave_sound fun _ sound => sound.fuses.asks
  exact fun _ sound => sound.fuses.asks
end Rtl8852au.Efuse
