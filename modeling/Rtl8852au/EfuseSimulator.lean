import Rtl8852au.EfuseProgram

namespace Rtl8852au.Efuse
open Fallible Prog Function

variable {hw : HwInfo}

theorem putBytes_outside (out : a < idx ∨ idx + bytes.length ≤ a) : putBytes idx bytes map a = map a := by
  induction bytes generalizing idx map with
  | nil => rfl
  | cons byte rest ih =>
    rw [List.length_cons] at out
    have other : a ≠ idx := by omega
    rw [putBytes,ih (by omega),update_of_ne other]

theorem putBytes_there : At (putBytes idx bytes map) idx bytes := by
  induction bytes generalizing idx map with
  | nil => trivial
  | cons byte rest ih =>
    refine ⟨?_,ih⟩
    rw [putBytes,putBytes_outside (.inl (Nat.lt_succ_self _)),update_self]

structure Simulated (hw : HwInfo) (start : Bytes) (old new : List Entry) (map : Bytes) : Prop where
  holds : Holds (hw.shape .wifi) map (old ++ new)
  below : ∀ a < endOf (hw.shape .wifi) old, map a = start a

structure Simulating (hw : HwInfo) (start : Bytes) (old new : List Entry) (s : Adapter) : Prop where
  info : s.info = .wifi
  map : ∃ map, (s.bank .wifi).phyMap = some map ∧ Simulated hw start old new map
  efuseEnd : (s.bank .wifi).efuseEnd = endOf (hw.shape .wifi) (old ++ new)

theorem Simulated.append (simulated : Simulated hw start old new map) (fits : e.Fits (hw.shape .wifi))
    (room : endOf (hw.shape .wifi) (old ++ new ++ [e]) ≤ hw.phyMapSize .wifi) : Simulated hw start old (new ++ [e])
      (putBytes (endOf (hw.shape .wifi) (old ++ new)) (e.encode (hw.shape .wifi).isBt) map) where
  holds := by
    rw [endOf_append] at room
    rw [← List.append_assoc]
    exact simulated.holds.append fits room putBytes_there fun a out => putBytes_outside out
  below a low := by
    have order : endOf (hw.shape .wifi) old ≤ endOf (hw.shape .wifi) (old ++ new) := endOf_le_append
    rw [putBytes_outside (.inl (by omega))]
    exact simulated.below a low

def appendSim (bytes : List UInt8) : Call Unit := do
  let b ← current
  let efuseMap ← deref b.phyMap
  updateCurrent fun b => {b with phyMap:=some (putBytes b.efuseEnd bytes efuseMap)}
  updateCurrent fun b => {b with efuseEnd:=b.efuseEnd + bytes.length}

theorem procPgEfuse_sim : procPgEfuse hw env info pre offset true =
    appendSim (simHeader (entryHeader (info.efuseMapSize == hw.btLogEfuseSize) offset (pre ^^^ 0x0F)) ++ pgData info pre offset) := rfl

theorem appendSim_simulating (fits : e.Fits (hw.shape .wifi))
    (room : endOf (hw.shape .wifi) (old ++ new ++ [e]) ≤ hw.phyMapSize .wifi) :
    Triple (Simulating hw start old new) (appendSim (e.encode (hw.shape .wifi).isBt))
      (fun _ => Simulating hw start old (new ++ [e])) failed := by
  refine triple_at fun s sim => at_current ?_
  obtain ⟨map,held,simulated⟩ := sim.map
  rw [sim.info]
  refine at_deref held ?_
  rintro s rfl
  simp only [bind_run,updateCurrent,change,sim.info]
  refine ⟨sim.info,⟨_,?_,simulated.append fits room⟩,?_⟩
  · simp only [Adapter.setBank,update_self,sim.info,sim.efuseEnd]
  · simp only [Adapter.setBank,update_self,sim.info,sim.efuseEnd,← List.append_assoc,endOf_append]

theorem programEfuse_simulating (wlan : (info.efuseMapSize == hw.btLogEfuseSize) = false)
    (inside : info.efuseMapSize ≤ hw.logMapSize .wifi)
    (room : endOf (hw.shape .wifi) (old ++ pgEntries info updatedMask (info.efuseMapSize/8)) ≤ hw.phyMapSize .wifi) :
    Triple (Simulating hw start old []) (programEfuse hw env info updatedMask true)
      (fun _ => Simulating hw start old (pgEntries info updatedMask (info.efuseMapSize/8))) failed := by
  have bt : (hw.shape .wifi).isBt = false := by simp [HwInfo.shape,HwInfo.logMapSize,hw.distinct]
  apply triple_each fun done => Simulating hw start old (done.filterMap (pgEntryAt info updatedMask))
  intro done blk rest split
  obtain ⟨bound,rfl⟩ := range_split split
  have next : List.range blk ++ [blk] = List.range (blk+1) := List.range_succ.symm
  rw [next]
  apply triple_onlyIf
  · intro filled
    have filled : 0 < preWordEn updatedMask blk := by simpa using filled
    have small := preWordEn_lt updatedMask blk
    have entry : pgEntryAt info updatedMask blk = some (pgEntry info (preWordEn updatedMask blk) blk) := if_pos filled
    have header : simHeader (entryHeader false (8*blk) (preWordEn updatedMask blk ^^^ 0x0F)) =
        entryHeader false (8*blk) (preWordEn updatedMask blk ^^^ 0x0F) := rfl
    have space : endOf (hw.shape .wifi) (old ++ pgEntries info updatedMask (blk+1)) ≤ hw.phyMapSize .wifi :=
      Nat.le_trans (endOf_pgEntries_mono (by omega)) room
    have grown : pgEntries info updatedMask (blk+1) = pgEntries info updatedMask blk ++ _ := pgEntries_succ
    rw [entry,Option.toList_some] at grown
    rw [grown,← List.append_assoc] at space
    unfold pgEntries at grown
    rw [procPgEfuse_sim,wlan,header,grown,← pgEntry_encode small,← bt]
    exact appendSim_simulating (pgEntry_fits small filled (by simp only [HwInfo.shape]; omega)) space
  · intro empty s simulating
    have none : pgEntryAt info updatedMask blk = none := if_neg (by simpa using empty)
    have same := programming_skip none
    unfold pgEntries at same
    rw [same]
    exact simulating

structure Env.Serves (env : Env) : Prop where
  selects : ∀ bank, env.selects bank
  mapAlloc : ∀ sel, env.mapAlloc sel
  alloc : ∀ buffer, env.alloc buffer

section
variable {failed : Stop → Adapter → Prop}

theorem require_true {before : Adapter → Prop} (holds : test = true) :
    Triple before (require test code) (fun _ => before) failed := by
  subst holds
  exact fun _ kept => kept

theorem switchEfuseBank_serves (serves : env.Serves) :
    Triple before (switchEfuseBank env .wifi) (fun _ s => s.info = .wifi) failed := by
  intro s _
  have able : canSwitch env .wifi s := by simp [canSwitch,serves.selects]
  rw [switchEfuseBank_run,able]
  rfl

theorem efuseMapInit_serves (serves : env.Serves) :
    Triple (fun s => s.info = .wifi) (efuseMapInit env sel) (fun _ s => s.info = .wifi) failed := by
  intro s info
  have able : hasMap env sel s := by cases sel <;> simp [hasMap,serves.mapAlloc]
  rw [efuseMapInit_run,able]
  exact withMap_info.trans info

theorem simParse (env : Env) (cfg : ParserCfg) (holds : Holds (hw.shape .wifi) map entries) :
    eepromParser (hw.shape .wifi) (bounded (hw.phyMapSize .wifi) env.beyond map) cfg =
      .ok ⟨applyEntries cfg entries blankMap,endOf (hw.shape .wifi) entries⟩ :=
  holds.bounded.parses (shape_valid hw .wifi)

structure Loaded (hw : HwInfo) (map : Bytes) (entries : List Entry) (s : Adapter) : Prop where
  info : s.info = .wifi
  phyMap : (s.bank .wifi).phyMap = some map
  logMap : (s.bank .wifi).logMap = some (applyEntries .map entries blankMap)

theorem load_loaded (holds : Holds (hw.shape .wifi) map entries) :
    Triple (fun s => s.info = .wifi)
      (parseInPlace hw env map >>= fun _ => updateCurrent fun b => {b with phyMap:=some map})
      (fun _ => Loaded hw map entries) failed := by
  intro s info
  simp only [parseInPlace,bind_run,look,info]
  rw [simParse env .map holds]
  simp only [updateCurrent,change,info]
  exact ⟨info,by simp [Adapter.setBank,info],by simp [Adapter.setBank,info]⟩

theorem updateEepromMask_simulating (serves : env.Serves) (sized : info.efuseMaskSize = info.efuseMapSize>>>4)
    (holds : Holds (hw.shape .wifi) map old) :
    Triple (Loaded hw map old) (updateEepromMask hw env info true)
      (fun updatedMask s => updatedMask = leftMask info old ∧ Simulating hw map old [] s) failed := by
  refine chain (require_true (serves.alloc _)) fun _ => triple_at fun s loaded => at_current ?_
  rw [loaded.info]
  refine at_deref loaded.logMap ?_
  refine chain (require_true (serves.alloc _)) fun _ => at_current ?_
  rw [loaded.info]
  refine at_deref loaded.phyMap ?_
  rintro s rfl
  simp only [parse,bind_run,look,loaded.info]
  rw [simParse env .mask holds]
  simp only [bind_run,updateCurrent,change,pure_run,within_run,if_pos (Nat.le_of_eq sized),loaded.info]
  refine ⟨rfl,loaded.info,⟨map,?_,by rw [List.append_nil]; exact holds,fun _ _ => rfl⟩,?_⟩
  · rw [setBank_same]
    exact loaded.phyMap
  · rw [setBank_same,List.append_nil]

-- The map that comes back from the simulator has a whole logical map in it.
def PgInfo.WholeMap (hw : HwInfo) (info : PgInfo) : Prop := hw.logEfuseSize ≤ info.efuseMapSize + hw.efuseVersionSize

theorem simMapSize_pg : simMapSize hw (pgMapSize hw isLimit) = pgMapSize hw isLimit := by
  unfold simMapSize pgMapSize
  cases isLimit with
  | false => simp
  | true =>
    by_cases whole : hw.limitEfuseSize hw.intf = hw.logEfuseSize
    · simp [whole]
    · simp [whole]

theorem macPgSimulator_simulates (serves : env.Serves) (size : info.efuseMapSize = pgMapSize hw isLimit)
    (sized : info.efuseMaskSize = info.efuseMapSize>>>4)
    (version : sameVersion info hw.efuseVersionSize) (holds : Holds (hw.shape .wifi) map old)
    (room : endOf (hw.shape .wifi) (old ++ pgEntries info (leftMask info old) (info.efuseMapSize/8)) ≤ hw.phyMapSize .wifi) :
    Triple (fun _ => True) (macPgSimulator hw env info.args map)
      (fun out s => info.WholeMap hw ∧ Simulated hw map old (pgEntries info (leftMask info old) (info.efuseMapSize/8)) out.1 ∧
        out.2 = applyEntries .map (old ++ pgEntries info (leftMask info old) (info.efuseMapSize/8)) blankMap ∧
        (s.bank .wifi).efuseEnd =
          endOf (hw.shape .wifi) (old ++ pgEntries info (leftMask info old) (info.efuseMapSize/8)))
      (fun e _ => e = .fault ∧ ¬info.WholeMap hw) := by
  have wlan : (info.efuseMapSize == hw.btLogEfuseSize) = false := by
    rw [size,pgMapSize_wlan]
    simp [HwInfo.shape,HwInfo.logMapSize,hw.distinct]
  have inside : info.efuseMapSize ≤ hw.logMapSize .wifi := by
    rw [size]
    exact pgMapSize_inside
  have fits : (info.efuseMapSize == simMapSize hw info.efuseMapSize) := by rw [size,simMapSize_pg,beq_self_eq_true]
  have bt : (hw.shape .wifi).isBt = false := by simp [HwInfo.shape,HwInfo.logMapSize,hw.distinct]
  refine chain (require_true fits) fun _ => ?_
  refine triple_at fun s _ => at_deref rfl (at_deref rfl ?_)
  refine chain (require_true version) fun _ => ?_
  refine chain (switchEfuseBank_serves serves) fun _ => ?_
  refine chain (efuseMapInit_serves serves) fun _ => ?_
  refine chain (efuseMapInit_serves serves) fun _ => ?_
  refine triple_seq (load_loaded holds) fun _ => ?_
  refine chain (require_true (serves.alloc _)) fun _ => ?_
  refine chain (updateEepromMask_simulating serves sized holds) fun mask => triple_at fun s simulating => ?_
  obtain ⟨rfl,simulating⟩ := simulating
  have enough : Triple (· = s) (checkEfuseEnough hw info (leftMask info old)) (fun _ s' => s' = s)
      (fun e _ => e = .fault ∧ ¬info.WholeMap hw) := by
    refine at_look (at_current ?_)
    rw [simulating.info]
    apply require_true
    rw [simulating.efuseEnd,List.append_nil]
    rw [endOf_pgEntries bt] at room
    have space : endOf (hw.shape .wifi) old + pgNum info (leftMask info old) ≤ hw.phyMapSize .wifi := room
    simp only [Bool.not_eq_true',decide_eq_false_iff_not]
    omega
  refine chain enough fun _ => at_use simulating (chain (programEfuse_simulating wlan inside room) fun _ => ?_)
  refine triple_at fun s simulating => at_current ?_
  obtain ⟨out,held,simulated⟩ := simulating.map
  rw [simulating.info]
  refine at_deref held (at_look ?_)
  rw [simulating.info]
  refine chain (within_passed fun _ _ small => ⟨rfl,small⟩) fun _ => ?_
  rintro s ⟨rfl,whole⟩
  simp only [parse,bind_run,look,simulating.info]
  rw [simParse env .map simulated.holds]
  simp only [bind_run,updateCurrent,change,pure_run,simulating.info]
  refine ⟨whole,simulated,rfl,?_⟩
  simp only [Adapter.setBank,simulating.info,update_self]
  rfl
end

inductive ProgramCall where
  | write (c : WriteCall)
  | byMap (env : Env) (info : PgInfo) (part isLimit : Bool)
  | byMapBt (env : Env) (info : PgInfo)

def ProgramCall.call (hw : HwInfo) : ProgramCall → Call Unit
  | .write c => c.call hw
  | .byMap env info part isLimit => macPgEfuseByMap hw env info.args part isLimit
  | .byMapBt env info => macPgEfuseByMapBt hw env info.args

def ProgramCall.InRange (hw : HwInfo) : ProgramCall → Prop
  | .write c => c.addr.toNat < hw.logMapSize c.bank
  | _ => True

def Formed (hw : HwInfo) (f : Fuses) : Prop := ∀ bank, ∃ entries, Holds (hw.shape bank) (f bank).1 entries

theorem Formed.appended (holds : Holds (hw.shape bank) (fuses s bank).1 old) :
    Appended hw bank (fuses s) old [] (fuses s) where
  holds := by rw [List.append_nil]; exact holds
  below _ _ := rfl
  others _ _ := rfl
  asks _ := ⟨[],by simp⟩

theorem Appended.formed (formed : Formed hw start) (appended : Appended hw bank start old new f) : Formed hw f := by
  intro other
  by_cases here : other = bank
  · subst here
    exact ⟨_,appended.holds⟩
  · rw [appended.others other here]
    exact formed other

theorem ProgramCall.forms (c : ProgramCall) (inside : c.InRange hw) :
    Triple (Sound hw (Formed hw)) (c.call hw) (fun _ => Sound hw (Formed hw)) fun _ _ => True := by
  refine triple_at fun s sound => ?_
  cases c with
  | write c =>
    have logical : Sound hw (Logical hw fun bank a =>
        applyEntries .map (Classical.choose (sound.fuses bank)) blankMap a) s :=
      ⟨sound.cached,fun bank => ⟨_,Classical.choose_spec (sound.fuses bank),fun _ _ => rfl⟩⟩
    apply (at_use logical (WriteCall.writes inside)).weaken _ fun _ _ _ => trivial
    intro _ s sound
    exact ⟨sound.cached,fun bank => ⟨_,(Classical.choose_spec (sound.fuses bank)).1⟩⟩
  | byMap env info part isLimit =>
    obtain ⟨old,holds⟩ := sound.fuses .wifi
    have start : Sound hw (Appended hw .wifi (fuses s) old []) s := ⟨sound.cached,Formed.appended holds⟩
    apply (at_use start macPgEfuseByMap_programming).weaken _ fun _ _ _ => trivial
    intro _ s' programmed
    exact ⟨programmed.2.1.sound.cached,programmed.2.1.sound.fuses.formed sound.fuses⟩
  | byMapBt env info =>
    obtain ⟨old,holds⟩ := sound.fuses .bt
    have start : Sound hw (Appended hw .bt (fuses s) old []) s := ⟨sound.cached,Formed.appended holds⟩
    apply (at_use start macPgEfuseByMapBt_appended).weaken _ fun _ _ _ => trivial
    intro _ s' programmed
    exact ⟨programmed.cached,programmed.fuses.formed sound.fuses⟩

theorem program_run_forms (inside : ∀ c ∈ calls, ProgramCall.InRange hw c) (blank : Blank hw s)
    (done : each (ProgramCall.call hw) calls s = (.ok (),s')) : Sound hw (Formed hw) s' := by
  have start : Sound hw (Formed hw) s := ⟨blank.sound.cached,fun bank => ⟨_,(Classical.choose_spec (blank.sound.fuses bank)).1⟩⟩
  have loop : Triple (Sound hw (Formed hw)) (each (ProgramCall.call hw) calls) (fun _ => Sound hw (Formed hw)) fun _ _ => True := by
    apply triple_each fun _ => Sound hw (Formed hw)
    intro done c rest split
    exact c.forms (inside c (by simp [split]))
  exact loop.ok start done

def needed (info : PgInfo) (oldMap oldMask : Bytes) (offset : Nat) : Bool :=
  selected info.efuseMask offset && !(sameWord info.efuseMap oldMap offset && oldMask offset == 0x00)

def blockSpace (needs : Nat → Bool) (blk : Nat) : Nat :=
  let words := [0,1,2,3].filter fun j => needs (8*blk+2*j)
  if words = [] then 0 else 2 + 2*words.length

def pgSpace (needs : Nat → Bool) (mapSize : Nat) : Nat := ((List.range (mapSize/8)).map (blockSpace needs)).sum

theorem leftMask_selected (sized : info.efuseMaskSize = info.efuseMapSize>>>4) (whole : info.efuseMapSize%16 = 0)
    (even : offset%2 = 0) (inside : offset < info.efuseMapSize) :
    selected (leftMask info old) offset =
      needed info (applyEntries .map old blankMap) (applyEntries .mask old blankMap) offset := by
  have size : info.efuseMapSize>>>4 = info.efuseMapSize/16 := Nat.shiftRight_eq_div_pow _ _
  have copied : copiedMask info (offset/16) = info.efuseMask (offset/16) := if_pos (by omega)
  have left : selected (leftMask info old) offset = _ := clearWords_selected even (by omega)
  rw [left,needed,selected,copied]
  rfl

theorem blockSpace_left (same : ∀ j < 4, selected mask (8*blk+2*j) = needs (8*blk+2*j)) :
    blockSpace needs blk = if 0 < preWordEn mask blk then 2 + 2*(pgWords (preWordEn mask blk)).length else 0 := by
  have small := preWordEn_lt mask blk
  have words : ([0,1,2,3].filter fun j => needs (8*blk+2*j)) = pgWords (preWordEn mask blk) := by
    apply List.filter_congr
    intro j member
    have bound : j < 4 := by simp at member; omega
    rw [preWordEn_bit mask blk bound,same j bound]
  have all : ∀ p : Fin 16, (pgWords (UInt8.ofNat p) = [] ↔ ¬ 0 < UInt8.ofNat p) := by decide
  have own := all ⟨_,small⟩
  rw [UInt8.ofNat_toNat] at own
  simp only [blockSpace,words]
  by_cases filled : 0 < preWordEn mask blk
  · rw [if_pos filled,if_neg (fun empty => own.mp empty filled)]
  · rw [if_neg filled,if_pos (own.mpr filled)]

theorem pgNumUpTo_space (same : ∀ blk < n, ∀ j < 4, selected mask (8*blk+2*j) = needs (8*blk+2*j)) :
    pgNumUpTo mask n = ((List.range n).map (blockSpace needs)).sum := by
  induction n with
  | zero => rfl
  | succ n ih =>
    rw [pgNumUpTo_succ,List.range_succ,List.map_append,List.sum_append,ih fun blk bound => same blk (by omega)]
    simp only [List.map_cons,List.map_nil,List.sum_cons,List.sum_nil,blockSpace_left (same n (by omega))]
    split <;> omega

theorem clearWords_beyond (beyond : mapSize/16 ≤ k) : clearWords drop mapSize mask k = mask k := by
  have block : ∀ (j : Nat) (words : List Nat) (mask : Bytes), k ≠ j → words.foldl (fun mask w =>
      if drop (16*j+2*w) then update mask j (mask j &&& ~~~wordBit w) else mask) mask k = mask k := by
    intro j words mask apart
    induction words generalizing mask with
    | nil => rfl
    | cons w rest ih =>
      rw [List.foldl_cons,ih]
      split
      · exact update_of_ne apart _ _
      · rfl
  have general : ∀ n ≤ k, (List.range n).foldl (fun mask j => (List.range 8).foldl (fun mask w =>
      if drop (16*j+2*w) then update mask j (mask j &&& ~~~wordBit w) else mask) mask) mask k = mask k := by
    intro n bound
    induction n with
    | zero => rfl
    | succ n ih =>
      rw [@List.range_succ n,List.foldl_append,List.foldl_cons,List.foldl_nil,block n _ _ (by omega)]
      exact ih (by omega)
  exact general _ beyond

theorem adjusted_version (sized : info.efuseMaskSize = info.efuseMapSize>>>4) :
    sameVersion (adjusted info part) verLen = sameVersion info verLen := by
  cases part with
  | false => rfl
  | true =>
    unfold sameVersion
    have behind : ∀ i, (adjustMask info).efuseMask ((info.efuseMapSize>>>4)+i) = info.efuseMask ((info.efuseMapSize>>>4)+i) := by
      intro i
      have size : info.efuseMapSize>>>4 = info.efuseMapSize/16 := Nat.shiftRight_eq_div_pow _ _
      refine (clearWords_beyond ?_).trans (if_neg ?_)
      · omega
      · omega
    simp only [adjusted,if_true]
    have map : (adjustMask info).efuseMap = info.efuseMap := rfl
    have size : (adjustMask info).efuseMapSize = info.efuseMapSize := rfl
    simp only [map,size,behind]

theorem at_unique (first : At one idx bytes) (second : At two idx bytes) (low : idx ≤ a) (high : a < idx + bytes.length) :
    one a = two a := by
  induction bytes generalizing idx with
  | nil => simp at high; omega
  | cons byte rest ih =>
    rw [List.length_cons] at high
    rcases Nat.eq_or_lt_of_le low with here | later
    · subst here
      exact first.1.trans second.1.symm
    · exact ih first.2 second.2 later (by omega)

theorem Holds.agree (first : Holds shape one entries) (second : Holds shape two entries) (low : shape.start ≤ a)
    (inside : a < shape.phySize) : one a = two a := by
  rcases Nat.lt_or_ge a (endOf shape entries) with written | blank
  · exact at_unique first.there second.there low written
  · rw [first.blank a blank inside,second.blank a blank inside]

theorem applyEntries_programmed (sized : info.efuseMaskSize = info.efuseMapSize>>>4) (whole : info.efuseMapSize%16 = 0) :
    applyEntries .map (old ++ pgEntries info (leftMask info old) (info.efuseMapSize/8)) blankMap a =
      if a < info.efuseMapSize ∧
        needed info (applyEntries .map old blankMap) (applyEntries .mask old blankMap) (8*(a/8)+2*(a%8/2)) then
        info.efuseMap a else applyEntries .map old blankMap a := by
  have split : applyEntries .map (old ++ pgEntries info (leftMask info old) (info.efuseMapSize/8)) blankMap =
      applyEntries .map (pgEntries info (leftMask info old) (info.efuseMapSize/8)) (applyEntries .map old blankMap) :=
    List.foldl_append
  rw [split,applyEntries_pgEntries]
  by_cases inside : a < info.efuseMapSize
  · have block : a/8 < info.efuseMapSize/8 := by omega
    rw [leftMask_selected sized whole (by omega) (by omega)]
    simp only [inside,block,true_and]
  · have block : ¬ a/8 < info.efuseMapSize/8 := by omega
    simp only [inside,block,false_and]

theorem programmed_word (sized : info.efuseMaskSize = info.efuseMapSize>>>4) (whole : info.efuseMapSize%16 = 0) (even : offset%2 = 0) (inside : offset < info.efuseMapSize) :
    sameWord (applyEntries .map (old ++ pgEntries info (leftMask info old) (info.efuseMapSize/8)) blankMap)
      (if selected info.efuseMask offset then info.efuseMap else applyEntries .map old blankMap) offset := by
  have place : 8*(offset/8)+2*(offset%8/2) = offset := by omega
  have next : 8*((offset+1)/8)+2*((offset+1)%8/2) = offset := by omega
  have within : offset+1 < info.efuseMapSize := by omega
  simp only [sameWord,applyEntries_programmed sized whole,place,next,inside,within,true_and,Bool.and_eq_true,beq_iff_eq]
  cases chosen : selected info.efuseMask offset with
  | false => simp [needed,chosen]
  | true =>
    cases need : needed info (applyEntries .map old blankMap) (applyEntries .mask old blankMap) offset with
    | true => simp
    | false =>
      simp only [needed,chosen,Bool.true_and,Bool.not_eq_false',Bool.and_eq_true,sameWord,beq_iff_eq] at need
      simp [need.1]

theorem programmed_simulated (appended : Appended hw .wifi start old new f) (simulated : Simulated hw phyMap old new map)
    (copies : Copies hw .wifi phyMap (start .wifi).1) : Copies hw .wifi map (f .wifi).1 := by
  intro a inside
  rcases Nat.lt_or_ge a (hw.shape .wifi).start with below | entries
  · have low : a < endOf (hw.shape .wifi) old := Nat.lt_of_lt_of_le below (Nat.le_add_right _ _)
    rw [simulated.below a low,appended.below a low,copies a inside]
  · exact simulated.holds.agree appended.holds entries inside

-- Programming by map after any successful programming from blank fuses. The
-- first part holds however the call ends. The simulator follows exactly where
-- the map it is handed has room for a whole logical one.
theorem pg_efuse_by_map_programs (hw : HwInfo) (s s1 : Adapter) (calls : List ProgramCall) (blank : Blank hw s)
    (inside : ∀ c ∈ calls, c.InRange hw) (done : each (ProgramCall.call hw) calls s = (.ok (),s1))
    (env : Env) (info : PgInfo) (part isLimit : Bool) :
    Asks hw (fuses s1) (fuses (macPgEfuseByMap hw env info.args part isLimit s1).2) ∧
    ∀ s2, macPgEfuseByMap hw env info.args part isLimit s1 = (.ok (),s2) →
      ∃ oldMap oldMask oldEnd newMap newEnd,
        freshParse hw .wifi (s1.bank .wifi).cells .map = .ok ⟨oldMap,oldEnd⟩ ∧
        freshParse hw .wifi (s1.bank .wifi).cells .mask = .ok ⟨oldMask,oldEnd⟩ ∧
        freshParse hw .wifi (s2.bank .wifi).cells .map = .ok ⟨newMap,newEnd⟩ ∧
        (∀ offset, offset%2 = 0 → offset < info.efuseMapSize →
          sameWord newMap (if selected (adjusted info part).efuseMask offset then info.efuseMap else oldMap) offset = true) ∧
        (∀ a, info.efuseMapSize ≤ a → newMap a = oldMap a) ∧
        newEnd = oldEnd + pgSpace (needed (adjusted info part) oldMap oldMask) info.efuseMapSize ∧
        (s2.bank .wifi).efuseEnd = newEnd ∧
        ∀ (env' : Env) (s' : Adapter) (phyMap : Bytes), env'.Serves → Copies hw .wifi phyMap (s1.bank .wifi).cells →
          ((∃ simMap s'', macPgSimulator hw env' (adjusted info part).args phyMap s' = (.ok (simMap,newMap),s'') ∧
            Copies hw .wifi simMap (s2.bank .wifi).cells ∧ (s''.bank .wifi).efuseEnd = newEnd) ↔
          info.WholeMap hw) := by
  have sound := program_run_forms inside blank done
  obtain ⟨old,holds⟩ := sound.fuses .wifi
  have start : Sound hw (Appended hw .wifi (fuses s1) old []) s1 := ⟨sound.cached,Formed.appended holds⟩
  have run : Triple (· = s1) (macPgEfuseByMap hw env info.args part isLimit) _ _ := at_use start macPgEfuseByMap_programming
  refine ⟨?_,?_⟩
  · have asks : Triple (· = s1) (macPgEfuseByMap hw env info.args part isLimit)
        (fun _ s => Asks hw (fuses s1) (fuses s)) fun _ s => Asks hw (fuses s1) (fuses s) :=
      run.post (fun _ _ ended => ended.2.1.sound.fuses.asks)
    exact asks.always rfl
  · intro s2 ran
    obtain ⟨⟨size,maskSize,version⟩,ready,endIdx⟩ := run.ok rfl ran
    have appended := ready.sound.fuses
    have effective : (adjusted info part).efuseMapSize = info.efuseMapSize := adjusted_size
    have map : (adjusted info part).efuseMap = info.efuseMap := by cases part <;> rfl
    have sized : (adjusted info part).efuseMaskSize = (adjusted info part).efuseMapSize>>>4 := by cases part <;> exact maskSize
    have whole : (adjusted info part).efuseMapSize%16 = 0 := by
      rw [effective,size]
      cases isLimit with
      | false => exact hw.logBlocks.1
      | true => exact (hw.limitBlocks hw.intf).1
    have bt : (hw.shape .wifi).isBt = false := by simp [HwInfo.shape,HwInfo.logMapSize,hw.distinct]
    have room : (adjusted info part).WholeMap hw ↔ info.WholeMap hw := by rw [PgInfo.WholeMap,PgInfo.WholeMap,effective]
    rw [← effective] at appended endIdx ⊢
    refine ⟨_,_,_,_,_,holds.fresh,holds.fresh,appended.holds.fresh,?_,?_,?_,endIdx,?_⟩
    · intro offset even within
      rw [← map]
      exact programmed_word sized whole even within
    · intro a beyond
      rw [applyEntries_programmed sized whole,if_neg (by omega)]
    · rw [endOf_pgEntries bt,pgSpace]
      congr 1
      refine pgNumUpTo_space fun blk bound j word => ?_
      exact leftMask_selected sized whole (by omega) (by omega)
    · intro env' s' phyMap serves copies
      have held : Holds (hw.shape .wifi) phyMap old := holds.congr fun a within => copies a within
      have version' : sameVersion (adjusted info part) hw.efuseVersionSize := (adjusted_version maskSize).trans version
      have simulates := macPgSimulator_simulates serves (effective.trans size) sized version' held appended.holds.room s' trivial
      rcases ran : macPgSimulator hw env' (adjusted info part).args phyMap s' with ⟨result,s''⟩
      rw [ran] at simulates
      cases result with
      | ok out =>
        obtain ⟨fits,simulated,log,simEnd⟩ := simulates
        refine ⟨fun _ => room.mp fits,fun _ => ⟨out.1,s'',by rw [← log],?_,simEnd⟩⟩
        exact programmed_simulated appended simulated copies
      | error e =>
        refine ⟨?_,fun fits => absurd (room.mpr fits) simulates.2⟩
        rintro ⟨simMap,s3,same,_⟩
        simp at same

def tinyHwInfo : HwInfo where
  intf := .usb
  wlEfuseSize := 64
  efuseSize := 48
  logEfuseSize := 64
  limitEfuseSize := fun _ => 48
  btEfuseSize := 32
  btLogEfuseSize := 32
  secCtrlEfuseSize := 4
  secDataEfuseSize := 8
  efuseVersionSize := 2
  distinct := by decide
  logBlocks := by decide
  btLogBlocks := by decide
  limitBlocks _ := by decide
  secCtrlInside := by decide

def tinyWrites : List ProgramCall := [.write ⟨.wifi,0x21,0x12,goodEnv⟩,.write ⟨.wifi,0x20,0x34,goodEnv⟩]

def tinyInfo : PgInfo where
  efuseMap a := if a = 0x20 then 0x34 else if a = 0x21 then 0x12 else if a = 0x28 then 0x56 else if a = 0x29 then 0x78 else 0
  efuseMapSize := 64
  efuseMask k := if k = 2 then 0x11 else 0
  efuseMaskSize := 4

theorem goodEnv_serves : goodEnv.Serves := ⟨fun _ => rfl,fun _ => rfl,fun _ => rfl⟩

theorem pg_efuse_by_map_programs_tiny :
    ∃ s1 s2, each (ProgramCall.call tinyHwInfo) tinyWrites coldAdapter = (.ok (),s1) ∧
      macPgEfuseByMap tinyHwInfo goodEnv tinyInfo.args false false s1 = (.ok (),s2) ∧
      ∃ oldMap oldMask oldEnd newMap, freshParse tinyHwInfo .wifi (s1.bank .wifi).cells .map = .ok ⟨oldMap,oldEnd⟩ ∧
        freshParse tinyHwInfo .wifi (s2.bank .wifi).cells .map =
          .ok ⟨newMap,oldEnd + pgSpace (needed (adjusted tinyInfo false) oldMap oldMask) tinyInfo.efuseMapSize⟩ ∧
        sameWord newMap tinyInfo.efuseMap 0x28 = true ∧
        ∃ simMap s'', macPgSimulator tinyHwInfo goodEnv (adjusted tinyInfo false).args (s1.bank .wifi).cells coldAdapter =
          (.ok (simMap,newMap),s'') ∧ Copies tinyHwInfo .wifi simMap (s2.bank .wifi).cells := by
  have ran : (each (ProgramCall.call tinyHwInfo) tinyWrites coldAdapter).1.toOption = some () := by decide +kernel
  have programmed : (macPgEfuseByMap tinyHwInfo goodEnv tinyInfo.args false false
      (each (ProgramCall.call tinyHwInfo) tinyWrites coldAdapter).2).1.toOption = some () := by decide +kernel
  have inside : ∀ c ∈ tinyWrites, c.InRange tinyHwInfo := by
    simp [tinyWrites,ProgramCall.InRange,tinyHwInfo,HwInfo.logMapSize]
  have done := ran_of_toOption ran
  have wrote := ran_of_toOption programmed
  generalize (each (ProgramCall.call tinyHwInfo) tinyWrites coldAdapter).2 = s1 at done wrote
  generalize (macPgEfuseByMap tinyHwInfo goodEnv tinyInfo.args false false s1).2 = s2 at wrote
  obtain ⟨_,success⟩ := pg_efuse_by_map_programs tinyHwInfo coldAdapter s1 tinyWrites coldAdapter_blank inside done goodEnv
    tinyInfo false false
  obtain ⟨oldMap,oldMask,oldEnd,newMap,newEnd,old,_,new,words,_,space,_,sim⟩ := success s2 wrote
  subst space
  obtain ⟨simMap,s'',simulated,copies,_⟩ := (sim goodEnv coldAdapter (s1.bank .wifi).cells goodEnv_serves fun _ _ => rfl).mpr
    (by simp [PgInfo.WholeMap,tinyHwInfo,tinyInfo])
  have word := words 0x28 (by decide) (by decide)
  have chosen : selected (adjusted tinyInfo false).efuseMask 0x28 := by decide
  rw [chosen,if_pos rfl] at word
  exact ⟨s1,s2,done,wrote,oldMap,oldMask,oldEnd,newMap,old,new,word,simMap,s'',simulated,copies⟩

def limitedInfo : PgInfo where
  efuseMap a := if a = 0x120 then 0x29 else if a = 0x121 then 0x81 else 0xFF
  efuseMapSize := 1152
  efuseMask k := if k = 18 then 0x10 else if k < 72 then 0x00 else 0xFF
  efuseMaskSize := 72

-- One word of a limited map is programmed into blank fuses; the simulator
-- clears 1536 bytes of a map that has 1158.
theorem pg_simulator_overruns : Blank (mac8852aHwInfo .usb) coldAdapter ∧
    (∃ s2, macPgEfuseByMap (mac8852aHwInfo .usb) goodEnv limitedInfo.args false true coldAdapter = (.ok (),s2)) ∧
    ∀ out s', macPgSimulator (mac8852aHwInfo .usb) goodEnv limitedInfo.args (coldAdapter.bank .wifi).cells coldAdapter ≠
      (.ok out,s') := by
  have programmed : (macPgEfuseByMap (mac8852aHwInfo .usb) goodEnv limitedInfo.args false true coldAdapter).1.toOption =
      some () := by decide +kernel
  have stopped : (macPgSimulator (mac8852aHwInfo .usb) goodEnv limitedInfo.args (coldAdapter.bank .wifi).cells
      coldAdapter).1.toOption.isNone := by decide +kernel
  refine ⟨coldAdapter_blank,⟨_,ran_of_toOption programmed⟩,fun out s' returned => ?_⟩
  rw [returned] at stopped
  cases stopped
end Rtl8852au.Efuse
