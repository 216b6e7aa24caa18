import Rtl8852au.CmdOfld

namespace Rtl8852au.CmdOfld
open BitField Function List BitVec

structure What where
  src : BitVec 32
  type : BitVec 32
  path : BitVec 32
  offset : BitVec 32
  name : BitVec 32
  value : BitVec 32
  mask : BitVec 32

def RtwMacCmd.what (cmd : RtwMacCmd) : What :=
  ⟨cmd.src.word,cmd.type.word,cmd.rfPath.word,cmd.offset.zeroExtend 32,cmd.name.zeroExtend 32,cmd.value,cmd.mask⟩

section
variable (r : FwcmdCmdOfld)

def FwcmdCmdOfld.what : What :=
  ⟨getField r.dword0 Fwcmd.src,getField r.dword0 Fwcmd.type,getField r.dword0 Fwcmd.path,getField r.dword0 Fwcmd.offset,
    getField r.dword1 Fwcmd.name,getField r.dword2 Fwcmd.value,getField r.dword3 Fwcmd.mask⟩

def FwcmdCmdOfld.num : BitVec 32 := getField r.dword0 Fwcmd.cmdNum
def FwcmdCmdOfld.lc : Bool := getField r.dword0 Fwcmd.lc = 1

structure Batch (b : List FwcmdCmdOfld) : Prop where
  numbered : b.map FwcmdCmdOfld.num = (range b.length).map (BitVec.ofNat 32)
  closed : b.map FwcmdCmdOfld.lc = replicate (b.length-1) false ++ [true]

structure Batched (o : Ofld) : Prop where
  inOrder : (o.sent.flatten ++ o.info.payload).map FwcmdCmdOfld.what = o.taken.map RtwMacCmd.what
  batches : ∀ b ∈ o.sent, Batch b
  -- No record in the buffer has the LC bit, and none is there whose command has the flag.
  waiting : ∀ r ∈ o.info.payload, r.lc = false
  flushed : ∀ cmd ∈ o.taken.drop o.sent.flatten.length, cmd.lc = 0
  sized : ∀ mem, o.info.buf = some mem →
    o.info.usedSize + o.info.avlBufSize = cmdOfldMaxLen ∧ o.info.bufSize = cmdOfldMaxLen ∧ o.info.bufWptr = o.info.usedSize
  inside : o.reach ≤ cmdOfldMaxLen

structure Answered (before : Ofld) (cmd : RtwMacCmd) (after : Ofld) (ret : MacRet) : Prop where
  written : ret = .success → after.taken = before.taken ++ [cmd]
  leftOut : ret ≠ .success → after.taken = before.taken ∨
    cmd.lc ≠ 0 ∧ after.taken = before.taken ++ [cmd] ∧ after.info.buf = none

theorem lcBit (set : Prop) [Decidable set] : (if set then fwcmdLc else 0) = setWord (if set then 1 else 0) Fwcmd.lc := by
  split <;> rfl

theorem fwcmdLc_field : fwcmdLc = setWord 1 Fwcmd.lc := rfl

theorem src_word (src : Src) : src.word &&& 3 = src.word := by cases src <;> rfl
theorem type_word (type : CmdType) : type.word &&& 3 = type.word := by cases type <;> rfl
theorem path_word (path : RfPath) : path.word &&& 3 = path.word := by cases path <;> rfl

theorem word16 (v : BitVec 16) : v.zeroExtend 32 &&& 0xffff = v.zeroExtend 32 := by
  apply eq_of_toNat_eq
  rw [toNat_and,show (0xffff : BitVec 32).toNat = 2 ^ 16 - 1 from rfl,Nat.and_two_pow_sub_one_eq_mod]
  have small := v.isLt
  rw [toNat_setWidth]
  omega

theorem word32 (v : BitVec 32) : v &&& 0xffffffff = v := and_allOnes

theorem num_word (small : i < 125) : BitVec.ofNat 32 i &&& 0x7f = BitVec.ofNat 32 i := by
  apply eq_of_toNat_eq
  rw [toNat_and,show (0x7f : BitVec 32).toNat = 2 ^ 7 - 1 from rfl,Nat.and_two_pow_sub_one_eq_mod]
  rw [toNat_ofNat]
  omega

theorem record_what (cmd : RtwMacCmd) (cmdNum : BitVec 32) : (cmd.record cmdNum).what = cmd.what := by
  unfold FwcmdCmdOfld.what RtwMacCmd.what RtwMacCmd.record
  simp (disch := decide) only [lcBit,getField_or,getField_setWord,getField_apart,or_zero,zero_or]
  simp only [Fwcmd.src,Fwcmd.type,Fwcmd.path,Fwcmd.offset,Fwcmd.name,Fwcmd.value,Fwcmd.mask,
    src_word,type_word,path_word,word16,word32]

theorem record_num (cmd : RtwMacCmd) (small : i < 125) : (cmd.record (BitVec.ofNat 32 i)).num = BitVec.ofNat 32 i := by
  unfold FwcmdCmdOfld.num RtwMacCmd.record
  simp (disch := decide) only [lcBit,getField_or,getField_setWord,getField_apart,or_zero,zero_or]
  exact num_word small

theorem record_lc (cmd : RtwMacCmd) (cmdNum : BitVec 32) : (cmd.record cmdNum).lc = decide (cmd.lc ≠ 0) := by
  unfold FwcmdCmdOfld.lc RtwMacCmd.record
  simp (disch := decide) only [lcBit,getField_or,getField_setWord,getField_apart,or_zero,zero_or]
  by_cases last : cmd.lc = 0#8
  · simp [last]
  · simp [last,Fwcmd.lc]

theorem patch_what : r.patch.what = r.what := by
  unfold FwcmdCmdOfld.what FwcmdCmdOfld.patch
  simp (disch := decide) only [fwcmdLc_field,getField_or,getField_apart,or_zero]

theorem patch_num : r.patch.num = r.num := by
  unfold FwcmdCmdOfld.num FwcmdCmdOfld.patch
  simp (disch := decide) only [fwcmdLc_field,getField_or,getField_apart,or_zero]

theorem patch_lc : r.patch.lc := by
  unfold FwcmdCmdOfld.lc FwcmdCmdOfld.patch
  rw [getField_or,fwcmdLc_field,getField_setWord _ (by decide),decide_eq_true_eq]
  unfold getField
  apply eq_of_getLsbD_eq
  intro i bound
  cases i with
  | zero => simp [Fwcmd.lc]
  | succ i => simp [Fwcmd.lc]
end

structure Loaded (info : CmdOfldInfo) (mem : Nat → FwcmdCmdOfld) (wait : List RtwMacCmd) (ended : Bool) : Prop where
  alive : info.buf = some mem
  few : wait.length*cmdOfldSize ≤ cmdOfldMaxLen
  whole : info.bufSize = cmdOfldMaxLen
  wptr : info.bufWptr = wait.length*cmdOfldSize
  last : info.lastWptr = if wait.length = 0 then none else some ((wait.length-1) * cmdOfldSize)
  avl : info.avlBufSize = cmdOfldMaxLen - wait.length*cmdOfldSize
  used : info.usedSize = wait.length*cmdOfldSize
  num : info.cmdNum = wait.length
  what : ∀ i (h : i < wait.length), (mem (i*cmdOfldSize)).what = wait[i].what
  nums : ∀ i < wait.length, (mem (i*cmdOfldSize)).num = BitVec.ofNat 32 i
  lcs : ∀ i < wait.length, (mem (i*cmdOfldSize)).lc = (ended && i + 1 == wait.length)

theorem Loaded.fresh (junk : Nat → FwcmdCmdOfld) : Loaded (.fresh junk) junk [] false :=
  ⟨rfl,Nat.zero_le _,rfl,rfl,rfl,rfl,rfl,rfl,
    fun i none_in => absurd none_in (Nat.not_lt_zero i),fun i none_in => absurd none_in (Nat.not_lt_zero i),
    fun i none_in => absurd none_in (Nat.not_lt_zero i)⟩

theorem Loaded.write {info : CmdOfldInfo} (loaded : Loaded info mem wait false)
    (room : cmdOfldSize ≤ info.avlBufSize) (cmd : RtwMacCmd) :
    Loaded (info.write mem cmd) (update mem info.bufWptr (cmd.record (BitVec.ofNat 32 info.cmdNum)))
      (wait ++ [cmd]) (decide (cmd.lc ≠ 0)) := by
  obtain ⟨alive,few,whole,wptr,last,avl,used,num,what,nums,lcs⟩ := loaded
  have more : wait.length < 125 := by
    rw [avl] at room
    dsimp only [cmdOfldSize,cmdOfldMaxLen] at *
    omega
  have old : ∀ i < wait.length, 
      update mem info.bufWptr (cmd.record (BitVec.ofNat 32 info.cmdNum)) (i*cmdOfldSize) = mem (i*cmdOfldSize) := by
    intro i before
    apply update_of_ne
    rw [wptr]
    dsimp only [cmdOfldSize]
    omega
  have new : update mem info.bufWptr (cmd.record (BitVec.ofNat 32 info.cmdNum)) (wait.length*cmdOfldSize) =
      cmd.record (BitVec.ofNat 32 wait.length) := by
    rw [← wptr,update_self,num]
  refine ⟨rfl,?_,whole,?_,?_,?_,?_,?_,?_,?_,?_⟩
  · simp only [length_append,length_singleton,cmdOfldSize,cmdOfldMaxLen]
    omega
  · simp only [CmdOfldInfo.write,length_append,length_singleton,wptr,cmdOfldSize]
    omega
  · simp [CmdOfldInfo.write,wptr]
  · simp only [CmdOfldInfo.write,length_append,length_singleton,avl,u16Sub,cmdOfldSize,cmdOfldMaxLen]
    omega
  · simp only [CmdOfldInfo.write,length_append,length_singleton,used,u16Add,cmdOfldSize]
    omega
  · simp only [CmdOfldInfo.write,length_append,length_singleton,num]
    omega
  · intro i inside
    simp only [length_append,length_singleton] at inside
    by_cases here : i = wait.length
    · subst here
      rw [new,record_what]
      simp
    · have before : i < wait.length := by omega
      rw [old i before,what i before,getElem_append_left before]
  · intro i inside
    simp only [length_append,length_singleton] at inside
    by_cases here : i = wait.length
    · subst here
      rw [new]
      exact record_num cmd more
    · have before : i < wait.length := by omega
      rw [old i before]
      exact nums i before
  · intro i inside
    simp only [length_append,length_singleton] at inside ⊢
    by_cases here : i = wait.length
    · subst here
      rw [new,record_lc]
      simp
    · have before : i < wait.length := by omega
      rw [old i before,lcs i before]
      simp [here]

theorem Loaded.close {info : CmdOfldInfo} (loaded : Loaded info mem wait false) (some_in : 0 < wait.length) :
    Loaded (info.close mem ((wait.length-1) * cmdOfldSize))
      (update mem ((wait.length-1) * cmdOfldSize) (mem ((wait.length-1) * cmdOfldSize)).patch) wait true := by
  obtain ⟨alive,few,whole,wptr,last,avl,used,num,what,nums,lcs⟩ := loaded
  have old : ∀ i, i+1 < wait.length →
      update mem ((wait.length-1) * cmdOfldSize) (mem ((wait.length-1) * cmdOfldSize)).patch (i*cmdOfldSize) =
        mem (i*cmdOfldSize) := by
    intro i before
    apply update_of_ne
    dsimp only [cmdOfldSize]
    omega
  refine ⟨rfl,few,whole,wptr,last,avl,used,num,?_,?_,?_⟩
  · intro i inside
    by_cases here : i + 1 = wait.length
    · have index : i = wait.length - 1 := by omega
      subst index
      rw [update_self,patch_what]
      exact what _ inside
    · rw [old i (by omega)]
      exact what i inside
  · intro i inside
    by_cases here : i + 1 = wait.length
    · have index : i = wait.length - 1 := by omega
      subst index
      rw [update_self,patch_num]
      exact nums _ inside
    · rw [old i (by omega)]
      exact nums i inside
  · intro i inside
    by_cases here : i + 1 = wait.length
    · have index : i = wait.length - 1 := by omega
      subst index
      rw [update_self,patch_lc]
      simp [here]
    · rw [old i (by omega),lcs i inside]
      simp [here]

theorem range_last (n : Nat) : (range (n+1)).map (fun i => i+1 == n+1) = replicate n false ++ [true] := by
  rw [range_succ,map_append]
  congr 1
  · rw [eq_replicate_iff]
    refine ⟨by simp,?_⟩
    intro flag member
    obtain ⟨i,below,rfl⟩ := mem_map.mp member
    have small := mem_range.mp below
    simp only [beq_eq_false_iff_ne,ne_eq,Nat.add_right_cancel_iff]
    omega
  · simp

theorem Loaded.payload {info : CmdOfldInfo} {ended : Bool} (loaded : Loaded info mem wait ended) :
    info.payload = (range wait.length).map (fun i => mem (i*cmdOfldSize)) := by
  unfold CmdOfldInfo.payload
  rw [loaded.alive,loaded.used]
  simp

theorem Loaded.payload_what {info : CmdOfldInfo} {ended : Bool}
    (loaded : Loaded info mem wait ended) : info.payload.map FwcmdCmdOfld.what = wait.map RtwMacCmd.what := by
  rw [loaded.payload]
  apply ext_getElem
  · simp
  · intro i one two
    simp only [length_map,length_range] at one
    simpa using loaded.what i one

theorem Loaded.batch {info : CmdOfldInfo}
    (loaded : Loaded info mem wait true) (some_in : 0 < wait.length) : Batch info.payload := by
  rw [loaded.payload]
  refine ⟨?_,?_⟩
  · rw [map_map,length_map,length_range]
    apply map_congr_left
    intro i below
    exact loaded.nums i (mem_range.mp below)
  · rw [map_map,length_map,length_range]
    obtain ⟨n,count⟩ := Nat.exists_eq_add_of_le' some_in
    have lcs : (range wait.length).map (FwcmdCmdOfld.lc ∘ fun i => mem (i*cmdOfldSize)) =
        (range wait.length).map (fun i => i+1 == wait.length) := by
      apply map_congr_left
      intro i below
      simpa using loaded.lcs i (mem_range.mp below)
    rw [lcs,count]
    exact range_last n
end Rtl8852au.CmdOfld
