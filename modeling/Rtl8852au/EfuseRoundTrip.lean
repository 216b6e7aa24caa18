import Rtl8852au.EfuseCache

namespace Rtl8852au.Efuse
open Fallible Prog List Function Nat

variable {hw : HwInfo}

def BankState.burned : Nat → List UInt8 → BankState → BankState
  | _,[],b => b
  | offset,byte :: rest,b => burned (offset+1) rest {b with
      cells := update b.cells offset (b.cells offset &&& byte)
      requests := b.requests ++ [(offset,byte)]
      phyMapValid := false
      logMapValid := false}

structure Issued (lo hi : Nat) (b b' : BankState) : Prop where
  phyMap : b'.phyMap = b.phyMap
  logMap : b'.logMap = b.logMap
  efuseEnd : b'.efuseEnd = b.efuseEnd
  requests : ∃ new, b'.requests = b.requests ++ new ∧ ∀ r ∈ new, lo ≤ r.1 ∧ r.1 < hi
  flags : b'.phyMapValid = false ∧ b'.logMapValid = false

theorem setBank_setBank (s : Adapter) (bank : Bank) (one two : BankState) :
    (s.setBank bank one).setBank bank two = s.setBank bank two := by
  simp [Adapter.setBank]

theorem setBank_self (s : Adapter) (bank : Bank) : s.setBank bank (s.bank bank) = s := by simp [Adapter.setBank]

theorem issue_run (info : s.info = bank) (cellSel : s.cellSel = bank) (f : Unit → Call α) :
    (updateCurrent (fun b => {b with phyMapValid:=false,logMapValid:=false}) >>= fun _ =>
      (change fun s => s.setBank s.cellSel (burn env offset value (s.bank s.cellSel))) >>= f) s =
    f () (s.setBank bank (burn env offset value {s.bank bank with phyMapValid:=false,logMapValid:=false})) := by
  simp only [bind_run,updateCurrent,change,info]
  simp only [Adapter.setBank,cellSel,update_self,update_idem]

def BankState.issued (env : Env) (offset : Nat) (value : UInt8) (b : BankState) : BankState :=
  burn env offset value {b with phyMapValid:=false,logMapValid:=false}

theorem writeHwEfuse_issues (info : s.info = bank) (cellSel : s.cellSel = bank) :
    Triple (· = s) (writeHwEfuse env offset value)
      (fun _ s' => s' = s.setBank bank ((s.bank bank).burned offset [value]))
      (fun _ s' => s' = s.setBank bank ((s.bank bank).issued env offset value)) := by
  rintro s' rfl
  unfold writeHwEfuse
  rw [issue_run info cellSel]
  generalize issued : s'.setBank bank _ = after
  have rest : Triple (· = after)
      (require (env.writeRdy offset) .efuseWrite >>= fun _ => look >>= fun s => onlyIf s.autoCkEn
        (readHwEfuse env offset 1 >>= fun valueRead => require (valueRead 0 == value) .efuseWrite))
      (fun _ s => s = after ∧ env.writeRdy offset) (fun _ s => s = after) := by
    refine chain (require_passed fun _ here => here) fun _ => ?_
    refine chain triple_look fun _ => ?_
    refine triple_maybe fun _ => ?_
    refine chain ?_ fun _ => require_exit fun _ here => here.1
    refine chain (require_exit fun _ here => here.1) fun _ => ?_
    exact chain triple_look fun _ => triple_done
  apply rest.weaken
  · rintro _ s ⟨rfl,ready⟩
    rw [← issued]
    simp only [burn,ready,if_true,BankState.burned]
  · rintro _ s rfl
    exact issued.symm
  · rfl

theorem writeHwEfuse_burns (info : s.info = bank) (cellSel : s.cellSel = bank) :
    Triple (· = s) (writeHwEfuse env offset value)
      (fun _ s' => s' = s.setBank bank ((s.bank bank).burned offset [value]))
      (fun _ s' => ∃ b, Issued offset (offset+1) (s.bank bank) b ∧ s' = s.setBank bank b) := by
  apply (writeHwEfuse_issues info cellSel).weaken (fun _ _ here => here)
  intro _ s' here
  have issued : Issued offset (offset+1) (s.bank bank) ((s.bank bank).issued env offset value) :=
    ⟨rfl,rfl,rfl,⟨[(offset,value)],rfl,by simp⟩,rfl,rfl⟩
  exact ⟨_,issued,here⟩

theorem burned_burned {b : BankState} : (b.burned offset [byte]).burned (offset+1) rest = b.burned offset (byte :: rest) := rfl

theorem Issued.trans (one : Issued lo hi b b') (two : Issued lo hi b' b'') : Issued lo hi b b'' where
  phyMap := two.phyMap.trans one.phyMap
  logMap := two.logMap.trans one.logMap
  efuseEnd := two.efuseEnd.trans one.efuseEnd
  flags := two.flags
  requests := by
    obtain ⟨first,added,inside⟩ := one.requests
    obtain ⟨second,more,within⟩ := two.requests
    refine ⟨first ++ second,by rw [more,added,append_assoc],?_⟩
    intro r member
    rcases mem_append.mp member with old | new
    · exact inside r old
    · exact within r new

theorem Issued.widen (issued : Issued lo hi b b') (low : lo' ≤ lo) (high : hi ≤ hi') : Issued lo' hi' b b' where
  phyMap := issued.phyMap
  logMap := issued.logMap
  efuseEnd := issued.efuseEnd
  flags := issued.flags
  requests := by
    obtain ⟨new,added,inside⟩ := issued.requests
    exact ⟨new,added,fun r member => ⟨by have := (inside r member).1; omega,by have := (inside r member).2; omega⟩⟩

theorem Issued.cached (issued : Issued lo hi b b') : Cached hw bank b' :=
  ⟨fun valid => by simp [issued.flags.1] at valid,fun valid => by simp [issued.flags.2] at valid⟩

theorem burned_one : Issued offset (offset+1) b (b.burned offset [byte]) := ⟨rfl,rfl,rfl,⟨[(offset,byte)],rfl,by simp⟩,rfl,rfl⟩

theorem burned_issued {b : BankState} (filled : bytes ≠ []) : Issued offset (offset+bytes.length) b (b.burned offset bytes) := by
  induction bytes generalizing offset b with
  | nil => exact absurd rfl filled
  | cons byte rest ih =>
    have one : Issued offset (offset+1) b (b.burned offset [byte]) := burned_one
    rw [← burned_burned,length_cons]
    cases rest with
    | nil => exact one.widen (Nat.le_refl _) (by simp)
    | cons next rest =>
      have more := @ih (offset+1) (b.burned offset [byte]) (by simp)
      exact (one.widen (Nat.le_refl _) (by simp)).trans (more.widen (by omega) (by simp; omega))

theorem writeBytes_burns {s : Adapter} (info : s.info = bank) (cellSel : s.cellSel = bank) :
    Triple (· = s) (writeBytes env offset bytes)
      (fun _ s' => s' = s.setBank bank ((s.bank bank).burned offset bytes))
      (fun _ s' => ∃ b, Issued offset (offset+bytes.length) (s.bank bank) b ∧ s' = s.setBank bank b) := by
  induction bytes generalizing offset s with
  | nil =>
    apply triple_pure
    rintro s rfl
    exact (setBank_self s bank).symm
  | cons byte rest ih =>
    have head : Triple (· = s) (writeHwEfuse env offset byte)
        (fun _ s' => s' = s.setBank bank ((s.bank bank).burned offset [byte]))
        (fun _ s' => ∃ b, Issued offset (offset + (byte :: rest).length) (s.bank bank) b ∧ s' = s.setBank bank b) := by
      apply (writeHwEfuse_burns info cellSel).weaken (fun _ _ here => here)
      rintro _ _ ⟨b,issued,here⟩
      exact ⟨b,issued.widen (Nat.le_refl _) (by simp),here⟩
    apply chain head
    intro _
    have tail := @ih (offset+1) (s.setBank bank ((s.bank bank).burned offset [byte])) info cellSel
    simp only [setBank_same,setBank_setBank,burned_burned] at tail
    apply tail.weaken (fun _ _ here => here)
    rintro _ _ ⟨b,issued,here⟩
    refine ⟨b,?_,here⟩
    exact (burned_one.widen (Nat.le_refl _) (by simp)).trans (issued.widen (by omega) (by simp; omega))

theorem burned_outside {b : BankState} (out : a < offset ∨ offset + bytes.length ≤ a) :
    (b.burned offset bytes).cells a = b.cells a := by
  induction bytes generalizing offset b with
  | nil => rfl
  | cons byte rest ih =>
    rw [length_cons] at out
    rw [← burned_burned,ih (by omega)]
    have other : a ≠ offset := by omega
    simp [BankState.burned,other]

theorem burned_there {b : BankState} (blank : ∀ a, offset ≤ a → a < offset + bytes.length → b.cells a = 0xFF) :
    At (b.burned offset bytes).cells offset bytes := by
  induction bytes generalizing offset b with
  | nil => trivial
  | cons byte rest ih =>
    rw [length_cons] at blank
    rw [← burned_burned]
    refine ⟨?_,ih ?_⟩
    · rw [burned_outside (.inl (Nat.lt_succ_self _))]
      have full : (0xFF : UInt8) &&& byte = byte := by
        have all := UInt8.and_neg_one (a := byte)
        rw [UInt8.and_comm]
        exact all
      simp [BankState.burned,blank offset (Nat.le_refl _) (by omega),full]
    · intro a low high
      rw [burned_outside (by simp; omega)]
      exact blank a (by omega) (by omega)

def wordEntry (offset : Nat) (byte1 byte2 : UInt8) : Entry where
  blk := offset/8
  word i := if i = offset%8/2 then some (byte1,byte2) else none

theorem entryHeader_block (isBt : Bool) (offset : Nat) (wordEn : UInt8) :
    entryHeader isBt (8*(offset/8)) wordEn = entryHeader isBt offset wordEn := by
  have same : (8*(offset/8)) >>> 3 = offset >>> 3 := by rw [shiftRight_block,shiftRight_eq_div_pow]
  have short : 8*(offset/8) < bt1bEntrySize ↔ offset < bt1bEntrySize := by
    unfold bt1bEntrySize
    omega
  simp only [entryHeader,same,short]

theorem wordEntry_encode (isBt : Bool) : (wordEntry offset byte1 byte2).encode isBt =
    entryHeader isBt offset (((1 : UInt8) <<< UInt8.ofNat ((offset &&& 7) >>> 1)) ^^^ 0x0F) ++ [byte1,byte2] := by
  have place : (offset &&& 7) >>> 1 = offset%8/2 := by rw [shiftRight_eq_div_pow,and_two_pow_sub_one_eq_mod offset 3]
  have bound : offset%8/2 < 4 := by omega
  have block : (wordEntry offset byte1 byte2).blk = offset/8 := rfl
  rw [Entry.encode,block,entryHeader_block,place]
  unfold wordEntry
  generalize offset%8/2 = k at bound
  obtain rfl | rfl | rfl | rfl : k = 0 ∨ k = 1 ∨ k = 2 ∨ k = 3 := by omega
  all_goals rfl

theorem wordEntry_fits (inside : offset < shape.logSize) (whole : shape.logSize % 8 = 0) :
    (wordEntry offset byte1 byte2).Fits shape where
  some := ⟨offset%8/2,by omega,by simp [wordEntry]⟩
  inside := by
    show 8*(offset/8)+8 ≤ shape.logSize
    omega

theorem wordEntry_apply : (wordEntry offset byte1 byte2).applyTo .map [0,1,2,3] logMap =
    putWord .map logMap (offset - offset%2) (some (byte1,byte2)) := by
  have bound : offset%8/2 < 4 := by omega
  have place : offset - offset%2 = 8*(offset/8) + 2*(offset%8/2) := by omega
  rw [place]
  unfold wordEntry Entry.applyTo
  generalize offset%8/2 = k at bound
  match k,bound with
  | 0,_ | 1,_ | 2,_ | 3,_ => rfl

theorem wordEntry_even (even : offset%2 = 0) :
    (wordEntry offset value (logMap (offset+1))).applyTo .map [0,1,2,3] logMap = update logMap offset value := by
  rw [wordEntry_apply,even,Nat.sub_zero]
  simp only [putWord,putByte]
  exact update_eq_self_iff.mpr (by simp)

theorem wordEntry_odd (odd : offset%2 = 1) :
    (wordEntry offset (logMap (offset-1)) value).applyTo .map [0,1,2,3] logMap = update logMap offset value := by
  have back : offset - 1 + 1 = offset := by omega
  rw [wordEntry_apply,odd]
  simp only [putWord,putByte,back]
  rw [update_eq_self]

structure WriteCall where
  bank : Bank
  addr : UInt32
  val : UInt8
  env : Env

def WriteCall.call (hw : HwInfo) (c : WriteCall) : Call Unit :=
  match c.bank with
  | .wifi => macWriteLogEfuse hw c.env c.addr c.val
  | .bt => macWriteLogEfuseBt hw c.env c.addr c.val

def lastWrite (calls : List WriteCall) (bank : Bank) (offset : Nat) : UInt8 :=
  calls.foldl (fun value c => if c.bank = bank ∧ c.addr.toNat = offset then c.val else value) 0xFF

section
variable (hw : HwInfo) (bank : Bank)

def Gives (cells : Bytes) (logical : Nat → UInt8) : Prop :=
  ∃ entries, Holds (hw.shape bank) cells entries ∧
    ∀ offset < hw.logMapSize bank, applyEntries .map entries blankMap offset = logical offset

theorem shape_valid : (hw.shape bank).Valid where
  blocks := by
    have log := hw.logBlocks
    have bt := hw.btLogBlocks
    have distinct := hw.distinct
    cases bank with
    | wifi => simp [HwInfo.shape,HwInfo.logMapSize,distinct]; omega
    | bt => simp [HwInfo.shape,HwInfo.logMapSize]; omega
  start := by
    have inside := hw.secCtrlInside
    have distinct := hw.distinct
    cases bank with
    | wifi => simp [HwInfo.shape,HwInfo.logMapSize,HwInfo.phyMapSize,distinct,inside]
    | bt => simp [HwInfo.shape,HwInfo.logMapSize]

theorem shape_whole : (hw.shape bank).logSize % 16 = 0 := by
  have log := hw.logBlocks
  have bt := hw.btLogBlocks
  cases bank with
  | wifi => exact log.1
  | bt => exact bt.1
end

theorem Holds.bounded (holds : Holds (hw.shape bank) cells entries) :
    Holds (hw.shape bank) (bounded (hw.phyMapSize bank) beyond cells) entries := by
  apply holds.congr
  intro a inside
  simp only [HwInfo.shape] at inside
  simp [Efuse.bounded,inside]

theorem Holds.fresh (holds : Holds (hw.shape bank) cells entries) :
    freshParse hw bank cells cfg = .ok ⟨applyEntries cfg entries blankMap,endOf (hw.shape bank) entries⟩ :=
  holds.bounded.parses (shape_valid hw bank)

theorem Holds.write {b : BankState} (holds : Holds (hw.shape bank) b.cells entries) (fits : Entry.Fits (hw.shape bank) e)
    (room : endOf (hw.shape bank) entries + (e.encode (hw.shape bank).isBt).length ≤ hw.phyMapSize bank) :
    Holds (hw.shape bank) (b.burned (endOf (hw.shape bank) entries) (e.encode (hw.shape bank).isBt)).cells
      (entries ++ [e]) := by
  apply holds.append fits room
  · apply burned_there
    intro a low high
    exact holds.blank a low (Nat.lt_of_lt_of_le high room)
  · intro a out
    exact burned_outside out

def Logical (hw : HwInfo) (logical : Bank → Nat → UInt8) (f : Fuses) : Prop := ∀ bank, Gives hw bank (f bank).1 (logical bank)

def written (logical : Bank → Nat → UInt8) (bank : Bank) (offset : Nat) (value : UInt8) : Bank → Nat → UInt8 :=
  fun b a => if bank = b ∧ offset = a then value else logical b a

theorem written_known (known : logical bank offset = value) : written logical bank offset value = logical := by
  funext b a
  unfold written
  split
  · rename_i here
    rw [← here.1,← here.2,known]
  · rfl

theorem Ready.burned (ready : Ready hw hardware bank s) (filled : bytes ≠ [])
    (after : hardware' (fuses (s.setBank bank ((s.bank bank).burned offset bytes)))) :
    Ready hw hardware' bank (s.setBank bank ((s.bank bank).burned offset bytes)) where
  info := ready.info
  cellSel := ready.cellSel
  sound := by
    refine ⟨?_,after⟩
    intro other
    by_cases own : other = bank
    · subst own
      rw [setBank_same]
      exact (burned_issued filled).cached
    · rw [setBank_other own]
      exact ready.sound.cached other

theorem logical_burned (holds : ∀ b, Gives hw b (fuses s b).1 (logical b))
    (own : Gives hw bank (b.cells) (written logical bank offset value bank)) :
    Logical hw (written logical bank offset value) (fuses (s.setBank bank b)) := by
  intro other
  by_cases here : other = bank
  · subst here
    simp only [fuses,setBank_same]
    exact own
  · obtain ⟨entries,there,values⟩ := holds other
    simp only [fuses,setBank_other here]
    refine ⟨entries,there,?_⟩
    intro a inside
    have elsewhere : ¬ (bank = other ∧ offset = a) := fun both => here both.1.symm
    simp only [written,elsewhere,if_false]
    exact values a inside

theorem encode_filled {e : Entry} (fits : e.Fits shape) : e.encode isBt ≠ [] := by
  have two := Entry.data_length fits
  intro empty
  rw [Entry.encode,append_eq_nil_iff] at empty
  simp [empty.2] at two

theorem writeEntry_logical {e : Entry} (ready : Ready hw (Logical hw logical) bank s)
    (holds : Holds (hw.shape bank) (s.bank bank).cells entries)
    (values : ∀ a < hw.logMapSize bank, applyEntries .map entries blankMap a = logical bank a)
    (fits : e.Fits (hw.shape bank))
    (room : endOf (hw.shape bank) entries + (e.encode (hw.shape bank).isBt).length ≤ hw.phyMapSize bank)
    (change : e.applyTo .map [0,1,2,3] (applyEntries .map entries blankMap) =
      update (applyEntries .map entries blankMap) offset value) :
    Triple (· = s) (writeBytes env (endOf (hw.shape bank) entries) (e.encode (hw.shape bank).isBt))
      (fun _ => Ready hw (Logical hw (written logical bank offset value)) bank) (fun _ _ => True) := by
  apply (writeBytes_burns ready.info ready.cellSel).weaken
  · rintro _ _ rfl
    apply ready.burned (encode_filled fits)
    apply logical_burned ready.sound.fuses
    refine ⟨entries ++ [e],holds.write fits room,?_⟩
    intro a inside
    rw [applyEntries_append,change,update_apply]
    by_cases here : a = offset
    · simp [written,here]
    · have elsewhere : ¬ offset = a := fun same => here same.symm
      simp [written,here,elsewhere,values a inside]
  · exact fun _ _ _ => trivial

theorem procWriteLogEfuse_logical (inside : offset < hw.logMapSize bank) :
    Triple (Ready hw (Logical hw logical) bank) (procWriteLogEfuse hw env offset value)
      (fun _ => Ready hw (Logical hw (written logical bank offset value)) bank) (fun _ _ => True) := by
  refine chain require_keeps.success fun _ => ?_
  refine triple_at fun s ready => at_look ?_
  rw [ready.info]
  refine chain (at_use ready readMap_parsed.success) fun logMap => ?_
  refine triple_at fun s parsed => ?_
  obtain ⟨ready,_,fresh⟩ := parsed
  obtain ⟨entries,holds,values⟩ := ready.sound.fuses bank
  have known := holds.fresh.symm.trans fresh
  simp only [Except.ok.injEq,Cursor.mk.injEq] at known
  obtain ⟨rfl,endIdx⟩ := known
  have whole : hw.logMapSize bank % 16 = 0 := shape_whole hw bank
  have read : ∀ a < hw.logMapSize bank, bounded (hw.logMapSize bank) env.beyond (applyEntries .map entries blankMap) a =
      applyEntries .map entries blankMap a := by
    intro a small
    simp [bounded,small]
  apply triple_onlyIf
  · intro _
    refine at_current ?_
    rw [ready.info,← endIdx]
    refine chain (require_passed fun _ _ => trivial) fun _ => triple_at fun s' holds' => ?_
    obtain ⟨rfl,space⟩ := holds'
    simp only [Bool.not_eq_true',decide_eq_false_iff_not] at space
    have fits : ∀ byte1 byte2, (wordEntry offset byte1 byte2).Fits (hw.shape bank) :=
      fun _ _ => wordEntry_fits inside (by have := shape_whole hw bank; omega)
    have room : ∀ byte1 byte2, endOf (hw.shape bank) entries +
        ((wordEntry offset byte1 byte2).encode (hw.shape bank).isBt).length ≤ hw.phyMapSize bank := by
      intro byte1 byte2
      rw [wordEntry_encode,length_append,entryHeader_length]
      split <;> simp <;> omega
    have parity : offset &&& 1 = offset % 2 := and_two_pow_sub_one_eq_mod offset 1
    rcases mod_two_eq_zero_or_one offset with even | odd
    · rw [if_pos (by omega),read (offset+1) (by omega),← wordEntry_encode]
      exact writeEntry_logical ready holds values (fits _ _) (room _ _) (wordEntry_even even)
    · rw [if_neg (by omega),read (offset-1) (by omega),← wordEntry_encode]
      exact writeEntry_logical ready holds values (fits _ _) (room _ _) (wordEntry_odd odd)
  · rintro equal s rfl
    have held : logical bank offset = value := by
      rw [← values offset inside,← read offset inside]
      simpa using equal
    rw [written_known held]
    exact ready

theorem orIdle_success {after : α → Adapter → Prop} (inner : Triple before m after fun _ _ => True) :
    Triple before (orIdle m) after fun _ _ => True := orIdle_keeps (fun _ _ _ => trivial) inner

theorem WriteCall.writes (inside : c.addr.toNat < hw.logMapSize c.bank) :
    Triple (Sound hw (Logical hw logical)) (WriteCall.call hw c)
      (fun _ => Sound hw (Logical hw (written logical c.bank c.addr.toNat c.val))) fun _ _ => True := by
  unfold WriteCall.call
  cases bank : c.bank with
  | wifi =>
    rw [bank] at inside
    refine enter_bank (fun _ _ _ => trivial) (fun _ _ => trivial) fun _ => ?_
    refine chain require_keeps.success fun _ => ?_
    refine chain mapInit_ready.success fun _ => ?_
    refine chain mapInit_ready.success fun _ => ?_
    exact chain (orIdle_success (procWriteLogEfuse_logical inside)) fun _ => leave_sound.success
  | bt =>
    rw [bank] at inside
    refine chain require_keeps.success fun _ => ?_
    refine enter_bank (fun _ _ _ => trivial) (fun _ _ => trivial) fun _ => ?_
    refine chain mapInit_ready.success fun _ => ?_
    refine chain mapInit_ready.success fun _ => ?_
    refine chain (orIdle_success (procWriteLogEfuse_logical inside)) fun _ => ?_
    exact chain (switch_back (fun _ _ _ => trivial) fun _ _ => trivial) fun _ => leave_sound.success

theorem lastWrite_append (calls : List WriteCall) (c : WriteCall) :
    lastWrite (calls ++ [c]) = written (lastWrite calls) c.bank c.addr.toNat c.val := by
  funext bank offset
  simp only [lastWrite,foldl_append,foldl_cons,foldl_nil,written]

theorem writes_logical (inside : ∀ c ∈ calls, c.addr.toNat < hw.logMapSize c.bank) :
    Triple (Sound hw (Logical hw (lastWrite []))) (each (WriteCall.call hw) calls)
      (fun _ => Sound hw (Logical hw (lastWrite calls))) fun _ _ => True := by
  apply triple_each fun calls => Sound hw (Logical hw (lastWrite calls))
  intro done c rest split
  rw [lastWrite_append]
  exact WriteCall.writes (inside c (by simp [split]))

def Blank (hw : HwInfo) (s : Adapter) : Prop :=
  ∀ bank, (∀ a < hw.phyMapSize bank, (s.bank bank).cells a = 0xFF) ∧ Cached hw bank (s.bank bank)

theorem Blank.sound (blank : Blank hw s) : Sound hw (Logical hw (lastWrite [])) s where
  cached bank := (blank bank).2
  fuses bank := by
    refine ⟨[],?_,fun _ _ => rfl⟩
    exact {
      fits := by simp
      there := trivial
      room := (shape_valid hw bank).start
      blank := fun a _ inside => (blank bank).1 a inside }

-- Over any successful writes of logical bytes of the two banks: the parser
-- succeeds, finds what was last written everywhere, and stops right behind the
-- last entry; one more write changes its own byte only.
theorem written_log_efuse_parses (hw : HwInfo) (s s' : Adapter) (calls : List WriteCall) (blank : Blank hw s)
    (inside : ∀ c ∈ calls, c.addr.toNat < hw.logMapSize c.bank)
    (done : each (WriteCall.call hw) calls s = (.ok (),s')) (bank : Bank) :
    ∃ logMap entries, Holds (hw.shape bank) (s'.bank bank).cells entries ∧
      (∀ beyond, eepromParser (hw.shape bank) (bounded (hw.phyMapSize bank) beyond (s'.bank bank).cells) .map =
        .ok ⟨logMap,endOf (hw.shape bank) entries⟩) ∧
      (∀ offset < hw.logMapSize bank, logMap offset = lastWrite calls bank offset) ∧
      ∀ (c : WriteCall) (s'' : Adapter), c.addr.toNat < hw.logMapSize c.bank → c.call hw s' = (.ok (),s'') →
        ∃ logMap' efuseEnd, freshParse hw bank (s''.bank bank).cells .map = .ok ⟨logMap',efuseEnd⟩ ∧
          ∀ offset < hw.logMapSize bank,
            logMap' offset = if c.bank = bank ∧ c.addr.toNat = offset then c.val else logMap offset := by
  have sound := (writes_logical inside).ok blank.sound done
  obtain ⟨entries,holds,values⟩ := sound.fuses bank
  refine ⟨_,entries,holds,fun _ => holds.bounded.parses (shape_valid hw bank),values,?_⟩
  intro c s'' within ran
  have after := (WriteCall.writes within).ok sound ran
  obtain ⟨entries',holds',values'⟩ := after.fuses bank
  refine ⟨_,_,holds'.fresh,?_⟩
  intro offset bound
  rw [values' offset bound,written,values offset bound]

def coldBank : BankState where
  cells := blankMap
  requests := []
  phyMap := none
  phyMapValid := false
  logMap := none
  logMapValid := false
  efuseEnd := 0

def coldAdapter : Adapter where
  bank := fun _ => coldBank
  cellSel := .wifi
  info := .wifi
  efuse := .idle
  fwdlReady := true
  autoCkEn := false
  otpTest := false

def goodEnv : Env where
  btState := true
  selects := fun _ => true
  mapAlloc := fun _ => true
  alloc := fun _ => true
  readRdy := fun _ => true
  writeRdy := fun _ => true
  unburned := fun _ => 0
  compare := fun _ => .same
  dumpEfuseOfld := none
  efuseOfldMap := none
  fwMap := id
  procMsgReg := none
  heap := fun _ => 0
  beyond := fun _ => 0

theorem coldAdapter_blank : Blank hw coldAdapter := fun _ => ⟨fun _ _ => rfl,by simp [coldAdapter,coldBank],by simp [coldAdapter,coldBank]⟩

def rewrites : List WriteCall :=
  [⟨.wifi,0x400,0x12,goodEnv⟩,⟨.bt,0x3FF,0x34,goodEnv⟩,⟨.bt,0x7F,0x56,goodEnv⟩,⟨.wifi,0x401,0x78,goodEnv⟩,
    ⟨.wifi,0x400,0x9A,goodEnv⟩]

theorem written_log_efuse_parses_rewrites :
    ∃ s', each (WriteCall.call (mac8852aHwInfo .usb)) rewrites coldAdapter = (.ok (),s') ∧ ∃ logMap entries,
      Holds ((mac8852aHwInfo .usb).shape .wifi) (s'.bank .wifi).cells entries ∧
      freshParse (mac8852aHwInfo .usb) .wifi (s'.bank .wifi).cells .map = .ok ⟨logMap,endOf ((mac8852aHwInfo .usb).shape .wifi) entries⟩ ∧
      logMap 0x400 = 0x9A ∧ logMap 0x401 = 0x78 := by
  have ran : (each (WriteCall.call (mac8852aHwInfo .usb)) rewrites coldAdapter).1.toOption = some () := by decide +kernel
  have done := ran_of_toOption ran
  have inside : ∀ c ∈ rewrites, c.addr.toNat < (mac8852aHwInfo .usb).logMapSize c.bank := by decide
  obtain ⟨logMap,entries,holds,parses,values,_⟩ := written_log_efuse_parses _ _ _ rewrites coldAdapter_blank inside done .wifi
  refine ⟨_,done,logMap,entries,holds,parses _,?_,?_⟩
  · rw [values 0x400 (by decide)]
    decide
  · rw [values 0x401 (by decide)]
    decide
end Rtl8852au.Efuse
