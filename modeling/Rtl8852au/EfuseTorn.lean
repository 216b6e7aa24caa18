import Rtl8852au.EfuseRoundTrip

namespace Rtl8852au.Efuse
open Fallible Prog Function List Nat Except

variable {hw : HwInfo}

def burnBytes (cells : Bytes) : Nat → List UInt8 → Bytes
  | _,[] => cells
  | offset,byte :: rest => burnBytes (update cells offset (cells offset &&& byte)) (offset+1) rest

theorem burned_cells {b : BankState} : (b.burned offset bytes).cells = burnBytes b.cells offset bytes := by
  induction bytes generalizing offset b with
  | nil => rfl
  | cons byte rest ih => exact ih

def Env.Cuts (env : Env) : Prop := ∀ a,env.unburned a = 0 ∨ env.unburned a = 0xFF

structure Cut (offset : Nat) (bytes : List UInt8) (b b' : BankState) : Prop where
  flags : b'.phyMapValid = false ∧ b'.logMapValid = false
  cells : ∃ j ≤ bytes.length,b'.cells = burnBytes b.cells offset (bytes.take j)

theorem issued_cut (cuts : env.Cuts) : Cut offset (value :: rest) b (b.issued env offset value) where
  flags := ⟨rfl,rfl⟩
  cells := by
    have nothing : ∀ v : UInt8,v &&& (value ||| 0xFF) = v := by
      intro v
      have full : value ||| 0xFF = (-1 : UInt8) := UInt8.or_neg_one
      rw [full]
      exact UInt8.and_neg_one
    have all : ∀ v : UInt8,v &&& (value ||| 0) = v &&& value := fun v => by rw [UInt8.or_zero]
    simp only [BankState.issued,burn]
    rcases cuts offset with done | kept
    · refine ⟨1,by simp,?_⟩
      split
      · rfl
      · rw [done,all]
        rfl
    · by_cases ready : env.writeRdy offset
      · rw [if_pos ready]
        exact ⟨1,by simp,rfl⟩
      · rw [if_neg ready,kept,nothing]
        exact ⟨0,by simp,update_eq_self offset b.cells⟩

theorem writeBytes_cut (offset : Nat) (bytes : List UInt8) {s : Adapter} (cuts : env.Cuts) (info : s.info = bank)
    (cellSel : s.cellSel = bank) :
    Triple (· = s) (writeBytes env offset bytes) (fun _ _ => True)
      (fun _ s' => ∃ b,Cut offset bytes (s.bank bank) b ∧ s' = s.setBank bank b) := by
  induction bytes generalizing offset s with
  | nil => exact triple_pure fun _ _ => trivial
  | cons byte rest ih =>
    have head : Triple (· = s) (writeHwEfuse env offset byte)
        (fun _ s' => s' = s.setBank bank ((s.bank bank).burned offset [byte]))
        (fun _ s' => ∃ b,Cut offset (byte :: rest) (s.bank bank) b ∧ s' = s.setBank bank b) := by
      apply (writeHwEfuse_issues info cellSel).weaken (fun _ _ here => here)
      intro _ s' here
      exact ⟨_,issued_cut cuts,here⟩
    apply chain head
    intro _
    have tail := @ih (offset+1) (s.setBank bank ((s.bank bank).burned offset [byte])) info cellSel
    simp only [setBank_same,setBank_setBank] at tail
    apply tail.weaken (fun _ _ _ => trivial)
    rintro _ _ ⟨b,cut,here⟩
    obtain ⟨j,inside,cells⟩ := cut.cells
    refine ⟨b,⟨cut.flags,j+1,by simpa using inside,?_⟩,here⟩
    rw [cells,burned_cells]
    rfl

def entryFor (logMap : Bytes) (offset : Nat) (value : UInt8) : Entry :=
  if offset%2 = 0 then wordEntry offset value (logMap (offset+1)) else wordEntry offset (logMap (offset-1)) value

theorem entryFor_apply : (entryFor logMap offset value).applyTo .map [0,1,2,3] logMap = update logMap offset value := by
  unfold entryFor
  split
  · rename_i even
    exact wordEntry_even even
  · rename_i odd
    exact wordEntry_odd (by omega)

theorem entryFor_fits (inside : offset < hw.logMapSize bank) : (entryFor logMap offset value).Fits (hw.shape bank) := by
  have whole : (hw.shape bank).logSize % 8 = 0 := by
    have blocks := shape_whole hw bank
    omega
  unfold entryFor
  split
  · exact wordEntry_fits inside whole
  · exact wordEntry_fits inside whole

structure Adds (hw : HwInfo) (cells : Bytes) (offset : Nat) (value : UInt8) (c : Cursor) : Prop where
  parsed : freshParse hw .wifi cells .map = .ok c
  inside : offset < hw.logEfuseSize
  needed : c.logMap offset ≠ value
  room : 4 + c.efuseIdx < hw.efuseSize

def bytesFor (c : Cursor) (offset : Nat) (value : UInt8) : List UInt8 := (entryFor c.logMap offset value).encode false

section
variable (hw : HwInfo) (cells : Bytes) (offset : Nat) (value : UInt8) (cells' : Bytes)

def Done : Prop :=
  (∃ c,freshParse hw .wifi cells .map = .ok c ∧ c.logMap offset = value ∧ cells' = cells) ∨
    ∃ c,Adds hw cells offset value c ∧ cells' = burnBytes cells c.efuseIdx (bytesFor c offset value)

def Torn : Prop :=
  cells' = cells ∨ ∃ c j,Adds hw cells offset value c ∧ j ≤ 4 ∧
    cells' = burnBytes cells c.efuseIdx ((bytesFor c offset value).take j)
end

theorem bytesFor_length : (bytesFor c offset value).length = 4 := by
  unfold bytesFor entryFor
  split
  · rw [wordEntry_encode,length_append,entryHeader_length]
    rfl
  · rw [wordEntry_encode,length_append,entryHeader_length]
    rfl

theorem Done.torn (done : Done hw cells offset value cells') : Torn hw cells offset value cells' := by
  rcases done with ⟨c,_,_,kept⟩ | ⟨c,adds,added⟩
  · exact .inl kept
  · refine .inr ⟨c,4,adds,Nat.le_refl 4,?_⟩
    rw [take_of_length_le (Nat.le_of_eq bytesFor_length)]
    exact added

def Wifi (of : Bytes → Prop) (f : Fuses) : Prop := of (f .wifi).1

theorem wifi_shape (hw : HwInfo) : (hw.shape .wifi).isBt = false := by simp [HwInfo.shape,HwInfo.logMapSize,hw.distinct]

theorem Ready.setCells (ready : Ready hw hardware .wifi s)
    (flags : b.phyMapValid = false ∧ b.logMapValid = false) (cells : of b.cells) :
    Ready hw (Wifi of) .wifi (s.setBank .wifi b) where
  info := ready.info
  cellSel := ready.cellSel
  sound := by
    refine ⟨?_,?_⟩
    · intro other
      by_cases own : other = .wifi
      · subst own
        rw [setBank_same]
        exact ⟨fun valid => by simp [flags.1] at valid,fun valid => by simp [flags.2] at valid⟩
      · rw [setBank_other own]
        exact ready.sound.cached other
    · unfold Wifi fuses
      rw [setBank_same]
      exact cells

theorem Ready.still (ready : Ready hw (Wifi (· = cells)) bank s) (kept : of cells) : Ready hw (Wifi of) bank s := by
  refine ⟨⟨ready.sound.cached,?_⟩,ready.info,ready.cellSel⟩
  have same : (fuses s .wifi).1 = cells := ready.sound.fuses
  unfold Wifi
  rw [same]
  exact kept

theorem burned_flags {b : BankState} (filled : bytes ≠ []) :
    (b.burned offset bytes).phyMapValid = false ∧ (b.burned offset bytes).logMapValid = false :=
  (burned_issued filled).flags

theorem writeBytes_done (ready : Ready hw (Wifi (· = cells)) .wifi s) (adds : Adds hw cells offset value c) :
    Triple (· = s) (writeBytes env c.efuseIdx (bytesFor c offset value))
      (fun _ => Ready hw (Wifi (Done hw cells offset value)) .wifi)
      (fun _ s' => env.Cuts → Ready hw (Wifi (Torn hw cells offset value)) .wifi s') := by
  have same : (s.bank .wifi).cells = cells := ready.sound.fuses
  have four := @bytesFor_length c offset value
  have filled : bytesFor c offset value ≠ [] := by
    intro empty
    rw [empty] at four
    cases four
  have success : Triple (· = s) (writeBytes env c.efuseIdx (bytesFor c offset value)) _ _ :=
    writeBytes_burns ready.info ready.cellSel
  intro s' here
  subst here
  have ended := success s' rfl
  rcases ran : writeBytes env c.efuseIdx (bytesFor c offset value) s' with ⟨result,after⟩
  rw [ran] at ended
  cases result with
  | ok u =>
    dsimp only at ended ⊢
    rw [ended]
    apply ready.setCells (burned_flags filled)
    rw [burned_cells,same]
    exact .inr ⟨c,adds,rfl⟩
  | error e =>
    intro cuts
    have torn := writeBytes_cut c.efuseIdx (bytesFor c offset value) cuts ready.info ready.cellSel s' rfl
    rw [ran] at torn
    obtain ⟨b,cut,rfl⟩ := torn
    obtain ⟨j,inside,left⟩ := cut.cells
    apply ready.setCells cut.flags
    rw [left,same]
    exact .inr ⟨c,j,adds,by omega,rfl⟩

theorem read_inside {size : Nat} (inside : a < size) : bounded size beyond logMap a = logMap a := by
  unfold bounded
  rw [if_pos inside]

theorem procWriteLogEfuse_done (hw : HwInfo) (cells : Bytes) (env : Env) (value : UInt8) (inside : offset < hw.logEfuseSize) :
    Triple (Ready hw (Wifi (· = cells)) .wifi) (procWriteLogEfuse hw env offset value)
      (fun _ => Ready hw (Wifi (Done hw cells offset value)) .wifi)
      (fun _ s' => env.Cuts → Ready hw (Wifi (Torn hw cells offset value)) .wifi s') := by
  have unchanged : ∀ s',Ready hw (Wifi (· = cells)) .wifi s' → env.Cuts → Ready hw (Wifi (Torn hw cells offset value)) .wifi s' :=
    fun s' ready _ => ready.still (.inl rfl)
  refine chain (require_exit unchanged) fun _ => ?_
  refine triple_at fun s ready => at_look ?_
  rw [ready.info]
  have parsed : Triple (Ready hw (Wifi (· = cells)) .wifi) (readLogEfuseMap hw env) _ _ :=
    triple_exit readMap_parsed unchanged
  refine chain (at_use ready parsed) fun logMap => ?_
  refine triple_at fun s parsed => ?_
  obtain ⟨ready,_,fresh⟩ := parsed
  have same : (s.bank .wifi).cells = cells := ready.sound.fuses
  rw [same] at fresh
  have whole : hw.logEfuseSize % 16 = 0 := hw.logBlocks.1
  apply triple_onlyIf
  · intro differs
    have needed : logMap offset ≠ value := by
      have read : bounded hw.logEfuseSize env.beyond logMap offset = logMap offset := read_inside inside
      simp only [HwInfo.logMapSize,read] at differs
      simpa using differs
    refine at_current ?_
    rw [ready.info]
    refine chain (require_passed fun s' here => ?_) fun _ => triple_at fun s' holds => ?_
    · subst here
      exact unchanged s' ready
    · obtain ⟨rfl,space⟩ := holds
      simp only [Bool.not_eq_true',decide_eq_false_iff_not] at space
      have room : 4 + (s'.bank .wifi).efuseEnd < hw.efuseSize := Nat.lt_of_not_le space
      have adds : Adds hw cells offset value ⟨logMap,(s'.bank .wifi).efuseEnd⟩ := ⟨fresh,inside,needed,room⟩
      have bytes : entryHeader (hw.logMapSize .wifi == hw.btLogEfuseSize) offset
          (((1 : UInt8) <<< UInt8.ofNat ((offset &&& 7) >>> 1)) ^^^ 0x0F) ++
          (if offset &&& 1 = 0 then [value,bounded (hw.logMapSize .wifi) env.beyond logMap (offset+1)]
            else [bounded (hw.logMapSize .wifi) env.beyond logMap (offset-1),value]) =
          bytesFor ⟨logMap,(s'.bank .wifi).efuseEnd⟩ offset value := by
        have wlan : (hw.logMapSize .wifi == hw.btLogEfuseSize) = false := wifi_shape hw
        have parity : offset &&& 1 = offset % 2 := and_two_pow_sub_one_eq_mod offset 1
        unfold bytesFor entryFor
        rw [wlan,parity]
        split
        · have next : offset + 1 < hw.logMapSize .wifi := by
            show offset + 1 < hw.logEfuseSize
            omega
          rw [wordEntry_encode,read_inside next]
        · have before : offset - 1 < hw.logMapSize .wifi := by
            show offset - 1 < hw.logEfuseSize
            omega
          rw [wordEntry_encode,read_inside before]
      rw [bytes]
      exact writeBytes_done ready adds
  · intro equal s' here
    subst here
    have held : logMap offset = value := by
      have read : bounded hw.logEfuseSize env.beyond logMap offset = logMap offset := read_inside inside
      simp only [HwInfo.logMapSize,read] at equal
      simpa using equal
    exact ready.still (.inl ⟨_,fresh,held,rfl⟩)

theorem macWriteLogEfuse_done (hw : HwInfo) (cells : Bytes) (env : Env) (addr : UInt32) (value : UInt8) :
    Triple (Sound hw (Wifi (· = cells))) (macWriteLogEfuse hw env addr value)
      (fun _ => Sound hw (Wifi (Done hw cells addr.toNat value)))
      (fun _ s' => env.Cuts → Sound hw (Wifi (Torn hw cells addr.toNat value)) s') := by
  have unchanged : ∀ s',Sound hw (Wifi (· = cells)) s' → env.Cuts → Sound hw (Wifi (Torn hw cells addr.toNat value)) s' := by
    intro s' sound _
    have same : (fuses s' .wifi).1 = cells := sound.fuses
    exact ⟨sound.cached,.inl same⟩
  have blind : ∀ s' efuse,(env.Cuts → Sound hw (Wifi (Torn hw cells addr.toNat value)) s') →
      env.Cuts → Sound hw (Wifi (Torn hw cells addr.toNat value)) {s' with efuse} :=
    fun s' efuse torn cuts => sound_blind s' efuse (torn cuts)
  refine enter_bank blind unchanged fun _ => ?_
  have ready : ∀ s',Ready hw (Wifi (· = cells)) .wifi s' → env.Cuts → Sound hw (Wifi (Torn hw cells addr.toNat value)) s' :=
    fun s' ready => unchanged s' ready.sound
  refine chain (require_passed ready) fun _ => triple_at fun s holds => ?_
  obtain ⟨start,within⟩ := holds
  have inside : addr.toNat < hw.logEfuseSize := of_decide_eq_true within
  refine at_use start ?_
  refine chain (triple_exit mapInit_ready ready) fun _ => ?_
  refine chain (triple_exit mapInit_ready ready) fun _ => ?_
  have inner := orIdle_keeps blind ((procWriteLogEfuse_done hw cells env value inside).weaken (fun _ _ here => here) fun _ s' torn cuts => (torn cuts).sound)
  refine chain inner fun _ => ?_
  apply leave_sound.weaken (fun _ _ here => here)
  intro _ s' done _
  exact ⟨done.cached,done.fuses.torn⟩

theorem burnBytes_outside (out : a < offset ∨ offset + bytes.length ≤ a) : burnBytes cells offset bytes a = cells a := by
  induction bytes generalizing offset cells with
  | nil => rfl
  | cons byte rest ih =>
    rw [length_cons] at out
    have other : a ≠ offset := by omega
    have step := @ih (offset+1) (update cells offset (cells offset &&& byte)) (by omega)
    rw [burnBytes,step]
    exact update_of_ne other _ _

theorem burnBytes_there (cells : Bytes) (offset : Nat) (bytes : List UInt8)
    (blank : ∀ a,offset ≤ a → a < offset + bytes.length → cells a = 0xFF) :
    At (burnBytes cells offset bytes) offset bytes := by
  have there := burned_there (b := {coldBank with cells:=cells}) blank
  rw [burned_cells] at there
  exact there

theorem Holds.cut (holds : Holds (hw.shape .wifi) cells entries) (inside : offset < hw.logEfuseSize)
    (room : endOf (hw.shape .wifi) entries+4 < hw.efuseSize) (there : At other (endOf (hw.shape .wifi) entries)
      (entryHeader false offset (((1 : UInt8) <<< UInt8.ofNat ((offset &&& 7) >>> 1)) ^^^ 0x0F)))
    (same : ∀ a,a < endOf (hw.shape .wifi) entries ∨ endOf (hw.shape .wifi) entries+4 ≤ a → other a = cells a) :
    ∃ byte1 byte2,Holds (hw.shape .wifi) other (entries ++ [wordEntry offset byte1 byte2]) := by
  refine ⟨other (endOf (hw.shape .wifi) entries+2),other (endOf (hw.shape .wifi) entries+3),?_⟩
  have whole : (hw.shape .wifi).logSize % 8 = 0 := by
    have blocks := shape_whole hw .wifi
    omega
  have code : (wordEntry offset (other (endOf (hw.shape .wifi) entries+2)) (other (endOf (hw.shape .wifi) entries+3))).encode
      (hw.shape .wifi).isBt = entryHeader false offset (((1 : UInt8) <<< UInt8.ofNat ((offset &&& 7) >>> 1)) ^^^ 0x0F) ++
        [other (endOf (hw.shape .wifi) entries+2),other (endOf (hw.shape .wifi) entries+3)] := by
    rw [wordEntry_encode,wifi_shape]
  have header : (entryHeader false offset (((1 : UInt8) <<< UInt8.ofNat ((offset &&& 7) >>> 1)) ^^^ 0x0F)).length = 2 := by
    rw [entryHeader_length]
    rfl
  have size : (entryHeader false offset (((1 : UInt8) <<< UInt8.ofNat ((offset &&& 7) >>> 1)) ^^^ 0x0F) ++
      [other (endOf (hw.shape .wifi) entries+2),other (endOf (hw.shape .wifi) entries+3)]).length = 4 := by
    rw [length_append,header]
    rfl
  apply holds.append (wordEntry_fits inside whole)
  · rw [code,size]
    exact Nat.le_of_lt room
  · rw [code,at_append,header]
    exact ⟨there,rfl,rfl,trivial⟩
  · rw [code,size]
    exact same

def Keeps (offset : Nat) (entries entries' : List Entry) : Prop :=
  ∀ a,a/2 ≠ offset/2 → applyEntries .map entries' blankMap a = applyEntries .map entries blankMap a

theorem keeps_word : Keeps offset entries (entries ++ [wordEntry offset byte1 byte2]) := by
  intro a other
  rw [applyEntries_append,wordEntry_apply]
  have first : a ≠ offset - offset%2 := by omega
  have second : a ≠ offset - offset%2 + 1 := by omega
  simp only [putWord,putByte]
  rw [update_of_ne second,update_of_ne first]

structure Dangles (hw : HwInfo) (entries : List Entry) (cells : Bytes) : Prop where
  inside : endOf (hw.shape .wifi) entries < hw.efuseSize
  first : cells (endOf (hw.shape .wifi) entries) ≠ 0xFF
  second : cells (endOf (hw.shape .wifi) entries+1) = 0xFF

theorem Holds.not_dangles (holds : Holds (hw.shape .wifi) cells entries) : ¬ Dangles hw entries cells := by
  intro dangles
  exact dangles.first (holds.blank _ (Nat.le_refl _) dangles.inside)

theorem header_bytes (offset : Nat) (small : offset < 2048) : ∃ hdr hdr2,
    entryHeader false offset (((1 : UInt8) <<< UInt8.ofNat ((offset &&& 7) >>> 1)) ^^^ 0x0F) = [hdr,hdr2] ∧
      hdr = UInt8.ofNat (offset/128) ||| 0x30 ∧ hdr ≠ 0xFF ∧ hdr2 ≠ 0xFF ∧ hdr2 &&& 0x0F ≠ 0x0F := by
  have nibble : ∀ blk : Fin 256,(UInt8.ofNat blk &&& 0xF0) >>> 4 = UInt8.ofNat (blk.val/16) := by decide +kernel
  have high : ∀ a : Fin 16,UInt8.ofNat a ||| 0x30 ≠ 0xFF := by decide
  have low : ∀ (x : Fin 256) (i : Fin 4),let hdr2 := ((UInt8.ofNat x &&& 0x0F) <<< 4) + (((1 : UInt8) <<< UInt8.ofNat i) ^^^ 0x0F)
      hdr2 ≠ 0xFF ∧ hdr2 &&& 0x0F ≠ 0x0F := by decide +kernel
  have place : (offset &&& 7) >>> 1 = offset%8/2 := by rw [shiftRight_eq_div_pow,and_two_pow_sub_one_eq_mod offset 3]
  have blk : offset >>> 3 = offset/8 := shiftRight_eq_div_pow offset 3
  rw [place]
  refine ⟨_,_,rfl,?_⟩
  rw [blk]
  have hdr := nibble ⟨offset/8,by omega⟩
  have deep : offset/8/16 = offset/128 := by omega
  rw [deep] at hdr
  rw [hdr]
  exact ⟨rfl,high ⟨offset/128,by omega⟩,low ⟨offset/8,by omega⟩ ⟨offset%8/2,by omega⟩⟩

theorem bytesFor_header (c : Cursor) (offset : Nat) (value : UInt8) : ∃ byte1 byte2,bytesFor c offset value =
    entryHeader false offset (((1 : UInt8) <<< UInt8.ofNat ((offset &&& 7) >>> 1)) ^^^ 0x0F) ++ [byte1,byte2] := by
  unfold bytesFor entryFor
  split
  · exact ⟨_,_,wordEntry_encode false⟩
  · exact ⟨_,_,wordEntry_encode false⟩

structure Stub (hw : HwInfo) (cells : Bytes) (entries : List Entry) (offset : Nat) (cells' : Bytes) : Prop where
  inside : offset < hw.logEfuseSize
  room : endOf (hw.shape .wifi) entries+4 < hw.efuseSize
  hdr : cells' (endOf (hw.shape .wifi) entries) = UInt8.ofNat (offset/128) ||| 0x30
  same : ∀ a,a ≠ endOf (hw.shape .wifi) entries → cells' a = cells a

theorem torn_cases (holds : Holds (hw.shape .wifi) cells entries) (torn : Torn hw cells offset value cells') :
    (¬ Dangles hw entries cells' ∧ ∃ entries',Holds (hw.shape .wifi) cells' entries' ∧ Keeps offset entries entries') ∨
      (Dangles hw entries cells' ∧ Stub hw cells entries offset cells') := by
  rcases torn with rfl | ⟨c,j,adds,bound,rfl⟩
  · exact .inl ⟨holds.not_dangles,entries,holds,fun _ _ => rfl⟩
  · have known := holds.fresh.symm.trans adds.parsed
    simp only [ok.injEq] at known
    subst known
    have inside := adds.inside
    have room := adds.room
    dsimp only at room ⊢
    have small : offset < 2048 := Nat.lt_of_lt_of_le inside hw.logBlocks.2
    have blank : ∀ a,endOf (hw.shape .wifi) entries ≤ a → a < endOf (hw.shape .wifi) entries+4 → cells a = 0xFF := by
      intro a low high
      refine holds.blank a low ?_
      show a < hw.efuseSize
      omega
    obtain ⟨byte1,byte2,split⟩ := bytesFor_header ⟨applyEntries .map entries blankMap,endOf (hw.shape .wifi) entries⟩ offset value
    obtain ⟨hdr,hdr2,header,high,first,second,_⟩ := header_bytes offset small
    rw [split,header]
    match j,bound with
    | 0,_ => exact .inl ⟨holds.not_dangles,entries,holds,fun _ _ => rfl⟩
    | 1,_ =>
      have there : burnBytes cells (endOf (hw.shape .wifi) entries) [hdr] (endOf (hw.shape .wifi) entries) = hdr :=
        (burnBytes_there cells _ [hdr] fun a low high => blank a low (by rw [length_singleton] at high; omega)).1
      have same : ∀ a,a ≠ endOf (hw.shape .wifi) entries → burnBytes cells (endOf (hw.shape .wifi) entries) [hdr] a = cells a := by
        intro a other
        exact update_of_ne other _ _
      have beyond := same (endOf (hw.shape .wifi) entries+1) (by omega)
      rw [blank _ (by omega) (by omega)] at beyond
      exact .inr ⟨⟨by omega,by show burnBytes _ _ [hdr] _ ≠ _; rw [there]; exact first,beyond⟩,
        ⟨inside,by omega,there.trans high,same⟩⟩
    | k+2,bound =>
      have size : (take k [byte1,byte2]).length ≤ 2 := length_take_le' k [byte1,byte2]
      have cut : take (k+2) ([hdr,hdr2] ++ [byte1,byte2]) = [hdr,hdr2] ++ take k [byte1,byte2] := rfl
      have there := burnBytes_there cells (endOf (hw.shape .wifi) entries) ([hdr,hdr2] ++ take k [byte1,byte2]) fun a low high => blank a low (by
          rw [length_append] at high
          simp only [length_cons,length_nil] at high
          omega)
      rw [cut]
      rw [at_append] at there
      have header2 : At (burnBytes cells (endOf (hw.shape .wifi) entries) ([hdr,hdr2] ++ take k [byte1,byte2]))
          (endOf (hw.shape .wifi) entries)
          (entryHeader false offset (((1 : UInt8) <<< UInt8.ofNat ((offset &&& 7) >>> 1)) ^^^ 0x0F)) := by
        rw [header]
        exact there.1
      have same : ∀ a,a < endOf (hw.shape .wifi) entries ∨ endOf (hw.shape .wifi) entries+4 ≤ a →
          burnBytes cells (endOf (hw.shape .wifi) entries) ([hdr,hdr2] ++ take k [byte1,byte2]) a = cells a := by
        intro a out
        apply burnBytes_outside
        rw [length_append]
        simp only [length_cons,length_nil]
        omega
      obtain ⟨one,two,cutHolds⟩ := holds.cut inside (by omega) header2 same
      refine .inl ⟨?_,_,cutHolds,keeps_word⟩
      intro dangles
      exact second (there.1.2.1.symm.trans dangles.second)

theorem Done.holds (holds : Holds (hw.shape .wifi) cells entries) (done : Done hw cells offset value cells') :
    ∃ entries',Holds (hw.shape .wifi) cells' entries' ∧
      applyEntries .map entries' blankMap = update (applyEntries .map entries blankMap) offset value := by
  rcases done with ⟨c,parsed,held,rfl⟩ | ⟨c,adds,rfl⟩
  · have known := holds.fresh.symm.trans parsed
    simp only [ok.injEq] at known
    subst known
    refine ⟨entries,holds,?_⟩
    exact (update_eq_self_iff.mpr held.symm).symm
  · have known := holds.fresh.symm.trans adds.parsed
    simp only [ok.injEq] at known
    subst known
    have room := adds.room
    have four := @bytesFor_length ⟨applyEntries .map entries blankMap,endOf (hw.shape .wifi) entries⟩ offset value
    refine ⟨entries ++ [entryFor (applyEntries .map entries blankMap) offset value],?_,?_⟩
    · have code : (entryFor (applyEntries .map entries blankMap) offset value).encode (hw.shape .wifi).isBt =
          bytesFor ⟨applyEntries .map entries blankMap,endOf (hw.shape .wifi) entries⟩ offset value := by
        rw [wifi_shape]
        rfl
      dsimp only at room ⊢
      have phy : (hw.shape .wifi).phySize = hw.efuseSize := rfl
      apply holds.append (entryFor_fits adds.inside)
      · rw [code,four,phy]
        omega
      · rw [code]
        apply burnBytes_there
        intro a low high
        rw [four] at high
        exact holds.blank a low (by omega)
      · rw [code]
        exact fun a out => burnBytes_outside out
    · rw [applyEntries_append,entryFor_apply]

theorem coldAdapter_holds : Holds ((mac8852aHwInfo .usb).shape .wifi) (coldAdapter.bank .wifi).cells [] := by
  constructor
  · nofun
  · exact trivial
  · exact (shape_valid (mac8852aHwInfo .usb) .wifi).start
  · exact fun _ _ _ => rfl
end Rtl8852au.Efuse
