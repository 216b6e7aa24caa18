import Rtl8852au.EfuseSimulator
import Rtl8852au.Machine

namespace Rtl8852au.Efuse
open Fallible Prog Machine Option

variable {hw : HwInfo}

def anyFuses : Fuses → Prop := fun _ => True
abbrev Coherent (hw : HwInfo) : Adapter → Prop := Sound hw anyFuses
abbrev Selected (hw : HwInfo) : Bank → Adapter → Prop := Ready hw anyFuses

theorem Selected.issued (ready : Selected hw bank s) (issued : Issued lo hi (s.bank bank) b) :
    Selected hw bank (s.setBank bank b) where
  info := ready.info
  cellSel := ready.cellSel
  sound := by
    refine ⟨fun other => ?_,trivial⟩
    by_cases own : other = bank
    · subst own
      rw [setBank_same]
      exact issued.cached
    · rw [setBank_other own]
      exact ready.sound.cached other

theorem writeBytes_selected (filled : bytes ≠ []) : Triple (Selected hw bank) (writeBytes env offset bytes)
    (fun _ s => Selected hw bank s ∧ (s.bank bank).logMapValid = false) (fun _ => Selected hw bank) := by
  refine triple_at fun s ready => ?_
  apply (writeBytes_burns ready.info ready.cellSel).weaken
  · rintro _ _ rfl
    have issued : Issued offset (offset+bytes.length) _ ((s.bank bank).burned offset bytes) := burned_issued filled
    refine ⟨ready.issued issued,?_⟩
    rw [setBank_same]
    exact issued.flags.2
  · rintro _ _ ⟨b,issued,rfl⟩
    exact ready.issued issued

theorem writeHwEfuse_selected : Stays (Selected hw bank) (writeHwEfuse env offset value) := by
  refine triple_at fun s ready => ?_
  apply (writeHwEfuse_burns ready.info ready.cellSel).weaken
  · rintro _ _ rfl
    exact ready.issued burned_one
  · rintro _ _ ⟨b,issued,rfl⟩
    exact ready.issued issued

theorem entryHeader_filled : entryHeader isBt offset wordEn ++ bytes ≠ [] := by
  have length := entryHeader_length isBt offset wordEn
  intro empty
  rw [(List.append_eq_nil_iff.mp empty).1] at length
  split at length <;> simp at length

theorem procWriteLogEfuse_selected : Stays (Selected hw bank) (procWriteLogEfuse hw env offset value) := by
  refine chain require_keeps fun _ => chain triple_look fun s => ?_
  refine chain readMap_parsed fun logMap => ?_
  refine triple_onlyIf (fun _ => ?_) fun _ _ parsed => parsed.1
  refine triple_at fun s parsed => at_current (at_use parsed.1 ?_)
  refine chain require_keeps fun _ => ?_
  exact (writeBytes_selected entryHeader_filled).post (fun _ _ ready => ready.1)

theorem appendReal_selected (filled : bytes ≠ []) : Stays (Selected hw bank) (appendReal env bytes) := by
  refine triple_at fun s ready => at_current (at_use ready ?_)
  refine chain (writeBytes_selected filled) fun _ => triple_change fun s holds => ?_
  obtain ⟨ready,invalid⟩ := holds
  rw [ready.info]
  exact ready.setBank ((ready.sound.cached bank).moveEnd invalid) rfl rfl

theorem programEfuse_selected : Stays (Selected hw bank) (programEfuse hw env info updatedMask false) := by
  apply triple_each fun _ => Selected hw bank
  intro done blk rest _
  refine triple_maybe fun _ => ?_
  rw [procPgEfuse_real]
  exact appendReal_selected entryHeader_filled

theorem updateEepromMask_selected : Stays (Selected hw bank) (updateEepromMask hw env info false) := by
  refine chain require_keeps fun _ => ?_
  refine triple_at fun s ready => at_current (at_use ready ?_)
  refine chain readMap_parsed fun map => ?_
  refine chain (require_exit fun _ parsed => parsed.1) fun _ => ?_
  refine triple_at fun s parsed => at_use ⟨parsed.1,parsed.2.1⟩ (with_phyMap fun phyMap => ?_)
  refine chain parse_parsed fun maskMap => chain (within_exit fun _ parsed => parsed.1) fun _ => ?_
  exact triple_pure fun s parsed => parsed.1

theorem procPgEfuseByMap_selected : Stays (Selected hw bank) (procPgEfuseByMap hw env info) := by
  refine chain require_keeps fun _ => chain updateEepromMask_selected fun mask => ?_
  refine chain ?_ fun _ => programEfuse_selected
  refine triple_at fun s ready => at_look (at_current (at_use ready require_keeps))

-- Steps of an operation on a selected bank; what they exit with is coherent.
section
variable {m : Call α}

section
variable (inner : Triple (Selected hw bank) m after fun _ => Selected hw bank)
include inner

theorem step_selected :
    Triple (Selected hw bank) m after fun _ => Coherent hw := triple_exit inner fun _ ready => ready.sound

theorem idle_selected :
    Triple (Selected hw bank) (orIdle m) after fun _ => Coherent hw := orIdle_keeps sound_blind (step_selected inner)
end

theorem enter_selected (rest : ∀ u, Triple (Selected hw bank) (f u) after fun _ => Coherent hw) : Triple (Coherent hw)
      (efuseProcCk >>= fun _ => cnvEfuseState state >>= fun _ => orIdle (switchEfuseBank env bank) >>= f)
      after fun _ => Coherent hw := enter_bank sound_blind (fun _ sound => sound) rest
end

theorem maps_selected (rest : ∀ u, Triple (Selected hw bank) (f u) after fun _ => Coherent hw) :
    Triple (Selected hw bank) (efuseMapInit env one >>= fun _ => efuseMapInit env two >>= f) after fun _ => Coherent hw :=
  chain (step_selected mapInit_ready) fun _ => chain (step_selected mapInit_ready) rest

theorem back_selected : Triple (Selected hw bank) (orIdle (switchEfuseBank env .wifi)) (fun _ => Selected hw .wifi)
    fun _ => Coherent hw := switch_back sound_blind fun _ sound => sound

theorem leave_with {value : α} : Triple (Selected hw bank) (cnvEfuseState .idle >>= fun _ => pure value)
    (fun _ => Coherent hw) fun _ => Coherent hw :=
  chain leave_sound fun _ => triple_done

theorem checkRead_keeps : Stays inv (checkRead cfg) := chain triple_look fun _ => require_keeps

theorem current_keeps : Stays inv current := chain triple_look fun _ => triple_done

theorem derefs_keeps : Stays inv (deref p) := deref_keeps fun _ _ holds _ => holds

theorem queryPhyMap_keeps : Stays inv (queryPhyMap hw) :=
  chain triple_look fun _ => chain current_keeps fun _ => chain derefs_keeps fun _ => triple_done

theorem queryLogMap_keeps : Stays inv (queryLogMap hw isLimit) :=
  chain triple_look fun _ => chain current_keeps fun _ => chain derefs_keeps fun _ => triple_done

theorem procDumpEfuse_selected (reads : env.FwReads hw) : Stays (Selected hw bank) (procDumpEfuse hw env cfg) :=
  (procDumpEfuse_ready reads).post (fun _ _ ready => ready.1)

theorem macDumpEfuseMapWl_coherent (reads : env.FwReads hw) :
    Stays (Coherent hw) (macDumpEfuseMapWl hw env cfg) := by
  refine chain checkRead_keeps fun _ => enter_selected fun _ => ?_
  refine chain (step_selected mapInit_ready) fun _ => ?_
  refine chain (idle_selected (procDumpEfuse_selected reads)) fun _ => ?_
  exact chain (step_selected queryPhyMap_keeps) fun _ => leave_with

theorem macDumpEfuseMapBt_coherent (reads : env.FwReads hw) :
    Stays (Coherent hw) (macDumpEfuseMapBt hw env cfg) := by
  refine chain checkRead_keeps fun _ => enter_selected fun _ => ?_
  refine chain (step_selected mapInit_ready) fun _ => ?_
  refine chain (idle_selected (procDumpEfuse_selected reads)) fun _ => ?_
  refine chain (step_selected queryPhyMap_keeps) fun _ => ?_
  exact chain back_selected fun _ => leave_with

theorem maybe_back : Triple (Selected hw bank) (onlyIf test (orIdle (switchEfuseBank env .wifi))) (fun _ => Coherent hw)
    fun _ => Coherent hw := by
  refine triple_onlyIf (fun _ => ?_) fun _ _ ready => ready.sound
  exact back_selected.post (fun _ _ ready => ready.sound)

theorem macWriteEfuse_coherent : Stays (Coherent hw) (macWriteEfuse hw env addr val bank) := by
  refine chain triple_look fun _ => chain require_keeps fun _ => enter_selected fun _ => ?_
  refine chain (idle_selected writeHwEfuse_selected) fun _ => ?_
  exact chain maybe_back fun _ => cnv_keeps sound_blind

theorem readHwEfuse_keeps : Stays inv (readHwEfuse env offset size) :=
  chain require_keeps fun _ => chain triple_look fun _ => triple_done

theorem macReadEfuse_coherent : Stays (Coherent hw) (macReadEfuse hw env addr size bank) := by
  refine chain triple_look fun _ => chain require_keeps fun _ => enter_selected fun _ => ?_
  refine chain (idle_selected readHwEfuse_keeps) fun _ => ?_
  refine chain maybe_back fun _ => ?_
  exact chain (cnv_keeps sound_blind) fun _ => triple_done

theorem fillLogMap_map (reads : env.FwReads hw) : Triple (Selected hw bank) (fillLogMap hw env .map cfg)
    (fun _ => Selected hw bank) fun _ => Coherent hw := by
  refine triple_at fun s ready => at_current (at_use ready ?_)
  refine triple_maybe fun _ => ?_
  refine chain (orIdle_keeps sound_blind (triple_exit (procDumpEfuse_ready reads) fun _ ready => ready.sound)) fun _ => ?_
  refine triple_at fun s holds => at_current ?_
  obtain ⟨ready,valid⟩ := holds
  rw [ready.info]
  refine triple_onlyIf (fun _ => ?_) fun _ _ here => here ▸ ready
  obtain ⟨phyMap,held,copies⟩ := (ready.sound.cached bank).phy valid
  have copy : HasCopy hw anyFuses bank phyMap s ∧ (s.bank bank).phyMapValid := ⟨⟨ready,copies⟩,valid⟩
  refine chain (orIdle_keeps sound_blind (require_exit fun _ here => here ▸ ready.sound)) fun _ => at_deref held ?_
  refine at_use copy (chain (orIdle_keeps sound_blind (triple_exit parse_parsed fun _ ready => ready.sound)) fun map => ?_)
  exact storeLogMap_ready.weaken (fun _ _ parsed => parsed.1) fun _ _ ready => ready.sound

def Flags (bank : Bank) (known : Bool → Bool → Prop) (s : Adapter) : Prop :=
  known (s.bank bank).phyMapValid (s.bank bank).logMapValid

abbrev LogValid (bank : Bank) : Adapter → Prop := Flags bank fun _ logMapValid => logMapValid

theorem switchEfuseBank_keeps (blind : ∀ s cellSel info, inv s → inv {s with cellSel,info}) :
    Stays inv (switchEfuseBank env bank) := by
  intro s holds
  rw [switchEfuseBank_run]
  cases canSwitch env bank s with
  | false => exact holds
  | true => exact blind s bank bank holds

theorem efuseMapInit_flags : Stays (Flags bank known) (efuseMapInit env sel) := by
  intro s flags
  rw [efuseMapInit_run]
  cases hasMap env sel s with
  | false => exact flags
  | true =>
    simp only [Flags,if_true,(withMap_flags env sel s bank).1,(withMap_flags env sel s bank).2]
    exact flags

theorem fillLogMap_valid : Triple (fun s => Selected hw bank s ∧ LogValid bank s) (fillLogMap hw env parserCfg cfg)
    (fun _ => Selected hw bank) fun _ => Coherent hw := by
  refine triple_at fun s holds => at_current ?_
  obtain ⟨ready,valid⟩ := holds
  rw [ready.info]
  refine triple_onlyIf (fun invalid => ?_) fun _ _ here => here ▸ ready
  simp only [LogValid,Flags] at valid
  simp [valid] at invalid

section
variable {m : Call α}

theorem step_flags (inner : Triple before m (fun _ => before') fun _ => Coherent hw)
    (kept : Stays (Flags bank known) m) :
    Triple (fun s => before s ∧ Flags bank known s) m (fun _ s => before' s ∧ Flags bank known s) fun _ => Coherent hw :=
  (triple_and inner kept).weaken (fun _ _ holds => holds) fun _ _ holds => holds.1
end

theorem enter_valid (rest : ∀ u, Triple (fun s => Selected hw bank s ∧ LogValid bank s) (f u) after fun _ => Coherent hw) :
    Triple (fun s => Coherent hw s ∧ LogValid bank s)
      (efuseProcCk >>= fun _ => cnvEfuseState state >>= fun _ => orIdle (switchEfuseBank env bank) >>= f)
      after fun _ => Coherent hw := by
  have blind : ∀ (s : Adapter) efuse, LogValid bank s → LogValid bank {s with efuse} := fun _ _ valid => valid
  refine chain (efuseProcCk_exit fun _ holds => holds.1) fun _ => ?_
  refine chain (step_flags (cnv_keeps sound_blind) (cnv_keeps blind)) fun _ => ?_
  refine chain (step_flags ?_ ?_) rest
  · exact orIdle_keeps sound_blind switchEfuseBank_sound
  · exact orIdle_keeps blind (switchEfuseBank_keeps fun _ _ _ valid => valid)

theorem macDumpLogEfuse_coherent (reads : env.FwReads hw) :
    Triple (Coherent hw) (macDumpLogEfuse hw env .map cfg isLimit) (fun _ => Selected hw .wifi) fun _ => Coherent hw := by
  refine chain checkRead_keeps fun _ => enter_selected fun _ => ?_
  refine maps_selected fun _ => ?_
  refine chain (fillLogMap_map reads) fun _ => chain (step_selected queryLogMap_keeps) fun _ => ?_
  refine chain (step_selected (cnv_keeps ready_blind)) fun _ => triple_done

theorem macDumpLogEfuse_valid : Triple (fun s => Coherent hw s ∧ LogValid .wifi s)
    (macDumpLogEfuse hw env parserCfg cfg isLimit) (fun _ => Coherent hw) fun _ => Coherent hw := by
  refine chain (chain triple_look fun _ => require_exit fun _ holds => holds.1) fun _ => enter_valid fun _ => ?_
  refine chain (step_flags (step_selected mapInit_ready) efuseMapInit_flags) fun _ => ?_
  refine chain (step_flags (step_selected mapInit_ready) efuseMapInit_flags) fun _ => ?_
  refine chain fillLogMap_valid fun _ => chain (step_selected queryLogMap_keeps) fun _ => leave_with

theorem macDumpLogEfuseBt_coherent (reads : env.FwReads hw) :
    Stays (Coherent hw) (macDumpLogEfuseBt hw env .map cfg) := by
  refine chain checkRead_keeps fun _ => enter_selected fun _ => ?_
  refine maps_selected fun _ => ?_
  refine chain (fillLogMap_map reads) fun _ => chain (step_selected queryLogMap_keeps) fun _ => ?_
  exact chain back_selected fun _ => leave_with

theorem macDumpLogEfuseBt_valid : Triple (fun s => Coherent hw s ∧ LogValid .bt s)
    (macDumpLogEfuseBt hw env parserCfg cfg) (fun _ => Coherent hw) fun _ => Coherent hw := by
  refine chain (chain triple_look fun _ => require_exit fun _ holds => holds.1) fun _ => enter_valid fun _ => ?_
  refine chain (step_flags (step_selected mapInit_ready) efuseMapInit_flags) fun _ => ?_
  refine chain (step_flags (step_selected mapInit_ready) efuseMapInit_flags) fun _ => ?_
  refine chain fillLogMap_valid fun _ => chain (step_selected queryLogMap_keeps) fun _ => ?_
  exact chain back_selected fun _ => leave_with

theorem copyChecked_keeps : Stays inv (copyChecked map addr size efuseSize) :=
  triple_ite (fun _ => triple_done) fun _ => triple_fail fun _ holds => holds

theorem readLogEfuseMap_selected : Stays (Selected hw bank) (readLogEfuseMap hw env) :=
  readMap_parsed.post (fun _ _ parsed => parsed.1)

theorem macReadLogEfuse_coherent : Stays (Coherent hw) (macReadLogEfuse hw env addr size) := by
  refine enter_selected fun _ => chain (step_selected require_keeps) fun _ => ?_
  refine maps_selected fun _ => ?_
  refine chain (idle_selected require_keeps) fun _ => chain (idle_selected readLogEfuseMap_selected) fun _ => ?_
  exact chain (step_selected copyChecked_keeps) fun _ => leave_with

theorem macReadLogEfuseBt_coherent : Stays (Coherent hw) (macReadLogEfuseBt hw env addr size) := by
  refine chain require_keeps fun _ => enter_selected fun _ => ?_
  refine maps_selected fun _ => ?_
  refine chain (idle_selected require_keeps) fun _ => chain (idle_selected readLogEfuseMap_selected) fun _ => ?_
  exact chain (step_selected copyChecked_keeps) fun _ => chain back_selected fun _ => leave_with

theorem macWriteLogEfuse_coherent : Stays (Coherent hw) (macWriteLogEfuse hw env addr val) := by
  refine enter_selected fun _ => chain (step_selected require_keeps) fun _ => ?_
  refine maps_selected fun _ => ?_
  exact chain (idle_selected procWriteLogEfuse_selected) fun _ => leave_sound

theorem macWriteLogEfuseBt_coherent : Stays (Coherent hw) (macWriteLogEfuseBt hw env addr val) := by
  refine chain require_keeps fun _ => enter_selected fun _ => ?_
  refine maps_selected fun _ => ?_
  exact chain (idle_selected procWriteLogEfuse_selected) fun _ => chain back_selected fun _ => leave_sound

theorem checkPgArgs_keeps : Stays inv (checkPgArgs args mapSize) := by
  refine chain require_keeps fun _ => chain require_keeps fun _ => chain require_keeps fun _ => ?_
  rcases args with ⟨map,mapSize,mask,maskSize⟩
  cases map with
  | none => exact triple_fail fun _ holds => holds
  | some map =>
    cases mask with
    | none => exact triple_fail fun _ holds => holds
    | some mask => exact triple_done

theorem macPgEfuseByMap_coherent : Stays (Coherent hw) (macPgEfuseByMap hw env args part isLimit) := by
  refine chain checkPgArgs_keeps fun _ => chain require_keeps fun _ => enter_selected fun _ => ?_
  refine maps_selected fun _ => ?_
  exact chain (idle_selected procPgEfuseByMap_selected) fun _ => leave_sound

theorem macPgEfuseByMapBt_coherent : Stays (Coherent hw) (macPgEfuseByMapBt hw env args) := by
  refine chain checkPgArgs_keeps fun _ => enter_selected fun _ => ?_
  exact chain (idle_selected procPgEfuseByMap_selected) fun _ => chain back_selected fun _ => leave_sound

theorem macPgSecDataByMap_coherent : Stays (Coherent hw) (macPgSecDataByMap hw env args) := by
  refine chain require_keeps fun _ => ?_
  cases args.efuseMap with
  | none => exact triple_fail fun _ holds => holds
  | some mapPg =>
    have loop : Triple (Selected hw .wifi) (each (fun i => orIdle (writeHwEfuse env (macAddrSize + i + hw.efuseSize)
        (mapPg (macAddrSize+i)))) (List.range (hw.secDataEfuseSize-macAddrSize))) (fun _ => Selected hw .wifi)
        fun _ => Coherent hw := by
      apply triple_each fun _ => Selected hw .wifi
      exact fun _ _ _ _ => idle_selected writeHwEfuse_selected
    exact enter_selected fun _ => chain loop fun _ => leave_sound

theorem cmpSecData_keeps (blind : ∀ s efuse, inv s → inv {s with efuse}) :
    Stays inv (cmpSecData env startAddr indices mapPg) := by
  induction indices generalizing mapPg with
  | nil => exact triple_done
  | cons k rest ih =>
    unfold cmpSecData
    dsimp only
    cases env.compare (2*k+startAddr) with
    | same => exact ih
    | different => exact ih
    | timeout => exact chain (cnv_keeps blind) fun _ => ih

theorem macCmpSecDataByMap_coherent : Stays (Coherent hw) (macCmpSecDataByMap hw env args) := by
  refine chain require_keeps fun _ => ?_
  cases args.efuseMap with
  | none => exact triple_fail fun _ holds => holds
  | some mapPg => exact enter_selected fun _ => chain (step_selected (cmpSecData_keeps ready_blind)) fun _ => leave_with

theorem macReadHiddenRpt_coherent : Stays (Coherent hw) (macReadHiddenRpt env) := by
  refine enter_selected fun _ => chain (step_selected mapInit_ready) fun _ => ?_
  exact chain (idle_selected answered_keeps) fun _ => leave_sound

theorem setCheckSumVal_selected : Stays (Selected hw bank) (setCheckSumVal hw env map value) := by
  have entry : ∀ {offset start byte1 byte2}, Stays (Selected hw bank) (writeBytes env start (chksumEntry offset byte1 byte2)) :=
    (writeBytes_selected entryHeader_filled).post (fun _ _ holds => holds.1)
  refine chain triple_look fun _ => chain current_keeps fun _ => chain require_keeps fun _ => ?_
  exact chain entry fun _ => chain require_keeps fun _ => entry

theorem macChecksumUpdate_coherent (reads : env.FwReads hw) : Stays (Coherent hw) (macChecksumUpdate hw env) := by
  refine chain require_keeps fun _ => chain (macDumpLogEfuse_coherent reads) fun map => ?_
  refine chain triple_look fun s => chain (step_selected derefs_keeps) fun logMap => ?_
  exact setCheckSumVal_selected.weaken (fun _ _ ready => ready.sound) fun _ _ ready => ready.sound

theorem macChecksumRpt_coherent : Stays (Coherent hw) (macChecksumRpt hw first second) := by
  refine chain require_keeps fun _ => chain macReadLogEfuse_coherent fun _ => chain require_keeps fun _ => ?_
  refine chain require_keeps fun _ => chain macReadLogEfuse_coherent fun _ => chain triple_look fun _ => ?_
  exact chain derefs_keeps fun _ => chain require_keeps fun _ => triple_done

section
variable (hw : HwInfo)

def simStarts (env : Env) (args : PgArgs) (s : Adapter) : Option PgInfo :=
  match args.efuseMap,args.efuseMask with
  | some efuseMap,some efuseMask =>
    let info : PgInfo := {efuseMap,efuseMapSize:=args.efuseMapSize,efuseMask,efuseMaskSize:=args.efuseMaskSize}
    if args.efuseMapSize == simMapSize hw args.efuseMapSize && sameVersion info hw.efuseVersionSize && canSwitch env .wifi s &&
      hasMap env (.phy .wifi) s && hasMap env (.log .wifi) s then some info else none
  | _,_ => none

def simBlock (info : PgInfo) (updatedMask : Bytes) (at_ : Bytes × Nat) (blk : Nat) : Bytes × Nat :=
  let pre := preWordEn updatedMask blk
  if 0 < pre then
    let bytes := simHeader (entryHeader (info.efuseMapSize == hw.btLogEfuseSize) (8*blk) (pre ^^^ 0x0F)) ++ pgData info pre (8*blk)
    (putBytes at_.2 bytes at_.1,at_.2+bytes.length)
  else at_

def simProgram (info : PgInfo) (updatedMask : Bytes) (start : Bytes × Nat) : Bytes × Nat :=
  (List.range (info.efuseMapSize/8)).foldl (simBlock hw info updatedMask) start

def simParses (env : Env) (map : Bytes) (cfg : ParserCfg) : Option Cursor :=
  (eepromParser (hw.shape .wifi) (bounded (hw.phyMapSize .wifi) env.beyond map) cfg).toOption

def simEnds (env : Env) (info : PgInfo) (phyMap : Bytes) : Bool :=
  match simParses hw env phyMap .map,simParses hw env phyMap .mask with
  | some value,some mask =>
    let updatedMask := clearWords (fun offset => sameWord info.efuseMap value.logMap offset && mask.logMap offset == 0x00)
      info.efuseMapSize (copiedMask info)
    env.alloc .updatedMask && env.alloc .map && env.alloc .maskMap &&
      info.efuseMaskSize ≤ info.efuseMapSize>>>4 &&
      hw.logEfuseSize ≤ info.efuseMapSize + hw.efuseVersionSize &&
      pgNum info updatedMask + mask.efuseIdx ≤ hw.phyMapSize .wifi &&
      (simParses hw env (simProgram hw info updatedMask (phyMap,mask.efuseIdx)).1 .map).isSome
  | _,_ => false
end

structure SimAt (hw : HwInfo) (map : Bytes) (efuseEnd : Nat) (s : Adapter) : Prop where
  info : s.info = .wifi
  others : ∀ bank, bank ≠ .wifi → Cached hw bank (s.bank bank)
  phyMap : (s.bank .wifi).phyMap = some map
  efuseEnd : (s.bank .wifi).efuseEnd = efuseEnd

theorem others_setBank {s : Adapter} (others : ∀ bank, bank ≠ .wifi → Cached hw bank (s.bank bank)) :
    ∀ bank, bank ≠ .wifi → Cached hw bank ((s.setBank .wifi b).bank bank) := by
  intro bank apart
  rw [setBank_other apart]
  exact others bank apart

theorem appendSim_at : Triple (SimAt hw map efuseEnd) (appendSim bytes)
    (fun _ => SimAt hw (putBytes efuseEnd bytes map) (efuseEnd+bytes.length)) failed := by
  refine triple_at fun s sim => at_current ?_
  rw [sim.info]
  refine at_deref sim.phyMap ?_
  rintro s rfl
  simp only [bind_run,updateCurrent,change,sim.info]
  refine ⟨sim.info,?_,?_,?_⟩
  · have info : (s.setBank .wifi {s.bank .wifi with
        phyMap := some (putBytes (s.bank .wifi).efuseEnd bytes map)}).info = .wifi := sim.info
    rw [info]
    exact others_setBank (others_setBank sim.others)
  · simp only [Adapter.setBank,Function.update_self,sim.info,sim.efuseEnd]
  · simp only [Adapter.setBank,Function.update_self,sim.info,sim.efuseEnd]

theorem programEfuse_at (start : Bytes × Nat) : Triple (SimAt hw start.1 start.2) (programEfuse hw env info updatedMask true)
    (fun _ => SimAt hw (simProgram hw info updatedMask start).1 (simProgram hw info updatedMask start).2) failed := by
  apply triple_each fun done => SimAt hw (done.foldl (simBlock hw info updatedMask) start).1
    (done.foldl (simBlock hw info updatedMask) start).2
  intro done blk rest _
  rw [List.foldl_append,List.foldl_cons,List.foldl_nil]
  generalize done.foldl (simBlock hw info updatedMask) start = here
  unfold simBlock
  dsimp only
  apply triple_onlyIf
  · intro filled
    rw [if_pos (by simpa using filled),procPgEfuse_sim]
    exact appendSim_at
  · intro empty s sim
    rw [if_neg (by simpa using empty)]
    exact sim

def simulate (hw : HwInfo) (env : Env) (info : PgInfo) (phyMap : Bytes) : Call (Bytes × Bytes) := do
  parseInPlace hw env phyMap
  updateCurrent fun b => {b with phyMap:=some phyMap}
  require (env.alloc .updatedMask) .bufAlloc
  let updatedMask ← updateEepromMask hw env info true
  checkEfuseEnough hw info updatedMask
  programEfuse hw env info updatedMask true
  let b ← current
  let phyMap ← deref b.phyMap
  let s ← look
  within (hw.logMapSize s.info) (info.efuseMapSize + hw.efuseVersionSize)
  let logMap ← parse hw env phyMap .map
  updateCurrent fun b => {b with logMapValid:=false,phyMapValid:=false}
  pure (phyMap,logMap)

theorem macPgSimulator_starts (phyMap : Bytes) (started : ∀ info, simStarts hw env args s = some info →
      Triple (fun s' => s' = (Adapter.withMap env (.phy .wifi) {s with cellSel:=.wifi,info:=.wifi}).withMap env (.log .wifi))
        (simulate hw env info phyMap) after fun _ => inv)
    (plain : inv s) (switched : inv {s with cellSel:=.wifi,info:=.wifi})
    (mapped : inv (Adapter.withMap env (.phy .wifi) {s with cellSel:=.wifi,info:=.wifi})) :
    Triple (· = s) (macPgSimulator hw env args phyMap) after fun _ => inv := by
  refine at_require (fun size => ?_) fun _ => plain
  have refused : ∀ {f : Bytes → Call (Bytes × Bytes)}, Triple (· = s) (deref none >>= f) after fun _ => inv := by
    rintro f s rfl
    exact plain
  cases value : args.efuseMap with
  | none => exact refused
  | some efuseMap =>
    refine at_deref rfl ?_
    cases mask : args.efuseMask with
    | none => exact refused
    | some efuseMask =>
      refine at_deref rfl (at_require (fun version => ?_) fun _ => plain)
      refine at_switch (fun able => ?_) fun _ => plain
      refine at_mapInit (fun phy => ?_) fun _ => switched
      refine at_mapInit (fun log => ?_) fun _ => mapped
      apply started {efuseMap,efuseMapSize:=args.efuseMapSize,efuseMask,efuseMaskSize:=args.efuseMaskSize}
      have there : hasMap env (.log .wifi) s := by
        rw [← log]
        simp only [hasMap,Adapter.withMap]
        split
        · rw [setBank_same]
        · rfl
      have held : hasMap env (.phy .wifi) s := phy
      simp only [simStarts,value,mask,size,version,able,held,there,Bool.and_self,if_true]

structure SimIdle (hw : HwInfo) (s : Adapter) : Prop where
  info : s.info = .wifi
  others : ∀ bank, bank ≠ .wifi → Cached hw bank (s.bank bank)
  phyInvalid : (s.bank .wifi).phyMapValid = false
  logInvalid : (s.bank .wifi).logMapValid = false

theorem SimIdle.coherent (sim : SimIdle hw s) : Coherent hw s := by
  refine ⟨fun bank => ?_,trivial⟩
  cases bank with
  | bt => exact sim.others .bt (by decide)
  | wifi => exact ⟨fun valid => by simp [sim.phyInvalid] at valid,fun valid => by simp [sim.logInvalid] at valid⟩

theorem updateCurrent_idle (phy : ∀ b, (f b).phyMapValid = b.phyMapValid ∨ (f b).phyMapValid = false)
    (log : ∀ b, (f b).logMapValid = b.logMapValid ∨ (f b).logMapValid = false) :
    Triple (SimIdle hw) (updateCurrent f) (fun _ => SimIdle hw) failed := by
  refine triple_change fun s sim => ?_
  rw [sim.info]
  refine ⟨sim.info,others_setBank sim.others,?_,?_⟩
  · rw [setBank_same]
    rcases phy (s.bank .wifi) with same | down
    · exact same.trans sim.phyInvalid
    · exact down
  · rw [setBank_same]
    rcases log (s.bank .wifi) with same | down
    · exact same.trans sim.logInvalid
    · exact down

theorem parse_idle : Stays (SimIdle hw) (parse hw env phyMap cfg) := by
  refine chain triple_look fun s => ?_
  cases eepromParser (hw.shape s.info) (bounded (hw.phyMapSize s.info) env.beyond phyMap) cfg with
  | error logMap => exact triple_fail fun _ sim => sim
  | ok c =>
    refine chain (updateCurrent_idle (fun _ => .inl rfl) fun _ => .inl rfl) fun _ => ?_
    exact triple_done

theorem parseInPlace_idle : Stays (SimIdle hw) (parseInPlace hw env phyMap) := by
  refine chain triple_look fun s => ?_
  cases eepromParser (hw.shape s.info) (bounded (hw.phyMapSize s.info) env.beyond phyMap) .map with
  | error logMap =>
    refine chain (updateCurrent_idle (fun _ => .inl rfl) fun _ => .inl rfl) fun _ => ?_
    exact triple_fail fun _ sim => sim
  | ok c => exact updateCurrent_idle (fun _ => .inl rfl) fun _ => .inl rfl

theorem updateEepromMask_idle : Stays (SimIdle hw) (updateEepromMask hw env info true) := by
  refine chain require_keeps fun _ => chain current_keeps fun _ => chain derefs_keeps fun _ => ?_
  refine chain require_keeps fun _ => chain current_keeps fun _ => chain derefs_keeps fun _ => ?_
  exact chain parse_idle fun _ => chain within_keeps fun _ => triple_done

theorem checkEfuseEnough_keeps : Stays inv (checkEfuseEnough hw info updatedMask) :=
  chain triple_look fun _ => chain current_keeps fun _ => require_keeps

theorem programEfuse_idle : Stays (SimIdle hw) (programEfuse hw env info updatedMask true) := by
  apply triple_each fun _ => SimIdle hw
  intro done blk rest _
  refine triple_maybe fun _ => ?_
  rw [procPgEfuse_sim]
  refine chain current_keeps fun _ => chain derefs_keeps fun _ => ?_
  refine chain (updateCurrent_idle (fun _ => .inl rfl) fun _ => .inl rfl) fun _ => ?_
  exact updateCurrent_idle (fun _ => .inl rfl) fun _ => .inl rfl

theorem simulate_idle : Stays (SimIdle hw) (simulate hw env info phyMap) := by
  refine chain parseInPlace_idle fun _ => ?_
  refine chain (updateCurrent_idle (fun _ => .inl rfl) fun _ => .inl rfl) fun _ => ?_
  refine chain require_keeps fun _ => chain updateEepromMask_idle fun updatedMask => ?_
  refine chain checkEfuseEnough_keeps fun _ => chain programEfuse_idle fun _ => ?_
  refine chain current_keeps fun _ => chain derefs_keeps fun _ => chain triple_look fun _ => ?_
  refine chain within_keeps fun _ => chain parse_idle fun _ => ?_
  refine chain (updateCurrent_idle (fun _ => .inr rfl) fun _ => .inr rfl) fun _ => triple_done

theorem parse_at (parses : simParses hw env phyMap cfg = some c) :
    Triple (SimAt hw map efuseEnd) (parse hw env phyMap cfg) (fun out s => out = c.logMap ∧ SimAt hw map c.efuseIdx s)
      failed := by
  intro s sim
  unfold simParses at parses
  simp only [parse,bind_run,look,sim.info]
  cases done : eepromParser (hw.shape .wifi) (bounded (hw.phyMapSize .wifi) env.beyond phyMap) cfg with
  | error logMap => simp [done,Except.toOption] at parses
  | ok found =>
    simp only [done,Except.toOption,some.injEq] at parses
    subst parses
    simp only [updateCurrent,change,bind_run,pure_run,sim.info]
    refine ⟨trivial,sim.info,others_setBank sim.others,?_,?_⟩
    · rw [setBank_same]
      exact sim.phyMap
    · rw [setBank_same]

def SimLoaded (hw : HwInfo) (map : Bytes) (c : Cursor) (s : Adapter) : Prop :=
  SimAt hw map c.efuseIdx s ∧ (s.bank .wifi).logMap = some c.logMap

theorem load_at (parses : simParses hw env phyMap .map = some c) :
    Triple (fun s => s.info = .wifi ∧ ∀ bank, bank ≠ .wifi → Cached hw bank (s.bank bank))
      (parseInPlace hw env phyMap >>= fun _ => updateCurrent fun b => {b with phyMap:=some phyMap})
      (fun _ => SimLoaded hw phyMap c) failed := by
  intro s ⟨info,others⟩
  unfold simParses at parses
  simp only [parseInPlace,bind_run,look,info]
  cases done : eepromParser (hw.shape .wifi) (bounded (hw.phyMapSize .wifi) env.beyond phyMap) .map with
  | error logMap => simp [done,Except.toOption] at parses
  | ok found =>
    simp only [done,Except.toOption,some.injEq] at parses
    subst parses
    simp only [updateCurrent,change,info]
    have stays : (s.setBank .wifi {s.bank .wifi with logMap:=some found.logMap,efuseEnd:=found.efuseIdx}).info = .wifi := info
    rw [stays]
    refine ⟨⟨info,others_setBank (others_setBank others),?_,?_⟩,?_⟩ <;> simp only [setBank_same]

theorem updateEepromMask_at (map : env.alloc .map) (maskMap : env.alloc .maskMap)
    (size : info.efuseMaskSize ≤ info.efuseMapSize>>>4)
    (parses : simParses hw env phyMap .mask = some m) : Triple (SimLoaded hw phyMap c) (updateEepromMask hw env info true)
      (fun out s => out = clearWords (fun offset => sameWord info.efuseMap c.logMap offset && m.logMap offset == 0x00)
        info.efuseMapSize (copiedMask info) ∧ SimAt hw phyMap m.efuseIdx s) failed := by
  refine chain (require_true map) fun _ => ?_
  refine triple_at fun s loaded => at_current ?_
  obtain ⟨sim,held⟩ := loaded
  rw [sim.info]
  refine at_deref held (chain (require_true maskMap) fun _ => at_current ?_)
  rw [sim.info]
  refine at_deref sim.phyMap (at_use sim (chain (parse_at parses) fun found => chain (within_fits size) fun _ => ?_))
  refine triple_pure fun s parsed => ?_
  rw [parsed.1]
  exact ⟨rfl,parsed.2⟩

theorem checkEfuseEnough_at (room : pgNum info updatedMask + efuseEnd ≤ hw.phyMapSize .wifi) :
    Triple (SimAt hw map efuseEnd) (checkEfuseEnough hw info updatedMask) (fun _ => SimAt hw map efuseEnd) failed := by
  refine triple_at fun s sim => at_look (at_current (at_use sim (require_true ?_)))
  rw [sim.info,sim.efuseEnd]
  simpa using room

theorem simulate_ends (ends : simEnds hw env info phyMap) :
    Triple (fun s => s.info = .wifi ∧ ∀ bank, bank ≠ .wifi → Cached hw bank (s.bank bank)) (simulate hw env info phyMap)
      (fun _ => SimIdle hw) failed := by
  unfold simEnds at ends
  cases value : simParses hw env phyMap .map with
  | none => simp [value] at ends
  | some c =>
    cases mask : simParses hw env phyMap .mask with
    | none => simp [value,mask] at ends
    | some m =>
      simp only [value,mask,Bool.and_eq_true,decide_eq_true_eq,isSome_iff_exists] at ends
      obtain ⟨⟨⟨⟨⟨⟨one,two⟩,three⟩,size⟩,whole⟩,room⟩,last,parses⟩ := ends
      refine triple_seq (load_at value) fun _ => chain (require_true one) fun _ => ?_
      refine chain (updateEepromMask_at two three size mask) fun updatedMask => ?_
      refine triple_at fun s holds => ?_
      obtain ⟨rfl,sim⟩ := holds
      refine at_use sim (chain (checkEfuseEnough_at room) fun _ => ?_)
      refine chain (programEfuse_at (phyMap,m.efuseIdx)) fun _ => ?_
      refine triple_at fun s sim => at_current ?_
      rw [sim.info]
      refine at_deref sim.phyMap (at_look (at_use sim ?_))
      refine chain (within_fits (by rw [sim.info]; exact whole)) fun _ => chain (parse_at parses) fun logMap => ?_
      refine chain ?_ fun _ => triple_done
      refine triple_change fun s sim => ?_
      rw [sim.2.info]
      refine ⟨sim.2.info,others_setBank sim.2.others,?_,?_⟩ <;> rw [setBank_same]

theorem macPgSimulator_coherent (coherent : Coherent hw s) (allowed : (s.bank .wifi).phyMapValid = false ∨
      ∀ info, simStarts hw env args s = some info → simEnds hw env info phyMap) :
    Triple (· = s) (macPgSimulator hw env args phyMap) (fun _ => Coherent hw) fun _ => Coherent hw := by
  have switched : Selected hw .wifi {s with cellSel:=.wifi,info:=.wifi} := ⟨⟨coherent.cached,trivial⟩,rfl,rfl⟩
  have mapped := switched.withMap env (.phy .wifi)
  have ready := mapped.withMap env (.log .wifi)
  refine macPgSimulator_starts phyMap (fun info starts => ?_) coherent switched.sound mapped.sound
  have others := fun bank (_ : bank ≠ .wifi) => ready.sound.cached bank
  rcases allowed with invalid | ends
  · have phy : (s.bank .wifi).phyMapValid = false := invalid
    have log : (s.bank .wifi).logMapValid = false := by
      cases valid : (s.bank .wifi).logMapValid with
      | false => rfl
      | true => simp [((coherent.cached .wifi).log valid).1] at phy
    have idle : SimIdle hw _ := ⟨ready.info,others,by simp only [withMap_flags,phy],by simp only [withMap_flags,log]⟩
    refine at_use idle (simulate_idle.weaken ?_ ?_)
    · exact fun _ _ sim => sim.coherent
    · exact fun _ _ sim => sim.coherent
  · refine at_use ⟨ready.info,others⟩ ((simulate_ends (ends info starts)).post ?_)
    exact fun _ _ sim => sim.coherent

-- Where the caches are safe: a dump of the mask finds the logical map valid,
-- and a simulator run that starts to work finds the WLAN caches down or comes
-- to its end.
def CacheGuard (hw : HwInfo) (s : Adapter) (event : Env × Op) : Prop :=
  event.1.FwReads hw ∧
  match event.2 with
  | .dumpLogEfuse .mask _ _ => (s.bank .wifi).logMapValid
  | .dumpLogEfuseBt .mask _ => (s.bank .bt).logMapValid
  | .pgSimulator args phyMap => (s.bank .wifi).phyMapValid = false ∨
      ∀ info, simStarts hw event.1 args s = some info → simEnds hw event.1 info phyMap
  | _ => True

theorem discard_keeps (base : Triple before m (fun _ => Coherent hw) fun _ => Coherent hw) :
    Triple before (discard m) (fun _ => Coherent hw) fun _ => Coherent hw :=
  chain base fun _ => triple_done

theorem opStep_coherent (coherent : Coherent hw s) (guarded : CacheGuard hw s event) : Coherent hw (opStep hw s event) := by
  obtain ⟨env,op⟩ := event
  obtain ⟨reads,guarded⟩ := guarded
  suffices step : Triple (· = s) (op.call hw env) (fun _ => Coherent hw) fun _ => Coherent hw from step.always rfl
  cases op with
  | dumpEfuseMapWl cfg => exact at_use coherent (discard_keeps (macDumpEfuseMapWl_coherent reads))
  | dumpEfuseMapBt cfg => exact at_use coherent (discard_keeps (macDumpEfuseMapBt_coherent reads))
  | writeEfuse addr val bank => exact at_use coherent macWriteEfuse_coherent
  | readEfuse addr size bank => exact at_use coherent (discard_keeps macReadEfuse_coherent)
  | getEfuseAvlSize =>
    refine at_use coherent (discard_keeps (chain require_keeps fun _ => ?_))
    refine chain (macDumpLogEfuse_coherent reads) fun _ => chain triple_look fun _ => ?_
    exact triple_pure fun _ ready => ready.sound
  | getEfuseAvlSizeBt =>
    refine at_use coherent (discard_keeps (chain require_keeps fun _ => ?_))
    refine chain (macDumpLogEfuseBt_coherent reads) fun _ => chain triple_look fun _ => ?_
    exact triple_done
  | dumpLogEfuse parserCfg cfg isLimit =>
    cases parserCfg with
    | map =>
      refine at_use coherent (discard_keeps ?_)
      exact (macDumpLogEfuse_coherent reads).post (fun _ _ ready => ready.sound)
    | mask => exact at_use ⟨coherent,guarded⟩ (discard_keeps macDumpLogEfuse_valid)
  | readLogEfuse addr size => exact at_use coherent (discard_keeps macReadLogEfuse_coherent)
  | writeLogEfuse addr val => exact at_use coherent macWriteLogEfuse_coherent
  | dumpLogEfuseBt parserCfg cfg =>
    cases parserCfg with
    | map => exact at_use coherent (discard_keeps (macDumpLogEfuseBt_coherent reads))
    | mask => exact at_use ⟨coherent,guarded⟩ (discard_keeps macDumpLogEfuseBt_valid)
  | readLogEfuseBt addr size => exact at_use coherent (discard_keeps macReadLogEfuseBt_coherent)
  | writeLogEfuseBt addr val => exact at_use coherent macWriteLogEfuseBt_coherent
  | pgEfuseByMap args part isLimit => exact at_use coherent macPgEfuseByMap_coherent
  | pgEfuseByMapBt args => exact at_use coherent macPgEfuseByMapBt_coherent
  | maskLogEfuse args => exact at_use coherent (discard_keeps (chain checkPgArgs_keeps fun _ => triple_done))
  | pgSecDataByMap args => exact at_use coherent macPgSecDataByMap_coherent
  | cmpSecDataByMap args => exact at_use coherent (discard_keeps macCmpSecDataByMap_coherent)
  | readHiddenRpt => exact at_use coherent macReadHiddenRpt_coherent
  | pgSimulator args phyMap => exact discard_keeps (macPgSimulator_coherent coherent guarded)
  | checksumUpdate => exact at_use coherent (macChecksumUpdate_coherent reads)
  | checksumRpt second => exact at_use coherent (discard_keeps macChecksumRpt_coherent)
  | otpTest isOtpTest => exact at_use coherent (triple_change fun _ sound => ⟨sound.cached,sound.fuses⟩)

def ReadsFresh (hw : HwInfo) (bank : Bank) (cells : Bytes) (addr size : UInt32) (val : List UInt8) : Prop :=
  ∃ c, freshParse hw bank cells .map = .ok c ∧ val = copyOut c.logMap addr.toNat size.toNat

theorem keeps_fact : Triple (fun _ => p) m (fun _ _ => p) fun _ _ => True := by
  intro s holds
  rcases m s with ⟨result,s'⟩
  cases result with
  | ok a => exact holds
  | error e => trivial

theorem copyChecked_fresh : Triple (Parsed hw (· = start) bank .map map) (copyChecked map addr size efuseSize)
    (fun val _ => ReadsFresh hw bank (start bank).1 addr size val) fun _ _ => True := by
  refine triple_ite (fun _ => triple_pure fun s parsed => ?_) fun _ => triple_fail fun _ _ => trivial
  obtain ⟨ready,_,fresh⟩ := parsed
  have cells : (s.bank bank).cells = (start bank).1 := by rw [← ready.sound.fuses]; rfl
  rw [cells] at fresh
  exact ⟨_,fresh,rfl⟩

section
variable {m : Call α}

theorem step_read (inner : Triple before m after failed) : Triple before (orIdle m) after fun _ _ => True :=
  orIdle_keeps (fun _ _ _ => trivial) inner.success
end

theorem macReadLogEfuse_fresh : Triple (Sound hw fun f => f = start) (macReadLogEfuse hw env addr size)
    (fun val _ => ReadsFresh hw .wifi (start .wifi).1 addr size val) fun _ _ => True := by
  refine enter_bank (fun _ _ _ => trivial) (fun _ _ => trivial) fun _ => chain require_keeps.success fun _ => ?_
  refine chain mapInit_ready.success fun _ => chain mapInit_ready.success fun _ => ?_
  refine chain (step_read require_keeps) fun _ => chain (step_read readMap_parsed) fun map => ?_
  exact chain copyChecked_fresh fun val => chain keeps_fact fun _ => triple_pure fun _ holds => holds

theorem macReadLogEfuseBt_fresh : Triple (Sound hw fun f => f = start) (macReadLogEfuseBt hw env addr size)
    (fun val _ => ReadsFresh hw .bt (start .bt).1 addr size val) fun _ _ => True := by
  refine chain require_keeps.success fun _ => ?_
  refine enter_bank (fun _ _ _ => trivial) (fun _ _ => trivial) fun _ => ?_
  refine chain mapInit_ready.success fun _ => chain mapInit_ready.success fun _ => ?_
  refine chain (step_read require_keeps) fun _ => chain (step_read readMap_parsed) fun map => ?_
  refine chain copyChecked_fresh fun val => chain keeps_fact fun _ => ?_
  exact chain keeps_fact fun _ => triple_pure fun _ holds => holds

def Cold (s : Adapter) : Prop := ∀ bank, (s.bank bank).phyMapValid = false ∧ (s.bank bank).logMapValid = false

theorem Cold.coherent (cold : Cold s) : Coherent hw s :=
  ⟨fun bank => ⟨fun valid => by simp [(cold bank).1] at valid,fun valid => by simp [(cold bank).2] at valid⟩,trivial⟩

-- Every run of public operations that meet the guard keeps the caches of both
-- banks coherent, so a logical read never sees anything but the fuses.
theorem efuse_caches_coherent (hw : HwInfo) (origin s : Adapter) (cold : Cold origin)
    (path : Reached (opStep hw) (CacheGuard hw) origin s) :
    (∀ bank, Cached hw bank (s.bank bank)) ∧
    (∀ env addr size val s', macReadLogEfuse hw env addr size s = (.ok val,s') →
      ReadsFresh hw .wifi (s.bank .wifi).cells addr size val) ∧
    ∀ env addr size val s', macReadLogEfuseBt hw env addr size s = (.ok val,s') →
      ReadsFresh hw .bt (s.bank .bt).cells addr size val := by
  have coherent := path.invariant (Coherent hw) cold.coherent fun _ _ coherent guarded => opStep_coherent coherent guarded
  have sound : Sound hw (· = fuses s) s := ⟨coherent.cached,rfl⟩
  refine ⟨coherent.cached,?_,?_⟩
  · intro env addr size val s' ran
    exact macReadLogEfuse_fresh.ok sound ran
  · intro env addr size val s' ran
    exact macReadLogEfuseBt_fresh.ok sound ran

theorem goodEnv_reads : goodEnv.FwReads hw := fun _ _ _ _ => rfl
theorem coldAdapter_cold : Cold coldAdapter := fun _ => ⟨rfl,rfl⟩

def cacheRun : List (Env × Op) :=
  [(goodEnv,.writeLogEfuse 0x21 0x12),(goodEnv,.dumpLogEfuse .map .fw false),(goodEnv,.dumpLogEfuse .mask .auto false),
    (goodEnv,.pgSimulator ⟨some fun _ => 0,64,some fun _ => 0,4⟩ blankMap),(goodEnv,.writeLogEfuse 0x20 0x34)]

theorem ends_of_all (all : (simStarts hw env args s).all (fun info => simEnds hw env info phyMap)) (info : PgInfo)
    (starts : simStarts hw env args s = some info) : simEnds hw env info phyMap := by
  rw [starts] at all
  exact all

theorem efuse_caches_coherent_run : ∃ val s',
    macReadLogEfuse tinyHwInfo goodEnv 0x20 2 (run (opStep tinyHwInfo) coldAdapter cacheRun) = (.ok val,s') ∧
    val = [0x34,0x12] ∧
    ReadsFresh tinyHwInfo .wifi ((run (opStep tinyHwInfo) coldAdapter cacheRun).bank .wifi).cells 0x20 2
      val := by
  have admitted : Admitted (opStep tinyHwInfo) (CacheGuard tinyHwInfo) coldAdapter cacheRun := by
    refine ⟨⟨goodEnv_reads,trivial⟩,⟨goodEnv_reads,trivial⟩,⟨goodEnv_reads,?_⟩,⟨goodEnv_reads,.inr ?_⟩,
      ⟨goodEnv_reads,trivial⟩,trivial⟩
    · decide +kernel
    · apply ends_of_all
      decide +kernel
  have ran : (macReadLogEfuse tinyHwInfo goodEnv 0x20 2
      (run (opStep tinyHwInfo) coldAdapter cacheRun)).1.toOption = some [0x34,0x12] := by decide +kernel
  have path := Reached.start.run admitted
  generalize run (opStep tinyHwInfo) coldAdapter cacheRun = s at ran path
  have done := ran_of_toOption ran
  exact ⟨_,_,done,rfl,(efuse_caches_coherent _ coldAdapter s coldAdapter_cold path).2.1 _ _ _ _ _ done⟩

def poisoned (hw : HwInfo) (bank : Bank) (addr : Nat) (s : Adapter) : Bool :=
  (s.bank bank).logMapValid && ((s.bank bank).logMap.map fun map => map addr) !=
    (freshParse hw bank (s.bank bank).cells .map).toOption.map fun c => c.logMap addr

theorem poisoned_incoherent (wrong : poisoned hw bank addr s) : ¬ Cached hw bank (s.bank bank) := by
  intro cached
  simp only [poisoned,Bool.and_eq_true,bne_iff_ne] at wrong
  obtain ⟨_,map,held,fresh⟩ := cached.log wrong.1
  apply wrong.2
  rw [held,fresh]
  rfl

-- A dump of the mask after a write, and a simulator run on a map that does not
-- parse while the caches are valid.
theorem efuse_caches_incoherent :
    (∃ s, Reached (opStep (mac8852aHwInfo .usb)) (fun _ event => event.1.FwReads (mac8852aHwInfo .usb)) coldAdapter s ∧
      ¬ Cached (mac8852aHwInfo .usb) .wifi (s.bank .wifi) ∧ ∃ val s',
        macReadLogEfuse (mac8852aHwInfo .usb) goodEnv 0x400 2 s = (.ok val,s') ∧
        ¬ ReadsFresh (mac8852aHwInfo .usb) .wifi (s.bank .wifi).cells 0x400 2 val) ∧
    ∃ s, Reached (opStep (mac8852aHwInfo .usb)) (fun _ event => event.1.FwReads (mac8852aHwInfo .usb)) coldAdapter s ∧
      ¬ Cached (mac8852aHwInfo .usb) .wifi (s.bank .wifi) := by
  have reads : goodEnv.FwReads (mac8852aHwInfo .usb) := goodEnv_reads
  refine ⟨⟨run (opStep (mac8852aHwInfo .usb)) coldAdapter
    [(goodEnv,.writeLogEfuse 0x400 0x12),(goodEnv,.dumpLogEfuse .mask .drv false)],?_,?_,[0x00,0x00],_,ran_of_toOption ?_,?_⟩,
    run (opStep (mac8852aHwInfo .usb)) coldAdapter [(goodEnv,.writeLogEfuse 0x400 0x12),(goodEnv,.dumpLogEfuse .map .drv false),
      (goodEnv,.pgSimulator ⟨some fun _ => 0,1536,some fun _ => 0,96⟩ fun _ => 0)],?_,?_⟩
  · exact Reached.start.run ⟨reads,reads,trivial⟩
  · apply poisoned_incoherent
    show poisoned _ .wifi 0x400 _
    decide +kernel
  · decide +kernel
  · rintro ⟨c,fresh,same⟩
    have parsed : (freshParse (mac8852aHwInfo .usb) .wifi ((run (opStep (mac8852aHwInfo .usb)) coldAdapter
        [(goodEnv,.writeLogEfuse 0x400 0x12),(goodEnv,.dumpLogEfuse .mask .drv false)]).bank .wifi).cells .map).toOption.map
          (fun c => copyOut c.logMap 0x400 2) = some [0x12,0xFF] := by decide +kernel
    rw [fresh] at parsed
    simp only [Except.toOption,map_some,some.injEq] at parsed
    have clash : [0x00,0x00] = [(0x12 : UInt8),0xFF] := same.trans parsed
    simp at clash
  · exact Reached.start.run ⟨reads,reads,reads,trivial⟩
  · apply poisoned_incoherent
    show poisoned _ .wifi 0 _
    decide +kernel
end Rtl8852au.Efuse
