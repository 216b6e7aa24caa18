import Rtl8852au.EfuseOps

namespace Rtl8852au.Efuse
open Fallible Prog

def freshParse (hw : HwInfo) (bank : Bank) (cells : Bytes) (cfg : ParserCfg) : Except Bytes Cursor :=
  eepromParser (hw.shape bank) (bounded (hw.phyMapSize bank) (fun _ => 0xFF) cells) cfg

def Copies (hw : HwInfo) (bank : Bank) (map cells : Bytes) : Prop := ∀ a < hw.phyMapSize bank, map a = cells a

structure Cached (hw : HwInfo) (bank : Bank) (b : BankState) : Prop where
  phy : b.phyMapValid → ∃ map, b.phyMap = some map ∧ Copies hw bank map b.cells
  log : b.logMapValid →
    b.phyMapValid ∧ ∃ map, b.logMap = some map ∧ freshParse hw bank b.cells .map = .ok ⟨map,b.efuseEnd⟩

abbrev Fuses := Bank → Bytes × List (Nat × UInt8)
def fuses (s : Adapter) : Fuses := fun bank => ((s.bank bank).cells,(s.bank bank).requests)

structure Sound (hw : HwInfo) (hardware : Fuses → Prop) (s : Adapter) : Prop where
  cached : ∀ bank, Cached hw bank (s.bank bank)
  fuses : hardware (fuses s)

structure Ready (hw : HwInfo) (hardware : Fuses → Prop) (bank : Bank) (s : Adapter) : Prop where
  sound : Sound hw hardware s
  info : s.info = bank
  cellSel : s.cellSel = bank

theorem setBank_same (s : Adapter) (bank : Bank) (b : BankState) : (s.setBank bank b).bank bank = b := by simp [Adapter.setBank]

theorem setBank_other {s : Adapter} (other : bank' ≠ bank) : (s.setBank bank b).bank bank' = s.bank bank' := by
  simp [Adapter.setBank,other]

theorem fuses_setBank {s : Adapter} (cells : b.cells = (s.bank bank).cells) (requests : b.requests = (s.bank bank).requests) :
    fuses (s.setBank bank b) = fuses s := by
  funext other
  by_cases own : other = bank
  · subst own
    simp only [fuses,setBank_same,cells,requests]
  · simp only [fuses,setBank_other own]

theorem Sound.setBank (sound : Sound hw hardware s) (cached : Cached hw bank b) (cells : b.cells = (s.bank bank).cells)
    (requests : b.requests = (s.bank bank).requests) : Sound hw hardware (s.setBank bank b) where
  fuses := by rw [fuses_setBank cells requests]; exact sound.fuses
  cached other := by
    by_cases own : other = bank
    · subst own
      rw [setBank_same]
      exact cached
    · rw [setBank_other own]
      exact sound.cached other

theorem Ready.setBank (ready : Ready hw hardware bank s) (cached : Cached hw bank b)
    (cells : b.cells = (s.bank bank).cells) (requests : b.requests = (s.bank bank).requests) :
    Ready hw hardware bank (s.setBank bank b) :=
  ⟨ready.sound.setBank cached cells requests,ready.info,ready.cellSel⟩

theorem bounded_copies (copies : Copies hw bank map cells) :
    bounded (hw.phyMapSize bank) beyond map = bounded (hw.phyMapSize bank) beyond cells := by
  funext a
  unfold bounded
  split
  · rename_i inside
    exact copies a inside
  · rfl

theorem freshParse_of_parse (done : eepromParser (hw.shape bank) (bounded (hw.phyMapSize bank) beyond cells) cfg = .ok c) :
    freshParse hw bank cells cfg = .ok c := by
  refine eepromParser_agree ?_ ?_ done
  · intro a inside
    simp only [HwInfo.shape] at inside
    simp [bounded,inside]
  · simp [bounded,HwInfo.shape]

theorem require_passed {before : Adapter → Prop} (exit : ∀ s, before s → failed (.ret code) s) :
    Triple before (require holds code) (fun _ s => before s ∧ holds) failed :=
  triple_check (fun _ kept passed => ⟨kept,passed⟩) exit

theorem require_exit {before : Adapter → Prop} (exit : ∀ s, before s → failed (.ret code) s) :
    Triple before (require holds code) (fun _ => before) failed := triple_check (fun _ kept _ => kept) exit

theorem require_keeps : Stays inv (require holds code) := require_exit fun _ kept => kept

theorem within_run (s : Adapter) : within size room s = if size ≤ room then (.ok (),s) else (.error .fault,s) := by
  rw [within,check_run]
  simp only [decide_eq_true_eq]

theorem within_passed {before : Adapter → Prop} (exit : ∀ s, before s → ¬size ≤ room → failed .fault s) :
    Triple before (within size room) (fun _ s => before s ∧ size ≤ room) failed := by
  intro s kept
  rw [within_run]
  by_cases fits : size ≤ room
  · rw [if_pos fits]
    exact ⟨kept,fits⟩
  · rw [if_neg fits]
    exact exit s kept fits

theorem within_exit {before : Adapter → Prop} (exit : ∀ s, before s → failed .fault s) :
    Triple before (within size room) (fun _ => before) failed := triple_check (fun _ holds _ => holds) exit

theorem within_keeps : Stays inv (within size room) := within_exit fun _ kept => kept

theorem within_fits {before : Adapter → Prop} (fits : size ≤ room) :
    Triple before (within size room) (fun _ => before) failed := by
  intro s kept
  rw [within_run,if_pos fits]
  exact kept

-- The bookkeeping around an operation keeps everything that does not speak of
-- `sm.efuse`.
section
variable {inv : Adapter → Prop} (blind : ∀ s efuse, inv s → inv {s with efuse})
include blind

theorem cnv_keeps : Stays inv (cnvEfuseState dest) := by
  apply chain triple_look
  intro _
  apply chain require_keeps
  intro _
  apply chain require_keeps
  intro _
  exact triple_change fun s holds => blind s dest holds

theorem orIdle_keeps (inner : Triple before m after (fun _ => inv)) : Triple before (orIdle m) after (fun _ => inv) := by
  apply triple_handle inner
  intro e
  cases e with
  | fault => exact triple_fail fun _ holds => holds
  | ret code => exact chain (cnv_keeps blind) fun _ => triple_fail fun _ holds => holds
end

theorem sound_blind (s : Adapter) (efuse : SmEfuse) (sound : Sound hw hardware s) : Sound hw hardware {s with efuse} :=
  ⟨sound.cached,sound.fuses⟩

theorem ready_blind (s : Adapter) (efuse : SmEfuse) (ready : Ready hw hardware bank s) :
    Ready hw hardware bank {s with efuse} := ⟨sound_blind s efuse ready.sound,ready.info,ready.cellSel⟩

theorem efuseProcCk_exit {before : Adapter → Prop} (exit : ∀ s, before s → inv s) :
    Triple before efuseProcCk (fun _ => before) (fun _ => inv) := chain triple_look fun _ => require_exit exit

theorem answered_keeps : Stays inv (answered answer) := by
  cases answer with
  | none => exact triple_done
  | some code => exact triple_fail fun _ holds => holds

def canSwitch (env : Env) (bank : Bank) (s : Adapter) : Bool :=
  (bank == .wifi || env.btState) && (s.cellSel == bank || env.selects bank)

section
variable (env : Env) (sel : MapSel) (s : Adapter)

def hasMap : Bool :=
  match sel with
  | .phy bank => (s.bank bank).phyMap.isSome || env.mapAlloc sel
  | .log bank => (s.bank bank).logMap.isSome || env.mapAlloc sel

def Adapter.withMap : Adapter :=
  match sel with
  | .phy bank => if (s.bank bank).phyMap.isNone then s.setBank bank {s.bank bank with phyMap:=some env.heap} else s
  | .log bank => if (s.bank bank).logMap.isNone then s.setBank bank {s.bank bank with logMap:=some env.heap} else s

theorem switchEfuseBank_run (env : Env) (bank : Bank) (s : Adapter) : switchEfuseBank env bank s =
    if canSwitch env bank s then (.ok (),{s with cellSel:=bank,info:=bank}) else (.error (.ret .efuseBank),s) := by
  unfold switchEfuseBank canSwitch
  cases bank == .wifi || env.btState with
  | false => rfl
  | true =>
    by_cases there : s.cellSel = bank
    · subst there
      simp [bind_run,require,check_run,look,onlyIf_run,change]
    · cases env.selects bank with
      | false => simp [bind_run,require,check_run,look,onlyIf_run,there]
      | true => simp [bind_run,require,check_run,look,onlyIf_run,change,there]

theorem efuseMapInit_run : efuseMapInit env sel s =
    if hasMap env sel s then (.ok (),s.withMap env sel) else (.error (.ret .bufAlloc),s) := by
  cases sel with
  | phy bank =>
    simp only [efuseMapInit,bind_run,look,hasMap,Adapter.withMap]
    cases held : (s.bank bank).phyMap with
    | some map => simp [onlyIf_run]
    | none =>
      cases env.mapAlloc (.phy bank) with
      | false => simp [onlyIf_run,require,check_run,bind_run]
      | true => simp [onlyIf_run,require,check_run,bind_run,change]
  | log bank =>
    simp only [efuseMapInit,bind_run,look,hasMap,Adapter.withMap]
    cases held : (s.bank bank).logMap with
    | some map => simp [onlyIf_run]
    | none =>
      cases env.mapAlloc (.log bank) with
      | false => simp [onlyIf_run,require,check_run,bind_run]
      | true => simp [onlyIf_run,require,check_run,bind_run,change]
end
section
variable {f : Unit → Call α}

theorem at_switch (passed : canSwitch env bank s →
      Triple (fun s' => s' = {s with cellSel:=bank,info:=bank}) (f ()) after failed)
    (refused : canSwitch env bank s = false → failed (.ret .efuseBank) s) :
    Triple (· = s) (switchEfuseBank env bank >>= f) after failed := by
  rintro s rfl
  simp only [bind_run,switchEfuseBank_run]
  cases able : canSwitch env bank s with
  | false => exact refused able
  | true => exact passed able _ rfl

theorem at_mapInit (passed : hasMap env sel s → Triple (· = s.withMap env sel) (f ()) after failed)
    (refused : hasMap env sel s = false → failed (.ret .bufAlloc) s) :
    Triple (· = s) (efuseMapInit env sel >>= f) after failed := by
  rintro s rfl
  simp only [bind_run,efuseMapInit_run]
  cases able : hasMap env sel s with
  | false => exact refused able
  | true => exact passed able _ rfl

theorem at_require (passed : holds = true → Triple (· = s) (f ()) after failed)
    (refused : holds = false → failed (.ret code) s) : Triple (· = s) (require holds code >>= f) after failed := by
  rintro s rfl
  simp only [bind_run,require,check]
  cases able : holds with
  | false => exact refused able
  | true => exact passed able s rfl
end

theorem switchEfuseBank_sound :
    Triple (Sound hw hardware) (switchEfuseBank env bank) (fun _ => Ready hw hardware bank) (fun _ => Sound hw hardware) := by
  intro s sound
  rw [switchEfuseBank_run]
  cases canSwitch env bank s with
  | false => exact sound
  | true => exact ⟨⟨sound.cached,sound.fuses⟩,rfl,rfl⟩

-- The way into an operation on a bank and out of it.
section
variable {inv : Adapter → Prop} (blind : ∀ s efuse, inv s → inv {s with efuse}) (exit : ∀ s, Sound hw hardware s → inv s)
include blind exit

theorem enter_bank (rest : ∀ u, Triple (Ready hw hardware bank) (f u) after fun _ => inv) : Triple (Sound hw hardware)
      (efuseProcCk >>= fun _ => cnvEfuseState state >>= fun _ => orIdle (switchEfuseBank env bank) >>= f)
      after fun _ => inv := by
  refine chain (efuseProcCk_exit exit) fun _ => ?_
  refine chain (triple_exit (cnv_keeps sound_blind) exit) fun _ => ?_
  exact chain (orIdle_keeps blind (triple_exit switchEfuseBank_sound exit)) rest

theorem switch_back : Triple (Ready hw hardware bank) (orIdle (switchEfuseBank env .wifi)) (fun _ => Ready hw hardware .wifi)
    fun _ => inv :=
  orIdle_keeps blind (triple_mono (fun _ ready => ready.sound) switchEfuseBank_sound (fun _ _ ready => ready) fun _ => exit)
end

theorem leave_sound : Triple (Ready hw hardware bank) (cnvEfuseState .idle) (fun _ => Sound hw hardware)
    fun _ => Sound hw hardware :=
  (cnv_keeps ready_blind).weaken (fun _ _ ready => ready.sound) fun _ _ ready => ready.sound

theorem Cached.alloc_phy (cached : Cached hw bank b) (missing : b.phyMap.isNone) :
    Cached hw bank {b with phyMap:=some map} where
  phy valid := by
    obtain ⟨map,held,_⟩ := cached.phy valid
    simp [held] at missing
  log valid := cached.log valid

theorem Cached.alloc_log (cached : Cached hw bank b) (missing : b.logMap.isNone) :
    Cached hw bank {b with logMap:=some map} where
  phy valid := cached.phy valid
  log valid := by
    obtain ⟨_,map,held,_⟩ := cached.log valid
    simp [held] at missing

theorem Ready.withMap (env : Env) (sel : MapSel) (ready : Ready hw hardware bank s) :
    Ready hw hardware bank (s.withMap env sel) := by
  cases sel with
  | phy other =>
    simp only [Adapter.withMap]
    split
    · rename_i missing
      exact ⟨ready.sound.setBank ((ready.sound.cached other).alloc_phy missing) rfl rfl,ready.info,ready.cellSel⟩
    · exact ready
  | log other =>
    simp only [Adapter.withMap]
    split
    · rename_i missing
      exact ⟨ready.sound.setBank ((ready.sound.cached other).alloc_log missing) rfl rfl,ready.info,ready.cellSel⟩
    · exact ready

theorem withMap_info {s : Adapter} : (s.withMap env sel).info = s.info := by
  cases sel with
  | phy bank =>
    simp only [Adapter.withMap]
    split <;> rfl
  | log bank =>
    simp only [Adapter.withMap]
    split <;> rfl

theorem withMap_efuse {s : Adapter} : (s.withMap env sel).efuse = s.efuse := by
  cases sel with
  | phy bank =>
    simp only [Adapter.withMap]
    split <;> rfl
  | log bank =>
    simp only [Adapter.withMap]
    split <;> rfl

theorem withMap_phy_some {s : Adapter} : ((s.withMap env (.phy bank)).bank bank).phyMap.isSome := by
  simp only [Adapter.withMap]
  split
  · rw [setBank_same]
    rfl
  · rename_i held
    simpa [Option.isSome_iff_ne_none] using held

theorem withMap_log_some {s : Adapter} : ((s.withMap env (.log bank)).bank bank).logMap.isSome := by
  simp only [Adapter.withMap]
  split
  · rw [setBank_same]
    rfl
  · rename_i held
    simpa [Option.isSome_iff_ne_none] using held

theorem withMap_log_phy {s : Adapter} : ((s.withMap env (.log bank)).bank bank).phyMap = (s.bank bank).phyMap := by
  simp only [Adapter.withMap]
  split
  · rw [setBank_same]
  · rfl

theorem withMap_flags (env : Env) (sel : MapSel) (s : Adapter) (bank : Bank) :
    ((s.withMap env sel).bank bank).phyMapValid = (s.bank bank).phyMapValid ∧
      ((s.withMap env sel).bank bank).logMapValid = (s.bank bank).logMapValid := by
  have kept : ∀ {other b}, b.phyMapValid = (s.bank other).phyMapValid → b.logMapValid = (s.bank other).logMapValid →
      ((s.setBank other b).bank bank).phyMapValid = (s.bank bank).phyMapValid ∧
        ((s.setBank other b).bank bank).logMapValid = (s.bank bank).logMapValid := by
    intro other b phy log
    by_cases own : bank = other
    · subst own
      rw [setBank_same]
      exact ⟨phy,log⟩
    · rw [setBank_other own]
      exact ⟨rfl,rfl⟩
  cases sel with
  | phy other =>
    simp only [Adapter.withMap]
    split
    · exact kept rfl rfl
    · exact ⟨rfl,rfl⟩
  | log other =>
    simp only [Adapter.withMap]
    split
    · exact kept rfl rfl
    · exact ⟨rfl,rfl⟩

theorem mapInit_ready : Stays (Ready hw hardware bank) (efuseMapInit env sel) := by
  intro s ready
  rw [efuseMapInit_run]
  cases hasMap env sel s with
  | false => exact ready
  | true => exact ready.withMap env sel

def HasCopy (hw : HwInfo) (hardware : Fuses → Prop) (bank : Bank) (map : Bytes) (s : Adapter) : Prop :=
  Ready hw hardware bank s ∧ Copies hw bank map (s.bank bank).cells

theorem readHwEfuse_copy : Triple (Ready hw hardware bank) (readHwEfuse env 0 size) (HasCopy hw hardware bank)
    (fun _ => Ready hw hardware bank) := by
  apply chain require_keeps
  intro _ s ready
  refine ⟨ready,?_⟩
  intro a _
  simp [ready.cellSel]

theorem deref_keeps (named : ∀ s a, inv s → p = some a → after a s) : Triple inv (deref p) after (fun _ => inv) := by
  cases p with
  | none => exact triple_fail fun _ holds => holds
  | some a => exact triple_pure fun s holds => named s a holds rfl

theorem current_run (s : Adapter) : current s = (.ok (s.bank s.info),s) := rfl

theorem at_current (rest : Triple (· = s) (f (s.bank s.info)) after failed) :
    Triple (· = s) (current >>= f) after failed := by
  intro s' here
  subst here
  exact rest s' rfl

theorem readEfuse_copy : Triple (Ready hw hardware bank) (readEfuse env 0 size) (HasCopy hw hardware bank)
    (fun _ => Ready hw hardware bank) := by
  refine triple_at fun s ready => at_current ?_
  rw [ready.info]
  apply triple_ite
  · intro valid
    obtain ⟨map,held,copies⟩ := (ready.sound.cached bank).phy valid
    rw [held]
    rintro s rfl
    exact ⟨ready,fun a inside => by simpa using copies a inside⟩
  · intro _
    exact at_use ready readHwEfuse_copy

theorem storePhyMap_ready : Triple (HasCopy hw hardware bank map) (storePhyMap map)
    (fun _ s => Ready hw hardware bank s ∧ (s.bank bank).phyMapValid) (fun _ => Ready hw hardware bank) := by
  intro s ⟨ready,copies⟩
  simp only [storePhyMap,bind_run,current_run]
  cases held : (s.bank s.info).phyMap with
  | none => exact ready
  | some old =>
    simp only [deref,pure_run,updateCurrent,change,ready.info]
    have cached := ready.sound.cached bank
    refine ⟨ready.setBank ⟨fun _ => ⟨map,rfl,copies⟩,fun valid => ⟨rfl,(cached.log valid).2⟩⟩ rfl rfl,?_⟩
    rw [setBank_same]

def Parsed (hw : HwInfo) (hardware : Fuses → Prop) (bank : Bank) (cfg : ParserCfg) (map : Bytes) (s : Adapter) : Prop :=
  Ready hw hardware bank s ∧ (s.bank bank).phyMapValid ∧
    freshParse hw bank (s.bank bank).cells cfg = .ok ⟨map,(s.bank bank).efuseEnd⟩

theorem Cached.setEnd (cached : Cached hw bank b) (fresh : freshParse hw bank b.cells cfg = .ok c) :
    Cached hw bank {b with efuseEnd:=c.efuseIdx} where
  phy valid := cached.phy valid
  log valid := by
    obtain ⟨phyValid,map,held,own⟩ := cached.log valid
    obtain ⟨logMap,other⟩ := eepromParser_cfg .map fresh
    have same : c.efuseIdx = b.efuseEnd := by
      have both := other.symm.trans own
      simp only [Except.ok.injEq,Cursor.mk.injEq] at both
      exact both.2
    exact ⟨phyValid,map,held,by rw [same]; exact own⟩

theorem parse_parsed : Triple (fun s => HasCopy hw hardware bank map s ∧ (s.bank bank).phyMapValid)
    (parse hw env map cfg) (Parsed hw hardware bank cfg) (fun _ => Ready hw hardware bank) := by
  intro s ⟨⟨ready,copies⟩,valid⟩
  simp only [parse,bind_run,look,ready.info]
  rw [bounded_copies copies]
  cases done : eepromParser (hw.shape bank) (bounded (hw.phyMapSize bank) env.beyond (s.bank bank).cells) cfg with
  | error logMap => exact ready
  | ok c =>
    have fresh := freshParse_of_parse done
    simp only [updateCurrent,change,bind_run,pure_run,ready.info]
    refine ⟨ready.setBank ((ready.sound.cached bank).setEnd fresh) rfl rfl,?_⟩
    rw [setBank_same]
    exact ⟨valid,fresh⟩

theorem storeLogMap_ready : Triple (Parsed hw hardware bank .map map) (storeLogMap map)
    (fun _ => Parsed hw hardware bank .map map) (fun _ => Ready hw hardware bank) := by
  intro s ⟨ready,valid,fresh⟩
  simp only [storeLogMap,bind_run,current_run]
  cases held : (s.bank s.info).logMap with
  | none => exact ready
  | some old =>
    simp only [deref,pure_run,updateCurrent,change,ready.info]
    have cached := ready.sound.cached bank
    refine ⟨ready.setBank ⟨cached.phy,fun _ => ⟨valid,map,rfl,fresh⟩⟩ rfl rfl,?_⟩
    rw [setBank_same]
    exact ⟨valid,fresh⟩

theorem at_deref (held : p = some a) (rest : Triple (· = s) (f a) after failed) :
    Triple (· = s) (deref p >>= f) after failed := by
  subst held
  exact rest

def PhyReady (hw : HwInfo) (hardware : Fuses → Prop) (bank : Bank) (s : Adapter) : Prop :=
  Ready hw hardware bank s ∧ (s.bank bank).phyMapValid

theorem with_phyMap
    (rest : ∀ map, Triple (fun s => HasCopy hw hardware bank map s ∧ (s.bank bank).phyMapValid) (f map) after failed) :
    Triple (PhyReady hw hardware bank) (current >>= fun b => deref b.phyMap >>= f) after failed := by
  refine triple_at fun s holds => at_current ?_
  obtain ⟨ready,valid⟩ := holds
  obtain ⟨map,held,copies⟩ := (ready.sound.cached bank).phy valid
  rw [ready.info]
  exact at_deref held (at_use ⟨⟨ready,copies⟩,valid⟩ (rest map))

theorem readMap_parsed : Triple (Ready hw hardware bank) (readLogEfuseMap hw env)
    (Parsed hw hardware bank .map) (fun _ => Ready hw hardware bank) := by
  refine triple_at fun s ready => at_look (at_current ?_)
  rw [ready.info]
  apply triple_ite
  · intro valid
    obtain ⟨phyValid,map,held,fresh⟩ := (ready.sound.cached bank).log valid
    rw [held]
    rintro s rfl
    exact ⟨ready,phyValid,fresh⟩
  · intro _
    have fill : Triple (· = s)
        (onlyIf (!(s.bank bank).phyMapValid) (require (env.alloc .localMap) .bufAlloc >>= fun _ =>
          readEfuse env 0 (hw.phyMapSize bank) >>= fun localMap => storePhyMap localMap))
        (fun _ => PhyReady hw hardware bank) (fun _ => Ready hw hardware bank) := by
      apply triple_onlyIf
      · intro _
        refine at_use ready (chain require_keeps fun _ => ?_)
        exact chain readEfuse_copy fun _ => storePhyMap_ready
      · rintro there s rfl
        exact ⟨ready,by simpa using there⟩
    refine chain fill fun _ => with_phyMap fun phyMap => ?_
    refine chain parse_parsed fun map => ?_
    exact chain storeLogMap_ready fun _ => triple_pure fun _ parsed => parsed

def Env.FwReads (hw : HwInfo) (env : Env) : Prop := ∀ bank cells, Copies hw bank (env.fwMap cells) cells

theorem dumpEfuseDrv_ready : Triple (Ready hw hardware bank) (dumpEfuseDrv hw env) (fun _ => PhyReady hw hardware bank)
    (fun _ => Ready hw hardware bank) := by
  refine triple_at fun s ready => at_look (at_current ?_)
  rw [ready.info]
  apply triple_onlyIf
  · intro _
    refine at_use ready (chain require_keeps fun _ => ?_)
    exact chain readHwEfuse_copy fun _ => storePhyMap_ready
  · rintro there s rfl
    exact ⟨ready,by simpa using there⟩

theorem dumpEfuseFw_ready (reads : env.FwReads hw) : Triple (Ready hw hardware bank) (dumpEfuseFw env)
    (fun _ => PhyReady hw hardware bank) (fun _ => Ready hw hardware bank) := by
  refine triple_at fun s ready => at_look (at_current ?_)
  rw [ready.info,ready.cellSel]
  have copy : HasCopy hw hardware bank (env.fwMap (s.bank bank).cells) s := ⟨ready,reads bank _⟩
  apply triple_onlyIf
  · intro _
    have kept : ∀ e t, HasCopy hw hardware bank (env.fwMap (s.bank bank).cells) t → (fun (_ : Stop) => Ready hw hardware bank) e t :=
      fun _ _ holds => holds.1
    refine at_use copy (chain (answered_keeps.weaken (fun _ _ holds => holds) kept) fun _ => ?_)
    refine chain (require_exit fun _ holds => holds.1) fun _ => ?_
    refine chain (answered_keeps.weaken (fun _ _ holds => holds) kept) fun _ => ?_
    exact storePhyMap_ready
  · rintro there s rfl
    exact ⟨ready,by simpa using there⟩

theorem procDumpEfuse_ready (reads : env.FwReads hw) : Triple (Ready hw hardware bank) (procDumpEfuse hw env cfg)
    (fun _ => PhyReady hw hardware bank) (fun _ => Ready hw hardware bank) := by
  refine triple_at fun s ready => at_look (at_use ready ?_)
  cases cfg with
  | auto => exact triple_ite (fun _ => dumpEfuseFw_ready reads) fun _ => dumpEfuseDrv_ready
  | fw => exact dumpEfuseFw_ready reads
  | drv => exact dumpEfuseDrv_ready
end Rtl8852au.Efuse
