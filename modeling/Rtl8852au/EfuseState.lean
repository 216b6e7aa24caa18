import Rtl8852au.EfuseCoherence

namespace Rtl8852au.Efuse
open Fallible Prog

variable {hw : HwInfo}

-- What the work inside an operation cannot change: it writes the contents of
-- banks and never takes a map away.
def Framed (inv : Adapter → Prop) : Prop :=
  ∀ s bank b, ((s.bank bank).phyMap.isSome → b.phyMap.isSome) → ((s.bank bank).logMap.isSome → b.logMap.isSome) → inv s →
    inv (s.setBank bank b)

section
variable {inv : Adapter → Prop} (framed : Framed inv)
include framed

theorem updateCurrent_framed (phy : ∀ b, b.phyMap.isSome → (f b).phyMap.isSome)
    (log : ∀ b, b.logMap.isSome → (f b).logMap.isSome) : Triple inv (updateCurrent f) (fun _ => inv) failed :=
  triple_change fun s holds => framed s s.info _ (phy _) (log _) holds

theorem parse_framed : Stays inv (parse hw env phyMap cfg) := by
  refine chain triple_look fun s => ?_
  cases eepromParser (hw.shape s.info) (bounded (hw.phyMapSize s.info) env.beyond phyMap) cfg with
  | error logMap => exact triple_fail fun _ holds => holds
  | ok c =>
    refine chain (updateCurrent_framed framed (fun _ held => held) fun _ held => held) fun _ => ?_
    exact triple_done

theorem storePhyMap_framed : Stays inv (storePhyMap map) := by
  refine chain current_keeps fun _ => chain derefs_keeps fun _ => ?_
  exact updateCurrent_framed framed (fun _ _ => rfl) fun _ held => held

theorem storeLogMap_framed : Stays inv (storeLogMap map) := by
  refine chain current_keeps fun _ => chain derefs_keeps fun _ => ?_
  exact updateCurrent_framed framed (fun _ held => held) fun _ _ => rfl

omit framed in
theorem readEfuse_keeps : Stays inv (readEfuse env offset size) := by
  refine chain current_keeps fun _ => triple_ite (fun _ => ?_) fun _ => readHwEfuse_keeps
  exact chain derefs_keeps fun _ => triple_done

theorem readLogEfuseMap_framed : Stays inv (readLogEfuseMap hw env) := by
  refine chain triple_look fun s => chain current_keeps fun b => triple_ite (fun _ => derefs_keeps) fun _ => ?_
  have fill : Stays inv (onlyIf (!b.phyMapValid) (require (env.alloc .localMap) .bufAlloc >>= fun _ =>
      readEfuse env 0 (hw.phyMapSize s.info) >>= fun localMap => storePhyMap localMap)) := by
    refine triple_maybe fun _ => ?_
    exact chain require_keeps fun _ => chain readEfuse_keeps fun _ => storePhyMap_framed framed
  refine chain fill fun _ => chain current_keeps fun _ => chain derefs_keeps fun _ => ?_
  refine chain (parse_framed framed) fun _ => chain (storeLogMap_framed framed) fun _ => ?_
  exact triple_done

theorem procDumpEfuse_framed : Stays inv (procDumpEfuse hw env cfg) := by
  have drv : Stays inv (dumpEfuseDrv hw env) := by
    refine chain triple_look fun s => chain current_keeps fun b => ?_
    refine triple_maybe fun _ => ?_
    exact chain require_keeps fun _ => chain readHwEfuse_keeps fun _ => storePhyMap_framed framed
  have fw : Stays inv (dumpEfuseFw env) := by
    refine chain triple_look fun s => chain current_keeps fun b => ?_
    refine triple_maybe fun _ => ?_
    refine chain answered_keeps fun _ => chain require_keeps fun _ => chain answered_keeps fun _ => ?_
    exact storePhyMap_framed framed
  refine chain triple_look fun s => ?_
  cases cfg with
  | auto => exact triple_ite (fun _ => fw) fun _ => drv
  | fw => exact fw
  | drv => exact drv

theorem writeHwEfuse_framed : Stays inv (writeHwEfuse env offset value) := by
  refine chain (updateCurrent_framed framed (fun _ held => held) fun _ held => held) fun _ => ?_
  have burns : Triple inv (change fun s => s.setBank s.cellSel (burn env offset value (s.bank s.cellSel))) (fun _ => inv)
      fun (_ : Stop) => inv := triple_change fun s holds => framed s s.cellSel _ (fun held => held) (fun held => held) holds
  refine chain burns fun _ => chain require_keeps fun _ => chain triple_look fun s => ?_
  refine triple_maybe fun _ => ?_
  exact chain readHwEfuse_keeps fun _ => require_keeps

theorem writeBytes_framed : Stays inv (writeBytes env offset bytes) := by
  induction bytes generalizing offset with
  | nil => exact triple_done
  | cons byte rest ih => exact chain (writeHwEfuse_framed framed) fun _ => ih

theorem procWriteLogEfuse_framed : Stays inv (procWriteLogEfuse hw env offset value) := by
  refine chain require_keeps fun _ => chain triple_look fun s => ?_
  refine chain (readLogEfuseMap_framed framed) fun logMap => ?_
  refine triple_maybe fun _ => ?_
  exact chain current_keeps fun _ => chain require_keeps fun _ => writeBytes_framed framed

theorem updateEepromMask_framed : Stays inv (updateEepromMask hw env info pgSim) := by
  refine chain require_keeps fun _ => chain current_keeps fun b => ?_
  refine triple_ite (fun _ => chain derefs_keeps fun map => ?_) fun _ => chain (readLogEfuseMap_framed framed) fun map => ?_
  all_goals
    refine chain require_keeps fun _ => chain current_keeps fun _ => chain derefs_keeps fun _ => ?_
    exact chain (parse_framed framed) fun _ => chain within_keeps fun _ => triple_done

theorem procPgEfuse_framed : Stays inv (procPgEfuse hw env info pre offset pgSim) := by
  have moveEnd : ∀ {n}, Stays inv (updateCurrent fun b => {b with efuseEnd:=b.efuseEnd + n}) :=
    updateCurrent_framed framed (fun _ held => held) fun _ held => held
  refine chain current_keeps fun b => triple_ite (fun _ => ?_) fun _ => ?_
  · refine chain derefs_keeps fun _ => ?_
    refine chain (updateCurrent_framed framed (fun _ _ => rfl) fun _ held => held) fun _ => moveEnd
  · exact chain (writeBytes_framed framed) fun _ => moveEnd

theorem programEfuse_framed : Stays inv (programEfuse hw env info updatedMask pgSim) := by
  apply triple_each fun _ => inv
  intro done blk rest _
  exact triple_maybe fun _ => procPgEfuse_framed framed

theorem procPgEfuseByMap_framed : Stays inv (procPgEfuseByMap hw env info) := by
  refine chain require_keeps fun _ => chain (updateEepromMask_framed framed) fun _ => ?_
  exact chain checkEfuseEnough_keeps fun _ => programEfuse_framed framed

theorem setCheckSumVal_framed : Stays inv (setCheckSumVal hw env map value) := by
  refine chain triple_look fun _ => chain current_keeps fun _ => chain require_keeps fun _ => ?_
  exact chain (writeBytes_framed framed) fun _ => chain require_keeps fun _ => writeBytes_framed framed

theorem simulate_framed : Stays inv (simulate hw env info phyMap) := by
  have load : Stays inv (parseInPlace hw env phyMap) := by
    refine chain triple_look fun s => ?_
    cases eepromParser (hw.shape s.info) (bounded (hw.phyMapSize s.info) env.beyond phyMap) .map with
    | error logMap =>
      refine chain (updateCurrent_framed framed (fun _ held => held) fun _ _ => rfl) fun _ => ?_
      exact triple_fail fun _ holds => holds
    | ok c => exact updateCurrent_framed framed (fun _ held => held) fun _ _ => rfl
  refine chain load fun _ => chain (updateCurrent_framed framed (fun _ _ => rfl) fun _ held => held) fun _ => ?_
  refine chain require_keeps fun _ => chain (updateEepromMask_framed framed) fun updatedMask => ?_
  refine chain checkEfuseEnough_keeps fun _ => chain (programEfuse_framed framed) fun _ => ?_
  refine chain current_keeps fun _ => chain derefs_keeps fun _ => chain triple_look fun _ => ?_
  refine chain within_keeps fun _ => chain (parse_framed framed) fun _ => ?_
  refine chain (updateCurrent_framed framed (fun _ held => held) fun _ held => held) fun _ => ?_
  exact triple_done
end

theorem cnvEfuseState_run (dest : SmEfuse) (s : Adapter) : cnvEfuseState dest s =
    if s.efuse ≠ dest ∧ (dest = .idle ∨ s.efuse = .idle) then (.ok (),{s with efuse:=dest}) else (.error (.ret .procErr),s) := by
  simp only [cnvEfuseState,bind_run,look,require,check_run,change]
  by_cases same : s.efuse = dest
  · simp [same]
  · by_cases away : dest = .idle ∨ s.efuse = .idle
    · simp [same,away]
    · simp [same,away]

def Busy (dest : SmEfuse) (s : Adapter) : Prop := s.efuse = dest
theorem busy_framed : Framed (Busy dest) := fun _ _ _ _ _ busy => busy

-- A call that returns a code leaves the state idle. A fault does not return.
def Leaves (e : Stop) (s : Adapter) : Prop := e ≠ .fault → s.efuse = .idle
def OnWifi (s : Adapter) : Prop := s.cellSel = .wifi ∧ s.info = .wifi
theorem phy_busy : SmEfuse.phy ≠ .idle := nofun
theorem logMap_busy : SmEfuse.logMap ≠ .idle := nofun

section
variable {m : Call α} {f : Unit → Call α} {keep : Adapter → Prop}

theorem idle_leaves (busy : dest ≠ .idle) (inner : Triple before m after fun _ => Busy dest) :
    Triple before (orIdle m) after Leaves := by
  apply triple_handle inner
  intro e
  cases e with
  | fault => exact triple_fail fun _ _ returned => (returned rfl).elim
  | ret code =>
    intro s held
    have away : s.efuse ≠ .idle := by rw [held]; exact busy
    simp only [bind_run,cnvEfuseState_run,away,true_or,and_true,ne_eq,not_false_eq_true,if_true,fail]
    exact fun _ => rfl

theorem release (busy : dest ≠ .idle) (blind : ∀ s efuse, keep s → keep {s with efuse}) :
    Triple (fun s => Busy dest s ∧ keep s) (cnvEfuseState .idle) (fun _ s => s.efuse = .idle ∧ keep s) Leaves := by
  intro s ⟨held,kept⟩
  have away : s.efuse ≠ .idle := by rw [held]; exact busy
  simp only [cnvEfuseState_run,away,true_or,and_true,ne_eq,not_false_eq_true,if_true,true_and]
  exact blind s .idle kept

theorem derefs_leaves {before : Adapter → Prop} : Triple before (deref p) (fun _ => before) Leaves := by
  cases p with
  | none => exact triple_fail fun _ _ returned => (returned rfl).elim
  | some a => exact triple_done

theorem back_leaves (busy : dest ≠ .idle) : Triple (Busy dest) (orIdle (switchEfuseBank env .wifi))
    (fun _ s => Busy dest s ∧ OnWifi s) Leaves := by
  apply idle_leaves busy
  intro s held
  rw [switchEfuseBank_run]
  cases canSwitch env .wifi s with
  | false => exact held
  | true => exact ⟨held,rfl,rfl⟩

def Exits (stuck : Bool) (e : Stop) (s : Adapter) : Prop :=
  match stuck with
  | true => e ≠ .fault ∧ s.efuse ≠ .idle
  | false => Leaves e s

def Ends (stuck : Bool) (keep : Adapter → Prop) (m : Call α) (s : Adapter) : Prop :=
  Triple (· = s) m (fun _ t => stuck = false ∧ t.efuse = .idle ∧ keep t) (Exits stuck)

theorem exits_leaves (free : stuck = false) (rest : Triple before m (fun _ s => s.efuse = .idle ∧ keep s) Leaves) :
    Triple before m (fun _ t => stuck = false ∧ t.efuse = .idle ∧ keep t) (Exits stuck) := by
  subst free
  exact rest.post (fun _ _ ended => ⟨rfl,ended⟩)

theorem exits_refused (idle : s.efuse = .idle) (free : stuck = false) : Exits stuck e s := by
  subst free
  exact fun _ => idle

theorem exits_stuck (away : s.efuse ≠ .idle) (wedged : stuck = true) : Exits stuck (.ret code) s := by
  subst wedged
  exact ⟨by simp,away⟩

theorem enter_exits (idle : s.efuse = .idle) (busy : dest ≠ .idle)
    (passed : canSwitch env bank s →
      Triple (fun s' => s' = {s with efuse:=dest,cellSel:=bank,info:=bank}) (f ()) after (Exits stuck))
    (refused : canSwitch env bank s = false → stuck = false) :
    Triple (· = s)
      (efuseProcCk >>= fun _ => cnvEfuseState dest >>= fun _ => orIdle (switchEfuseBank env bank) >>= f) after (Exits stuck) := by
  rintro s rfl
  have away : SmEfuse.idle ≠ dest := fun same => busy same.symm
  simp only [efuseProcCk,look,require,check_run,bind_run,cnvEfuseState_run,idle,away,or_true,ne_eq,not_false_eq_true,and_self,if_true,
    beq_self_eq_true]
  simp only [orIdle,handle,switchEfuseBank_run]
  cases able : canSwitch env bank s with
  | true =>
    have same : canSwitch env bank {s with efuse:=dest} := able
    rw [same]
    exact passed able _ rfl
  | false =>
    have same : canSwitch env bank {s with efuse:=dest} = false := able
    rw [same]
    simp only [bind_run,cnvEfuseState_run,busy,true_or,ne_eq,not_false_eq_true,and_self,if_true,fail,Bool.false_eq_true,if_false]
    exact exits_refused rfl (refused able)

def mapsMissing (env : Env) (bank : Bank) (s : Adapter) : Bool := !(hasMap env (.phy bank) s && hasMap env (.log bank) s)

theorem hasMap_log_phy : hasMap env (.log bank) (s.withMap env (.phy bank)) = hasMap env (.log bank) s := by
  simp only [hasMap,Adapter.withMap]
  split
  · rw [setBank_same]
  · rfl

theorem hasMap_phy_log : hasMap env (.phy bank) (s.withMap env (.log bank)) = hasMap env (.phy bank) s := by
  simp only [hasMap,Adapter.withMap]
  split
  · rw [setBank_same]
  · rfl

theorem map_exits (away : s.efuse ≠ .idle) (missing : stuck = !hasMap env sel s)
    (work : Triple (· = s.withMap env sel) (f ()) (fun _ t => t.efuse = .idle ∧ keep t) Leaves) :
    Triple (· = s) (efuseMapInit env sel >>= f) (fun _ t => stuck = false ∧ t.efuse = .idle ∧ keep t) (Exits stuck) := by
  refine at_mapInit (fun there => exits_leaves ?_ work) fun gone => exits_stuck away ?_
  · simp [missing,there]
  · simp [missing,gone]

theorem maps_exits (away : s.efuse ≠ .idle) (apart : hasMap env two (s.withMap env one) = hasMap env two s)
    (missing : stuck = !(hasMap env one s && hasMap env two s))
    (work : Triple (fun s' => s' = (s.withMap env one).withMap env two) (f ()) (fun _ t => t.efuse = .idle ∧ keep t) Leaves) :
    Triple (· = s) (efuseMapInit env one >>= fun _ => efuseMapInit env two >>= f)
      (fun _ t => stuck = false ∧ t.efuse = .idle ∧ keep t) (Exits stuck) := by
  refine at_mapInit (fun there => map_exits ?_ ?_ work) fun gone => exits_stuck away ?_
  · rw [withMap_efuse]
    exact away
  · rw [apart,missing,there,Bool.true_and]
  · simp [missing,gone]
end

def readable (cfg : ReadCfg) (s : Adapter) : Bool := !(cfg == .fw && !s.fwdlReady)
def anyBank (_ : Adapter) : Prop := True

section
variable {m : Call α} {f : Unit → Call α}

theorem checkRead_exits (idle : s.efuse = .idle)
    (passed : readable cfg s → Triple (· = s) (f ()) after (Exits stuck))
    (refused : readable cfg s = false → stuck = false) : Triple (· = s) (checkRead cfg >>= f) after (Exits stuck) := by
  rintro s rfl
  simp only [checkRead,bind_run,look,require,check_run]
  cases able : readable cfg s with
  | false =>
    simp only [readable] at able
    simp only [able,Bool.false_eq_true,if_false]
    exact exits_refused idle (refused able)
  | true =>
    have holds := able
    simp only [readable] at holds
    simp only [holds,if_true]
    exact passed able s rfl

theorem at_busy {s : Adapter} (held : s.efuse = dest) (rest : Triple (Busy dest) m after failed) :
    Triple (· = s) m after failed := at_use held rest

theorem valued {m : Call Unit} {value : α} (base : Triple before m (fun _ => post) failed) :
    Triple before (m >>= fun _ => pure value) (fun _ => post) failed := chain base fun _ => triple_done

theorem release_wl (busy : dest ≠ .idle) : Triple (Busy dest) (cnvEfuseState .idle) (fun _ s => s.efuse = .idle ∧ anyBank s)
    Leaves :=
  triple_mono (fun _ held => ⟨held,trivial⟩) (release busy fun _ _ _ => trivial) (fun _ _ ended => ended) fun _ _ left => left

theorem release_bt (busy : dest ≠ .idle) : Triple (Busy dest) (orIdle (switchEfuseBank env .wifi) >>= fun _ => cnvEfuseState .idle)
    (fun _ s => s.efuse = .idle ∧ OnWifi s) Leaves :=
  chain (back_leaves busy) fun _ => release busy fun _ _ kept => kept

theorem valued_bt {value : α} (busy : dest ≠ .idle) :
    Triple (Busy dest) (orIdle (switchEfuseBank env .wifi) >>= fun _ => cnvEfuseState .idle >>= fun _ => pure value)
      (fun _ s => s.efuse = .idle ∧ OnWifi s) Leaves :=
  chain (back_leaves busy) fun _ => valued (release busy fun _ _ kept => kept)

theorem back_maybe (busy : dest ≠ .idle) (bank : Bank) :
    Triple (Busy dest) (onlyIf (bank == .bt) (orIdle (switchEfuseBank env .wifi)))
      (fun _ s => Busy dest s ∧ (bank = .bt → OnWifi s)) Leaves := by
  refine triple_onlyIf (fun _ => ?_) fun wifi s held => ⟨held,fun bt => by simp [bt] at wifi⟩
  exact (back_leaves busy).post (fun _ _ kept => ⟨kept.1,fun _ => kept.2⟩)

theorem release_maybe (busy : dest ≠ .idle) (bank : Bank) :
    Triple (fun s => Busy dest s ∧ (bank = .bt → OnWifi s)) (cnvEfuseState .idle)
      (fun _ s => s.efuse = .idle ∧ (bank = .bt → OnWifi s)) Leaves := release busy fun _ _ kept => kept
end

theorem queryPhyMap_leaves : Triple (Busy dest) (queryPhyMap hw) (fun _ => Busy dest) Leaves :=
  chain triple_look fun _ => chain (chain triple_look fun _ => triple_done) fun _ => chain derefs_leaves fun _ => triple_done

theorem queryLogMap_leaves : Triple (Busy dest) (queryLogMap hw isLimit) (fun _ => Busy dest) Leaves :=
  chain triple_look fun _ => chain (chain triple_look fun _ => triple_done) fun _ => chain derefs_leaves fun _ => triple_done

theorem phyDump_ends (idle : s.efuse = .idle)
    (leaves : Triple (Busy .phy) (f ()) (fun _ t => t.efuse = .idle ∧ keep t) Leaves) :
    Ends (readable cfg s && canSwitch env bank s && !hasMap env (.phy bank) s) keep
      (checkRead cfg >>= fun _ => efuseProcCk >>= fun _ => cnvEfuseState .phy >>= fun _ => orIdle (switchEfuseBank env bank) >>=
        fun _ => efuseMapInit env (.phy bank) >>= fun _ => orIdle (procDumpEfuse hw env cfg) >>= f) s := by
  refine checkRead_exits idle (fun reads => ?_) fun no => by simp [no]
  refine enter_exits idle phy_busy (fun able => ?_) fun no => by simp [no]
  refine map_exits phy_busy (by rw [reads,able]; rfl) (at_busy withMap_efuse ?_)
  exact chain (idle_leaves phy_busy (procDumpEfuse_framed busy_framed)) fun _ => leaves

theorem macDumpEfuseMapWl_ends (idle : s.efuse = .idle) :
    Ends (readable cfg s && canSwitch env .wifi s && !hasMap env (.phy .wifi) s) anyBank (macDumpEfuseMapWl hw env cfg) s :=
  phyDump_ends idle (chain queryPhyMap_leaves fun _ => valued (release_wl phy_busy))

theorem macDumpEfuseMapBt_ends (idle : s.efuse = .idle) :
    Ends (readable cfg s && canSwitch env .bt s && !hasMap env (.phy .bt) s) OnWifi (macDumpEfuseMapBt hw env cfg) s :=
  phyDump_ends idle (chain queryPhyMap_leaves fun _ => valued_bt phy_busy)

theorem macReadEfuse_ends (idle : s.efuse = .idle) :
    Ends false (fun s => bank = .bt → OnWifi s) (macReadEfuse hw env addr size bank) s := by
  refine at_look (at_require (fun _ => ?_) fun _ => exits_refused idle rfl)
  refine enter_exits idle phy_busy (fun able => ?_) fun _ => rfl
  refine exits_leaves rfl (at_busy rfl ?_)
  refine chain (idle_leaves phy_busy readHwEfuse_keeps) fun _ => chain (back_maybe phy_busy bank) fun _ => ?_
  exact valued (release_maybe phy_busy bank)

theorem macWriteEfuse_ends (idle : s.efuse = .idle) :
    Ends false (fun s => bank = .bt → OnWifi s) (macWriteEfuse hw env addr val bank) s := by
  refine at_look (at_require (fun _ => ?_) fun _ => exits_refused idle rfl)
  refine enter_exits idle phy_busy (fun able => ?_) fun _ => rfl
  refine exits_leaves rfl (at_busy rfl ?_)
  refine chain (idle_leaves phy_busy (writeHwEfuse_framed busy_framed)) fun _ => chain (back_maybe phy_busy bank) fun _ => ?_
  exact release_maybe phy_busy bank

theorem fillLogMap_leaves (busy : dest ≠ .idle) : Triple (Busy dest) (fillLogMap hw env parserCfg cfg) (fun _ => Busy dest)
    Leaves := by
  have here : Triple (Busy dest) current (fun _ => Busy dest) Leaves := chain triple_look fun _ => triple_done
  refine chain here fun _ => triple_maybe fun _ => ?_
  refine chain (idle_leaves busy (procDumpEfuse_framed busy_framed)) fun _ => chain here fun b => ?_
  refine triple_maybe fun _ => ?_
  refine chain (idle_leaves busy require_keeps) fun _ => chain derefs_leaves fun phyMap => ?_
  refine chain (idle_leaves busy (parse_framed busy_framed)) fun map => chain here fun _ => ?_
  exact chain derefs_leaves fun _ => updateCurrent_framed busy_framed (fun _ held => held) fun _ _ => rfl

theorem logDump_ends (idle : s.efuse = .idle)
    (leaves : Triple (Busy .logMap) (f ()) (fun _ t => t.efuse = .idle ∧ keep t) Leaves) :
    Ends (readable cfg s && canSwitch env bank s && mapsMissing env bank s) keep
      (checkRead cfg >>= fun _ => efuseProcCk >>= fun _ => cnvEfuseState .logMap >>= fun _ => orIdle (switchEfuseBank env bank) >>=
        fun _ => efuseMapInit env (.log bank) >>= fun _ => efuseMapInit env (.phy bank) >>= fun _ =>
          fillLogMap hw env parserCfg cfg >>= f) s := by
  refine checkRead_exits idle (fun reads => ?_) fun no => by simp [no]
  refine enter_exits idle logMap_busy (fun able => ?_) fun no => by simp [no]
  refine maps_exits logMap_busy hasMap_phy_log (by rw [reads,able]; exact congrArg not (Bool.and_comm _ _))
    (at_busy (withMap_efuse.trans withMap_efuse) ?_)
  exact chain (fillLogMap_leaves logMap_busy) fun _ => leaves

theorem macDumpLogEfuse_ends (idle : s.efuse = .idle) :
    Ends (readable cfg s && canSwitch env .wifi s && mapsMissing env .wifi s) anyBank
      (macDumpLogEfuse hw env parserCfg cfg isLimit) s :=
  logDump_ends idle (chain queryLogMap_leaves fun _ => valued (release_wl logMap_busy))

theorem macDumpLogEfuseBt_ends (idle : s.efuse = .idle) :
    Ends (readable cfg s && canSwitch env .bt s && mapsMissing env .bt s) OnWifi (macDumpLogEfuseBt hw env parserCfg cfg) s :=
  logDump_ends idle (chain queryLogMap_leaves fun _ => valued_bt logMap_busy)

-- A caller of an operation that has nothing to release after it.
section
variable {m : Call α} {f : α → Call β}

theorem then_exits (first : Ends stuck keep m s) (rest : ∀ a, Triple (fun t => t.efuse = .idle ∧ keep t) (f a)
      (fun _ t => t.efuse = .idle ∧ keep' t) Leaves) : Ends stuck keep' (m >>= f) s := by
  refine chain first fun a => ?_
  cases stuck with
  | true => exact fun _ wedged => by simp at wedged
  | false => refine triple_mono (fun _ holds => holds.2) (rest a) (fun _ _ ended => ⟨rfl,ended⟩) fun _ _ left => left
end

theorem macGetEfuseAvlSize_ends (idle : s.efuse = .idle) :
    Ends (env.alloc .caller && canSwitch env .wifi s && mapsMissing env .wifi s) anyBank (macGetEfuseAvlSize hw env) s := by
  refine at_require (fun alloc => ?_) fun no => exits_refused idle (by simp [no])
  rw [alloc,Bool.true_and]
  refine then_exits (macDumpLogEfuse_ends idle) fun _ => chain triple_look fun _ => ?_
  exact triple_done

theorem macGetEfuseAvlSizeBt_ends (idle : s.efuse = .idle) :
    Ends (env.alloc .caller && canSwitch env .bt s && mapsMissing env .bt s) OnWifi (macGetEfuseAvlSizeBt hw env) s := by
  refine at_require (fun alloc => ?_) fun no => exits_refused idle (by simp [no])
  rw [alloc,Bool.true_and]
  refine then_exits (macDumpLogEfuseBt_ends idle) fun _ => chain triple_look fun _ => ?_
  exact triple_done

structure Held (s : Adapter) : Prop where
  wifi : OnWifi s
  phyMap : (s.bank .wifi).phyMap.isSome
  logMap : (s.bank .wifi).logMap.isSome

theorem held_framed : Framed (fun s => Busy dest s ∧ Held s) := by
  intro s bank b phy log ⟨busy,held⟩
  refine ⟨busy,held.wifi,?_,?_⟩
  · cases bank with
    | wifi => rw [setBank_same]; exact phy held.phyMap
    | bt => rw [setBank_other (by decide)]; exact held.phyMap
  · cases bank with
    | wifi => rw [setBank_same]; exact log held.logMap
    | bt => rw [setBank_other (by decide)]; exact held.logMap

theorem withMaps_held (wifi : OnWifi s) : Held ((s.withMap env (.phy .wifi)).withMap env (.log .wifi)) where
  wifi := by
    have kept : ∀ sel (t : Adapter),OnWifi t → OnWifi (t.withMap env sel) := by
      intro sel t there
      cases sel with
      | phy bank =>
        simp only [Adapter.withMap]
        split <;> exact there
      | log bank =>
        simp only [Adapter.withMap]
        split <;> exact there
    exact kept _ _ (kept _ _ wifi)
  phyMap := by
    rw [withMap_log_phy]
    exact withMap_phy_some
  logMap := withMap_log_some

theorem at_held {m : Call α} (state : s.efuse = dest) (held : Held s)
    (rest : Triple (fun s => Busy dest s ∧ Held s) m after failed) : Triple (· = s) m after failed :=
  at_use ⟨state,held⟩ rest

theorem copyChecked_leaves {before : Adapter → Prop} : Triple before (copyChecked map addr size efuseSize) (fun _ => before)
    Leaves :=
  triple_ite (fun _ => triple_done) fun _ => triple_fail fun _ _ returned => (returned rfl).elim

theorem macReadLogEfuse_ends (idle : s.efuse = .idle) :
    Ends (canSwitch env .wifi s && (!inRange addr size hw.logEfuseSize || mapsMissing env .wifi s))
      (fun s => Held s ∧ inRange addr size hw.logEfuseSize = true) (macReadLogEfuse hw env addr size) s := by
  refine enter_exits idle logMap_busy (fun able => ?_) fun no => by simp [no]
  refine at_require (fun inside => ?_) fun outside => exits_stuck logMap_busy (by simp [able,outside])
  refine maps_exits logMap_busy hasMap_log_phy (by rw [able,inside]; rfl) (at_held (withMap_efuse.trans withMap_efuse) (withMaps_held ⟨rfl,rfl⟩) ?_)
  refine chain (idle_leaves logMap_busy (triple_exit require_keeps fun _ kept => kept.1)) fun _ => ?_
  refine chain (idle_leaves logMap_busy (triple_exit (readLogEfuseMap_framed held_framed) fun _ kept => kept.1)) fun _ => ?_
  have blind : ∀ s efuse, Held s → Held {s with efuse} := fun _ _ kept => ⟨kept.wifi,kept.phyMap,kept.logMap⟩
  refine chain copyChecked_leaves fun _ => valued ?_
  exact (release logMap_busy blind).post (fun _ _ ended => ⟨ended.1,ended.2,inside⟩)

theorem macWriteLogEfuse_ends (idle : s.efuse = .idle) :
    Ends (canSwitch env .wifi s && (!decide (addr.toNat < hw.logEfuseSize) || mapsMissing env .wifi s)) anyBank
      (macWriteLogEfuse hw env addr val) s := by
  refine enter_exits idle logMap_busy (fun able => ?_) fun no => by simp [no]
  refine at_require (fun inside => ?_) fun outside => exits_stuck logMap_busy (by simp [able,outside])
  refine maps_exits logMap_busy hasMap_log_phy (by rw [able,inside]; rfl) (at_busy (withMap_efuse.trans withMap_efuse) ?_)
  exact chain (idle_leaves logMap_busy (procWriteLogEfuse_framed busy_framed)) fun _ => release_wl logMap_busy

theorem macReadLogEfuseBt_ends (idle : s.efuse = .idle) :
    Ends (inRange addr size hw.btLogEfuseSize && canSwitch env .bt s && mapsMissing env .bt s) OnWifi
      (macReadLogEfuseBt hw env addr size) s := by
  refine at_require (fun inside => ?_) fun outside => exits_refused idle (by simp [outside])
  refine enter_exits idle logMap_busy (fun able => ?_) fun no => by simp [no]
  refine maps_exits logMap_busy hasMap_log_phy (by rw [inside,able]; rfl) (at_busy (withMap_efuse.trans withMap_efuse) ?_)
  refine chain (idle_leaves logMap_busy require_keeps) fun _ => ?_
  refine chain (idle_leaves logMap_busy (readLogEfuseMap_framed busy_framed)) fun _ => chain copyChecked_leaves fun _ => ?_
  exact valued_bt logMap_busy

theorem macWriteLogEfuseBt_ends (idle : s.efuse = .idle) :
    Ends (decide (addr.toNat < hw.logEfuseSize) && canSwitch env .bt s && mapsMissing env .bt s) OnWifi
      (macWriteLogEfuseBt hw env addr val) s := by
  refine at_require (fun inside => ?_) fun outside => exits_refused idle (by simp [outside])
  refine enter_exits idle logMap_busy (fun able => ?_) fun no => by simp [no]
  refine maps_exits logMap_busy hasMap_log_phy (by rw [inside,able]; rfl) (at_busy (withMap_efuse.trans withMap_efuse) ?_)
  refine chain (idle_leaves logMap_busy (procWriteLogEfuse_framed busy_framed)) fun _ => ?_
  exact release_bt logMap_busy

def pgChecked (args : PgArgs) (mapSize : Nat) : Option PgInfo :=
  if args.efuseMapSize == mapSize && args.efuseMapSize &&& 0xF == 0 && args.efuseMaskSize == args.efuseMapSize>>>4 then
    match args.efuseMap,args.efuseMask with
    | some efuseMap,some efuseMask => some {efuseMap,efuseMapSize:=args.efuseMapSize,efuseMask,efuseMaskSize:=args.efuseMaskSize}
    | _,_ => none
  else none

theorem checkPgArgs_exits (idle : s.efuse = .idle)
    (passed : ∀ info, pgChecked args mapSize = some info → Triple (· = s) (f info) after (Exits stuck))
    (refused : pgChecked args mapSize = none → stuck = false) :
    Triple (· = s) (checkPgArgs args mapSize >>= f) after (Exits stuck) := by
  rintro s rfl
  simp only [checkPgArgs,bind_run,require,check_run]
  cases size : args.efuseMapSize == mapSize with
  | false => exact exits_refused idle (refused (by simp [pgChecked,size]))
  | true =>
    cases whole : args.efuseMapSize &&& 0xF == 0 with
    | false => exact exits_refused idle (refused (by simp [pgChecked,whole]))
    | true =>
      cases maskSize : args.efuseMaskSize == args.efuseMapSize>>>4 with
      | false => exact exits_refused idle (refused (by simp [pgChecked,maskSize]))
      | true =>
        have checked : pgChecked args mapSize = match args.efuseMap,args.efuseMask with
            | some efuseMap,some efuseMask => some {efuseMap,efuseMapSize:=args.efuseMapSize,efuseMask,efuseMaskSize:=args.efuseMaskSize}
            | _,_ => none := by
          simp only [pgChecked,size,whole,maskSize,Bool.and_self,if_true]
        rw [checked] at passed refused
        cases map : args.efuseMap with
        | none => exact exits_refused idle (refused (by rw [map]))
        | some efuseMap =>
          cases mask : args.efuseMask with
          | none => exact exits_refused idle (refused (by rw [map,mask]))
          | some efuseMask => exact passed _ (by rw [map,mask]) s rfl

theorem macPgEfuseByMap_ends (idle : s.efuse = .idle) :
    Ends ((pgChecked args (pgMapSize hw isLimit)).any (fun info => sameVersion info hw.efuseVersionSize) &&
      canSwitch env .wifi s && mapsMissing env .wifi s) anyBank (macPgEfuseByMap hw env args part isLimit) s := by
  refine checkPgArgs_exits idle (fun info checked => ?_) fun none => by simp [none]
  rw [checked,Option.any_some]
  refine at_require (fun version => ?_) fun other => exits_refused idle (by simp [other])
  refine enter_exits idle phy_busy (fun able => ?_) fun no => by simp [no]
  refine maps_exits phy_busy hasMap_log_phy (by rw [version,able]; rfl) (at_busy (withMap_efuse.trans withMap_efuse) ?_)
  exact chain (idle_leaves phy_busy (procPgEfuseByMap_framed busy_framed)) fun _ => release_wl phy_busy

theorem macPgEfuseByMapBt_ends (idle : s.efuse = .idle) : Ends false OnWifi (macPgEfuseByMapBt hw env args) s := by
  refine checkPgArgs_exits idle (fun info _ => ?_) fun _ => rfl
  refine enter_exits idle phy_busy (fun able => ?_) fun _ => rfl
  refine exits_leaves rfl (at_busy rfl ?_)
  refine chain (idle_leaves phy_busy (procPgEfuseByMap_framed busy_framed)) fun _ => ?_
  exact release_bt phy_busy

theorem macMaskLogEfuse_ends (idle : s.efuse = .idle) : Ends false anyBank (macMaskLogEfuse hw args) s := by
  refine checkPgArgs_exits idle (fun info _ => ?_) fun _ => rfl
  exact triple_pure fun s here => ⟨rfl,here ▸ idle,trivial⟩

theorem macPgSecDataByMap_ends (idle : s.efuse = .idle) : Ends false anyBank (macPgSecDataByMap hw env args) s := by
  refine at_require (fun _ => ?_) fun _ => exits_refused idle rfl
  cases args.efuseMap with
  | none => exact triple_fail fun _ here => exits_refused (here ▸ idle) rfl
  | some mapPg =>
    refine enter_exits idle phy_busy (fun able => ?_) fun _ => rfl
    refine exits_leaves rfl (at_busy rfl ?_)
    have loop : Triple (Busy .phy) (each (fun i => orIdle (writeHwEfuse env (macAddrSize + i + hw.efuseSize)
        (mapPg (macAddrSize+i)))) (List.range (hw.secDataEfuseSize-macAddrSize))) (fun _ => Busy .phy) Leaves := by
      apply triple_each fun _ => Busy .phy
      exact fun _ _ _ _ => idle_leaves phy_busy (writeHwEfuse_framed busy_framed)
    exact chain loop fun _ => release_wl phy_busy

theorem cnvIdle_leaves : Triple (fun s => Busy .phy s ∨ Busy .idle s) (cnvEfuseState .idle) (fun _ => Busy .idle) Leaves := by
  intro s held
  rw [cnvEfuseState_run]
  rcases held with phy | idle
  · have away : s.efuse ≠ .idle := by rw [phy]; decide
    simp only [away,ne_eq,not_false_eq_true,true_or,and_self,if_true]
    rfl
  · simp only [Busy] at idle
    simp only [idle,ne_eq,not_true_eq_false,false_and,if_false]
    exact fun _ => idle

theorem cmpSecData_leaves : Triple (fun s => Busy .phy s ∨ Busy .idle s) (cmpSecData env startAddr indices mapPg)
    (fun _ s => Busy .phy s ∨ Busy .idle s) Leaves := by
  induction indices generalizing mapPg with
  | nil => exact triple_done
  | cons k rest ih =>
    unfold cmpSecData
    cases env.compare (2*k+startAddr) with
    | same => exact ih
    | different => exact ih
    | timeout =>
      refine chain cnvIdle_leaves fun _ => ?_
      exact triple_mono (fun _ idle => .inr idle) ih (fun _ _ holds => holds) fun _ _ left => left

theorem macCmpSecDataByMap_ends (idle : s.efuse = .idle) : Ends false anyBank (macCmpSecDataByMap hw env args) s := by
  refine at_require (fun _ => ?_) fun _ => exits_refused idle rfl
  cases args.efuseMap with
  | none => exact triple_fail fun _ here => exits_refused (here ▸ idle) rfl
  | some mapPg =>
    refine enter_exits idle phy_busy (fun able => ?_) fun _ => rfl
    have compared : Triple (Busy .phy) (cmpSecData env hw.efuseSize (List.range ((hw.secDataEfuseSize+1)/2)) mapPg)
        (fun _ s => Busy .phy s ∨ Busy .idle s) Leaves :=
      triple_mono (fun _ held => .inl held) cmpSecData_leaves (fun _ _ holds => holds) fun _ _ left => left
    refine exits_leaves rfl (at_busy rfl (chain compared fun _ => valued ?_))
    exact cnvIdle_leaves.post (fun _ _ idle => ⟨idle,trivial⟩)

theorem macReadHiddenRpt_ends (idle : s.efuse = .idle) :
    Ends (canSwitch env .wifi s && !hasMap env (.phy .wifi) s) anyBank (macReadHiddenRpt env) s := by
  refine enter_exits idle phy_busy (fun able => ?_) fun no => by simp [no]
  refine map_exits phy_busy (by rw [able]; rfl) (at_busy withMap_efuse ?_)
  exact chain (idle_leaves phy_busy answered_keeps) fun _ => release_wl phy_busy

theorem macChecksumUpdate_ends (idle : s.efuse = .idle) :
    Ends (env.alloc .caller && canSwitch env .wifi s && mapsMissing env .wifi s) anyBank (macChecksumUpdate hw env) s := by
  refine at_require (fun alloc => ?_) fun no => exits_refused idle (by simp [no])
  rw [alloc,Bool.true_and]
  refine then_exits (macDumpLogEfuse_ends idle) fun _ => chain triple_look fun s => ?_
  refine chain derefs_leaves fun logMap => ?_
  exact triple_mono (fun _ ended => ended.1) (setCheckSumVal_framed busy_framed) (fun _ _ held => ⟨held,trivial⟩) fun _ _ held _ => held

theorem Ends.leaves (ends : Ends stuck keep m s) (free : stuck = false) :
    Triple (· = s) m (fun _ t => t.efuse = .idle ∧ keep t) Leaves := by
  subst free
  exact ends.post (fun _ _ ended => ended.2)

theorem Held.passes (held : Held s) (second : Env) : mapsMissing second .wifi s = false := by
  simp [mapsMissing,hasMap,held.phyMap,held.logMap]

theorem whole_inRange (some : inRange addr size n) : inRange 0 (UInt32.ofNat n) n := by
  simp only [inRange,Bool.and_eq_true,decide_eq_true_eq] at some ⊢
  refine ⟨Nat.zero_lt_of_lt some.1,?_⟩
  rw [UInt32.zero_add,UInt32.toNat_ofNat']
  exact Nat.mod_le _ _

theorem macChecksumRpt_ends (idle : s.efuse = .idle) :
    Ends (first.alloc .caller && canSwitch first .wifi s &&
      (!inRange (UInt32.ofNat chksumOffset1) 2 hw.logEfuseSize || mapsMissing first .wifi s)) anyBank
      (macChecksumRpt hw first second) s := by
  refine at_require (fun alloc => ?_) fun no => exits_refused idle (by simp [no])
  rw [alloc,Bool.true_and]
  refine then_exits (macReadLogEfuse_ends idle) fun tmp => chain (require_exit fun _ ended _ => ended.1) fun _ => ?_
  refine chain (require_exit fun _ ended _ => ended.1) fun _ => triple_at fun t ended => ?_
  obtain ⟨state,held,inside⟩ := ended
  refine chain ((macReadLogEfuse_ends state).leaves ?_) fun _ => ?_
  · rw [held.passes,whole_inRange inside]
    simp
  refine chain triple_look fun s => chain derefs_leaves fun _ => ?_
  refine chain (require_exit fun _ ended _ => ended.1) fun _ => ?_
  exact triple_pure fun _ ended => ⟨ended.1,trivial⟩

theorem macPgSimulator_ends (idle : s.efuse = .idle) : Ends false anyBank (macPgSimulator hw env args phyMap) s := by
  have keeps : Triple (· = s) (macPgSimulator hw env args phyMap) (fun _ => Busy .idle) fun _ => Busy .idle := by
    refine macPgSimulator_starts phyMap (fun info _ => ?_) idle idle (withMap_efuse.trans idle)
    exact at_busy ((withMap_efuse.trans withMap_efuse).trans idle) (simulate_framed busy_framed)
  exact keeps.weaken (fun _ _ held => ⟨rfl,held,trivial⟩) fun _ _ held _ => held

-- Where a public operation returns without leaving its state: a map that
-- cannot be allocated, or an address out of range that is found too late.
def Op.stuck (hw : HwInfo) (env : Env) (s : Adapter) : Op → Bool
  | .dumpEfuseMapWl cfg => readable cfg s && canSwitch env .wifi s && !hasMap env (.phy .wifi) s
  | .dumpEfuseMapBt cfg => readable cfg s && canSwitch env .bt s && !hasMap env (.phy .bt) s
  | .getEfuseAvlSize => env.alloc .caller && canSwitch env .wifi s && mapsMissing env .wifi s
  | .getEfuseAvlSizeBt => env.alloc .caller && canSwitch env .bt s && mapsMissing env .bt s
  | .dumpLogEfuse _ cfg _ => readable cfg s && canSwitch env .wifi s && mapsMissing env .wifi s
  | .readLogEfuse addr size => canSwitch env .wifi s && (!inRange addr size hw.logEfuseSize || mapsMissing env .wifi s)
  | .writeLogEfuse addr _ => canSwitch env .wifi s && (!decide (addr.toNat < hw.logEfuseSize) || mapsMissing env .wifi s)
  | .dumpLogEfuseBt _ cfg => readable cfg s && canSwitch env .bt s && mapsMissing env .bt s
  | .readLogEfuseBt addr size => inRange addr size hw.btLogEfuseSize && canSwitch env .bt s && mapsMissing env .bt s
  | .writeLogEfuseBt addr _ => decide (addr.toNat < hw.logEfuseSize) && canSwitch env .bt s && mapsMissing env .bt s
  | .pgEfuseByMap args _ isLimit =>
    (pgChecked args (pgMapSize hw isLimit)).any (fun info => sameVersion info hw.efuseVersionSize) &&
      canSwitch env .wifi s && mapsMissing env .wifi s
  | .readHiddenRpt => canSwitch env .wifi s && !hasMap env (.phy .wifi) s
  | .checksumUpdate => env.alloc .caller && canSwitch env .wifi s && mapsMissing env .wifi s
  | .checksumRpt _ => env.alloc .caller && canSwitch env .wifi s &&
      (!inRange (UInt32.ofNat chksumOffset1) 2 hw.logEfuseSize || mapsMissing env .wifi s)
  | _ => false

def Op.onBt : Op → Bool
  | .dumpEfuseMapBt _ => true
  | .writeEfuse _ _ bank => bank == .bt
  | .readEfuse _ _ bank => bank == .bt
  | .getEfuseAvlSizeBt => true
  | .dumpLogEfuseBt _ _ => true
  | .readLogEfuseBt _ _ => true
  | .writeLogEfuseBt _ _ => true
  | .pgEfuseByMapBt _ => true
  | _ => false

theorem Ends.discards (ends : Ends stuck keep m s) (weaker : ∀ s, keep s → keep' s) : Ends stuck keep' (discard m) s :=
  chain ends fun _ => triple_pure fun s ended => ⟨ended.1,ended.2.1,weaker s ended.2.2⟩

theorem Ends.weaken (ends : Ends stuck keep m s) (weaker : ∀ s, keep s → keep' s) : Ends stuck keep' m s :=
  ends.post (fun _ s ended => ⟨ended.1,ended.2.1,weaker s ended.2.2⟩)

theorem Op.ends (op : Op) (idle : s.efuse = .idle) :
    Ends (op.stuck hw env s) (fun s => op.onBt → OnWifi s) (op.call hw env) s := by
  have wl : ∀ s, anyBank s → false → OnWifi s := by simp
  have bt : ∀ s, OnWifi s → true → OnWifi s := fun _ wifi _ => wifi
  have either : ∀ {bank} s, (bank = Bank.bt → OnWifi s) → (bank == .bt) → OnWifi s :=
    fun _ wifi chosen => wifi (by simpa using chosen)
  cases op with
  | dumpEfuseMapWl cfg => exact (macDumpEfuseMapWl_ends idle).discards wl
  | dumpEfuseMapBt cfg => exact (macDumpEfuseMapBt_ends idle).discards bt
  | writeEfuse addr val bank => exact (macWriteEfuse_ends idle).weaken either
  | readEfuse addr size bank => exact (macReadEfuse_ends idle).discards either
  | getEfuseAvlSize => exact (macGetEfuseAvlSize_ends idle).discards wl
  | getEfuseAvlSizeBt => exact (macGetEfuseAvlSizeBt_ends idle).discards bt
  | dumpLogEfuse parserCfg cfg isLimit => exact (macDumpLogEfuse_ends idle).discards wl
  | readLogEfuse addr size => exact (macReadLogEfuse_ends idle).discards fun _ _ chosen => by simp [Op.onBt] at chosen
  | writeLogEfuse addr val => exact (macWriteLogEfuse_ends idle).weaken wl
  | dumpLogEfuseBt parserCfg cfg => exact (macDumpLogEfuseBt_ends idle).discards bt
  | readLogEfuseBt addr size => exact (macReadLogEfuseBt_ends idle).discards bt
  | writeLogEfuseBt addr val => exact (macWriteLogEfuseBt_ends idle).weaken bt
  | pgEfuseByMap args part isLimit => exact (macPgEfuseByMap_ends idle).weaken wl
  | pgEfuseByMapBt args => exact (macPgEfuseByMapBt_ends idle).weaken bt
  | maskLogEfuse args => exact (macMaskLogEfuse_ends idle).discards wl
  | pgSecDataByMap args => exact (macPgSecDataByMap_ends idle).weaken wl
  | cmpSecDataByMap args => exact (macCmpSecDataByMap_ends idle).discards wl
  | readHiddenRpt => exact (macReadHiddenRpt_ends idle).weaken wl
  | pgSimulator args phyMap => exact (macPgSimulator_ends idle).discards wl
  | checksumUpdate => exact (macChecksumUpdate_ends idle).weaken wl
  | checksumRpt second => exact (macChecksumRpt_ends idle).discards wl
  | otpTest isOtpTest => exact triple_change fun s here => ⟨rfl,here ▸ idle,wl _ trivial⟩

-- The contract of one call: when it returns, the next one is not refused, and
-- after success on the BT bank the WLAN bank is selected.
def Op.Released (hw : HwInfo) (env : Env) (s : Adapter) (op : Op) : Prop :=
  (op.call hw env s).1 ≠ .error .fault →
    (op.call hw env s).2.efuse = .idle ∧ (efuseProcCk (op.call hw env s).2).1 = .ok () ∧
    ((op.call hw env s).1 = .ok () → op.onBt → OnWifi (op.call hw env s).2)

theorem efuseProcCk_idle (idle : s.efuse = .idle) : (efuseProcCk s).1 = .ok () := by
  simp [efuseProcCk,bind_run,look,require,check_run,idle]

theorem efuse_state_released (hw : HwInfo) (env : Env) (op : Op) (s : Adapter) (idle : s.efuse = .idle) :
    op.Released hw env s ↔ op.stuck hw env s = false := by
  have general : Ends (op.stuck hw env s) _ (op.call hw env) s := Op.ends op idle
  have ends := general s rfl
  unfold Op.Released
  rcases ran : op.call hw env s with ⟨result,t⟩
  rw [ran] at ends
  cases result with
  | ok u =>
    obtain ⟨free,state,wifi⟩ := ends
    exact ⟨fun _ => free,fun _ _ => ⟨state,efuseProcCk_idle state,fun _ chosen => wifi chosen⟩⟩
  | error e =>
    cases wedged : op.stuck hw env s with
    | false =>
      simp only [wedged] at ends
      refine ⟨fun _ => rfl,fun _ returned => ?_⟩
      have state : t.efuse = .idle := ends fun same => returned (by rw [same])
      exact ⟨state,efuseProcCk_idle state,fun done => by simp at done⟩
    | true =>
      simp only [wedged] at ends
      obtain ⟨returned,away⟩ := ends
      refine ⟨fun released => ?_,fun same => by simp at same⟩
      exact absurd (released fun same => returned (by simpa using same)).1 away

theorem efuse_state_released_read : (Op.readLogEfuseBt 0x3FC 4).Released (mac8852aHwInfo .usb) goodEnv coldAdapter :=
  (efuse_state_released _ _ _ _ rfl).mpr (by decide)

-- Two bytes at the last address of the logical map: refused, and every call
-- after that too.
theorem efuse_state_wedged : coldAdapter.efuse = .idle ∧
    ((Op.readLogEfuse 0x5FF 2).call (mac8852aHwInfo .usb) goodEnv coldAdapter).1 = .error (.ret .efuseSize) ∧
    ¬ (Op.readLogEfuse 0x5FF 2).Released (mac8852aHwInfo .usb) goodEnv coldAdapter := by
  have refused : ((Op.readLogEfuse 0x5FF 2).call (mac8852aHwInfo .usb) goodEnv coldAdapter).1 = .error (.ret .efuseSize) := rfl
  refine ⟨rfl,refused,fun released => ?_⟩
  have state : ((Op.readLogEfuse 0x5FF 2).call (mac8852aHwInfo .usb) goodEnv coldAdapter).2.efuse = .logMap := by decide +kernel
  have idle := (released (by rw [refused]; simp)).1
  rw [state] at idle
  simp at idle
end Rtl8852au.Efuse
