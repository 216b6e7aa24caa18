import Rtl8852au.EfuseCoherence
import Rtl8852au.EfuseTorn

namespace Rtl8852au.Efuse
open Fallible Prog Nat Function Bool

variable {hw : HwInfo}

def stepSum (map : Bytes) (i : Nat) : UInt16 :=
  if i = chksumOffset1>>>2 then 0x0000 ^^^ dataWord map (2*i+1) else dataWord map (2*i) ^^^ dataWord map (2*i+1)

def xorTo (g : Nat → UInt16) : Nat → UInt16
  | 0 => 0x0000
  | n+1 => xorTo g n ^^^ g n

theorem calCheckSum_sum (hw : HwInfo) (map : Bytes) : calCheckSum hw map = xorTo (stepSum map) (hw.logEfuseSize>>>2) := by
  unfold calCheckSum
  generalize hw.logEfuseSize>>>2 = n
  induction n with
  | zero => rfl
  | succ n ih =>
    rw [List.range_succ,List.foldl_append,ih]
    simp only [List.foldl_cons,List.foldl_nil,xorTo,stepSum]
    split
    · rfl
    · rfl

theorem xorTo_agree (same : ∀ i < n,f i = g i) : xorTo f n = xorTo g n := by
  induction n with
  | zero => rfl
  | succ n ih =>
    have earlier := ih fun i small => same i (by omega)
    rw [xorTo,xorTo,earlier,same n (lt_succ_self n)]

theorem xorTo_differs (at_j : j < n) (same : ∀ i < n,i ≠ j → f i = g i) (differs : f j ≠ g j) : xorTo f n ≠ xorTo g n := by
  induction n with
  | zero => omega
  | succ n ih =>
    rw [xorTo,xorTo]
    rcases Nat.lt_or_ge j n with before | last
    · have inner := ih before fun i small => same i (by omega)
      have own := same n (lt_succ_self n) (by omega)
      rw [own]
      exact fun equal => inner ((UInt16.xor_left_inj _).mp equal)
    · have here : j = n := by omega
      subst here
      have earlier : xorTo f j = xorTo g j := xorTo_agree fun i small => same i (by omega) (by omega)
      rw [earlier]
      exact fun equal => differs ((UInt16.xor_right_inj _).mp equal)

structure OneWord (size : Nat) (k : Nat) (map map' : Bytes) : Prop where
  inside : 2*k < size
  other : k ≠ chksumOffset1/2
  differs : dataWord map k ≠ dataWord map' k
  same : ∀ l,2*l < size → l ≠ k → dataWord map l = dataWord map' l

theorem calCheckSum_differs (one : OneWord hw.logEfuseSize k map map') :
    calCheckSum hw map ≠ calCheckSum hw map' := by
  have blocks := hw.logBlocks.1
  have inside := one.inside
  have other := one.other
  have quarter : hw.logEfuseSize>>>2 = hw.logEfuseSize/4 := shiftRight_eq_div_pow _ 2
  have place : chksumOffset1>>>2 = 107 := rfl
  have word : chksumOffset1/2 = 214 := rfl
  rw [calCheckSum_sum,calCheckSum_sum,quarter]
  apply @xorTo_differs (k/2)
  · omega
  · intro i small elsewhere
    unfold stepSum
    rw [one.same (2*i) (by omega) (by omega),one.same (2*i+1) (by omega) (by omega)]
  · unfold stepSum
    rw [place]
    rcases mod_two_eq_zero_or_one k with even | odd
    · have first : 2*(k/2) = k := by omega
      have second := one.same (k+1) (by omega) (by omega)
      rw [if_neg (by omega),if_neg (by omega),first,second]
      exact fun equal => one.differs ((UInt16.xor_left_inj _).mp equal)
    · have second : 2*(k/2)+1 = k := by omega
      rw [second]
      split
      · exact fun equal => one.differs ((UInt16.xor_right_inj _).mp equal)
      · have first := one.same (2*(k/2)) (by omega) (by omega)
        rw [first]
        exact fun equal => one.differs ((UInt16.xor_right_inj _).mp equal)

theorem calCheckSum_agree (same : ∀ k,2*k < hw.logEfuseSize → k ≠ chksumOffset1/2 → dataWord map k = dataWord map' k) :
    calCheckSum hw map = calCheckSum hw map' := by
  have blocks := hw.logBlocks.1
  have quarter : hw.logEfuseSize>>>2 = hw.logEfuseSize/4 := shiftRight_eq_div_pow _ 2
  have place : chksumOffset1>>>2 = 107 := rfl
  have word : chksumOffset1/2 = 214 := rfl
  rw [calCheckSum_sum,calCheckSum_sum,quarter]
  apply xorTo_agree
  intro i small
  have second := same (2*i+1) (by omega) (by omega)
  unfold stepSum
  rw [second]
  split
  · rfl
  · rename_i elsewhere
    rw [same (2*i) (by omega) (by omega)]

def lowByte (value : UInt16) : UInt8 := (value &&& 0xFF).toUInt8
def highByte (value : UInt16) : UInt8 := ((value &&& 0xFF00) >>> 8).toUInt8

theorem word_bytes (value : UInt16) : (lowByte value).toUInt16 ||| ((highByte value).toUInt16 <<< 8) = value := by
  have bits : value.toNat < 65536 := value.toNat_lt
  have low : (value &&& 0xFF).toNat = value.toNat % 256 := by
    rw [UInt16.toNat_and]
    exact and_two_pow_sub_one_eq_mod value.toNat 8
  have high : ((value &&& 0xFF00) >>> 8).toNat = value.toNat / 256 := by
    rw [UInt16.toNat_shiftRight,UInt16.toNat_and]
    show (value.toNat &&& 65280) >>> 8 = _
    rw [shiftRight_and_distrib]
    show value.toNat >>> 8 &&& (2^8-1) = _
    rw [and_two_pow_sub_one_eq_mod,shiftRight_eq_div_pow]
    omega
  apply UInt16.toNat_inj.mp
  unfold lowByte highByte
  rw [UInt16.toNat_or,UInt16.toNat_shiftLeft,UInt8.toNat_toUInt16,UInt8.toNat_toUInt16,UInt16.toNat_toUInt8,UInt16.toNat_toUInt8,
    low,high]
  show value.toNat % 256 % 2^8 ||| ((value.toNat / 256 % 2^8) <<< 8) % 2^16 = _
  have small : value.toNat / 256 % 2^8 = value.toNat / 256 := by omega
  have shifted : (value.toNat/256) <<< 8 = 256 * (value.toNat/256) := by
    rw [shiftLeft_eq]
    omega
  have bounded : (value.toNat/256) <<< 8 % 2^16 = (value.toNat/256) <<< 8 := mod_eq_of_lt (by omega)
  rw [small,bounded,Nat.or_comm,← Nat.shiftLeft_add_eq_or_of_lt (by omega)]
  omega

structure Env.Reads (env : Env) : Prop where
  serves : env.Serves
  ready : ∀ a,env.readRdy a

def Carries (hw : HwInfo) (content : Bytes) : Fuses → Prop := Wifi fun cells => Gives hw .wifi cells content

theorem Gives.parses (gives : Gives hw .wifi cells content) (beyond : Nat → UInt8) :
    ∃ c,eepromParser (hw.shape .wifi) (bounded (hw.phyMapSize .wifi) beyond cells) .map = .ok c ∧
      ∀ a < hw.logEfuseSize,c.logMap a = content a := by
  obtain ⟨entries,holds,values⟩ := gives
  exact ⟨_,holds.bounded.parses (shape_valid hw .wifi),values⟩

theorem Gives.fresh (gives : Gives hw .wifi cells content) (parsed : freshParse hw .wifi cells .map = .ok c) :
    ∀ a < hw.logEfuseSize,c.logMap a = content a := by
  obtain ⟨c',known,values⟩ := gives.parses fun _ => 0xFF
  have same := known.symm.trans parsed
  simp only [Except.ok.injEq] at same
  rw [← same]
  exact values

structure Open (hw : HwInfo) (content : Bytes) (s : Adapter) : Prop where
  ready : Ready hw (Carries hw content) .wifi s
  state : s.efuse = .logMap
  phy : (s.bank .wifi).phyMap.isSome
  log : (s.bank .wifi).logMap.isSome

def Loads (hw : HwInfo) (content map : Bytes) (s : Adapter) : Prop :=
  (s.bank .wifi).logMap = some map ∧ ∀ a < hw.logEfuseSize,map a = content a

def never (_ : Stop) (_ : Adapter) : Prop := False

theorem Open.setBank (opened : Open hw content s) (cached : Cached hw .wifi b)
    (cells : b.cells = (s.bank .wifi).cells)
    (requests : b.requests = (s.bank .wifi).requests) (phy : b.phyMap.isSome) (log : b.logMap.isSome) :
    Open hw content (s.setBank .wifi b) where
  ready := opened.ready.setBank cached cells requests
  state := opened.state
  phy := by rw [setBank_same]; exact phy
  log := by rw [setBank_same]; exact log

theorem fill_open (reads : env.Reads) (opened : Open hw content s) :
    Triple (· = s) (onlyIf (!(s.bank .wifi).phyMapValid) (require (env.alloc .localMap) .bufAlloc >>= fun _ =>
      readEfuse env 0 (hw.phyMapSize .wifi) >>= fun localMap => storePhyMap localMap))
      (fun _ s => Open hw content s ∧ (s.bank .wifi).phyMapValid) never := by
  apply triple_onlyIf
  · intro invalid
    have unset : (s.bank .wifi).phyMapValid = false := by simpa using invalid
    refine chain (require_true (reads.serves.alloc _)) fun _ => ?_
    intro s' here
    subst here
    obtain ⟨old,held⟩ := Option.isSome_iff_exists.mp opened.phy
    have all : ((List.range (hw.phyMapSize .wifi)).all fun i => env.readRdy (0+i)) :=
      List.all_eq_true.mpr fun i _ => reads.ready _
    have info := opened.ready.info
    have cellSel := opened.ready.cellSel
    simp only [readEfuse,bind_run,current_run,info,unset,false_eq_true,if_false,readHwEfuse,require,check_run,all,if_true,
      look,pure_run,storePhyMap,held,deref,updateCurrent,change,cellSel]
    have cached := opened.ready.sound.cached .wifi
    refine ⟨opened.setBank ⟨fun _ => ⟨_,rfl,?_⟩,fun valid => ⟨rfl,(cached.log valid).2⟩⟩ rfl rfl rfl opened.log,?_⟩
    · intro a _
      simp only [Nat.zero_add]
    · rw [setBank_same]
  · intro valid s' here
    subst here
    exact ⟨opened,by simpa using valid⟩

theorem readLogEfuseMap_open (reads : env.Reads) :
    Triple (Open hw content) (readLogEfuseMap hw env) (fun map s => Open hw content s ∧ Loads hw content map s) never := by
  refine triple_at fun s opened => at_look (at_current ?_)
  rw [opened.ready.info]
  apply triple_ite
  · intro valid
    obtain ⟨_,map,held,fresh⟩ := (opened.ready.sound.cached .wifi).log valid
    rw [held]
    intro s' here
    subst here
    exact ⟨opened,held,Gives.fresh opened.ready.sound.fuses fresh⟩
  · intro _
    refine chain (fill_open reads opened) fun _ => triple_at fun s' filled => at_current ?_
    obtain ⟨opened,valid⟩ := filled
    rw [opened.ready.info]
    have cached := opened.ready.sound.cached .wifi
    obtain ⟨phyMap,phyHeld,copies⟩ := cached.phy valid
    refine at_deref phyHeld ?_
    obtain ⟨old,logHeld⟩ := Option.isSome_iff_exists.mp opened.log
    have gives : Gives hw .wifi (s'.bank .wifi).cells content := opened.ready.sound.fuses
    obtain ⟨c,parsed,values⟩ := gives.parses env.beyond
    have info := opened.ready.info
    intro s'' here
    subst here
    have fresh := freshParse_of_parse parsed
    have selected : ∀ b,(s''.setBank .wifi b).info = .wifi := fun _ => info
    simp only [parse,bind_run,look,info,bounded_copies copies,parsed,updateCurrent,change,pure_run,storeLogMap,current_run,selected,
      setBank_same,logHeld,deref,setBank_setBank]
    refine ⟨opened.setBank ⟨cached.phy,fun _ => ⟨valid,c.logMap,rfl,fresh⟩⟩ rfl rfl opened.phy rfl,?_,values⟩
    rw [setBank_same]

structure Rests (hw : HwInfo) (content : Bytes) (s : Adapter) : Prop where
  sound : Sound hw (Carries hw content) s
  idle : s.efuse = .idle

theorem orIdle_never (inner : Triple before m after never) : Triple before (orIdle m) after never :=
  triple_handle inner fun _ _ no => no.elim

theorem efuseProcCk_rests : Triple (Rests hw content) efuseProcCk (fun _ => Rests hw content) never := by
  refine triple_at fun s rests => at_look (at_use rests (require_true ?_))
  rw [rests.idle]
  rfl

def Admits (hw : HwInfo) (content : Bytes) (s : Adapter) : Prop := Sound hw (Carries hw content) s ∧ s.efuse = .logMap

theorem cnvEfuseState_enters : Triple (Rests hw content) (cnvEfuseState .logMap) (fun _ => Admits hw content) never := by
  refine triple_at fun s rests => at_look ?_
  rw [rests.idle]
  refine chain (require_true rfl) fun _ => chain (require_true rfl) fun _ => ?_
  exact triple_change fun s' here => by subst here; exact ⟨sound_blind s' .logMap rests.sound,rfl⟩

theorem cnvEfuseState_rests (state : s.efuse = .logMap) (sound : Sound hw (Carries hw content) s) :
    Triple (· = s) (cnvEfuseState .idle) (fun _ s' => s' = {s with efuse:=.idle} ∧ Rests hw content s') never := by
  refine at_look ?_
  rw [state]
  refine chain (require_true rfl) fun _ => chain (require_true rfl) fun _ => ?_
  exact triple_change fun s' here => by subst here; exact ⟨rfl,sound_blind s' .idle sound,rfl⟩

def Chosen (hw : HwInfo) (content : Bytes) (s : Adapter) : Prop := Ready hw (Carries hw content) .wifi s ∧ s.efuse = .logMap

theorem switchEfuseBank_chosen (serves : env.Serves) :
    Triple (Admits hw content) (switchEfuseBank env .wifi) (fun _ => Chosen hw content) never := by
  intro s entered
  have able : canSwitch env .wifi s := by simp [canSwitch,serves.selects]
  rw [switchEfuseBank_run,able]
  exact ⟨⟨⟨entered.1.cached,entered.1.fuses⟩,rfl,rfl⟩,entered.2⟩

theorem efuseMapInit_open (serves : env.Serves) (rest : Triple (Open hw content) (f ()) after never) :
    Triple (Chosen hw content) (efuseMapInit env (.phy .wifi) >>= fun _ => efuseMapInit env (.log .wifi) >>= f) after never := by
  refine triple_at fun s chosen => ?_
  have phyAble : hasMap env (.phy .wifi) s := by simp [hasMap,serves.mapAlloc]
  refine at_mapInit (fun _ => ?_) fun no => absurd phyAble (by rw [no]; decide)
  have logAble : hasMap env (.log .wifi) (s.withMap env (.phy .wifi)) := by simp [hasMap,serves.mapAlloc]
  refine at_mapInit (fun _ => at_use ?_ rest) fun no => absurd logAble (by rw [no]; decide)
  refine ⟨(chosen.1.withMap env (.phy .wifi)).withMap env (.log .wifi),?_,?_,?_⟩
  · rw [withMap_efuse,withMap_efuse]
    exact chosen.2
  · rw [withMap_log_phy]
    exact withMap_phy_some
  · exact withMap_log_some

theorem macReadLogEfuse_reads {size : UInt32} (reads : env.Reads) (inside : inRange addr size hw.logEfuseSize)
    (fits : addr.toNat + size.toNat ≤ hw.logEfuseSize) :
    Triple (Rests hw content) (macReadLogEfuse hw env addr size)
      (fun val s => Rests hw content s ∧ val = copyOut content addr.toNat size.toNat ∧ ∃ map,Loads hw content map s) never := by
  refine chain efuseProcCk_rests fun _ => chain cnvEfuseState_enters fun _ => ?_
  refine chain (orIdle_never (switchEfuseBank_chosen reads.serves)) fun _ => ?_
  refine chain (require_true inside) fun _ => ?_
  refine efuseMapInit_open reads.serves ?_
  refine chain (orIdle_never (require_true (reads.serves.alloc _))) fun _ => ?_
  refine chain (orIdle_never (readLogEfuseMap_open reads)) fun map => triple_at fun s holds => ?_
  obtain ⟨opened,loads⟩ := holds
  have copied : copyOut map addr.toNat size.toNat = copyOut content addr.toNat size.toNat := by
    unfold copyOut
    apply List.map_congr_left
    intro i member
    exact loads.2 _ (by have := List.mem_range.mp member; omega)
  unfold copyChecked
  rw [if_pos fits,copied]
  have value : Triple (· = s) (pure (copyOut content addr.toNat size.toNat) : Call (List UInt8))
      (fun val s' => s' = s ∧ val = copyOut content addr.toNat size.toNat) never := fun _ here => ⟨here,rfl⟩
  refine chain value fun val => triple_at fun s' holds => ?_
  obtain ⟨here,shown⟩ := holds
  subst here
  refine chain (cnvEfuseState_rests opened.state opened.ready.sound) fun _ => ?_
  refine triple_pure fun s'' left => ⟨left.2,shown,map,?_⟩
  rw [left.1]
  exact loads

def report (hw : HwInfo) (content : Bytes) : Except Stop UInt16 :=
  let real := dataWord content (chksumOffset1/2)
  if real = 0xFFFF then .error (.ret .chksumEmpty)
  else if calCheckSum hw content = real then .ok (calCheckSum hw content) else .error (.ret .chksumFail)

theorem dataWord_agree {size : Nat} (whole : size%16 = 0) (same : ∀ a < size,map a = map' a) (inside : 2*k < size) :
    dataWord map k = dataWord map' k := by
  unfold dataWord
  rw [same (2*k) inside,same (2*k+1) (by omega)]

theorem macChecksumRpt_reports (large : chksumOffset2 < hw.logEfuseSize) (readsFirst : first.Reads)
    (readsSecond : second.Reads) (rests : Rests hw content s) : (macChecksumRpt hw first second s).1 = report hw content := by
  have log := hw.logBlocks
  have place : chksumOffset2 = 429 := rfl
  have low : (UInt32.ofNat chksumOffset1).toNat = 428 := rfl
  have two : (2 : UInt32).toNat = 2 := rfl
  have zero : (0 : UInt32).toNat = 0 := rfl
  have size : (UInt32.ofNat hw.logEfuseSize).toNat = hw.logEfuseSize := UInt32.toNat_ofNat_of_lt' (by show _ < 4294967296; omega)
  have one : inRange (UInt32.ofNat chksumOffset1) 2 hw.logEfuseSize := by
    have sum : (UInt32.ofNat chksumOffset1 + 2).toNat = 430 := rfl
    simp only [inRange,low,sum,and_eq_true,decide_eq_true_eq]
    omega
  have all : inRange 0 (UInt32.ofNat hw.logEfuseSize) hw.logEfuseSize := by
    simp only [inRange,zero,UInt32.zero_add,size,and_eq_true,decide_eq_true_eq]
    omega
  obtain ⟨tmp,s1,ran,rests1,shown,_⟩ := (macReadLogEfuse_reads readsFirst one (by rw [low,two]; omega)).total rests
  obtain ⟨whole,s2,ran2,_,_,map,held,values⟩ := (macReadLogEfuse_reads readsSecond all (by rw [zero,size]; omega)).total rests1
  have real : dataWord (fun i => tmp.getD i 0) 0 = dataWord content (chksumOffset1/2) := by
    rw [shown,low,two]
    rfl
  have sum : calCheckSum hw map = calCheckSum hw content :=
    calCheckSum_agree fun k inside _ => dataWord_agree log.1 values inside
  unfold macChecksumRpt report
  simp only [bind_run,require,check_run,readsFirst.serves.alloc,readsSecond.serves.alloc,if_true,ran,real]
  by_cases empty : dataWord content (chksumOffset1/2) = 0xFFFF
  · simp [empty]
  · by_cases match_ : calCheckSum hw content = dataWord content (chksumOffset1/2)
    · simp [empty,ran2,look,held,deref,pure_run,sum,match_]
    · simp [empty,ran2,look,held,deref,pure_run,sum,match_]

structure Known (hw : HwInfo) (hardware : Fuses → Prop) (map : Bytes) (s : Adapter) : Prop where
  ready : Ready hw hardware .wifi s
  held : (s.bank .wifi).logMap = some map
  fresh : freshParse hw .wifi (s.bank .wifi).cells .map = .ok ⟨map,(s.bank .wifi).efuseEnd⟩

def anyEnd (_ : Stop) (_ : Adapter) : Prop := True

theorem storeLogMap_known : Triple (Parsed hw hardware .wifi .map map) (storeLogMap map) (fun _ => Known hw hardware map) anyEnd := by
  intro s ⟨ready,valid,fresh⟩
  simp only [storeLogMap,bind_run,current_run,ready.info]
  cases held : (s.bank .wifi).logMap with
  | none => trivial
  | some old =>
    simp only [deref,pure_run,updateCurrent,change,ready.info]
    have cached := ready.sound.cached .wifi
    refine ⟨ready.setBank ⟨cached.phy,fun _ => ⟨valid,map,rfl,fresh⟩⟩ rfl rfl,?_,?_⟩
    · rw [setBank_same]
    · rw [setBank_same]
      exact fresh

theorem fillLogMap_known (reads : env.FwReads hw) : Triple (Ready hw hardware .wifi) (fillLogMap hw env .map cfg)
    (fun _ s => ∃ map,Known hw hardware map s) anyEnd := by
  refine triple_at fun s ready => at_current ?_
  rw [ready.info]
  apply triple_onlyIf
  · intro _
    refine at_use ready (chain (orIdle_success (procDumpEfuse_ready reads).success) fun _ => ?_)
    refine triple_at fun s' filled => at_current ?_
    obtain ⟨phyMap,held,copies⟩ := (filled.1.sound.cached .wifi).phy filled.2
    rw [filled.1.info,filled.2,held]
    have copy : HasCopy hw hardware .wifi phyMap s' ∧ (s'.bank .wifi).phyMapValid := ⟨⟨filled.1,copies⟩,filled.2⟩
    have guarded : Triple (fun s => HasCopy hw hardware .wifi phyMap s ∧ (s.bank .wifi).phyMapValid)
        (orIdle (require (env.alloc .map) .bufAlloc))
        (fun _ s => HasCopy hw hardware .wifi phyMap s ∧ (s.bank .wifi).phyMapValid) anyEnd := orIdle_success require_keeps.success
    have rest : Triple (fun s => HasCopy hw hardware .wifi phyMap s ∧ (s.bank .wifi).phyMapValid)
        (orIdle (parse hw env phyMap .map) >>= fun map => storeLogMap map) (fun _ s => ∃ map,Known hw hardware map s) anyEnd := by
      refine chain (orIdle_success parse_parsed.success) fun map => ?_
      exact storeLogMap_known.weaken (fun _ _ known => ⟨map,known⟩) fun _ _ _ => trivial
    exact chain (at_use copy guarded) fun _ => rest
  · intro valid s' here
    subst here
    have set : (s'.bank .wifi).logMapValid := by simpa using valid
    obtain ⟨_,map,held,fresh⟩ := (ready.sound.cached .wifi).log set
    exact ⟨map,ready,held,fresh⟩

theorem macDumpLogEfuse_known (reads : env.FwReads hw) :
    Triple (Sound hw hardware) (macDumpLogEfuse hw env .map cfg false) (fun val s => s.efuse = .idle ∧
      ∃ map,Known hw hardware map s ∧ val = copyOut map 0 hw.logEfuseSize) anyEnd := by
  refine chain checkRead_keeps.success fun _ => ?_
  refine enter_bank (fun _ _ _ => trivial) (fun _ _ => trivial) fun _ => ?_
  refine chain mapInit_ready.success fun _ => ?_
  refine chain mapInit_ready.success fun _ => ?_
  refine chain (fillLogMap_known reads) fun _ => triple_at fun s filled => ?_
  obtain ⟨map,known⟩ := filled
  have query : queryLogMap hw false s = (.ok (copyOut map 0 hw.logEfuseSize),s) := by
    simp only [queryLogMap,bind_run,look,current_run,known.ready.info,known.held,deref,pure_run]
    rfl
  intro s' here
  subst here
  simp only [bind_run,query]
  have left : Triple (· = s') (cnvEfuseState .idle) (fun _ t => t = {s' with efuse:=.idle}) anyEnd := by
    refine at_look (chain (require_keeps.success) fun _ => chain (require_keeps.success) fun _ => ?_)
    exact triple_change fun t here => by rw [here]
  have ended := left s' rfl
  rcases ran : cnvEfuseState .idle s' with ⟨result,after⟩
  rw [ran] at ended
  cases result with
  | error e => trivial
  | ok u =>
    dsimp only at ended ⊢
    subst ended
    exact ⟨rfl,map,⟨ready_blind s' .idle known.ready,known.held,known.fresh⟩,rfl⟩

def checked (content : Bytes) (value : UInt16) : Bytes :=
  update (update content chksumOffset1 (lowByte value)) chksumOffset2 (highByte value)

theorem setCheckSumVal_writes (large : chksumOffset2 < hw.logEfuseSize) (known : Known hw (Carries hw content) map s)
    (idle : s.efuse = .idle) :
    Triple (· = s) (setCheckSumVal hw env whole value) (fun _ => Rests hw (checked content value)) anyEnd := by
  obtain ⟨entries,holds,values⟩ := known.ready.sound.fuses
  have parsed := holds.fresh.symm.trans known.fresh
  simp only [Except.ok.injEq,Cursor.mk.injEq] at parsed
  obtain ⟨_,endIdx⟩ := parsed
  refine at_look (at_current ?_)
  rw [known.ready.info,← endIdx]
  have wlan := wifi_shape hw
  have place : chksumOffset1 = 428 := rfl
  have place2 : chksumOffset2 = 429 := rfl
  have whole16 : (hw.shape .wifi).logSize % 8 = 0 := by
    have blocks := shape_whole hw .wifi
    omega
  have log : (hw.shape .wifi).logSize = hw.logEfuseSize := rfl
  let one := wordEntry chksumOffset1 (lowByte value) (whole (chksumOffset1+1))
  let two := wordEntry chksumOffset2 (lowByte value) (highByte value)
  have fitsOne : one.Fits (hw.shape .wifi) := wordEntry_fits (by omega) whole16
  have fitsTwo : two.Fits (hw.shape .wifi) := wordEntry_fits (by omega) whole16
  have codeOne : chksumEntry chksumOffset1 (lowByte value) (whole (chksumOffset1+1)) = one.encode (hw.shape .wifi).isBt := by
    rw [wlan]
    exact (wordEntry_encode false).symm
  have codeTwo : chksumEntry chksumOffset2 (lowByte value) (highByte value) = two.encode (hw.shape .wifi).isBt := by
    rw [wlan]
    exact (wordEntry_encode false).symm
  have fourOne : (one.encode (hw.shape .wifi).isBt).length = 4 := by
    rw [← codeOne]
    rfl
  have fourTwo : (two.encode (hw.shape .wifi).isBt).length = 4 := by
    rw [← codeTwo]
    rfl
  refine chain (require_passed fun _ _ => trivial) fun _ => triple_at fun s' holds' => ?_
  obtain ⟨here,space⟩ := holds'
  subst here
  have first : 4 + endOf (hw.shape .wifi) entries < hw.efuseSize := by
    simp only [not_eq_true',decide_eq_false_iff_not] at space
    exact Nat.lt_of_not_le space
  have phy : hw.phyMapSize .wifi = hw.efuseSize := rfl
  have holdsOne := holds.write fitsOne (by rw [fourOne]; omega)
  have endOne : endOf (hw.shape .wifi) (entries ++ [one]) = endOf (hw.shape .wifi) entries + 4 := by rw [endOf_append,fourOne]
  show Triple _ (writeBytes env _ (chksumEntry chksumOffset1 (lowByte value) (whole (chksumOffset1+1))) >>= _) _ _
  rw [codeOne]
  refine chain (writeBytes_burns known.ready.info known.ready.cellSel).success fun _ => ?_
  refine chain (require_passed fun _ _ => trivial) fun _ => triple_at fun t holds'' => ?_
  obtain ⟨here,space2⟩ := holds''
  have second : 4 + (endOf (hw.shape .wifi) entries+4) < hw.efuseSize := by
    simp only [not_eq_true',decide_eq_false_iff_not] at space2
    exact Nat.lt_of_not_le space2
  have holdsTwo := holdsOne.write fitsTwo (by rw [fourTwo,endOne]; omega)
  show Triple _ (writeBytes env _ (chksumEntry chksumOffset2 (lowByte value) (highByte value))) _ _
  rw [codeTwo]
  have info : t.info = .wifi := by rw [here]; exact known.ready.info
  have cellSel : t.cellSel = .wifi := by rw [here]; exact known.ready.cellSel
  apply (writeBytes_burns info cellSel).weaken _ fun _ _ _ => trivial
  intro _ t' ended
  rw [here,setBank_same,setBank_setBank] at ended
  rw [endOne] at holdsTwo
  have gives : Gives hw .wifi (((s'.bank .wifi).burned (endOf (hw.shape .wifi) entries) (one.encode (hw.shape .wifi).isBt)).burned
      (endOf (hw.shape .wifi) entries+4) (two.encode (hw.shape .wifi).isBt)).cells (checked content value) := by
    refine ⟨_,holdsTwo,fun a inside => ?_⟩
    rw [applyEntries_append,applyEntries_append]
    show (wordEntry chksumOffset2 (lowByte value) (highByte value)).applyTo .map [0,1,2,3]
      ((wordEntry chksumOffset1 (lowByte value) (whole (chksumOffset1+1))).applyTo .map [0,1,2,3] (applyEntries .map entries blankMap)) a = _
    have evenOne : chksumOffset1 - chksumOffset1%2 = chksumOffset1 := rfl
    have evenTwo : chksumOffset2 - chksumOffset2%2 = chksumOffset1 := rfl
    have next : chksumOffset1 + 1 = chksumOffset2 := rfl
    rw [wordEntry_apply,wordEntry_apply,evenOne,evenTwo]
    simp only [putWord,putByte,next,checked,update_apply]
    split
    · rfl
    · split
      · rfl
      · exact values a inside
  have ready : Ready hw (Carries hw (checked content value)) .wifi _ :=
    known.ready.setCells (burned_flags (encode_filled fitsTwo)) gives
  rw [← ended] at ready
  refine ⟨ready.sound,?_⟩
  rw [ended]
  exact idle

theorem macChecksumUpdate_checked (large : chksumOffset2 < hw.logEfuseSize) (reads : env.FwReads hw) :
    Triple (Sound hw (Carries hw content)) (macChecksumUpdate hw env)
      (fun _ => Rests hw (checked content (calCheckSum hw content))) anyEnd := by
  refine chain require_keeps.success fun _ => ?_
  refine chain (macDumpLogEfuse_known reads) fun val => triple_at fun s holds => at_look ?_
  obtain ⟨idle,map,known,_⟩ := holds
  have values : ∀ a < hw.logEfuseSize,map a = content a := by
    have gives : Gives hw .wifi (s.bank .wifi).cells content := known.ready.sound.fuses
    exact gives.fresh known.fresh
  have sum : calCheckSum hw map = calCheckSum hw content :=
    calCheckSum_agree fun k inside _ => dataWord_agree hw.logBlocks.1 values inside
  refine at_deref known.held ?_
  rw [sum]
  exact setCheckSumVal_writes large known idle

theorem checked_sum (content : Bytes) (value : UInt16) : calCheckSum hw (checked content value) = calCheckSum hw content := by
  apply calCheckSum_agree
  intro k _ other
  have word : chksumOffset1/2 = 214 := rfl
  have first : chksumOffset1 = 428 := rfl
  have second : chksumOffset2 = 429 := rfl
  unfold dataWord checked
  simp only [update_apply]
  rw [if_neg (by omega),if_neg (by omega),if_neg (by omega),if_neg (by omega)]

theorem checked_word (content : Bytes) (value : UInt16) : dataWord (checked content value) (chksumOffset1/2) = value :=
  word_bytes value

theorem report_checked (hw : HwInfo) (content : Bytes) : report hw (checked content (calCheckSum hw content)) =
    if calCheckSum hw content = 0xFFFF then .error (.ret .chksumEmpty) else .ok (calCheckSum hw content) := by
  unfold report
  rw [checked_word,checked_sum]
  simp only [if_true]

theorem report_changed (valid : calCheckSum hw content = dataWord content (chksumOffset1/2))
    (one : OneWord hw.logEfuseSize k content content') (inside : chksumOffset2 < hw.logEfuseSize) :
    report hw content' = if calCheckSum hw content = 0xFFFF then .error (.ret .chksumEmpty) else .error (.ret .chksumFail) := by
  have word : dataWord content' (chksumOffset1/2) = calCheckSum hw content := by
    rw [valid]
    exact (one.same _ (by have place : chksumOffset1/2 = 214 := rfl; have last : chksumOffset2 = 429 := rfl; omega) one.other.symm).symm
  have differs := calCheckSum_differs one
  unfold report
  rw [word]
  dsimp only
  rw [if_neg differs.symm]

-- A sum of all ones is stored like any other and then taken for no sum at all; any
-- other sum is found again, and missed after a change of one other word.
theorem checksum_round_trip (hw : HwInfo) (large : chksumOffset2 < hw.logEfuseSize) (content : Bytes) (s s1 : Adapter) (env : Env)
    (start : Sound hw (Carries hw content) s) (reads : env.FwReads hw) (done : macChecksumUpdate hw env s = (.ok (),s1))
    (s2 : Adapter) (first second : Env) (readsFirst : first.Reads) (readsSecond : second.Reads) (idle : s2.efuse = .idle)
    (cached : ∀ bank,Cached hw bank (s2.bank bank)) :
    ((s2.bank .wifi).cells = (s1.bank .wifi).cells →
      ((macChecksumRpt hw first second s2).1 = .ok (calCheckSum hw content) ↔ calCheckSum hw content ≠ 0xFFFF)) ∧
    ∀ k changed,OneWord hw.logEfuseSize k (checked content (calCheckSum hw content)) changed →
      Gives hw .wifi (s2.bank .wifi).cells changed →
      ((macChecksumRpt hw first second s2).1 = .error (.ret .chksumFail) ↔ calCheckSum hw content ≠ 0xFFFF) := by
  have updated := (macChecksumUpdate_checked large reads).ok start done
  constructor
  · intro unwritten
    have gives : Gives hw .wifi (s1.bank .wifi).cells (checked content (calCheckSum hw content)) := updated.sound.fuses
    rw [← unwritten] at gives
    rw [macChecksumRpt_reports large readsFirst readsSecond ⟨⟨cached,gives⟩,idle⟩,report_checked]
    by_cases full : calCheckSum hw content = 0xFFFF
    · simp [full]
    · simp [full]
  · intro k changed one gives
    have valid : calCheckSum hw (checked content (calCheckSum hw content)) =
        dataWord (checked content (calCheckSum hw content)) (chksumOffset1/2) := by rw [checked_word,checked_sum]
    rw [macChecksumRpt_reports large readsFirst readsSecond ⟨⟨cached,gives⟩,idle⟩,report_changed valid one large,checked_sum]
    by_cases full : calCheckSum hw content = 0xFFFF
    · simp [full]
    · simp [full]

theorem goodEnv_answers : goodEnv.Reads := ⟨goodEnv_serves,fun _ => rfl⟩
def oneByte : Bytes := update blankMap (0x400 : UInt32).toNat 0x12
def oneByteAdapter : Adapter := (macWriteLogEfuse (mac8852aHwInfo .usb) goodEnv 0x400 0x12 coldAdapter).2

theorem cold_carries : Sound (mac8852aHwInfo .usb) (Carries (mac8852aHwInfo .usb) blankMap) coldAdapter where
  cached bank := (coldAdapter_blank bank).2
  fuses := ⟨[],coldAdapter_holds,fun _ _ => rfl⟩

theorem oneByte_carries : Sound (mac8852aHwInfo .usb) (Carries (mac8852aHwInfo .usb) oneByte) oneByteAdapter := by
  have ran : (macWriteLogEfuse (mac8852aHwInfo .usb) goodEnv 0x400 0x12 coldAdapter).1.toOption = some () := by decide +kernel
  have after := (macWriteLogEfuse_done (mac8852aHwInfo .usb) _ goodEnv 0x400 0x12).ok ⟨cold_carries.cached,rfl⟩ (ran_of_toOption ran)
  unfold oneByteAdapter
  generalize (macWriteLogEfuse (mac8852aHwInfo .usb) goodEnv 0x400 0x12 coldAdapter).2 = left at after ⊢
  obtain ⟨entries,holds,values⟩ := Done.holds coldAdapter_holds after.fuses
  refine ⟨after.cached,entries,holds,?_⟩
  intro a _
  rw [values]
  unfold oneByte
  rfl

theorem checksum_round_trip_oneByte :
    (macChecksumRpt (mac8852aHwInfo .usb) goodEnv goodEnv (macChecksumUpdate (mac8852aHwInfo .usb) goodEnv oneByteAdapter).2).1 =
      .ok 0xFF12 := by
  have ran : (macChecksumUpdate (mac8852aHwInfo .usb) goodEnv oneByteAdapter).1.toOption = some () := by decide +kernel
  have large : chksumOffset2 < (mac8852aHwInfo .usb).logEfuseSize := by decide
  have after := (macChecksumUpdate_checked large goodEnv_reads).ok oneByte_carries (ran_of_toOption ran)
  have sum : calCheckSum (mac8852aHwInfo .usb) oneByte = 0xFF12 := by decide +kernel
  have round := checksum_round_trip (mac8852aHwInfo .usb) large oneByte oneByteAdapter _ goodEnv oneByte_carries goodEnv_reads
    (ran_of_toOption ran) _ goodEnv goodEnv goodEnv_answers goodEnv_answers after.idle after.sound.cached
  rw [sum] at round
  exact (round.1 rfl).mpr (by decide)

-- The blank bank: 767 words of all ones.
theorem checksum_round_trip_fails : ¬ ∀ (content : Bytes) (s s1 : Adapter) (env : Env),
    Sound (mac8852aHwInfo .usb) (Carries (mac8852aHwInfo .usb) content) s → env.FwReads (mac8852aHwInfo .usb) →
      macChecksumUpdate (mac8852aHwInfo .usb) env s = (.ok (),s1) → ∀ first second : Env,first.Reads → second.Reads →
      (macChecksumRpt (mac8852aHwInfo .usb) first second s1).1 = .ok (calCheckSum (mac8852aHwInfo .usb) content) := by
  intro claim
  have ran : (macChecksumUpdate (mac8852aHwInfo .usb) goodEnv coldAdapter).1.toOption = some () := by decide +kernel
  have found := claim blankMap coldAdapter _ goodEnv cold_carries goodEnv_reads (ran_of_toOption ran) goodEnv goodEnv
    goodEnv_answers goodEnv_answers
  have empty : (macChecksumRpt (mac8852aHwInfo .usb) goodEnv goodEnv
      (macChecksumUpdate (mac8852aHwInfo .usb) goodEnv coldAdapter).2).1.toOption = none := by decide +kernel
  rw [found] at empty
  cases empty
end Rtl8852au.Efuse
