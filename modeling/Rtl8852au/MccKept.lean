import Rtl8852au.MccCopies

namespace Rtl8852au.Mcc
open Machine List

def Pattern.refs (pattern : Pattern) : List RoleRef :=
  [pattern.roleRef,pattern.roleAno,pattern.courtesy.srcRole,pattern.courtesy.tgtRole].filterMap id ++
    wifiRefs pattern.slotOrder.val

structure Slotted (band : HwBand) (i : MccInfo) : Prop where
  each : ∀ idx : Fin 2,i.enInfo.pattern.kinds.count (.wifi (some ⟨.stored band,idx⟩)) =
    if idx.val < i.enInfo.mroleNum then 1 else 0
  bt : i.enInfo.pattern.kinds.count .bt = if i.btInfo.addBtRole then 1 else 0
  total : i.enInfo.pattern.kinds.length = i.enInfo.mroleNum + if i.btInfo.addBtRole then 1 else 0
  refs : ∀ r ∈ i.enInfo.pattern.refs,r.place = .stored band

def Settled (state : MccState) : Prop := state = .none ∨ state = .stop ∨ state = .runing

def Sound (s : MccCtl) : Prop :=
  ∀ band,Settled (s.info band).state ∧ ((s.info band).state = .runing → Slotted band (s.info band))

def Event.isChange : Event → Bool
  | .durationChange .. | .durLimChange .. => true
  | _ => false

def Fair (s : MccCtl) (event : Event) : Prop :=
  event.isChange → (call s event).1 = false → ∀ band,(mccStep s event).info band = s.info band

-- The step leaves a sound state, and a change that fails leaves the information.
def Kept (s : MccCtl) (event : Event) : Prop := Sound (mccStep s event) ∧ Fair s event

section
variable (env : Env)

-- A BT slot that is asked for can be had, from the durations of the mode on; in the
-- AP mode the role is one of the map.
def SlotsFit (p : Place) (roleMap curRole : Nat) (i : MccInfo) : Prop :=
  match i.mccMode with
  | .apClient => match apClientDurs env p i with
    | none => True
    | some (_,_,i) => (mccDiscisionDurationFor2roleBt env i).1 →
      BtFits (atApClientOffset (mccDiscisionDurationFor2roleBt env i).2)
  | .twoClients => match twoClientsDurs env p i with
    | none => True
    | some (_,i) => (mccDiscisionDurationFor2roleBt env i).1 → BtFits (mccDiscisionDurationFor2roleBt env i).2
  | _ => curRole ∈ rolesOf roleMap

-- An enable that comes as far as the firmware is accepted there, and its slots fit.
def EnableGuard (coex : Bool) (curRole : Nat) (s : MccCtl) : Prop :=
  let band := (env.wrole curRole).hwBand
  let m := s.mem.setState band .cfgEnInfo
  s.initMcc → (s.info band).state = .none ∨ (s.info band).state = .stop →
    (cfgInfo env band coex curRole m).1 →
      (rtwHalMccEnable env.mac (.stored band) ((cfgInfo env band coex curRole m).2.setState band .triggerFwEn)).1 ∧
        SlotsFit env (.stored band) (env.roleMap band) curRole ((cfgRoles env band coex curRole m).2 (.stored band))

def DisableGuard (specRole : Nat) (s : MccCtl) : Prop :=
  let band := (env.wrole specRole).hwBand
  s.initMcc → (s.info band).state = .runing → (mccGetMroleIdxByWrole (s.info band) specRole).isSome →
    rtwHalMccDisable env.mac

def GroupLeft (mode : TdmraMode) (ori : MccInfo) (m : Mem) : Prop :=
  (mccFillInfo env mode .copy m).1 →
    env.mac.getMccGroup = none ∨ env.mac.getMccGroup = some ori.enInfo.group

def LogsLeft (band : HwBand) (s : MccCtl) : Prop :=
  ∀ other,(s.info band).wroles.foldl (reported env other (s.info other).roleMap) (s.info other).fwLog = (s.info other).fwLog

def DurationGuard (info : DurChangeInfo) (s : MccCtl) : Prop :=
  let ori := s.info info.hwBand
  s.initMcc → ori.state = .runing →
    if info.btRole then info.dur ≠ ori.btInfo.btDur → exist2g env ori →
      LogsLeft env info.hwBand s ∧ Refused env ori.mccMode ori (btCopy env info.hwBand s.mem)
    else match mccGetMroleIdxByWrole ori info.role with
      | none => True
      | some role => GroupLeft env ori.mccMode ori (wifiCopy role info.dur info.hwBand s.mem) ∧
        Refused env ori.mccMode ori (wifiCopy role info.dur info.hwBand s.mem)

def DurLimGuard (wrole : Nat) (limReq : DurLimReq) (s : MccCtl) : Prop :=
  let band := (env.wrole wrole).hwBand
  let ori := s.info band
  s.initMcc → ori.state = .runing → match mccGetMroleIdxByWrole ori wrole with
    | none => True
    | some role => LogsLeft env band s ∧ Refused env ori.mccMode ori (limCopy env role limReq band s.mem)

def WatchdogGuard (band : HwBand) (s : MccCtl) : Prop :=
  let ori := s.info band
  s.initMcc → ori.state = .runing → ori.mccMode = .twoClients → drifted env ori →
    Refused env .twoClients ori (trackingCopy env (copyOut band s.mem))
end

def Guard (s : MccCtl) : Event → Prop
  | .enable env curRole =>
    if env.chanctxNum = 2 then EnableGuard env false curRole s
    else if env.chanctxNum = 1 ∧ (env.apNum = 1 ∨ env.p2pGoNum = 1) ∧ (env.ldStaNum = 0 ∨ env.lgStaNum = 0) then
      EnableGuard env true curRole s
    else True
  | .disable env specRole => DisableGuard env specRole s
  | .durationChange env info => DurationGuard env info s
  | .durLimChange env wrole limReq => DurLimGuard env wrole limReq s
  | .watchdog env band => WatchdogGuard env band s

structure Running (band : HwBand) (i : MccInfo) : Prop extends Slotted band i where
  seg : i.btInfo.btSegNum = 1
  first : ∃ r rest,i.enInfo.pattern.kinds = .wifi (some r) :: rest
  many : 2 ≤ i.enInfo.pattern.kinds.length
  groups : ∀ r,SlotKind.wifi (some r) ∈ i.enInfo.pattern.kinds → (i.enInfo.mccRole r.idx).group = i.enInfo.group
  written : i.mccMode = .twoClients → limited i.ref ≠ limited i.ano → i.enInfo.pattern.courtesy.cEn →
    Written (fun _ => i) i.enInfo.pattern.courtesy

def Inv (s : MccCtl) : Prop := ∀ band,Settled (s.info band).state ∧ ((s.info band).state = .runing → Running band (s.info band))

theorem Inv.sound (inv : Inv s) : Sound s := fun band => ⟨(inv band).1,fun runs => ((inv band).2 runs).toSlotted⟩
theorem inv_origin (initMcc : Bool) : Inv (origin initMcc) := fun _ => ⟨.inl rfl,nofun⟩

theorem Running.withLog (running : Running band i) (log : FwLogInfo) : Running band (withLog i log) where
  toSlotted := {running with}
  seg := running.seg
  first := running.first
  many := running.many
  groups := running.groups
  written := running.written

theorem mem_refs {pattern : Pattern} : r ∈ pattern.refs ↔ pattern.roleRef = some r ∨ pattern.roleAno = some r ∨
    pattern.courtesy.srcRole = some r ∨ pattern.courtesy.tgtRole = some r ∨ SlotKind.wifi (some r) ∈ pattern.kinds := by
  unfold Pattern.refs
  rw [mem_append,mem_wifiRefs,mem_filterMap]
  simp only [mem_cons,not_mem_nil,or_false,id_eq,exists_eq_right]
  constructor
  · rintro (named | kind)
    · rcases named with ref | ano | src | tgt
      · exact .inl ref.symm
      · exact .inr (.inl ano.symm)
      · exact .inr (.inr (.inl src.symm))
      · exact .inr (.inr (.inr (.inl tgt.symm)))
    · exact .inr (.inr (.inr (.inr kind)))
  · rintro (ref | ano | src | tgt | kind)
    · exact .inl (.inl ref.symm)
    · exact .inl (.inr (.inl ano.symm))
    · exact .inl (.inr (.inr (.inl src.symm)))
    · exact .inl (.inr (.inr (.inr tgt.symm)))
    · exact .inr kind

theorem Inv.logs (inv : Inv s) (logs : ∀ band,∃ log,s'.info band = withLog (s.info band) log) : Inv s' := by
  intro band
  obtain ⟨log,same⟩ := logs band
  rw [same]
  exact ⟨(inv band).1,fun runs => ((inv band).2 runs).withLog log⟩

theorem copied_unsound (s : MccCtl) (band : HwBand) (accepted : (mccUpdatePattern env mode ori m).1)
    (ready : Ready mode m) (state : (m .copy).state = .runing) :
    ¬ Sound {s with mem:=copyBack band (mccUpdatePattern env mode ori m).2} := by
  intro sound
  obtain ⟨⟨idx,ref⟩,same⟩ := update_accepted env mode ori m ready accepted
  have here : copyBack band (mccUpdatePattern env mode ori m).2 (.stored band) = (mccUpdatePattern env mode ori m).2 .copy :=
    modify_at ..
  have slotted := (sound band).2
  unfold MccCtl.info at slotted
  dsimp only at slotted
  rw [here] at slotted
  have place := (slotted (same.trans state)).refs ⟨.copy,idx⟩ (mem_refs.mpr (.inl ref))
  cases place

structure Comes (s : MccCtl) (outcome : Bool × Mem) (refused : Prop) (log : HwBand → FwLogInfo) : Prop where
  left : refused → outcome.1 = false ∧ ∀ other,outcome.2 (.stored other) = withLog (s.info other) (log other)
  lost : ¬ refused → ¬ Sound {s with mem:=outcome.2}

structure Decided (s : MccCtl) (event : Event) (guard : Prop) : Prop where
  kept : guard → Inv (mccStep s event) ∧ Fair s event
  needed : Kept s event → guard

theorem Decided.exact {guard : Prop} (decided : Decided s event guard) : Kept s event ↔ guard :=
  ⟨decided.needed,fun allowed => ⟨(decided.kept allowed).1.sound,(decided.kept allowed).2⟩⟩

theorem Decided.quiet {guard : Prop} (inv : Inv s)
    (logs : ∀ band,∃ log,(call s event).2 (.stored band) = withLog (s.info band) log)
    (fair : (call s event).1 = false → ∀ band,(call s event).2 (.stored band) = s.info band) (allowed : guard) :
    Decided s event guard := ⟨fun _ => ⟨inv.logs logs,fun _ => fair⟩,fun _ => allowed⟩

theorem Decided.idle {guard : Prop} (inv : Inv s) (same : ∀ band,(call s event).2 (.stored band) = s.info band) (allowed : guard) :
    Decided s event guard := .quiet inv (fun band => ⟨(s.info band).fwLog,same band⟩) (fun _ => same) allowed

theorem Decided.lost {guard : Prop} (lost : ¬ Sound (mccStep s event)) (forbidden : ¬ guard) : Decided s event guard :=
  ⟨fun allowed => absurd allowed forbidden,fun kept => absurd kept.1 lost⟩

theorem Comes.decided (inv : Inv s) (change : event.isChange) (comes : Comes s (call s event) refused log) :
    Decided s event ((∀ other,log other = (s.info other).fwLog) ∧ refused) := by
  constructor
  · rintro ⟨same,no⟩
    obtain ⟨_,logs⟩ := comes.left no
    refine ⟨inv.logs fun band => ⟨log band,logs band⟩,fun _ _ band => ?_⟩
    refine (logs band).trans ?_
    rw [same]
    exact withLog_own _
  · rintro ⟨sound,same⟩
    by_cases no : refused
    · obtain ⟨failed,logs⟩ := comes.left no
      refine ⟨fun other => ?_,no⟩
      have whole := (logs other).symm.trans (same change failed other)
      exact congrArg MccInfo.fwLog whole
    · exact absurd sound (comes.lost no)

theorem duration_change (env : Env) (m : Mem) (stored : m (.stored band) = withLog ori log) :
    (Refused env ori.mccMode ori m →
      mccDurationChange env band m = (false,(mccUpdatePattern env ori.mccMode ori m).2)) ∧
    (¬ Refused env ori.mccMode ori m →
      mccDurationChange env band m = (true,copyBack band (mccUpdatePattern env ori.mccMode ori m).2)) := by
  have same : mccUpdatePattern env (withLog ori log).mccMode (withLog ori log) m = mccUpdatePattern env ori.mccMode ori m := rfl
  rw [update_refused]
  unfold mccDurationChange
  rw [stored,same]
  cases mccUpdatePattern env ori.mccMode ori m with
  | mk ok m' =>
    cases ok with
    | false => exact ⟨fun _ => rfl,fun accepted => absurd rfl accepted⟩
    | true => exact ⟨fun refused => (Bool.false_ne_true refused.symm).elim,fun _ => rfl⟩

theorem reset_change (s : MccCtl) (env : Env) (m : Mem) (runs : (s.info band).state = .runing) (reset : Reset (s.info band) m)
    (stored : ∀ other,m (.stored other) = withLog (s.info other) (log other)) :
    Comes s (mccDurationChange env band m) (Refused env (s.info band).mccMode (s.info band) m) log := by
  obtain ⟨left,lost⟩ := duration_change env m (stored band)
  have ready := reset.ready (s.info band).mccMode
  constructor
  · intro refused
    rw [left refused]
    refine ⟨rfl,fun other => ?_⟩
    refine (update_away env _ _ m ready other fun _ _ _ r member => ?_).trans (stored other)
    rw [reset.empty] at member
    cases member
  · intro accepted
    rw [lost accepted]
    rw [update_refused,Bool.not_eq_false] at accepted
    exact copied_unsound s band accepted ready (reset.state.trans runs)

theorem live_decided {guard : Prop} (inv : Inv s) (band : HwBand)
    (idle : ¬ (s.initMcc ∧ (s.info band).state = .runing) → (call s event).2 = s.mem)
    (live : s.initMcc → (s.info band).state = .runing → Decided s event guard) :
    Decided s event (s.initMcc → (s.info band).state = .runing → guard) := by
  by_cases runs : s.initMcc ∧ (s.info band).state = .runing
  · obtain ⟨kept,needed⟩ := live runs.1 runs.2
    exact ⟨fun guard => kept (guard runs.1 runs.2),fun kept _ _ => needed kept⟩
  · refine .idle inv (fun other => ?_) fun init run => absurd ⟨init,run⟩ runs
    rw [idle runs]
    rfl

theorem not_running {s : MccCtl} {off on : α} (runs : ¬ (s.initMcc ∧ (s.info band).state = .runing)) :
    (if (!s.initMcc) then off else if (s.info band).state ≠ .runing then off else on) = off := by
  cases init : s.initMcc with
  | false => rfl
  | true => exact if_pos fun run => runs ⟨init,run⟩

theorem bt_change_decided (inv : Inv s) (runs : (s.info info.hwBand).state = .runing)
    (called : call s (.durationChange env info) = rtwPhlMccBtDurationChange env info.hwBand info.dur s.mem) :
    Decided s (.durationChange env info)
      (info.dur ≠ (s.info info.hwBand).btInfo.btDur → exist2g env (s.info info.hwBand) →
        LogsLeft env info.hwBand s ∧
          Refused env (s.info info.hwBand).mccMode (s.info info.hwBand) (btCopy env info.hwBand s.mem)) := by
  obtain ⟨reset,stored⟩ := bt_copy env info.hwBand s.mem
  unfold rtwPhlMccBtDurationChange at called
  by_cases equal : info.dur = (s.info info.hwBand).btInfo.btDur
  · have kept : call s (.durationChange env info) = (true,s.mem) := called.trans (if_pos equal)
    refine .idle inv (fun band => ?_) fun apart => absurd equal apart
    rw [kept]
    rfl
  · cases known : exist2g env (s.info info.hwBand) with
    | false =>
      have kept : call s (.durationChange env info) = (true,btCopy env info.hwBand s.mem) := by
        unfold MccCtl.info at equal known
        rw [called,if_neg equal,known]
        rfl
      refine .quiet inv (fun band => ?_) (fun failed => ?_) fun _ no => absurd no Bool.false_ne_true
      · rw [kept]; exact ⟨_,stored band⟩
      · rw [kept] at failed; cases failed
    | true =>
      have changed : call s (.durationChange env info) = mccDurationChange env info.hwBand (btCopy env info.hwBand s.mem) := by
        unfold MccCtl.info at equal known
        rw [called,if_neg equal,known]
        rfl
      have comes := reset_change s env _ runs reset stored
      rw [← changed] at comes
      obtain ⟨kept,needed⟩ := comes.decided inv rfl
      exact ⟨fun guard => kept (guard equal rfl),fun kept _ _ => needed kept⟩

theorem lim_change_decided (inv : Inv s) : Decided s (.durLimChange env wrole limReq) (DurLimGuard env wrole limReq s) := by
  refine live_decided inv (env.wrole wrole).hwBand (fun runs => ?_) fun ready runs => ?_
  · unfold call rtwPhlMccDurLimChange
    dsimp only
    rw [not_running runs]
  · have called : call s (.durLimChange env wrole limReq) =
        match mccGetMroleIdxByWrole (s.info (env.wrole wrole).hwBand) wrole with
        | none => (false,copyOut (env.wrole wrole).hwBand s.mem)
        | some role =>
          mccDurationChange env (env.wrole wrole).hwBand (limCopy env role limReq (env.wrole wrole).hwBand s.mem) := by
      unfold call rtwPhlMccDurLimChange
      dsimp only
      rw [ready,runs]
      rfl
    cases found : mccGetMroleIdxByWrole (s.info (env.wrole wrole).hwBand) wrole with
    | none =>
      rw [found] at called
      refine .idle inv (fun band => ?_) trivial
      rw [called]
      exact copy_out (env.wrole wrole).hwBand band s.mem
    | some role =>
      rw [found] at called
      obtain ⟨_,logs⟩ := bt_copy env (env.wrole wrole).hwBand s.mem
      obtain ⟨reset,stored⟩ := lim_copy env role limReq (env.wrole wrole).hwBand s.mem
      have comes := reset_change s env _ runs reset fun other => (stored other).trans (logs other)
      dsimp only at called
      rw [← called] at comes
      exact comes.decided inv rfl

theorem unspecific_same (i : MccInfo) : Tunes i (mccSetUnspecificDur i) := by
  refine ⟨⟨rfl,rfl,rfl,rfl,rfl,rfl,fun idx => ?_⟩,rfl,rfl,rfl,rfl,rfl⟩
  unfold mccSetUnspecificDur
  dsimp only
  split
  · exact ⟨rfl,rfl,rfl,rfl⟩
  · exact .refl _

theorem wifi_copy (role : Fin 2) (dur : Nat) (band : HwBand) (m : Mem) :
    Tunes (m (.stored band)) (wifiCopy role dur band m .copy) ∧
      ∀ other,wifiCopy role dur band m (.stored other) = m (.stored other) := by
  obtain ⟨made,stored⟩ := copied band m fun i => (mccSetUnspecificDur i).setDur role dur
  refine ⟨?_,stored⟩
  rw [wifiCopy,made]
  exact (unspecific_same _).trans (.setDur _ _ _)

theorem wifi_ready (running : Running band i) (tunes : Tunes i (m .copy)) (stored : m (.stored band) = i) :
    Ready i.mccMode m where
  seg := tunes.segNum.trans running.seg
  old mode := by
    intro apart on
    rw [tunes.limitedRef,tunes.limitedAno] at apart
    rw [tunes.courtesy] at on ⊢
    have places : ∀ r,i.enInfo.pattern.courtesy.srcRole = some r ∨ i.enInfo.pattern.courtesy.tgtRole = some r →
        r.place = .stored band := by
      intro r named
      refine running.refs r (mem_refs.mpr ?_)
      rcases named with src | tgt
      · exact .inr (.inr (.inl src))
      · exact .inr (.inr (.inr (.inl tgt)))
    have role : ∀ r : RoleRef,r.place = .stored band → m.role r = Mem.role (fun _ => i) r := by
      intro r place
      unfold Mem.role
      rw [place,stored]
    refine ⟨?_,fun r named copied => ?_⟩
    · obtain ⟨srcRole,tgtRole,src,tgt,facts⟩ := running.written mode apart on
      refine ⟨srcRole,tgtRole,src,tgt,?_⟩
      rw [role _ (places _ (.inl src)),role _ (places _ (.inr tgt))]
      exact facts
    · rw [places r named] at copied
      cases copied

theorem Tunes.kinds (tunes : Tunes i j) : j.enInfo.pattern.kinds = i.enInfo.pattern.kinds := by
  unfold Pattern.kinds
  rw [tunes.slots]

theorem group_left (inv : Inv s) (runs : (s.info band).state = .runing) (tunes : Tunes (s.info band) (m .copy))
    (stored : ∀ other,m (.stored other) = s.info other) :
    GroupLeft env (s.info band).mccMode (s.info band) m ↔
      ∀ other,(mccUpdatePattern env (s.info band).mccMode (s.info band) m).2 (.stored other) = s.info other := by
  have running := (inv band).2 runs
  have ready := wifi_ready running tunes (stored band)
  have place : ∀ r,SlotKind.wifi (some r) ∈ (m .copy).enInfo.pattern.kinds → r.place = .stored band ∧
      (m.role r).group = (s.info band).enInfo.group := by
    intro r member
    rw [tunes.kinds] at member
    have here := running.refs r (mem_refs.mpr (.inr (.inr (.inr (.inr member)))))
    refine ⟨here,?_⟩
    unfold Mem.role
    rw [here,stored]
    exact running.groups r member
  constructor
  · intro left other
    refine (update_away env _ _ m ready other fun ok group got r member _ => ?_).trans (stored other)
    rw [(place r member).2]
    rcases left ok with none | same
    · rw [none] at got; cases got
    · rw [same] at got; exact Option.some.inj got
  · intro same ok
    cases got : env.mac.getMccGroup with
    | none => exact .inl rfl
    | some group =>
      obtain ⟨r,rest,first⟩ := running.first
      have kinds := tunes.kinds
      have written := update_first env (s.info band).mccMode (s.info band) m ready ok got
        (by rw [kinds]; exact running.many) (kinds.trans first)
      have member : SlotKind.wifi (some r) ∈ (s.info band).enInfo.pattern.kinds := by rw [first]; exact mem_cons_self
      have here := running.refs r (mem_refs.mpr (.inr (.inr (.inr (.inr member)))))
      unfold Mem.role at written
      rw [here,same,running.groups r member] at written
      exact .inr (congrArg some written.symm)

theorem wifi_change_decided (inv : Inv s) (runs : (s.info info.hwBand).state = .runing)
    (called : call s (.durationChange env info) = rtwPhlMccDurationChange env info.hwBand info.role info.dur s.mem) :
    Decided s (.durationChange env info) (match mccGetMroleIdxByWrole (s.info info.hwBand) info.role with
      | none => True
      | some role => GroupLeft env (s.info info.hwBand).mccMode (s.info info.hwBand) (wifiCopy role info.dur info.hwBand s.mem) ∧
        Refused env (s.info info.hwBand).mccMode (s.info info.hwBand) (wifiCopy role info.dur info.hwBand s.mem)) := by
  unfold rtwPhlMccDurationChange at called
  cases found : mccGetMroleIdxByWrole (s.info info.hwBand) info.role with
  | none =>
    unfold MccCtl.info at found
    rw [found] at called
    refine .idle inv (fun band => ?_) trivial
    have outside : Place.stored band ≠ .copy := nofun
    rw [called]
    dsimp only
    exact (modify_away _ _ outside).trans (copy_out info.hwBand band s.mem)
  | some role =>
    unfold MccCtl.info at found
    rw [found] at called
    obtain ⟨tunes,stored⟩ := wifi_copy role info.dur info.hwBand s.mem
    have ready := wifi_ready ((inv info.hwBand).2 runs) tunes (stored info.hwBand)
    have own : wifiCopy role info.dur info.hwBand s.mem (.stored info.hwBand) =
        withLog (s.info info.hwBand) (s.info info.hwBand).fwLog := stored info.hwBand
    obtain ⟨left,lost⟩ := duration_change env (wifiCopy role info.dur info.hwBand s.mem) own
    dsimp only at called ⊢
    rw [group_left inv runs tunes stored]
    constructor
    · rintro ⟨same,refused⟩
      rw [left refused] at called
      refine (Decided.idle inv (fun band => ?_) trivial).kept trivial
      rw [called]
      exact same band
    · rintro ⟨sound,same⟩
      by_cases refused : Refused env (s.info info.hwBand).mccMode (s.info info.hwBand) (wifiCopy role info.dur info.hwBand s.mem)
      · rw [left refused] at called
        refine ⟨fun other => ?_,refused⟩
        have kept := same rfl (by rw [called]) other
        unfold mccStep MccCtl.info at kept
        rw [called] at kept
        exact kept
      · rw [lost refused] at called
        rw [update_refused,Bool.not_eq_false] at refused
        unfold mccStep at sound
        rw [called] at sound
        exact absurd sound (copied_unsound s info.hwBand refused ready (tunes.state.trans runs))

theorem duration_change_decided (inv : Inv s) : Decided s (.durationChange env info) (DurationGuard env info s) := by
  refine live_decided inv info.hwBand (fun runs => ?_) fun ready runs => ?_
  · unfold call rtwPhlTdmraDurationChange
    dsimp only
    rw [not_running runs]
  · have called : call s (.durationChange env info) =
        if info.btRole then rtwPhlMccBtDurationChange env info.hwBand info.dur s.mem
        else rtwPhlMccDurationChange env info.hwBand info.role info.dur s.mem := by
      unfold call rtwPhlTdmraDurationChange
      dsimp only
      rw [ready,runs]
      rfl
    by_cases bt : info.btRole
    · rw [if_pos bt] at called ⊢
      exact bt_change_decided inv runs called
    · rw [if_neg bt] at called ⊢
      exact wifi_change_decided inv runs called

theorem watchdog_decided (inv : Inv s) : Decided s (.watchdog env band) (WatchdogGuard env band s) := by
  refine live_decided inv band (fun runs => ?_) fun ready runs => ?_
  · unfold call rtwPhlMccWatchdog
    dsimp only
    rw [not_running runs]
  · have called : (call s (.watchdog env band)).2 =
        if (s.info band).mccMode = .twoClients then mcc2ClientsTracking env band s.mem else s.mem := by
      unfold call rtwPhlMccWatchdog
      dsimp only
      rw [ready,runs]
      rfl
    by_cases clients : (s.info band).mccMode = .twoClients
    · rw [if_pos clients] at called
      have here : copyOut band s.mem .copy = s.info band := modify_at ..
      unfold mcc2ClientsTracking at called
      dsimp only at called
      rw [here] at called
      cases moved : drifted env (s.info band) with
      | false =>
        rw [moved,if_neg Bool.false_ne_true] at called
        refine .idle inv (fun other => ?_) fun _ no => absurd no Bool.false_ne_true
        rw [called]
        exact copy_out band other s.mem
      | true =>
        rw [moved,if_pos rfl] at called
        obtain ⟨reset,logs⟩ := tracking_copy env band s.mem
        have fresh := reset.ready .twoClients
        have refused := update_refused env .twoClients (s.info band) (trackingCopy env (copyOut band s.mem))
        have accepted := fun ok : (mccUpdatePattern env .twoClients (s.info band) (trackingCopy env (copyOut band s.mem))).1 =>
          copied_unsound s band ok fresh (reset.state.trans runs)
        have away := fun other => update_away env .twoClients (s.info band) (trackingCopy env (copyOut band s.mem)) fresh
          other fun _ _ _ r member => by rw [reset.empty] at member; cases member
        have same : s.mem (.stored band) = s.info band := rfl
        rw [same] at called
        cases updated : mccUpdatePattern env .twoClients (s.info band) (trackingCopy env (copyOut band s.mem)) with
        | mk ok m =>
          rw [updated] at called refused accepted away
          cases ok with
          | false =>
            refine .quiet inv (fun other => ?_) nofun fun _ _ => refused.mpr rfl
            obtain ⟨log,kept⟩ := logs other
            exact ⟨log,by rw [called]; exact (away other).trans kept⟩
          | true =>
            have lost : ¬ Sound (mccStep s (.watchdog env band)) := by
              unfold mccStep
              rw [called]
              exact accepted rfl
            exact .lost lost fun guard => Bool.false_ne_true (refused.mp (guard clients rfl)).symm
    · rw [if_neg clients] at called
      refine .idle inv (fun other => ?_) fun yes => absurd yes clients
      rw [called]
      rfl

theorem info_setState (s : MccCtl) (band other : HwBand) (state : MccState) :
    s.mem.setState band state (.stored other) = if other = band then {s.info band with state} else s.info other := by
  unfold Mem.setState
  split
  · rename_i same
    rw [same,modify_at]
    rfl
  · rename_i apart
    exact modify_away _ _ fun same => apart (by injection same)

theorem disable_decided (inv : Inv s) : Decided s (.disable env specRole) (DisableGuard env specRole s) := by
  refine live_decided inv (env.wrole specRole).hwBand (fun runs => ?_) fun ready runs => ?_
  · unfold call rtwPhlTdmraDisable
    dsimp only
    rw [not_running runs]
  · have called : call s (.disable env specRole) =
        match mccGetMroleIdxByWrole (s.info (env.wrole specRole).hwBand) specRole with
        | none => (false,s.mem)
        | some _ =>
          if rtwHalMccDisable env.mac then (true,s.mem.setState (env.wrole specRole).hwBand .stop)
          else (false,s.mem.setState (env.wrole specRole).hwBand .fwDisFail) := by
      unfold call rtwPhlTdmraDisable
      dsimp only
      rw [ready,runs]
      rfl
    cases found : mccGetMroleIdxByWrole (s.info (env.wrole specRole).hwBand) specRole with
    | none =>
      rw [found] at called
      exact .idle inv (fun band => by rw [called]; rfl) nofun
    | some role =>
      rw [found] at called
      dsimp only at called
      cases stopped : rtwHalMccDisable env.mac with
      | true =>
        rw [stopped,if_pos rfl] at called
        have kept : Inv (mccStep s (.disable env specRole)) := by
          intro other
          unfold mccStep MccCtl.info
          rw [called]
          dsimp only
          rw [info_setState]
          split
          · exact ⟨.inr (.inl rfl),nofun⟩
          · exact inv other
        exact ⟨fun _ => ⟨kept,nofun⟩,fun _ _ => rfl⟩
      | false =>
        rw [stopped,if_neg Bool.false_ne_true] at called
        refine .lost (fun sound => ?_) fun guard => Bool.false_ne_true (guard rfl)
        have settled := (sound (env.wrole specRole).hwBand).1
        unfold mccStep MccCtl.info at settled
        rw [called] at settled
        dsimp only at settled
        rw [info_setState,if_pos rfl] at settled
        rcases settled with none | stop | runing
        · cases none
        · cases stop
        · cases runing
end Rtl8852au.Mcc
