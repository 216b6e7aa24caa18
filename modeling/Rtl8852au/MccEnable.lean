import Rtl8852au.MccKept

namespace Rtl8852au.Mcc
open Option

structure Base (roleMap curRole : Nat) (i : MccInfo) : Prop where
  pattern : i.enInfo.pattern = zeroPattern
  seg : i.btInfo.btSegNum = 1
  addBt : i.btInfo.addBtRole = false
  refIdx : i.enInfo.refRoleIdx = 0
  num : i.mccMode = .ap ∧ i.enInfo.mroleNum = (if curRole ∈ rolesOf roleMap then 1 else 2) ∨
    (i.mccMode = .apClient ∨ i.mccMode = .twoClients) ∧ i.enInfo.mroleNum = 2

theorem Base.two (base : Base roleMap curRole i) (other : i.mccMode ≠ .ap) : i.enInfo.mroleNum = 2 := by
  rcases base.num with ⟨ap,_⟩ | ⟨_,two⟩
  · exact absurd ap other
  · exact two

theorem entered_count (modes : (rolesOf roleMap).length = n)
    (counted : num = min 2 (1 + (rolesOf (withoutRole roleMap curRole)).length))
    (few : n = 1 ∨ n = 2) : num = if n = 1 ∧ curRole ∈ rolesOf roleMap then 1 else 2 := by
  rw [counted,without_role_length,modes]
  by_cases mine : curRole ∈ rolesOf roleMap
  · rw [if_pos mine]
    rcases few with one | two
    · rw [one,if_pos ⟨rfl,mine⟩]; rfl
    · rw [two,if_neg fun both => absurd both.1 (by decide)]; rfl
  · rw [if_neg mine,if_neg fun both => mine both.2]
    omega

theorem found_first (i : MccInfo) (used : i.used 0) (wrole : (i.enInfo.mccRole 0).wrole = some curRole) :
    mccGetMroleIdxByWrole i curRole = some 0 := by
  unfold mccGetMroleIdxByWrole
  rw [List.find?_cons_of_pos]
  rw [used,wrole]
  exact beq_self_eq_true _

-- Stages that write at `p` and, elsewhere, logs.
def LogsAway (p : Place) (m m' : Mem) : Prop := ∀ q,q ≠ p → ∃ log,m' q = withLog (m q) log

theorem LogsAway.trans (one : LogsAway p a b) (two : LogsAway p b c) : LogsAway p a c := by
  intro q apart
  obtain ⟨first,one⟩ := one q apart
  obtain ⟨second,two⟩ := two q apart
  exact ⟨second,by rw [two,one]; rfl⟩

theorem LogsAway.modify (m : Mem) (p : Place) (change : MccInfo → MccInfo) : LogsAway p m (m.modify p change) :=
  fun q apart => ⟨(m q).fwLog,modify_away m change apart⟩

theorem cfg_roles (env : Env) (band : HwBand) (coex : Bool) (curRole : Nat) (m : Mem) :
    LogsAway (.stored band) m (cfgRoles env band coex curRole m).2 ∧
      ((cfgRoles env band coex curRole m).1 →
        Base (env.roleMap band) curRole ((cfgRoles env band coex curRole m).2 (.stored band)) ∧
          (coex → ((cfgRoles env band coex curRole m).2 (.stored band)).mccMode = .ap)) := by
  unfold cfgRoles
  dsimp only
  rw [modify_at,modify_twice]
  generalize moded : mccTransferMode env {resetForEnable (m (.stored band)) with roleMap:=env.roleMap band} (env.roleMap band) = outcome
  obtain ⟨known,i⟩ := outcome
  dsimp only
  have first := LogsAway.modify m (.stored band) fun _ => i
  cases known with
  | false => exact ⟨first,nofun⟩
  | true =>
    obtain ⟨mode,made,modes⟩ := transfer_mode moded
    rw [Bool.not_true,if_neg Bool.false_ne_true]
    split
    · exact ⟨first,nofun⟩
    · rename_i mixed
      obtain ⟨only,filled⟩ := fill_role_info env (.stored band) (env.roleMap band) curRole (m.modify (.stored band) fun _ => i)
      generalize mccFillRoleInfo env (.stored band) (env.roleMap band) curRole (m.modify (.stored band) fun _ => i) = outcome at only filled ⊢
      obtain ⟨done,m3⟩ := outcome
      have second := first.trans only.away
      cases done with
      | false => exact ⟨second,nofun⟩
      | true =>
        dsimp only at only filled second ⊢
        obtain ⟨num,wrole,used⟩ := filled rfl (by rw [modify_at,made]; rfl)
        have entry : mccGetMroleIdxByWrole (m3.modify (.stored band) (fun i => mccFillBtDur env {i with coexMode:=.btMaster}) (.stored band))
            curRole = some 0 := by rw [modify_at]; exact found_first _ used wrole
        rw [entry]
        dsimp only
        rw [modify_twice]
        have mode_ : (m3 (.stored band)).mccMode = mode := only.mode.trans (by rw [modify_at,made])
        have bt : (m3 (.stored band)).btInfo = zeroBtInfo := only.bt.trans (by rw [modify_at,made]; rfl)
        refine ⟨second.trans (.modify _ _ _),fun _ => ⟨⟨?_,?_,?_,?_,?_⟩,fun yes => ?_⟩⟩
        · rw [modify_at]
          exact only.pattern.trans (by rw [modify_at,made]; rfl)
        · rw [modify_at]
          rfl
        · rw [modify_at]
          exact congrArg BtInfo.addBtRole bt
        · rw [modify_at]
        · rw [modify_at]
          have counted : (m3 (.stored band)).enInfo.mroleNum = _ := num
          rcases modes with ⟨ap,one⟩ | ⟨two,length⟩
          · refine .inl ⟨mode_.trans ap,?_⟩
            exact (entered_count one num (.inl rfl)).trans (by simp)
          · refine .inr ⟨?_,(entered_count length num (.inr rfl)).trans (by simp)⟩
            exact two.imp mode_.trans mode_.trans
        · rw [modify_at]
          rw [yes,made] at mixed
          have ap : mode = .ap := by simpa using mixed
          exact mode_.trans ap

-- The lists of slots there are, by the number of roles and add_bt_role.
inductive Shape (p : Place) : Nat → Bool → List SlotKind → Prop where
  | ap : Shape p 1 true [.wifi (some ⟨p,0⟩),.bt]
  | refAno : Shape p 2 false [.wifi (some ⟨p,0⟩),.wifi (some ⟨p,1⟩)]
  | refAnoBt : Shape p 2 true [.wifi (some ⟨p,0⟩),.wifi (some ⟨p,1⟩),.bt]
  | refBtAno : Shape p 2 true [.wifi (some ⟨p,0⟩),.bt,.wifi (some ⟨p,1⟩)]

theorem Shape.each (shape : Shape p num bt kinds) (idx : Fin 2) :
    kinds.count (.wifi (some ⟨p,idx⟩)) = if idx.val < num then 1 else 0 := by
  match idx with
  | 0 => cases shape with
    | ap => simp
    | refAno => simp
    | refAnoBt => simp
    | refBtAno => simp
  | 1 => cases shape with
    | ap => simp
    | refAno => simp
    | refAnoBt => simp
    | refBtAno => simp

theorem Shape.counts (shape : Shape p num bt kinds) :
    kinds.count .bt = (if bt then 1 else 0) ∧ kinds.length = (num + if bt then 1 else 0) ∧ 2 ≤ kinds.length ∧
      ∃ r rest,kinds = .wifi (some r) :: rest := by
  cases shape with
  | ap => exact ⟨by simp,rfl,Nat.le_refl 2,_,_,rfl⟩
  | refAno => exact ⟨by simp,rfl,Nat.le_refl 2,_,_,rfl⟩
  | refAnoBt => exact ⟨by simp,rfl,Nat.le_succ 2,_,_,rfl⟩
  | refBtAno => exact ⟨by simp,rfl,Nat.le_succ 2,_,_,rfl⟩

-- A BT slot or the slot of the second role is not there.
def Lacking (p : Place) (num : Nat) (bt : Bool) (kinds : List SlotKind) : Prop :=
  bt ∧ SlotKind.bt ∉ kinds ∨ num = 2 ∧ SlotKind.wifi (some ⟨p,1⟩) ∉ kinds

structure Made (p : Place) (fits : Prop) (i : MccInfo) : Prop where
  places : ∀ r ∈ i.enInfo.pattern.refs,r.place = p
  shape : fits → Shape p i.enInfo.mroleNum i.btInfo.addBtRole i.enInfo.pattern.kinds
  lacks : ¬ fits → Lacking p i.enInfo.mroleNum i.btInfo.addBtRole i.enInfo.pattern.kinds

structure Open (p : Place) (i : MccInfo) : Prop where
  roleRef : i.enInfo.pattern.roleRef = some ⟨p,0⟩
  roleAno : i.enInfo.pattern.roleAno = some ⟨p,1⟩
  kinds : i.enInfo.pattern.kinds = []
  courtesy : i.enInfo.pattern.courtesy = zeroPattern.courtesy
  addBt : i.btInfo.addBtRole = false

theorem Base.opened (base : Base roleMap curRole i) (sets : Sets p i j) : Open p j := by
  have refIdx := base.refIdx
  have pattern := base.pattern
  refine ⟨sets.roleRef.trans (by rw [refIdx]),sets.roleAno.trans (by rw [refIdx]; rfl),sets.kinds.trans (by rw [pattern]; rfl),
    sets.courtesy.trans (by rw [pattern]),sets.addBt.trans base.addBt⟩

theorem Open.slots (opened : Open p i) (appends : Appends i.enInfo.pattern after added) : after.kinds = added.take slotNum := by
  rw [appends.kinds,opened.kinds,List.nil_append]

theorem Open.places (opened : Open p i) (appends : Appends i.enInfo.pattern after added)
    (named : ∀ r,SlotKind.wifi (some r) ∈ added → r.place = p) : ∀ r ∈ after.refs,r.place = p := by
  have ref : ∀ r,some (⟨p,0⟩ : RoleRef) = some r → r.place = p := by intro r same; cases same; rfl
  have ano : ∀ r,some (⟨p,1⟩ : RoleRef) = some r → r.place = p := by intro r same; cases same; rfl
  intro r member
  rcases mem_refs.mp member with isRef | isAno | src | tgt | kind
  · rw [appends.roleRef,opened.roleRef] at isRef; exact ref r isRef
  · rw [appends.roleAno,opened.roleAno] at isAno; exact ano r isAno
  · rcases appends.courtesy with same | first | second
    · rw [same,opened.courtesy] at src; cases src
    · rw [first,opened.roleRef] at src; exact ref r src
    · rw [second,opened.roleAno] at src; exact ano r src
  · rcases appends.courtesy with same | first | second
    · rw [same,opened.courtesy] at tgt; cases tgt
    · rw [first,opened.roleAno] at tgt; exact ano r tgt
    · rw [second,opened.roleRef] at tgt; exact ref r tgt
  · rw [opened.slots appends] at kind
    exact named r (List.mem_of_mem_take kind)

theorem Open.made (opened : Open p i) (arranged : Arranged extra fits i j) (num : j.enInfo.mroleNum = 2) :
    Made p (extra → fits) j := by
  have ref : refSlot i.enInfo.pattern = .wifi (some ⟨p,0⟩) := congrArg SlotKind.wifi opened.roleRef
  have ano : anoSlot i.enInfo.pattern = .wifi (some ⟨p,1⟩) := congrArg SlotKind.wifi opened.roleAno
  have two : TwoSlots i.enInfo.pattern j.enInfo.pattern → (∀ r ∈ j.enInfo.pattern.refs,r.place = p) ∧
      j.enInfo.pattern.kinds = [.wifi (some ⟨p,0⟩),.wifi (some ⟨p,1⟩)] := by
    intro appends
    unfold TwoSlots at appends
    rw [ref,ano] at appends
    refine ⟨opened.places appends fun r member => ?_,opened.slots appends⟩
    simp only [List.mem_cons,List.not_mem_nil,or_false,SlotKind.wifi.injEq,some.injEq] at member
    rcases member with rfl | rfl
    · rfl
    · rfl
  cases extra with
  | false =>
    obtain ⟨appends,bt⟩ := arranged.plain rfl
    obtain ⟨places,kinds⟩ := two appends
    refine ⟨places,fun _ => ?_,fun none => absurd (fun yes => absurd yes Bool.false_ne_true) none⟩
    rw [num,bt,opened.addBt,kinds]
    exact .refAno
  | true =>
    have bt := arranged.added rfl
    by_cases fit : fits
    · rcases arranged.takes rfl fit with appends | appends
      · rw [ref,ano] at appends
        refine ⟨opened.places appends fun r member => ?_,fun _ => ?_,fun none => absurd (fun _ => fit) none⟩
        · simp only [List.mem_cons,List.not_mem_nil,or_false,SlotKind.wifi.injEq,some.injEq,reduceCtorEq] at member
          rcases member with rfl | rfl
          · rfl
          · rfl
        · rw [num,bt,opened.slots appends]
          exact .refAnoBt
      · rw [ref,ano] at appends
        refine ⟨opened.places appends fun r member => ?_,fun _ => ?_,fun none => absurd (fun _ => fit) none⟩
        · simp only [List.mem_cons,List.not_mem_nil,or_false,false_or,SlotKind.wifi.injEq,some.injEq,reduceCtorEq] at member
          rcases member with rfl | rfl
          · rfl
          · rfl
        · rw [num,bt,opened.slots appends]
          exact .refBtAno
    · obtain ⟨places,kinds⟩ := two (arranged.lacks rfl fit)
      refine ⟨places,fun fits => absurd (fits rfl) fit,fun _ => .inl ⟨bt,?_⟩⟩
      rw [kinds]
      simp

theorem Base.old (base : Base roleMap curRole (m p)) : Old p m := by
  intro _ on
  rw [base.pattern] at on
  cases on

structure Laid (p : Place) (fits : Prop) (m m' : Mem) : Prop extends Local p m m' where
  made : Made p fits (m' p)
  written : (m' p).mccMode = .twoClients → limited (m' p).ref ≠ limited (m' p).ano →
    (m' p).enInfo.pattern.courtesy.cEn → Written m' (m' p).enInfo.pattern.courtesy

theorem two_clients_laid (base : Base roleMap curRole (m p)) (mode : (m p).mccMode = .twoClients)
    (ok : (mccFillInfo env .twoClients p m).1) :
    Laid p (SlotsFit env p roleMap curRole (m p)) m (mccFillInfo env .twoClients p m).2 := by
  have num := base.two (by rw [mode]; nofun)
  unfold SlotsFit
  rw [mode]
  dsimp only
  cases durs : twoClientsDurs env p (m p) with
  | none =>
    unfold mccFillInfo mccFillInfoFor2ClientsMode at ok
    dsimp only at ok
    rw [durs] at ok
    cases ok
  | some known =>
    obtain ⟨worsecase,i⟩ := known
    obtain ⟨here,arranged,written⟩ := two_clients_made m base.seg base.old durs
    have opened := base.opened (two_clients_sets durs)
    refine ⟨here,opened.made arranged (here.same.num.trans num),fun _ apart on => written ?_ on⟩
    have same := here.same
    rw [← same.limitedRef,← same.limitedAno]
    exact apart

theorem ap_client_laid (base : Base roleMap curRole (m p)) (mode : (m p).mccMode = .apClient)
    (ok : (mccFillInfo env .apClient p m).1) :
    Laid p (SlotsFit env p roleMap curRole (m p)) m (mccFillInfo env .apClient p m).2 := by
  have num := base.two (by rw [mode]; nofun)
  unfold SlotsFit
  rw [mode]
  dsimp only
  cases durs : apClientDurs env p (m p) with
  | none =>
    unfold mccFillInfo mccFillInfoForApClientMode at ok
    dsimp only at ok
    rw [durs] at ok
    cases ok
  | some known =>
    obtain ⟨ap,client,i⟩ := known
    obtain ⟨here,arranged⟩ := ap_client_made m base.seg durs
    have opened := base.opened (ap_client_sets durs)
    refine ⟨here,opened.made arranged (here.same.num.trans num),fun other => ?_⟩
    exact nomatch (here.same.mode.trans mode).symm.trans other

theorem ap_slots_made (base : Base roleMap curRole i) (mode : i.mccMode = .ap) (slots : ApSlots p i j) :
    Made p (curRole ∈ rolesOf roleMap) j := by
  have pattern := base.pattern
  have kinds : j.enInfo.pattern.kinds = [.wifi (some ⟨p,0⟩),.bt] := by
    rw [slots.appends,pattern,base.refIdx]
    rfl
  have num : j.enInfo.mroleNum = if curRole ∈ rolesOf roleMap then 1 else 2 := by
    rcases base.num with ⟨_,num⟩ | ⟨other,_⟩
    · exact slots.num.trans num
    · rw [mode] at other
      rcases other with no | no
      · cases no
      · cases no
  refine ⟨fun r member => ?_,fun mine => ?_,fun not => .inr ⟨?_,?_⟩⟩
  · rcases mem_refs.mp member with ref | ano | src | tgt | kind
    · rw [slots.roleRef] at ref; cases ref; rfl
    · rw [slots.roleAno,pattern] at ano; cases ano
    · rw [slots.courtesy,pattern] at src; cases src
    · rw [slots.courtesy,pattern] at tgt; cases tgt
    · rw [kinds] at kind
      simp only [List.mem_cons,List.not_mem_nil,or_false,SlotKind.wifi.injEq,some.injEq,reduceCtorEq] at kind
      rw [kind]
  · rw [num,if_pos mine,slots.addBt,kinds]
    exact .ap
  · rw [num,if_neg not]
  · rw [kinds]
    simp

theorem ap_laid (base : Base roleMap curRole (m p)) (mode : (m p).mccMode = .ap) :
    Laid p (SlotsFit env p roleMap curRole (m p)) m (mccFillInfo env .ap p m).2 := by
  obtain ⟨here,slots⟩ := ap_bt_made env p m
  unfold SlotsFit
  rw [mode]
  refine ⟨here,ap_slots_made base mode slots,fun other => ?_⟩
  exact nomatch (here.same.mode.trans mode).symm.trans other

theorem fill_info_laid (env : Env) (base : Base roleMap curRole (m p)) (ok : (mccFillInfo env (m p).mccMode p m).1) :
    Laid p (SlotsFit env p roleMap curRole (m p)) m (mccFillInfo env (m p).mccMode p m).2 := by
  rcases base.num with ⟨mode,_⟩ | ⟨mode | mode,_⟩
  · rw [mode]
    exact ap_laid base mode
  · rw [mode] at ok ⊢
    exact ap_client_laid base mode ok
  · rw [mode] at ok ⊢
    exact two_clients_laid base mode ok

theorem Local.logsAway (here : Local p m m') : LogsAway p m m' := fun q apart => ⟨(m q).fwLog,here.away q apart⟩

structure Configured (env : Env) (band : HwBand) (curRole : Nat) (roles m : Mem) : Prop where
  laid : Laid (.stored band) (SlotsFit env (.stored band) (env.roleMap band) curRole (roles (.stored band))) roles m
  seg : (m (.stored band)).btInfo.btSegNum = 1

theorem cfg_info (env : Env) (band : HwBand) (coex : Bool) (curRole : Nat) (m : Mem) :
    LogsAway (.stored band) m (cfgInfo env band coex curRole m).2 ∧
      ((cfgInfo env band coex curRole m).1 →
        Configured env band curRole (cfgRoles env band coex curRole m).2 (cfgInfo env band coex curRole m).2) := by
  obtain ⟨away,based⟩ := cfg_roles env band coex curRole m
  unfold cfgInfo
  generalize cfgRoles env band coex curRole m = outcome at away based ⊢
  obtain ⟨known,roles⟩ := outcome
  cases known with
  | false => exact ⟨away,nofun⟩
  | true =>
    obtain ⟨base,_⟩ := based rfl
    dsimp only at away base ⊢
    split
    · exact ⟨away,nofun⟩
    · obtain ⟨here,_⟩ := fill_info_filled env (roles (.stored band)).mccMode (.stored band) roles base.seg fun _ => base.old
      have laid := fill_info_laid env base
      generalize mccFillInfo env (roles (.stored band)).mccMode (.stored band) roles = outcome at here laid ⊢
      obtain ⟨ok,m'⟩ := outcome
      have whole := away.trans here.logsAway
      cases ok with
      | false => exact ⟨whole,nofun⟩
      | true => exact ⟨whole,fun _ => ⟨laid rfl,here.same.segNum.trans base.seg⟩⟩

def started (i : MccInfo) (state : MccState) (group : Nat) (groups : Fin 2 → Nat) : MccInfo :=
  withGroups {i with state,enInfo.group:=group} groups

theorem started_running (ready : Configured env band curRole roles m)
    (fits : SlotsFit env (.stored band) (env.roleMap band) curRole (roles (.stored band)))
    (all : ∀ idx,SlotKind.wifi (some ⟨.stored band,idx⟩) ∈ (m (.stored band)).enInfo.pattern.kinds → groups idx = group) :
    Running band (mccUpFwLogSetting (started (m (.stored band)) .runing group groups)) where
  each := (ready.laid.made.shape fits).each
  bt := (ready.laid.made.shape fits).counts.1
  total := (ready.laid.made.shape fits).counts.2.1
  refs := ready.laid.made.places
  seg := ready.seg
  first := (ready.laid.made.shape fits).counts.2.2.2
  many := (ready.laid.made.shape fits).counts.2.2.1
  groups r member := by
    have place := ready.laid.made.places r (mem_refs.mpr (.inr (.inr (.inr (.inr member)))))
    obtain ⟨place_,idx⟩ := r
    dsimp only at place
    subst place
    exact all idx member
  written mode apart on := by
    obtain ⟨srcRole,tgtRole,src,tgt,facts⟩ := ready.laid.written mode apart on
    have srcPlace := ready.laid.made.places srcRole (mem_refs.mpr (.inr (.inr (.inl src))))
    have tgtPlace := ready.laid.made.places tgtRole (mem_refs.mpr (.inr (.inr (.inr (.inl tgt)))))
    refine ⟨srcRole,tgtRole,src,tgt,?_⟩
    unfold Mem.role at facts
    rw [srcPlace,tgtPlace] at facts
    exact facts

theorem lacking_unslotted (lacks : Lacking (.stored band) i.enInfo.mroleNum i.btInfo.addBtRole i.enInfo.pattern.kinds) :
    ¬ Slotted band i := by
  intro slotted
  rcases lacks with ⟨yes,none⟩ | ⟨two,none⟩
  · have count := slotted.bt
    rw [yes,List.count_eq_zero_of_not_mem none] at count
    cases count
  · have count := slotted.each 1
    rw [two,List.count_eq_zero_of_not_mem none] at count
    cases count

theorem start_accepted (mac : MacReplies) (band : HwBand) (m : Mem) (state : MccState)
    (ok : (rtwHalMccEnable mac (.stored band) (m.setState band state)).1) :
    ∃ group groups,(rtwHalMccEnable mac (.stored band) (m.setState band state)).2 (.stored band) =
        started (m (.stored band)) state group groups ∧
      (∀ idx,SlotKind.wifi (some ⟨.stored band,idx⟩) ∈ (m (.stored band)).enInfo.pattern.kinds → groups idx = group) := by
  unfold rtwHalMccEnable at ok ⊢
  cases got : mac.getMccGroup with
  | none =>
    unfold startMcc at ok
    rw [got] at ok
    cases ok
  | some group =>
    obtain ⟨visited,_,writes,all,_⟩ := start_writes mac (.stored band) (m.setState band state) got
    have here : m.setState band state (.stored band) = {m (.stored band) with state} := modify_at ..
    rw [writes,regroup_all]
    unfold grouped
    rw [modify_at,here]
    refine ⟨group,_,rfl,fun idx member => if_pos ?_⟩
    rw [all ok,here]
    exact mem_wifiRefs.mpr member

theorem start_away (mac : MacReplies) (p : Place) (m : Mem) (places : ∀ r ∈ (m p).enInfo.pattern.refs,r.place = p) :
    LogsAway p m (rtwHalMccEnable mac p m).2 := by
  intro q apart
  unfold rtwHalMccEnable
  cases got : mac.getMccGroup with
  | none =>
    unfold startMcc
    rw [got]
    exact ⟨(m q).fwLog,rfl⟩
  | some group =>
    obtain ⟨visited,part,writes,_,_⟩ := start_writes mac p m got
    rw [writes,regroup_away group _ fun r member => ?_]
    · exact ⟨(m q).fwLog,modify_away m _ apart⟩
    · rw [places r (mem_refs.mpr (.inr (.inr (.inr (.inr (mem_wifiRefs.mp (part.subset member)))))))]
      exact Ne.symm apart

theorem setState_at (m : Mem) (band : HwBand) (state : MccState) :
    m.setState band state (.stored band) = {m (.stored band) with state} :=
  modify_at ..

theorem setState_away (m : Mem) (band : HwBand) (state : MccState) : LogsAway (.stored band) m (m.setState band state) :=
  LogsAway.modify m _ _

theorem enabled_inv (inv : Inv s) (away : LogsAway (.stored band) s.mem m) (settled : Settled (m (.stored band)).state)
    (running : (m (.stored band)).state = .runing → Running band (m (.stored band))) : Inv {s with mem:=m} := by
  intro other
  by_cases same : other = band
  · subst same
    exact ⟨settled,running⟩
  · obtain ⟨log,kept⟩ := away (.stored other) fun places => same (by injection places)
    have info : MccCtl.info {s with mem:=m} other = withLog (s.info other) log := kept
    rw [info]
    exact ⟨(inv other).1,fun runs => ((inv other).2 runs).withLog log⟩

theorem start_decided (inv : Inv s) (other : event.isChange = false) (configured : Configured env band curRole roles m)
    (away : LogsAway (.stored band) s.mem m)
    (called : call s event = match rtwHalMccEnable env.mac (.stored band) (m.setState band .triggerFwEn) with
      | (false,m) => (false,m.setState band .fwEnFail)
      | (true,m) => (true,(m.setState band .runing).modify (.stored band) mccUpFwLogSetting)) :
    Decided s event ((rtwHalMccEnable env.mac (.stored band) (m.setState band .triggerFwEn)).1 ∧
      SlotsFit env (.stored band) (env.roleMap band) curRole (roles (.stored band))) := by
  have fair : Fair s event := fun change => absurd (other.symm.trans change) Bool.false_ne_true
  have places : ∀ r ∈ (m.setState band .triggerFwEn (.stored band)).enInfo.pattern.refs,r.place = .stored band := by
    rw [setState_at]
    exact configured.laid.made.places
  have accepted := start_accepted env.mac band m .triggerFwEn
  have whole := (away.trans (setState_away m band .triggerFwEn)).trans (start_away env.mac (.stored band) _ places)
  generalize rtwHalMccEnable env.mac (.stored band) (m.setState band .triggerFwEn) = outcome at called accepted whole ⊢
  obtain ⟨ok,m'⟩ := outcome
  cases ok with
  | false =>
    refine .lost (fun sound => ?_) fun both => Bool.false_ne_true both.1
    have settled := (sound band).1
    unfold mccStep MccCtl.info at settled
    rw [called] at settled
    dsimp only at settled
    rw [setState_at] at settled
    rcases settled with none | stop | runing
    · cases none
    · cases stop
    · cases runing
  | true =>
    obtain ⟨group,groups,here,all⟩ := accepted rfl
    dsimp only at called here whole
    have end_ : ((m'.setState band .runing).modify (.stored band) mccUpFwLogSetting) (.stored band) =
        mccUpFwLogSetting (started (m (.stored band)) .runing group groups) := by
      rw [modify_at,setState_at,here]
      rfl
    by_cases fits : SlotsFit env (.stored band) (env.roleMap band) curRole (roles (.stored band))
    · refine ⟨fun _ => ⟨?_,fair⟩,fun _ => ⟨rfl,fits⟩⟩
      unfold mccStep
      rw [called]
      refine enabled_inv inv ((whole.trans (setState_away m' band .runing)).trans (.modify _ _ _)) ?_ fun _ => ?_
      · dsimp only; rw [end_]; exact .inr (.inr rfl)
      · dsimp only; rw [end_]; exact started_running configured fits all
    · refine .lost (fun sound => ?_) fun both => fits both.2
      have slotted := (sound band).2
      unfold mccStep MccCtl.info at slotted
      rw [called] at slotted
      dsimp only at slotted
      rw [end_] at slotted
      have lacks := lacking_unslotted (i := mccUpFwLogSetting (started (m (.stored band)) .runing group groups))
        (configured.laid.made.lacks fits)
      exact lacks (slotted rfl)

theorem enable_decided (inv : Inv s) (called : call s event = enableMcc env coex curRole s) (other : event.isChange = false) :
    Decided s event (EnableGuard env coex curRole s) := by
  have fair : Fair s event := fun change => absurd (other.symm.trans change) Bool.false_ne_true
  unfold EnableGuard
  dsimp only
  unfold enableMcc at called
  dsimp only at called
  generalize (env.wrole curRole).hwBand = band at called ⊢
  cases ready : s.initMcc with
  | false =>
    rw [ready,Bool.not_false,if_pos rfl] at called
    exact .idle inv (fun band => by rw [called]; rfl) fun no => absurd no Bool.false_ne_true
  | true =>
    rw [ready,Bool.not_true,if_neg Bool.false_ne_true] at called
    by_cases open_ : (s.info band).state = .none ∨ (s.info band).state = .stop
    · rw [if_neg fun busy => open_.elim busy.1 busy.2] at called
      obtain ⟨away,configured⟩ := cfg_info env band coex curRole (s.mem.setState band .cfgEnInfo)
      generalize cfgInfo env band coex curRole (s.mem.setState band .cfgEnInfo) = outcome at called away configured ⊢
      obtain ⟨known,m⟩ := outcome
      have whole := (setState_away s.mem band .cfgEnInfo).trans away
      cases known with
      | false =>
        dsimp only at called
        refine ⟨fun _ => ⟨?_,fair⟩,fun _ _ _ no => absurd no Bool.false_ne_true⟩
        unfold mccStep
        rw [called]
        refine enabled_inv inv (whole.trans (setState_away m band .none)) ?_ fun runs => ?_
        · dsimp only; rw [setState_at]; exact .inl rfl
        · dsimp only at runs; rw [setState_at] at runs; cases runs
      | true =>
        obtain ⟨kept,needed⟩ := start_decided inv other (configured rfl) whole called
        exact ⟨fun guard => kept (guard rfl open_ rfl),fun kept _ _ _ => needed kept⟩
    · have busy : (s.info band).state ≠ .none ∧ (s.info band).state ≠ .stop := not_or.mp open_
      rw [if_pos busy] at called
      exact .idle inv (fun band => by rw [called]; rfl) fun _ yes => absurd yes open_
end Rtl8852au.Mcc
