import Rtl8852au.MccFirmware

namespace Rtl8852au.Mcc
open Function Nat

def withLog (i : MccInfo) (fwLog : FwLogInfo) : MccInfo := {i with fwLog}
theorem withLog_own (i : MccInfo) : withLog i i.fwLog = i := rfl

structure RolesOnly (p : Place) (m m' : Mem) : Prop where
  away : ∀ q, q ≠ p → ∃ log,m' q = withLog (m q) log
  pattern : (m' p).enInfo.pattern = (m p).enInfo.pattern
  bt : (m' p).btInfo = (m p).btInfo
  state : (m' p).state = (m p).state
  mode : (m' p).mccMode = (m p).mccMode
  refIdx : (m' p).enInfo.refRoleIdx = (m p).enInfo.refRoleIdx

theorem RolesOnly.refl (p : Place) (m : Mem) : RolesOnly p m m := ⟨fun q _ => ⟨(m q).fwLog,rfl⟩,rfl,rfl,rfl,rfl,rfl⟩

theorem RolesOnly.trans (one : RolesOnly p a b) (two : RolesOnly p b c) : RolesOnly p a c where
  away q apart := by
    obtain ⟨first,one⟩ := one.away q apart
    obtain ⟨second,two⟩ := two.away q apart
    exact ⟨second,by rw [two,one]; rfl⟩
  pattern := two.pattern.trans one.pattern
  bt := two.bt.trans one.bt
  state := two.state.trans one.state
  mode := two.mode.trans one.mode
  refIdx := two.refIdx.trans one.refIdx

theorem here_rolesOnly (m : Mem) (change : MccInfo → MccInfo)
    (pattern : (change (m p)).enInfo.pattern = (m p).enInfo.pattern) (bt : (change (m p)).btInfo = (m p).btInfo)
    (state : (change (m p)).state = (m p).state) (mode : (change (m p)).mccMode = (m p).mccMode)
    (refIdx : (change (m p)).enInfo.refRoleIdx = (m p).enInfo.refRoleIdx) : RolesOnly p m (m.modify p change) where
  away q apart := ⟨(m q).fwLog,modify_away m change apart⟩
  pattern := by rw [modify_at]; exact pattern
  bt := by rw [modify_at]; exact bt
  state := by rw [modify_at]; exact state
  mode := by rw [modify_at]; exact mode
  refIdx := by rw [modify_at]; exact refIdx

section
variable (m : Mem) (r : RoleRef)

theorem onRole_rolesOnly (change : MccRole → MccRole) : RolesOnly r.place m (m.onRole r change) :=
  here_rolesOnly m _ rfl rfl rfl rfl rfl

theorem log_rolesOnly (m : Mem) (p q : Place) (log : MccInfo → FwLogInfo) :
    RolesOnly p m (m.modify q (fun i => withLog i (log i))) := by
  by_cases here : q = p
  · subst here; exact here_rolesOnly m _ rfl rfl rfl rfl rfl
  · have at_p := modify_away m (fun i => withLog i (log i)) (Ne.symm here)
    refine ⟨fun t _ => ?_,by rw [at_p],by rw [at_p],by rw [at_p],by rw [at_p],by rw [at_p]⟩
    by_cases there : t = q
    · subst there; exact ⟨_,modify_at ..⟩
    · exact ⟨(m t).fwLog,modify_away m _ there⟩

theorem policy_rolesOnly (env : Env) (wrole : Nat) (r : RoleRef) (m : Mem) :
    RolesOnly r.place m (mccFillMccRolePolicyInfo env wrole r m) := by
  unfold mccFillMccRolePolicyInfo
  dsimp only
  split
  · exact onRole_rolesOnly ..
  · rename_i param _
    exact ((onRole_rolesOnly m r _).trans (onRole_rolesOnly _ r _)).trans
      (log_rolesOnly _ _ _ fun i => mccSetFwLogInfo i.fwLog param.enFwMccLog param.fwMccLogLv)

structure SameEntries (p : Place) (m m' : Mem) : Prop where
  num : (m' p).enInfo.mroleNum = (m p).enInfo.mroleNum
  map : (m' p).enInfo.mroleMap = (m p).enInfo.mroleMap
  wroles : ∀ idx,((m' p).enInfo.mccRole idx).wrole = ((m p).enInfo.mccRole idx).wrole

theorem SameEntries.trans (one : SameEntries p a b) (two : SameEntries p b c) : SameEntries p a c :=
  ⟨two.num.trans one.num,two.map.trans one.map,fun idx => (two.wroles idx).trans (one.wroles idx)⟩

theorem onRole_sameEntries (change : MccRole → MccRole)
    (same : (change (m.role r)).wrole = (m.role r).wrole) : SameEntries r.place m (m.onRole r change) := by
  unfold Mem.onRole
  refine ⟨by rw [modify_at]; rfl,by rw [modify_at]; rfl,fun idx => ?_⟩
  rw [modify_at]
  unfold MccInfo.onRole
  dsimp only
  by_cases this : idx = r.idx
  · subst this; rw [update_self]; exact same
  · rw [update_of_ne this]

theorem log_sameEntries (m : Mem) (p q : Place) (log : MccInfo → FwLogInfo) :
    SameEntries p m (m.modify q (fun i => withLog i (log i))) := by
  by_cases here : q = p
  · subst here
    exact ⟨by rw [modify_at]; rfl,by rw [modify_at]; rfl,fun idx => by rw [modify_at]; rfl⟩
  · have at_p := modify_away m (fun i => withLog i (log i)) (Ne.symm here)
    exact ⟨by rw [at_p],by rw [at_p],fun idx => by rw [at_p]⟩

theorem lim_wrole (mrole : MccRole) (req : DurLimReq) : (mccFillDurLimInfo mrole req).wrole = mrole.wrole := by
  unfold mccFillDurLimInfo
  dsimp only
  split
  · rfl
  · rfl

theorem policy_wrole (env : Env) (wrole : Nat) (mrole : MccRole) : (mccFillDefaultPolicy env wrole mrole).wrole = mrole.wrole := by
  unfold mccFillDefaultPolicy
  exact lim_wrole ..

theorem setting_wrole (param : Setting) (mrole : MccRole) : (applySetting param mrole).wrole = mrole.wrole := by
  unfold applySetting
  dsimp only
  split
  · split
    · rfl
    · rfl
  · split
    · rfl
    · rfl

theorem policy_sameEntries (env : Env) (wrole : Nat) (r : RoleRef) (m : Mem) :
    SameEntries r.place m (mccFillMccRolePolicyInfo env wrole r m) := by
  unfold mccFillMccRolePolicyInfo
  dsimp only
  split
  · exact onRole_sameEntries m r _ (policy_wrole ..)
  · rename_i param _
    exact ((onRole_sameEntries m r _ (policy_wrole ..)).trans (onRole_sameEntries _ r _ (setting_wrole ..))).trans
      (log_sameEntries _ _ _ fun i => mccSetFwLogInfo i.fwLog param.enFwMccLog param.fwMccLogLv)

structure Entered (idx : Fin 2) (wrole : Nat) (p : Place) (m m' : Mem) : Prop extends RolesOnly p m m' where
  num : (m' p).enInfo.mroleNum = (m p).enInfo.mroleNum + 1
  map : (m' p).enInfo.mroleMap = (m p).enInfo.mroleMap ||| 1 <<< idx.val
  mine : ((m' p).enInfo.mccRole idx).wrole = some wrole
  others : ∀ other,other ≠ idx → ((m' p).enInfo.mccRole other).wrole = ((m p).enInfo.mccRole other).wrole

theorem basic_wrole (found : mccFillMccRoleBasicInfo env wrole mrole = (true,after)) : after.wrole = some wrole := by
  unfold mccFillMccRoleBasicInfo at found
  split at found
  · injection found with no _; cases no
  · dsimp only at found
    split at found
    · injection found with no _; cases no
    · injection found with _ made; rw [← made]

theorem put_role (mrole : MccRole) (idx : Fin 2) :
    (m.onRole r (fun _ => mrole) r.place).enInfo.mccRole idx = if idx = r.idx then mrole else (m r.place).enInfo.mccRole idx := by
  unfold Mem.onRole
  rw [modify_at]
  unfold MccInfo.onRole
  dsimp only
  by_cases this : idx = r.idx
  · rw [if_pos this,this,update_self]
  · rw [if_neg this,update_of_ne this]

theorem put_counts (mrole : MccRole) :
    (m.onRole r (fun _ => mrole) r.place).enInfo.mroleNum = (m r.place).enInfo.mroleNum ∧
      (m.onRole r (fun _ => mrole) r.place).enInfo.mroleMap = (m r.place).enInfo.mroleMap := by
  unfold Mem.onRole
  rw [modify_at]
  exact ⟨rfl,rfl⟩
end

theorem fill_entry (env : Env) (wrole : Nat) (r : RoleRef) (m : Mem) :
    RolesOnly r.place m (fillEntry env wrole r m).2 ∧
      ((fillEntry env wrole r m).1 → Entered r.idx wrole r.place m (fillEntry env wrole r m).2) := by
  unfold fillEntry
  split
  · exact ⟨onRole_rolesOnly ..,nofun⟩
  · rename_i mrole found
    have entries := policy_sameEntries env wrole r (m.onRole r (fun _ => mrole))
    have counts := put_counts m r mrole
    have whole := ((onRole_rolesOnly m r (fun _ => mrole)).trans (policy_rolesOnly env wrole r _)).trans
      (here_rolesOnly _ (countEntry r.idx) rfl rfl rfl rfl rfl)
    refine ⟨whole,fun _ => ⟨whole,?_,?_,?_,fun other apart => ?_⟩⟩
    · dsimp only; rw [modify_at]; exact congrArg (· + 1) (entries.num.trans counts.1)
    · dsimp only; rw [modify_at]; exact congrArg (· ||| 1 <<< r.idx.val) (entries.map.trans counts.2)
    · dsimp only; rw [modify_at]; exact (entries.wroles _).trans (by rw [put_role,if_pos rfl]; exact basic_wrole found)
    · dsimp only; rw [modify_at]; exact (entries.wroles _).trans (by rw [put_role,if_neg apart])

theorem fill_others (env : Env) (p : Place) (roleMap : Nat) (ridxs : List Nat) (status : Bool) (mccIdx : Nat) (m : Mem)
    (begun : 1 ≤ mccIdx) :
    RolesOnly p m (fillOthers env p roleMap ridxs status mccIdx m).2 ∧
      ((fillOthers env p roleMap ridxs status mccIdx m).1 → (m p).enInfo.mroleNum = mccIdx → mccIdx ≤ 2 →
        ((fillOthers env p roleMap ridxs status mccIdx m).2 p).enInfo.mroleNum =
            min 2 (mccIdx + (ridxs.filter roleMap.testBit).length) ∧
          (((fillOthers env p roleMap ridxs status mccIdx m).2 p).enInfo.mccRole 0).wrole = ((m p).enInfo.mccRole 0).wrole ∧
          ((m p).used 0 → ((fillOthers env p roleMap ridxs status mccIdx m).2 p).used 0)) := by
  induction ridxs generalizing status mccIdx m with
  | nil =>
    refine ⟨.refl p m,fun _ num small => ⟨?_,rfl,id⟩⟩
    exact num.trans (min_eq_right small).symm
  | cons ridx rest ih =>
    unfold fillOthers
    by_cases bit : roleMap.testBit ridx
    · rw [if_pos bit,List.filter_cons_of_pos bit]
      split
      · rename_i room
        have entry := fill_entry env ridx ⟨p,⟨mccIdx,room⟩⟩ m
        cases made : fillEntry env ridx ⟨p,⟨mccIdx,room⟩⟩ m with
        | mk ok m' =>
          rw [made] at entry
          cases ok with
          | false => exact ⟨entry.1,nofun⟩
          | true =>
            obtain ⟨only,entered⟩ := entry
            have entered := entered rfl
            obtain ⟨later,facts⟩ := ih true (mccIdx+1) m' (by omega)
            refine ⟨only.trans later,fun ok num _ => ?_⟩
            obtain ⟨count,first,kept⟩ := facts ok (entered.num.trans (congrArg (· + 1) num)) (by omega)
            refine ⟨?_,?_,fun used => kept ?_⟩
            · rw [count,List.length_cons]; omega
            · have apart : (0 : Fin 2) ≠ ⟨mccIdx,room⟩ := fun same => by
                have := congrArg Fin.val same
                simp only [Fin.val_zero] at this
                omega
              exact first.trans (entered.others 0 apart)
            · unfold MccInfo.used at used ⊢
              rw [entered.map,testBit_or,used]
              rfl
      · rename_i full
        refine ⟨.refl p m,fun _ num small => ⟨?_,rfl,id⟩⟩
        rw [num,List.length_cons]
        omega
    · rw [if_neg bit,List.filter_cons_of_neg bit]
      exact ih status mccIdx m begun

theorem without_role (roleMap curRole : Nat) :
    rolesOf (withoutRole roleMap curRole) = (rolesOf roleMap).filter (· ≠ curRole) := by
  unfold rolesOf withoutRole
  rw [List.filter_filter]
  refine List.filter_congr fun ridx member => ?_
  have small : ridx < 8 := lt_of_lt_of_le (List.mem_range.mp member) (by decide)
  have full : testBit 0xff ridx := by
    rw [show (0xff : Nat) = 2 ^ 8 - 1 from rfl,testBit_two_pow_sub_one]
    exact decide_eq_true small
  rw [testBit_and,testBit_xor,full,one_shiftLeft,testBit_two_pow]
  by_cases this : curRole = ridx
  · subst this; simp
  · simp [this,Ne.symm this]

theorem without_role_length (roleMap curRole : Nat) :
    (rolesOf (withoutRole roleMap curRole)).length =
      if curRole ∈ rolesOf roleMap then (rolesOf roleMap).length - 1 else (rolesOf roleMap).length := by
  have distinct : (rolesOf roleMap).Nodup := (List.nodup_range).filter _
  have erased : (rolesOf roleMap).filter (· ≠ curRole) = (rolesOf roleMap).erase curRole := by
    rw [distinct.erase_eq_filter]
    exact List.filter_congr fun ridx _ => by simp [bne,BEq.beq]
  rw [without_role,erased,List.length_erase]

theorem fill_role_info (env : Env) (p : Place) (roleMap curRole : Nat) (m : Mem) :
    RolesOnly p m (mccFillRoleInfo env p roleMap curRole m).2 ∧
      ((mccFillRoleInfo env p roleMap curRole m).1 → (m p).enInfo.mroleNum = 0 →
        ((mccFillRoleInfo env p roleMap curRole m).2 p).enInfo.mroleNum =
            min 2 (1 + (rolesOf (withoutRole roleMap curRole)).length) ∧
          (((mccFillRoleInfo env p roleMap curRole m).2 p).enInfo.mccRole 0).wrole = some curRole ∧
          ((mccFillRoleInfo env p roleMap curRole m).2 p).used 0) := by
  have entry := fill_entry env curRole ⟨p,0⟩ m
  unfold mccFillRoleInfo
  cases made : fillEntry env curRole ⟨p,0⟩ m with
  | mk ok m' =>
    rw [made] at entry
    cases ok with
    | false => exact ⟨entry.1,nofun⟩
    | true =>
      obtain ⟨only,entered⟩ := entry
      have entered := entered rfl
      dsimp only at only entered ⊢
      cases num : (m' p).enInfo.mroleNum with
      | zero => exact absurd (entered.num.symm.trans num) (succ_ne_zero _)
      | succ n =>
        obtain ⟨later,facts⟩ := fill_others env p (withoutRole roleMap curRole) (List.range maxWifiRoleNumber) false (n+1) m'
          (by omega)
        refine ⟨only.trans later,fun ok none => ?_⟩
        have one : n = 0 := by
          have counted := entered.num
          rw [none] at counted
          omega
        subst one
        obtain ⟨count,first,kept⟩ := facts ok num (by decide)
        refine ⟨count,first.trans entered.mine,kept ?_⟩
        unfold MccInfo.used
        rw [entered.map,testBit_or]
        simp

theorem category_client (type : WifiRole.RoleType) (ap : isApCategory type) : isClientCategory type = false := by
  cases type with
  | ap => rfl
  | p2pGo => rfl
  | _ => cases ap

theorem category_counts (types : List WifiRole.RoleType)
    (known : (types.any fun type => !isClientCategory type && !isApCategory type) = false) :
    types.length = types.countP isClientCategory + types.countP isApCategory := by
  rw [List.length_eq_countP_add_countP isClientCategory]
  refine congrArg (types.countP isClientCategory + ·) (List.countP_congr fun type member => ?_)
  rw [List.any_eq_false] at known
  have one := known type member
  rw [Bool.and_eq_true,Bool.not_eq_true',Bool.not_eq_true',not_and,Bool.not_eq_false] at one
  rw [decide_eq_true_iff,Bool.not_eq_true]
  exact ⟨one,category_client type⟩

theorem transfer_mode (found : mccTransferMode env i roleMap = (true,i')) :
    ∃ mode,i' = {i with mccMode:=mode} ∧
      (mode = .ap ∧ (rolesOf roleMap).length = 1 ∨ (mode = .apClient ∨ mode = .twoClients) ∧ (rolesOf roleMap).length = 2) := by
  unfold mccTransferMode at found
  dsimp only at found
  generalize types_ : (rolesOf roleMap).map (fun w => (env.wrole w).type) = types at found
  have length : types.length = (rolesOf roleMap).length := by rw [← types_,List.length_map]
  rw [← length]
  split at found
  · injection found with no _; cases no
  · rename_i known
    have total := category_counts types (Bool.eq_false_iff.mpr known)
    split at found
    · injection found with no _; cases no
    · split at found
      · rename_i counts
        injection found with _ made
        exact ⟨.apClient,made.symm,.inr ⟨.inl rfl,by omega⟩⟩
      · split at found
        · rename_i counts
          injection found with _ made
          exact ⟨.twoClients,made.symm,.inr ⟨.inr rfl,by omega⟩⟩
        · split at found
          · rename_i counts
            injection found with _ made
            exact ⟨.ap,made.symm,.inl ⟨rfl,by omega⟩⟩
          · injection found with no _; cases no
end Rtl8852au.Mcc
