import Rtl8852au.MccChange

namespace Rtl8852au.Mcc
open List

def reported (env : Env) (band : HwBand) (roleMap : Nat) (log : FwLogInfo) (wrole : Option Nat) : FwLogInfo :=
  match wrole with
  | none => log
  | some wrole =>
    if (env.wrole wrole).hwBand = band then
      match env.getSetting wrole roleMap with
      | none => log
      | some param => mccSetFwLogInfo log param.enFwMccLog param.fwMccLogLv
    else log

def MccInfo.wroles (i : MccInfo) : List (Option Nat) := i.roles.map (fun idx => (i.enInfo.mccRole idx).wrole)

section
variable (env : Env) (m : Mem)

theorem refill_stored (r : RoleRef) (band : HwBand) (outside : r.place ≠ .stored band) :
    refillPolicy env m r (.stored band) =
      withLog (m (.stored band)) (reported env band (m (.stored band)).roleMap (m (.stored band)).fwLog (m.role r).wrole) := by
  have away : ∀ (m : Mem) change,m.onRole r change (.stored band) = m (.stored band) :=
    fun m change => onRole_away m r change (Ne.symm outside)
  unfold refillPolicy reported
  cases (m.role r).wrole with
  | none => rfl
  | some wrole =>
    unfold mccFillMccRolePolicyInfo
    dsimp only
    by_cases mine : (env.wrole wrole).hwBand = band
    · rw [if_pos mine,mine,away]
      cases env.getSetting wrole (m (.stored band)).roleMap with
      | none => exact away _ _
      | some param =>
        dsimp only
        rw [modify_at,away,away]
        rfl
    · have other : Place.stored band ≠ .stored (env.wrole wrole).hwBand := fun same => mine (by injection same with same; exact same.symm)
      rw [if_neg mine]
      generalize env.getSetting wrole _ = setting
      cases setting with
      | none => exact away _ _
      | some param =>
        dsimp only
        rw [modify_away _ _ other,away,away]
        rfl

theorem refill_rolesOnly (r : RoleRef) : RolesOnly r.place m (refillPolicy env m r) := by
  unfold refillPolicy
  split
  · exact .refl _ m
  · exact policy_rolesOnly ..

theorem refill_wrole (r : RoleRef) (t : RoleRef) (beside : t.place = r.place) :
    ((refillPolicy env m r).role t).wrole = (m.role t).wrole := by
  unfold refillPolicy
  split
  · rfl
  · unfold Mem.role
    rw [beside]
    exact (policy_sameEntries ..).wroles _

theorem refills_rolesOnly (refs : List RoleRef) (at_ : ∀ r ∈ refs,r.place = p) :
    RolesOnly p m (refs.foldl (refillPolicy env) m) := by
  induction refs generalizing m with
  | nil => exact .refl p m
  | cons r rest ih =>
    have first := refill_rolesOnly env m r
    rw [at_ r mem_cons_self] at first
    exact first.trans (ih _ fun t member => at_ t (mem_cons_of_mem r member))

theorem refills_stored (refs : List RoleRef) (at_ : ∀ r ∈ refs,r.place = .copy) (band : HwBand) :
    refs.foldl (refillPolicy env) m (.stored band) = withLog (m (.stored band))
      ((refs.map (fun r => (m.role r).wrole)).foldl (reported env band (m (.stored band)).roleMap) (m (.stored band)).fwLog) := by
  induction refs generalizing m with
  | nil => rfl
  | cons r rest ih =>
    have here : r.place = .copy := at_ r mem_cons_self
    have there : ∀ t ∈ rest,t.place = .copy := fun t member => at_ t (mem_cons_of_mem r member)
    have outside : r.place ≠ .stored band := by rw [here]; nofun
    have names : rest.map (fun t => ((refillPolicy env m r).role t).wrole) = rest.map (fun t => (m.role t).wrole) :=
      map_congr_left fun t member => refill_wrole env m r t ((there t member).trans here.symm)
    rw [foldl_cons,ih _ there,names,refill_stored env m r band outside,map_cons,foldl_cons]
    rfl
end

structure Reset (ori : MccInfo) (m : Mem) : Prop where
  pattern : (m .copy).enInfo.pattern = zeroPattern
  seg : (m .copy).btInfo.btSegNum = 1
  state : (m .copy).state = ori.state

theorem Reset.only (reset : Reset ori m) (only : RolesOnly .copy m m') : Reset ori m' :=
  ⟨only.pattern.trans reset.pattern,by rw [only.bt]; exact reset.seg,only.state.trans reset.state⟩

theorem Reset.ready (reset : Reset ori m) (mode : TdmraMode) : Ready mode m where
  seg := reset.seg
  old _ _ on := by
    rw [reset.pattern] at on
    cases on

theorem Reset.empty (reset : Reset ori m) : (m .copy).enInfo.pattern.kinds = [] := by rw [reset.pattern]; rfl

theorem copy_out (band other : HwBand) (m : Mem) : copyOut band m (.stored other) = m (.stored other) := modify_away m _ nofun

theorem copied (band : HwBand) (m : Mem) (change : MccInfo → MccInfo) :
    (copyOut band m).modify .copy change .copy = change (m (.stored band)) ∧
      ∀ other,(copyOut band m).modify .copy change (.stored other) = m (.stored other) := by
  refine ⟨?_,fun other => ?_⟩
  · rw [modify_at,copyOut,modify_at]
  · have outside : Place.stored other ≠ .copy := nofun
    rw [modify_away _ _ outside,copy_out]

def resetCopy (env : Env) (band : HwBand) (m : Mem) : Mem :=
  (copyOut band m).modify .copy (fun i => mccFillBtDur env (resetBtAndPattern i))

section
variable (env : Env) (band : HwBand) (m : Mem)

theorem reset_copy :
    resetCopy env band m .copy = mccFillBtDur env (resetBtAndPattern (m (.stored band))) ∧
      ∀ other,resetCopy env band m (.stored other) = m (.stored other) :=
  copied band m _

theorem reset_copy_reset : Reset (m (.stored band)) (resetCopy env band m) := by
  have here := (reset_copy env band m).1
  refine ⟨?_,?_,?_⟩
  · rw [here]; rfl
  · rw [here]; rfl
  · rw [here]; rfl

theorem bt_copy :
    Reset (m (.stored band)) (btCopy env band m) ∧
      ∀ other,btCopy env band m (.stored other) = withLog (m (.stored other))
        ((m (.stored band)).wroles.foldl (reported env other (m (.stored other)).roleMap) (m (.stored other)).fwLog) := by
  obtain ⟨here,stored⟩ := reset_copy env band m
  have made : btCopy env band m = refillPolicies env .copy (resetCopy env band m) := rfl
  have places : ∀ r ∈ (mccFillBtDur env (resetBtAndPattern (m (.stored band)))).roles.map (fun idx => (⟨.copy,idx⟩ : RoleRef)),
      r.place = .copy := by
    intro r member
    obtain ⟨idx,_,rfl⟩ := mem_map.mp member
    rfl
  rw [made]
  unfold refillPolicies
  rw [here]
  refine ⟨(reset_copy_reset env band m).only (refills_rolesOnly env _ _ places),fun other => ?_⟩
  rw [refills_stored env _ _ places,stored,map_map]
  unfold Mem.role
  simp only [Function.comp_def]
  rw [here]
  rfl

theorem lim_copy (env : Env) (role : Fin 2) (limReq : DurLimReq) (band : HwBand) (m : Mem) :
    Reset (m (.stored band)) (limCopy env role limReq band m) ∧
      ∀ other,limCopy env role limReq band m (.stored other) = btCopy env band m (.stored other) := by
  obtain ⟨reset,_⟩ := bt_copy env band m
  exact ⟨reset.only (onRole_rolesOnly _ ⟨.copy,role⟩ _),fun other => modify_away _ _ nofun⟩

theorem tracking_copy :
    Reset (m (.stored band)) (trackingCopy env (copyOut band m)) ∧
      ∀ other,∃ log,trackingCopy env (copyOut band m) (.stored other) = withLog (m (.stored other)) log := by
  have made : trackingCopy env (copyOut band m) = refillBoth env (resetCopy env band m) := rfl
  have both : ∀ m,RolesOnly .copy m (refillBoth env m) := fun m =>
    (refill_rolesOnly env m ⟨.copy,(m .copy).enInfo.refRoleIdx⟩).trans
      (refill_rolesOnly env _ ⟨.copy,other (m .copy).enInfo.refRoleIdx⟩)
  rw [made]
  refine ⟨(reset_copy_reset env band m).only (both _),fun other => ?_⟩
  obtain ⟨log,kept⟩ := (both (resetCopy env band m)).away (.stored other) nofun
  exact ⟨log,by rw [kept,(reset_copy env band m).2]⟩
end

end Rtl8852au.Mcc
