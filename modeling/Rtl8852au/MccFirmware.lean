import Rtl8852au.MccCalls
import Rtl8852au.MccFilled

namespace Rtl8852au.Mcc
open List

def regroup (group : Nat) (m : Mem) (r : RoleRef) : Mem := m.onRole r (fun mrole => {mrole with group})
def withRoles (i : MccInfo) (roles : Fin 2 → MccRole) : MccInfo := {i with enInfo.mccRole:=roles}

def withGroups (i : MccInfo) (groups : Fin 2 → Nat) : MccInfo :=
  withRoles i (fun idx => {i.enInfo.mccRole idx with group:=groups idx})

theorem withGroups_same (i : MccInfo) (groups : Fin 2 → Nat) (same : ∀ idx,groups idx = (i.enInfo.mccRole idx).group) :
    withGroups i groups = i := by
  have own : groups = fun idx => (i.enInfo.mccRole idx).group := funext same
  rw [own]
  rfl

theorem withGroups_twice (i : MccInfo) (one two : Fin 2 → Nat) : withGroups (withGroups i one) two = withGroups i two := rfl

theorem regroup_groups (group : Nat) (m : Mem) (r : RoleRef) (q : Place) :
    regroup group m r q = withGroups (m q) (fun idx => if ⟨q,idx⟩ = r then group else ((m q).enInfo.mccRole idx).group) := by
  obtain ⟨place,at_⟩ := r
  unfold regroup Mem.onRole
  by_cases here : q = place
  · subst here
    rw [modify_at]
    refine congrArg (withRoles (m q)) (funext fun idx => ?_)
    dsimp only
    by_cases this : idx = at_
    · subst this; rw [Function.update_self,if_pos rfl]
    · have other : (⟨q,idx⟩ : RoleRef) ≠ ⟨q,at_⟩ := fun same => this (by injection same)
      rw [Function.update_of_ne this,if_neg other]
  · have other : ∀ idx,(⟨q,idx⟩ : RoleRef) ≠ ⟨place,at_⟩ := fun idx same => here (by injection same)
    rw [modify_away _ _ here,withGroups_same _ _ fun idx => if_neg (other idx)]

theorem regroup_all (group : Nat) (refs : List RoleRef) (m : Mem) (q : Place) :
    refs.foldl (regroup group) m q =
      withGroups (m q) (fun idx => if ⟨q,idx⟩ ∈ refs then group else ((m q).enInfo.mccRole idx).group) := by
  induction refs generalizing m with
  | nil => exact (withGroups_same _ _ fun idx => if_neg not_mem_nil).symm
  | cons r rest ih =>
    rw [foldl_cons,ih,regroup_groups,withGroups_twice]
    congr 1
    funext idx
    by_cases later : (⟨q,idx⟩ : RoleRef) ∈ rest
    · rw [if_pos later,if_pos (mem_cons_of_mem r later)]
    · rw [if_neg later]
      unfold withGroups
      by_cases this : (⟨q,idx⟩ : RoleRef) = r
      · have first : (⟨q,idx⟩ : RoleRef) ∈ r :: rest := this ▸ mem_cons_self
        rw [if_pos first]
        exact if_pos this
      · have never : (⟨q,idx⟩ : RoleRef) ∉ r :: rest := not_mem_cons_of_ne_of_not_mem this later
        rw [if_neg never]
        exact if_neg this

theorem regroup_away {refs : List RoleRef} (group : Nat) (m : Mem) (apart : ∀ r ∈ refs,r.place ≠ q) :
    refs.foldl (regroup group) m q = m q := by
  rw [regroup_all]
  exact withGroups_same _ _ fun idx => if_neg fun member => apart _ member rfl

theorem regroup_noop {refs : List RoleRef} (m : Mem) (already : ∀ r ∈ refs,r.place = q → (m.role r).group = group) :
    refs.foldl (regroup group) m q = m q := by
  rw [regroup_all]
  refine withGroups_same _ _ fun idx => ?_
  by_cases member : (⟨q,idx⟩ : RoleRef) ∈ refs
  · rw [if_pos member]; exact (already _ member rfl).symm
  · rw [if_neg member]

def wifiRefs (slots : List SlotInfo) : List RoleRef := slots.filterMap SlotInfo.mrole

theorem mem_wifiRefs {pattern : Pattern} : r ∈ wifiRefs pattern.slotOrder.val ↔ SlotKind.wifi (some r) ∈ pattern.kinds := by
  unfold wifiRefs Pattern.kinds
  rw [mem_filterMap,mem_map]
  constructor
  · rintro ⟨slot,member,named⟩
    cases slot with
    | wifi dur mrole => exact ⟨_,member,congrArg SlotKind.wifi named⟩
    | bt dur => cases named
  · rintro ⟨slot,member,named⟩
    cases slot with
    | wifi dur mrole => injection named with same; exact ⟨_,member,same⟩
    | bt dur => cases named

theorem fill_slots_writes (mac : MacReplies) (group : Nat) (slots : List SlotInfo) (i : Nat) (m : Mem) :
    ∃ visited,visited <+: wifiRefs slots ∧ (fillRoleSlots mac group slots i m).2 = visited.foldl (regroup group) m ∧
      ((fillRoleSlots mac group slots i m).1 → visited = wifiRefs slots) ∧
      ∀ r rest,slots.map SlotInfo.kind = .wifi (some r) :: rest → r ∈ visited := by
  induction slots generalizing i m with
  | nil => exact ⟨[],prefix_refl _,rfl,fun _ => rfl,nofun⟩
  | cons slot rest ih =>
    cases slot with
    | bt dur =>
      unfold fillRoleSlots
      split
      · obtain ⟨visited,some,writes,all,_⟩ := ih (i+1) m
        exact ⟨visited,some,writes,all,nofun⟩
      · exact ⟨[], nil_prefix,rfl,nofun,nofun⟩
    | wifi dur mrole =>
      cases mrole with
      | none => exact ⟨[], nil_prefix,rfl,nofun,nofun⟩
      | some r =>
        have refs : wifiRefs (.wifi dur (some r) :: rest) = r :: wifiRefs rest := rfl
        have first : ∀ s later,(SlotInfo.wifi dur (some r) :: rest).map SlotInfo.kind = .wifi (some s) :: later → s = r := by
          intro s later kinds
          injection kinds with kind _
          injection kind with same
          exact (Option.some.inj same).symm
        rw [refs]
        unfold fillRoleSlots
        dsimp only
        split
        · obtain ⟨visited,some,writes,all,_⟩ := ih (i+1) (regroup group m r)
          refine ⟨r :: visited,(prefix_cons_inj r).mpr some,writes,fun ok => by rw [all ok],fun s later kinds => ?_⟩
          rw [first s later kinds]
          exact mem_cons_self
        · refine ⟨[r],(prefix_cons_inj r).mpr nil_prefix,rfl,nofun,fun s later kinds => ?_⟩
          rw [first s later kinds]
          exact mem_cons_self

theorem start_writes (mac : MacReplies) (p : Place) (m : Mem) (got : mac.getMccGroup = some group) :
    ∃ visited,visited <+: wifiRefs (m p).enInfo.pattern.slotOrder.val ∧
      (startMcc mac p m).2 = visited.foldl (regroup group) (grouped p group m) ∧
      ((startMcc mac p m).1 → visited = wifiRefs (m p).enInfo.pattern.slotOrder.val) ∧
      (2 ≤ (m p).enInfo.pattern.kinds.length → ∀ r rest,(m p).enInfo.pattern.kinds = .wifi (some r) :: rest → r ∈ visited) := by
  obtain ⟨visited,some,writes,all,first⟩ := fill_slots_writes mac group (m p).enInfo.pattern.slotOrder.val 0 (grouped p group m)
  have room := (m p).enInfo.pattern.slotOrder.property
  have setting : mccFillRoleSetting mac p (grouped p group m) =
      if (m p).enInfo.pattern.slotOrder.val.length < minTdmraSlotNum then (false,grouped p group m)
      else fillRoleSlots mac group (m p).enInfo.pattern.slotOrder.val 0 (grouped p group m) := by
    unfold mccFillRoleSetting grouped
    rw [modify_at]
    exact if_neg (Nat.not_lt.mpr room)
  unfold startMcc
  rw [got]
  dsimp only
  rw [setting]
  split
  · rename_i short
    refine ⟨[], nil_prefix,rfl,nofun,fun long => ?_⟩
    unfold Pattern.kinds at long
    rw [length_map] at long
    exact absurd short (Nat.not_lt.mpr long)
  · refine ⟨visited,some,writes,fun ok => all ?_,fun _ => first⟩
    rw [Bool.and_eq_true,Bool.and_eq_true] at ok
    exact ok.1.1
end Rtl8852au.Mcc
