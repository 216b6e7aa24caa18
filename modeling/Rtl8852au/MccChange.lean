import Rtl8852au.MccRoles

namespace Rtl8852au.Mcc
open List

theorem prefix_subset {refs all : List RoleRef} (part : refs <+: all) : ∀ r ∈ refs,r ∈ all := fun _ member => part.subset member

section
variable (mac : MacReplies) (ori : MccInfo)

theorem change_pattern_away (m : Mem) (apart : q ≠ p)
    (left : ∀ group,mac.getMccGroup = some group →
      ∀ r ∈ wifiRefs (m p).enInfo.pattern.slotOrder.val,r.place = q → (m.role r).group = group) :
    (rtwHalMccChangePattern mac ori p m).2 q = m q := by
  unfold rtwHalMccChangePattern
  split
  · rfl
  · unfold mccReplacePattern
    cases got : mac.getMccGroup with
    | none => unfold startMcc; rw [got]
    | some group =>
      obtain ⟨visited,part,writes,_,_⟩ := start_writes mac p m got
      have other : grouped p group m q = m q := modify_away m _ apart
      have kept : visited.foldl (regroup group) (grouped p group m) q = grouped p group m q := by
        refine regroup_noop _ fun r member place => ?_
        have old := left group got r (prefix_subset part r member) place
        unfold Mem.role at old ⊢
        rw [place] at old ⊢
        rw [other]
        exact old
      rw [writes,kept,other]

theorem change_pattern_here (p : Place) (m : Mem) :
    ((rtwHalMccChangePattern mac ori p m).2 p).enInfo.pattern = (m p).enInfo.pattern ∧
      ((rtwHalMccChangePattern mac ori p m).2 p).state = (m p).state := by
  unfold rtwHalMccChangePattern
  split
  · exact ⟨rfl,rfl⟩
  · unfold mccReplacePattern
    cases got : mac.getMccGroup with
    | none => unfold startMcc; rw [got]; exact ⟨rfl,rfl⟩
    | some group =>
      obtain ⟨visited,_,writes,_,_⟩ := start_writes mac p m got
      rw [writes,regroup_all]
      unfold grouped
      rw [modify_at]
      exact ⟨rfl,rfl⟩

theorem change_pattern_first (p : Place) (m : Mem) (got : mac.getMccGroup = some group)
    (many : 2 < (m p).enInfo.pattern.kinds.length) (first : (m p).enInfo.pattern.kinds = .wifi (some r) :: rest) :
    ((rtwHalMccChangePattern mac ori p m).2.role r).group = group := by
  have more : twoWifiSlots (m p).enInfo.pattern = false := by
    unfold twoWifiSlots
    unfold Pattern.kinds at many
    rw [length_map] at many
    have apart : (m p).enInfo.pattern.slotOrder.val.length ≠ 2 := by omega
    rw [decide_eq_false apart]
    rfl
  unfold rtwHalMccChangePattern
  rw [more,Bool.false_and,if_neg Bool.false_ne_true]
  obtain ⟨visited,_,writes,_,visits⟩ := start_writes mac p m got
  unfold mccReplacePattern
  rw [writes]
  unfold Mem.role
  rw [regroup_all]
  exact if_pos (visits (Nat.le_of_lt many) r rest first)
end
section
variable (env : Env) (mode : TdmraMode) (ori : MccInfo) (m : Mem)

def Refused : Prop :=
  (mccFillInfo env mode .copy m).1 →
    (rtwHalMccChangePattern env.mac ori .copy (mccFillInfo env mode .copy m).2).1 →
      syncAgain env.mac mode ori ((rtwHalMccChangePattern env.mac ori .copy (mccFillInfo env mode .copy m).2).2 .copy) = false

instance : Decidable (Refused env mode ori m) := inferInstanceAs (Decidable (_ → _ → _))

theorem update_refused : Refused env mode ori m ↔ (mccUpdatePattern env mode ori m).1 = false := by
  unfold Refused mccUpdatePattern
  cases filled : mccFillInfo env mode .copy m with
  | mk ok m1 =>
    cases ok with
    | false => simp
    | true =>
      cases changed : rtwHalMccChangePattern env.mac ori .copy m1 with
      | mk ok m2 =>
        cases ok with
        | false => simp [changed]
        | true => simp [changed]

theorem update_memory :
    ((mccFillInfo env mode .copy m).1 = false ∧ (mccUpdatePattern env mode ori m).2 = (mccFillInfo env mode .copy m).2) ∨
      ((mccFillInfo env mode .copy m).1 ∧ (mccUpdatePattern env mode ori m).2 =
        (rtwHalMccChangePattern env.mac ori .copy (mccFillInfo env mode .copy m).2).2) := by
  unfold mccUpdatePattern
  cases filled : mccFillInfo env mode .copy m with
  | mk ok m1 =>
    cases ok with
    | false => exact .inl ⟨rfl,rfl⟩
    | true =>
      refine .inr ⟨rfl,?_⟩
      dsimp only
      cases changed : rtwHalMccChangePattern env.mac ori .copy m1 with
      | mk ok m2 =>
        cases ok with
        | false => rfl
        | true => rfl
end

structure Ready (mode : TdmraMode) (m : Mem) : Prop where
  seg : (m .copy).btInfo.btSegNum = 1
  old : mode = .twoClients → Old .copy m

section
variable (env : Env) (mode : TdmraMode) (ori : MccInfo) (m : Mem) (ready : Ready mode m)
include ready

theorem update_away (band : HwBand)
    (left : (mccFillInfo env mode .copy m).1 → ∀ group,env.mac.getMccGroup = some group →
      ∀ r,SlotKind.wifi (some r) ∈ (m .copy).enInfo.pattern.kinds → r.place = .stored band → (m.role r).group = group) :
    (mccUpdatePattern env mode ori m).2 (.stored band) = m (.stored band) := by
  obtain ⟨here,filled⟩ := fill_info_filled env mode .copy m ready.seg ready.old
  have apart : Place.stored band ≠ .copy := nofun
  rcases update_memory env mode ori m with ⟨_,after⟩ | ⟨ok,after⟩
  · rw [after]; exact here.away _ apart
  · rw [after,change_pattern_away env.mac ori _ apart fun group got r member place => ?_]
    · exact here.away _ apart
    · obtain ⟨added,kinds,_,own⟩ := (filled ok).grows
      have kind := mem_wifiRefs.mp member
      rw [kinds] at kind
      rcases mem_append.mp (mem_of_mem_take kind) with old | new
      · have same := left ok group got r old place
        unfold Mem.role at same ⊢
        rw [place] at same ⊢
        rw [here.away _ apart]
        exact same
      · obtain ⟨idx,named⟩ := own _ new
        rw [Option.some.inj named] at place
        cases place

theorem update_accepted
    (accepted : (mccUpdatePattern env mode ori m).1) :
    (∃ idx,((mccUpdatePattern env mode ori m).2 .copy).enInfo.pattern.roleRef = some ⟨.copy,idx⟩) ∧
      ((mccUpdatePattern env mode ori m).2 .copy).state = (m .copy).state := by
  obtain ⟨here,filled⟩ := fill_info_filled env mode .copy m ready.seg ready.old
  rcases update_memory env mode ori m with ⟨failed,_⟩ | ⟨ok,after⟩
  · unfold mccUpdatePattern at accepted
    cases made : mccFillInfo env mode .copy m with
    | mk ok m1 =>
      rw [made] at accepted failed
      dsimp only at failed
      subst failed
      cases accepted
  · obtain ⟨pattern,state⟩ := change_pattern_here env.mac ori .copy (mccFillInfo env mode .copy m).2
    rw [after,pattern,state]
    exact ⟨(filled ok).roleRef,here.same.state⟩

theorem update_first
    (ok : (mccFillInfo env mode .copy m).1) (got : env.mac.getMccGroup = some group)
    (many : 2 ≤ (m .copy).enInfo.pattern.kinds.length) (first : (m .copy).enInfo.pattern.kinds = .wifi (some r) :: rest) :
    ((mccUpdatePattern env mode ori m).2.role r).group = group := by
  obtain ⟨_,filled⟩ := fill_info_filled env mode .copy m ready.seg ready.old
  obtain ⟨added,kinds,long,_⟩ := (filled ok).grows
  rcases update_memory env mode ori m with ⟨failed,_⟩ | ⟨_,after⟩
  · rw [ok] at failed; cases failed
  · rw [after]
    have more : 2 < ((mccFillInfo env mode .copy m).2 .copy).enInfo.pattern.kinds.length := by
      rw [kinds,length_take,length_append]
      unfold slotNum
      omega
    have still : ((mccFillInfo env mode .copy m).2 .copy).enInfo.pattern.kinds = .wifi (some r) :: (rest ++ added).take 3 := by
      rw [kinds,first]
      rfl
    exact change_pattern_first env.mac ori .copy _ got more still
end

end Rtl8852au.Mcc
