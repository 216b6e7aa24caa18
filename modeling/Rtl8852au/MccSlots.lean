import Rtl8852au.MccMode

namespace Rtl8852au.Mcc
open Option

inductive SlotKind where
  | wifi (mrole : Option RoleRef)
  | bt
  deriving DecidableEq

def SlotInfo.kind : SlotInfo → SlotKind
  | .wifi _ mrole => .wifi mrole
  | .bt _ => .bt

def Pattern.kinds (pattern : Pattern) : List SlotKind := pattern.slotOrder.val.map SlotInfo.kind

section
variable (pattern : Pattern)

theorem kinds_room : pattern.kinds.length ≤ slotNum := by
  unfold Pattern.kinds
  rw [List.length_map]
  exact pattern.slotOrder.property

theorem kinds_take : pattern.kinds.take slotNum = pattern.kinds := List.take_of_length_le (kinds_room pattern)

theorem take_grown (n : Nat) (earlier later : List α) : (earlier.take n ++ later).take n = (earlier ++ later).take n := by
  rcases Nat.le_total earlier.length n with fits | full
  · rw [List.take_of_length_le fits]
  · have long : n ≤ (earlier.take n).length := by rw [List.length_take]; omega
    rw [List.take_append_of_le_length long,List.take_append_of_le_length full,List.take_take,Nat.min_self]

section
variable (btRole : Bool) (dur : Nat) (mrole : Option RoleRef)

theorem fill_kinds :
    (mccFillSlotInfo pattern btRole dur mrole).kinds =
      (pattern.kinds ++ [if btRole then SlotKind.bt else .wifi mrole]).take slotNum := by
  unfold mccFillSlotInfo
  split
  · rename_i room
    have fits : (pattern.kinds ++ [if btRole then SlotKind.bt else .wifi mrole]).length ≤ slotNum := by
      simp only [Pattern.kinds,List.length_append,List.length_map,List.length_singleton]; exact room
    rw [List.take_of_length_le fits]
    unfold Pattern.kinds
    rw [List.map_append]
    cases btRole with
    | true => rfl
    | false => rfl
  · rename_i full
    have long : slotNum ≤ pattern.kinds.length := by simp only [Pattern.kinds,List.length_map]; omega
    rw [List.take_append_of_le_length long,kinds_take]

theorem fill_heads :
    (mccFillSlotInfo pattern btRole dur mrole).roleRef = pattern.roleRef ∧
      (mccFillSlotInfo pattern btRole dur mrole).roleAno = pattern.roleAno ∧
      (mccFillSlotInfo pattern btRole dur mrole).courtesy = pattern.courtesy := by
  unfold mccFillSlotInfo
  split
  · exact ⟨rfl,rfl,rfl⟩
  · exact ⟨rfl,rfl,rfl⟩
end

def Fresh (pattern : Pattern) (courtesy : Courtesy) : Prop :=
  courtesy = ⟨true,true,pattern.roleRef,pattern.roleAno⟩ ∨ courtesy = ⟨true,true,pattern.roleAno,pattern.roleRef⟩

structure Appends (before after : Pattern) (added : List SlotKind) : Prop where
  kinds : after.kinds = (before.kinds ++ added).take slotNum
  roleRef : after.roleRef = before.roleRef
  roleAno : after.roleAno = before.roleAno
  courtesy : after.courtesy = before.courtesy ∨ Fresh before after.courtesy

theorem Appends.refl : Appends pattern pattern [] where
  kinds := by rw [List.append_nil,kinds_take]
  roleRef := rfl
  roleAno := rfl
  courtesy := .inl rfl

theorem Appends.start {before after : Pattern} (slots : after.slotOrder = before.slotOrder)
    (roleRef : after.roleRef = before.roleRef) (roleAno : after.roleAno = before.roleAno)
    (courtesy : after.courtesy = before.courtesy ∨ Fresh before after.courtesy) : Appends before after [] where
  kinds := by
    have same : after.kinds = before.kinds := by unfold Pattern.kinds; rw [slots]
    rw [List.append_nil,kinds_take,same]
  roleRef := roleRef
  roleAno := roleAno
  courtesy := courtesy

theorem Appends.fill {before after : Pattern} (appends : Appends before after added) (btRole : Bool) (dur : Nat)
    (mrole : Option RoleRef) :
    Appends before (mccFillSlotInfo after btRole dur mrole) (added ++ [if btRole then .bt else .wifi mrole]) where
  kinds := by rw [fill_kinds,appends.kinds,← List.append_assoc,take_grown]
  roleRef := (fill_heads after btRole dur mrole).1.trans appends.roleRef
  roleAno := (fill_heads after btRole dur mrole).2.1.trans appends.roleAno
  courtesy := by rw [(fill_heads after btRole dur mrole).2.2]; exact appends.courtesy

def refSlot (pattern : Pattern) : SlotKind := .wifi pattern.roleRef
def anoSlot (pattern : Pattern) : SlotKind := .wifi pattern.roleAno

theorem Appends.ref {before after : Pattern} (appends : Appends before after added) (dur : Nat) :
    Appends before (fillRef after dur) (added ++ [refSlot before]) := by
  have more := appends.fill false dur after.roleRef
  rw [appends.roleRef] at more
  unfold fillRef
  rw [appends.roleRef]
  exact more

theorem Appends.ano {before after : Pattern} (appends : Appends before after added) (dur : Nat) :
    Appends before (fillAno after dur) (added ++ [anoSlot before]) := by
  have more := appends.fill false dur after.roleAno
  rw [appends.roleAno] at more
  unfold fillAno
  rw [appends.roleAno]
  exact more

theorem Appends.bt {before after : Pattern} (appends : Appends before after added) (dur : Nat) :
    Appends before (fillBt after dur) (added ++ [.bt]) := appends.fill true dur none

theorem Appends.refAno {before after : Pattern} (appends : Appends before after []) (durRef durAno : Nat) :
    Appends before (fillRefAno after durRef durAno) [refSlot before,anoSlot before] := (appends.ref durRef).ano durAno

theorem Appends.refAnoBt {before after : Pattern} (appends : Appends before after []) (durRef durAno btDur : Nat) :
    Appends before (fillRefAnoBt after durRef durAno btDur) [refSlot before,anoSlot before,.bt] :=
  (appends.refAno durRef durAno).bt btDur

theorem Appends.refBtAno {before after : Pattern} (appends : Appends before after []) (durRef durAno btDur : Nat) :
    Appends before (fillRefBtAno after durRef durAno btDur) [refSlot before,.bt,anoSlot before] :=
  ((appends.ref durRef).bt btDur).ano durAno

theorem times_appends (times : Int × Int × Int × Int) : Appends pattern (withTimes pattern times) [] :=
  .start rfl rfl rfl (.inl rfl)

theorem nego_ref_appends (ano : DurInfo) (tobR toaR offset gap : Int) :
    Appends pattern (negoFromRef pattern ano tobR toaR offset gap) [] := by
  unfold negoFromRef courteous
  dsimp only
  split
  · exact .start rfl rfl rfl (.inr (.inl rfl))
  · exact .start rfl rfl rfl (.inl rfl)

theorem nego_ano_appends (ref : DurInfo) (tobA toaA offset gap : Int) :
    Appends pattern (negoFromAno pattern ref tobA toaA offset gap) [] := by
  unfold negoFromAno courteous
  dsimp only
  split
  · exact .start rfl rfl rfl (.inr (.inr rfl))
  · exact .start rfl rfl rfl (.inl rfl)
end

theorem nego_limited_appends (found : negoLimited pattern ref ano offset gap = some after) : Appends pattern after [] := by
  unfold negoLimited at found
  split at found
  · obtain ⟨times,_,rfl⟩ := map_eq_some_iff.mp found
    exact nego_ref_appends ..
  · obtain ⟨times,_,rfl⟩ := map_eq_some_iff.mp found
    exact nego_ano_appends ..

theorem nego_appends (found : nego2wslot1btslot pattern ref ano offset gap = some after) : Appends pattern after [] := by
  unfold nego2wslot1btslot at found
  split at found
  · cases found
  · split at found
    · exact nego_limited_appends found
    · cases some.inj found
      exact nego_ref_appends ..

def TakesBt (before after : Pattern) : Prop :=
  Appends before after [refSlot before,anoSlot before,.bt] ∨ Appends before after [refSlot before,.bt,anoSlot before]

theorem nego_pattern_takes (found : negoPattern ref ano offset btDur pattern = some after) : TakesBt pattern after := by
  unfold negoPattern at found
  split at found
  · rename_i first
    cases some.inj found
    obtain ⟨middle,nego,rfl⟩ := map_eq_some_iff.mp first
    exact .inl ((nego_appends nego).refAnoBt ..)
  · obtain ⟨middle,nego,rfl⟩ := map_eq_some_iff.mp found
    exact .inr ((nego_appends nego).refBtAno ..)

theorem or_nego_takes (found : orNego calculated ref ano offset btDur pattern = some after)
    (takes : ∀ after, calculated = some after → TakesBt pattern after) : TakesBt pattern after := by
  unfold orNego at found
  split at found
  · rename_i first
    cases some.inj found
    exact takes _ rfl
  · exact nego_pattern_takes found

theorem calculate_bt_takes (found : mccCalculate2wslot1btslotPattern ref ano btDur pattern = some after) :
    TakesBt pattern after := by
  unfold mccCalculate2wslot1btslotPattern at found
  dsimp only at found
  split at found
  · refine or_nego_takes found fun after first => ?_
    obtain ⟨times,_,rfl⟩ := map_eq_some_iff.mp first
    exact .inl ((times_appends pattern times).refAnoBt ..)
  · split at found
    · refine or_nego_takes found fun after first => ?_
      obtain ⟨times,_,rfl⟩ := map_eq_some_iff.mp first
      exact .inr ((times_appends pattern times).refBtAno ..)
    · exact nego_pattern_takes found

def TwoSlots (before after : Pattern) : Prop := Appends before after [refSlot before,anoSlot before]

theorem calculate_wrole_appends (found : mccCalculate2WrolePattern ref ano offset pattern = some after) :
    TwoSlots pattern after := by
  unfold mccCalculate2WrolePattern at found
  split at found
  · cases some.inj found
    exact (times_appends ..).refAno ..
  · unfold mccCalc2WroleNegoPattern at found
    split at found
    · cases found
    · obtain ⟨middle,nego,rfl⟩ := map_eq_some_iff.mp found
      exact (nego_limited_appends nego).refAno ..

theorem refAno_courtesy (pattern : Pattern) (durRef durAno : Nat) :
    (fillRefAno pattern durRef durAno).courtesy = pattern.courtesy :=
  (fill_heads ..).2.2.trans (fill_heads ..).2.2

theorem calculate_clients_appends (refDur anoDur offset : Nat) (pattern : Pattern) :
    TwoSlots pattern (mccCalculate2ClientsPattern refDur anoDur offset pattern) := (times_appends ..).refAno ..

theorem default_appends {before after : Pattern} (m : Mem) (durRef : Nat) (appends : Appends before after []) :
    TwoSlots before (mccSet2ClientsWorsecaseDefaultPattern m durRef after) := by
  unfold mccSet2ClientsWorsecaseDefaultPattern TwoSlots
  refine Appends.refAno ?_ _ _
  exact {appends with}

theorem default_courtesy (m : Mem) (durRef : Nat) (pattern : Pattern) :
    (mccSet2ClientsWorsecaseDefaultPattern m durRef pattern).courtesy = pattern.courtesy := refAno_courtesy ..

theorem worsecase_appends (m : Mem) (refDur anoDur offset bcnIntvl : Nat) (pattern : Pattern) :
    TwoSlots pattern (worsecasePattern m refDur anoDur offset bcnIntvl pattern) ∧
      (worsecasePattern m refDur anoDur offset bcnIntvl pattern).courtesy = pattern.courtesy := by
  unfold worsecasePattern mccCalc2ClientsWorsecasePattern
  dsimp only
  split
  · rw [if_neg Bool.false_ne_true]
    exact ⟨default_appends m refDur (.start rfl rfl rfl (.inl rfl)),default_courtesy ..⟩
  · rw [if_pos rfl]
    exact ⟨(times_appends ..).refAno ..,refAno_courtesy ..⟩
end Rtl8852au.Mcc
