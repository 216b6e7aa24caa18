import Rtl8852au.P2pps

namespace Rtl8852au.P2pps
open List Option UInt8 Machine

theorem slots_all (i : P2ppsTrigTag) : i ∈ slots := by cases i <;> decide
def idOf (d : NoaDesc) : Nat := if d.noaId = noaidNone then 0 else d.noaId.toNat

section
variable (s : NoaInfo)

def topFrom (l : List P2ppsTrigTag) : Nat := l.foldr (fun i top => max (idOf (s.noaDesc i)) top) 0

theorem topFrom_cons (i : P2ppsTrigTag) (l : List P2ppsTrigTag) :
    topFrom s (i :: l) = max (idOf (s.noaDesc i)) (topFrom s l) := rfl

theorem topFrom_above (listed : i ∈ l) : idOf (s.noaDesc i) ≤ topFrom s l := by
  induction l with
  | nil => cases listed
  | cons j rest ih =>
      rw [topFrom_cons]
      cases listed with
      | head => exact Nat.le_max_left _ _
      | tail _ later => exact Nat.le_trans (ih later) (Nat.le_max_right _ _)

theorem topFrom_below (l : List P2ppsTrigTag) (below : ∀ i ∈ l, idOf (s.noaDesc i) ≤ bound) :
    topFrom s l ≤ bound := by
  induction l with
  | nil => exact Nat.zero_le _
  | cons j rest ih =>
      have first := below j (mem_cons_self ..)
      have others := ih fun i later => below i (mem_cons_of_mem _ later)
      exact Nat.max_le.mpr ⟨first,others⟩

theorem topFrom_same (s t : NoaInfo) (l : List P2ppsTrigTag) (same : ∀ i ∈ l, t.noaDesc i = s.noaDesc i) :
    topFrom t l = topFrom s l := by
  induction l with
  | nil => rfl
  | cons j rest ih =>
      have others := ih fun i later => same i (mem_cons_of_mem _ later)
      rw [topFrom_cons,topFrom_cons,others,same j (mem_cons_self ..)]

theorem maxNoaid_fold (l : List P2ppsTrigTag) (top : UInt8) :
    (l.foldl (fun max i =>
      if (s.noaDesc i).noaId = noaidNone then max
      else if max < (s.noaDesc i).noaId then (s.noaDesc i).noaId else max) top).toNat = max top.toNat (topFrom s l) := by
  induction l generalizing top with
  | nil => simp [topFrom]
  | cons i rest ih =>
      rw [foldl_cons,ih,topFrom_cons]
      unfold idOf
      split
      · simp
      · split
        · rename_i higher
          have above := lt_iff_toNat_lt.mp higher
          omega
        · rename_i lower
          have under := UInt8.not_lt.mp lower
          have below := le_iff_toNat_le.mp under
          omega

theorem maxNoaid_top : (maxNoaid s).toNat = topFrom s slots := by
  have fold := maxNoaid_fold s slots 0
  simpa [maxNoaid] using fold
end

def activeIn (fw : P2ppsTrigTag → Option NoaDesc) (l : List P2ppsTrigTag) : Nat := (l.filter fun i => (fw i).isSome).length
def activeNum (fw : P2ppsTrigTag → Option NoaDesc) : Nat := activeIn fw slots

section
variable (fw : P2ppsTrigTag → Option NoaDesc)

theorem activeIn_cons (i : P2ppsTrigTag) (l : List P2ppsTrigTag) :
    activeIn fw (i :: l) = (if (fw i).isSome then 1 else 0) + activeIn fw l := by
  unfold activeIn
  rw [filter_cons]
  split
  · rw [length_cons,Nat.add_comm]
  · rw [Nat.zero_add]

theorem activeIn_apart (apart : i ∉ l) (d : Option NoaDesc) :
    activeIn (Function.update fw i d) l = activeIn fw l := by
  induction l with
  | nil => rfl
  | cons j rest ih =>
      have others : j ≠ i := fun same => apart (same ▸ mem_cons_self ..)
      have later := ih fun listed => apart (mem_cons_of_mem _ listed)
      rw [activeIn_cons,activeIn_cons,later,Function.update_of_ne others]

theorem activeIn_give (idle : fw i = none) (d : NoaDesc)
    (once : l.Nodup) (listed : i ∈ l) : activeIn (Function.update fw i (some d)) l = activeIn fw l + 1 := by
  induction l with
  | nil => cases listed
  | cons j rest ih =>
      obtain ⟨fresh,distinct⟩ := nodup_cons.mp once
      rw [activeIn_cons,activeIn_cons]
      by_cases same : j = i
      · subst same
        rw [activeIn_apart fw fresh,Function.update_self,idle]
        simp [Nat.add_comm]
      · have later := (mem_cons.mp listed).resolve_left (Ne.symm same)
        rw [ih distinct later,Function.update_of_ne same,Nat.add_assoc]

theorem activeNum_give (idle : fw i = none) (d : NoaDesc) :
    activeNum (Function.update fw i (some d)) = activeNum fw + 1 :=
  activeIn_give fw idle d (by decide) (slots_all i)

theorem activeNum_drop (active : fw i = some d) :
    activeNum fw = activeNum (Function.update fw i none) + 1 := by
  have again := activeNum_give (Function.update fw i none) (Function.update_self i none fw) d
  rw [Function.update_idem] at again
  rw [← again,← active,Function.update_eq_self]

theorem activeNum_none : activeNum fw = 0 ↔ ∀ i, fw i = none := by
  constructor
  · intro empty i
    cases active : fw i with
    | none => rfl
    | some d => have more := activeNum_drop fw active; omega
  · intro idle
    simp [activeNum,activeIn,idle]

theorem activeNum_slots : activeNum fw ≤ 4 := length_filter_le _ slots
end

structure NoaSound (s : NoaInfo) : Prop where
  count : s.enDescNum.toNat = activeNum s.fw
  distinct : ∀ i j d e, s.fw i = some d → s.fw j = some e → i ≠ j → d.noaId ≠ e.noaId
  kept : ∀ i d, s.fw i = some d → s.noaDesc i = d
  exact : s.halOk → ∀ i, ((s.fw i).isSome ↔
    (s.paused = false ∧ (s.noaDesc i).enable ∧ noaShouldActivate (s.noaDesc i)))

section
variable (s : NoaInfo)

-- The next id is not the one of another active descriptor and is an id: no other is active,
-- or the highest one in the table with the request in it is neither 0 nor the last.
def IdFits (inDesc : NoaDesc) : Prop :=
  (∀ i, i ≠ inDesc.tag → s.fw i = none) ∨
    0 < topFrom (copyNoaDesc s inDesc.tag inDesc) slots ∧ topFrom (copyNoaDesc s inDesc.tag inDesc) slots < 254

def UpdateFits (inDesc : NoaDesc) (disable enable : HalStatus) : Prop :=
  (s.fw inDesc.tag ≠ none → disable = .success) ∧
    (noaShouldActivate inDesc → enable = .success → IdFits s inDesc)

def resumes (hal : P2ppsTrigTag → HalStatus) (i : P2ppsTrigTag) : Bool :=
  (s.noaDesc i).enable && noaShouldActivate (s.noaDesc i) && hal i == .success

-- The first descriptor to be resumed has id 0. The second one must find an id above that
-- at itself or after it, and there must be ids for the rest.
def ClimbFits (s : NoaInfo) (hal : P2ppsTrigTag → HalStatus) : List P2ppsTrigTag → Prop
  | [] => True
  | i :: rest =>
    if resumes s hal i then
      0 < topFrom s (i :: rest) ∧ topFrom s (i :: rest) + ((i :: rest).filter (resumes s hal)).length < 255
    else ClimbFits s hal rest

def ResumeFits (s : NoaInfo) (hal : P2ppsTrigTag → HalStatus) : List P2ppsTrigTag → Prop
  | [] => True
  | i :: rest => if resumes s hal i then ClimbFits s hal rest else ResumeFits s hal rest

def Silent : Prop := ∀ i, s.fw i = none

def Fits : Call → Prop
  | .update inDesc disable enable =>
    if s.paused then s.fw inDesc.tag = none else inDesc.enable → UpdateFits s inDesc disable enable
  | .pauseAll _ => True
  | .resumeAll hal => s.paused → Silent s ∧ ResumeFits s hal slots
  | .disableAll _ => s.paused → Silent s

structure Inner (s : NoaInfo) : Prop where
  count : s.enDescNum.toNat = activeNum s.fw
  distinct : ∀ i j d e, s.fw i = some d → s.fw j = some e → i ≠ j → d.noaId ≠ e.noaId
  kept : ∀ i d, s.fw i = some d → s.noaDesc i = d
  live : ∀ i d, s.fw i = some d → enToFw d ∧ noaShouldActivate d
  blank : ∀ i, (s.noaDesc i).enable = false → (s.noaDesc i).noaId = 0

structure Served (s : NoaInfo) (i : P2ppsTrigTag) : Prop where
  idle : enToFw (s.noaDesc i) → (s.fw i).isSome
  exact : s.halOk → ((s.fw i).isSome ↔
    ((s.noaDesc i).enable ∧ noaShouldActivate (s.noaDesc i)))

def Withheld (i : P2ppsTrigTag) : Prop := s.halOk → s.fw i = none
end

structure Whole (s : NoaInfo) : Prop where
  inner : Inner s
  served : s.paused = false → ∀ i, Served s i
  withheld : s.paused → ∀ i, Withheld s i

theorem Whole.sound (whole : Whole s) : NoaSound s := by
  refine {whole.inner with exact:=?_}
  intro ok i
  cases paused : s.paused with
  | false =>
      have exact := (whole.served paused i).exact ok
      simpa using exact
  | true =>
      have none := whole.withheld paused i ok
      simp [none]

section
variable (inner : Inner s)
include inner

theorem Inner.same (num : t.enDescNum = s.enDescNum) (fw : t.fw = s.fw) (desc : t.noaDesc = s.noaDesc) :
    Inner t := by
  constructor
  · rw [num,fw]
    exact inner.count
  · rw [fw]
    exact inner.distinct
  · rw [fw,desc]
    exact inner.kept
  · rw [fw]
    exact inner.live
  · rw [desc]
    exact inner.blank

theorem Inner.noted (wRole : Bool) : Inner (roleNoaNotify s wRole) := by
  unfold roleNoaNotify
  split
  · exact inner.same rfl rfl rfl
  · exact inner

theorem Inner.refused : Inner (refused s) := inner.same rfl rfl rfl

theorem Inner.copied (idle : s.fw i = none) (blank : d.enable = false → d.noaId = 0) :
    Inner (copyNoaDesc s i d) where
  count := inner.count
  distinct := inner.distinct
  kept := by
    intro j e active
    have apart : j ≠ i := by
      intro same
      subst same
      cases idle.symm.trans active
    have kept := inner.kept j e active
    exact (Function.update_of_ne apart _ _).trans kept
  live := inner.live
  blank := by
    intro j
    by_cases same : j = i
    · subst same
      simpa [copyNoaDesc] using blank
    · simpa [copyNoaDesc,same] using inner.blank j

theorem Inner.cleared (idle : s.fw i = none) (clearDesc : Bool) : Inner (cleared s i clearDesc) := by
  cases clearDesc with
  | false => exact inner
  | true => exact inner.copied idle fun _ => rfl

theorem Inner.dropped (active : s.fw i = some d) : Inner (dropped s i) := by
  have number := activeNum_drop s.fw active
  have count := inner.count
  have positive : 0 < s.enDescNum := by
    rw [lt_iff_toNat_lt]
    simp only [UInt8.toNat_zero]
    omega
  have fewer : ∀ j e, Function.update s.fw i none j = some e → s.fw j = some e := by
    intro j e left
    by_cases same : j = i
    · subst same
      simp at left
    · simpa [same] using left
  constructor
  · simp only [P2pps.dropped,noaDecreaseDesc,if_pos positive]
    rw [UInt8.toNat_sub_of_le _ _ (by rw [UInt8.le_iff_toNat_le]; simp only [UInt8.toNat_one]; omega)]
    simp only [toNat_one]
    omega
  · intro j k e f one two
    exact inner.distinct j k e f (fewer j e one) (fewer k f two)
  · intro j e left
    have kept := inner.kept j e (fewer j e left)
    simpa [P2pps.dropped,noaDecreaseDesc,positive] using kept
  · intro j e left
    exact inner.live j e (fewer j e left)
  · simpa [P2pps.dropped,noaDecreaseDesc,positive] using inner.blank

theorem Inner.given (idle : s.fw i = none) (live : enToFw (s.noaDesc i))
    (accepted : noaShouldActivate (s.noaDesc i))
    (fresh : ∀ j d, j ≠ i → s.fw j = some d → d.noaId ≠ (s.noaDesc i).noaId) : Inner (given s i) := by
  have number := activeNum_give s.fw idle (s.noaDesc i)
  have count := inner.count
  have room := activeNum_slots s.fw
  have either : ∀ j e, Function.update s.fw i (some (s.noaDesc i)) j = some e →
      (j = i ∧ e = s.noaDesc i) ∨ (j ≠ i ∧ s.fw j = some e) := by
    intro j e active
    by_cases same : j = i
    · subst same
      simp only [Function.update_self,some.injEq] at active
      exact .inl ⟨rfl,active.symm⟩
    · rw [Function.update_of_ne same] at active
      exact .inr ⟨same,active⟩
  constructor
  · simp only [P2pps.given,noaIncreaseDesc]
    rw [UInt8.toNat_add,UInt8.toNat_one]
    omega
  · intro j k e f one two apart
    rcases either j e one with ⟨rfl,rfl⟩ | ⟨other,before⟩
    · rcases either k f two with ⟨rfl,rfl⟩ | ⟨other,before⟩
      · exact absurd rfl apart
      · exact Ne.symm (fresh k f other before)
    · rcases either k f two with ⟨rfl,rfl⟩ | ⟨_,after⟩
      · exact fresh j e other before
      · exact inner.distinct j k e f before after apart
  · intro j e active
    rcases either j e active with ⟨rfl,rfl⟩ | ⟨_,before⟩
    · rfl
    · exact inner.kept j e before
  · intro j e active
    rcases either j e active with ⟨rfl,rfl⟩ | ⟨_,before⟩
    · exact ⟨live,accepted⟩
    · exact inner.live j e before
  · exact inner.blank
end

structure Beside (s t : NoaInfo) (j : P2ppsTrigTag) : Prop where
  desc : t.noaDesc j = s.noaDesc j
  fw : t.fw j = s.fw j
  ok : t.halOk → s.halOk

theorem Beside.served (beside : Beside s t j) (served : Served s j) : Served t j := by
  constructor
  · rw [beside.desc,beside.fw]
    exact served.idle
  · intro ok
    rw [beside.desc,beside.fw]
    exact served.exact (beside.ok ok)

theorem Beside.withheld (beside : Beside s t j) (withheld : Withheld s j) : Withheld t j := by
  intro ok
  rw [beside.fw]
  exact withheld (beside.ok ok)

section
variable (s : NoaInfo)

section
variable (wRole : Bool)

@[simp] theorem noted_desc : (roleNoaNotify s wRole).noaDesc = s.noaDesc := by cases wRole <;> rfl

@[simp] theorem noted_fw : (roleNoaNotify s wRole).fw = s.fw := by cases wRole <;> rfl

@[simp] theorem noted_paused : (roleNoaNotify s wRole).paused = s.paused := by cases wRole <;> rfl

@[simp] theorem noted_ok : (roleNoaNotify s wRole).halOk = s.halOk := by cases wRole <;> rfl
end
section
variable (i : P2ppsTrigTag) (clearDesc : Bool)

@[simp] theorem cleared_fw : (cleared s i clearDesc).fw = s.fw := by cases clearDesc <;> rfl

@[simp] theorem cleared_paused :
    (cleared s i clearDesc).paused = s.paused := by
  cases clearDesc <;> rfl

@[simp] theorem cleared_ok :
    (cleared s i clearDesc).halOk = s.halOk := by
  cases clearDesc <;> rfl

theorem cleared_desc :
    (cleared s i clearDesc).noaDesc i = if clearDesc then zeroDesc else s.noaDesc i := by
  cases clearDesc with
  | false => rfl
  | true => exact Function.update_self ..
end

theorem cleared_beside (clearDesc : Bool) (apart : j ≠ i) :
    (cleared s i clearDesc).noaDesc j = s.noaDesc j := by
  cases clearDesc with
  | false => rfl
  | true => exact Function.update_of_ne apart ..

section
variable (i : P2ppsTrigTag)

@[simp] theorem dropped_desc : (dropped s i).noaDesc = s.noaDesc := by
  unfold dropped noaDecreaseDesc
  split <;> rfl

@[simp] theorem dropped_paused : (dropped s i).paused = s.paused := by
  unfold dropped noaDecreaseDesc
  split <;> rfl

@[simp] theorem dropped_ok : (dropped s i).halOk = s.halOk := by
  unfold dropped noaDecreaseDesc
  split <;> rfl

@[simp] theorem dropped_fw : (dropped s i).fw = Function.update s.fw i none := rfl
end
end

structure Disabled (s t : NoaInfo) (i : P2ppsTrigTag) (clearDesc : Bool) (hal : HalStatus) : Prop where
  inner : Inner t
  paused : t.paused = s.paused
  beside : ∀ j, j ≠ i → Beside s t j
  here : (t.fw i = none ∧ t.noaDesc i = if clearDesc then zeroDesc else s.noaDesc i) ∨
    (s.fw i ≠ none ∧ hal ≠ .success ∧ t.halOk = false ∧ t.fw i = s.fw i ∧ t.noaDesc i = s.noaDesc i)

theorem noaDisable_spec (clearDesc : Bool) (inner : Inner s) (idle : enToFw (s.noaDesc i) → (s.fw i).isSome)
    (goes : (s.paused && clearDesc) = false) (hal : HalStatus) :
    Disabled s (noaDisable s i clearDesc hal).2 i clearDesc hal := by
  unfold noaDisable
  rw [goes,if_neg Bool.false_ne_true]
  cases active : s.fw i with
  | none =>
      have off : ¬(enToFw (s.noaDesc i)) := by
        intro on
        have some := idle on
        rw [active] at some
        cases some
      rw [if_neg off]
      constructor
      · exact (inner.cleared active clearDesc).noted _
      · simp
      · intro j apart
        exact ⟨by simp [cleared_beside,apart],by simp,by simp⟩
      · exact .inl ⟨by simp [active],by simp [cleared_desc]⟩
  | some d =>
      have on : enToFw (s.noaDesc i) := by
        rw [inner.kept i d active]
        exact (inner.live i d active).1
      rw [if_pos on]
      have failed : hal ≠ .success → Disabled s (refused s) i clearDesc hal := fun fails =>
        ⟨inner.refused,rfl,fun j _ => ⟨rfl,rfl,fun ok => (by cases ok)⟩,.inr ⟨by simp [active],fails,rfl,rfl,rfl⟩⟩
      cases hal with
      | resource => exact failed (by simp)
      | failure => exact failed (by simp)
      | success =>
          constructor
          · exact ((inner.dropped active).cleared (Function.update_self ..) clearDesc).noted _
          · simp
          · intro j apart
            exact ⟨by simp [cleared_beside,apart],by simp [apart],by simp⟩
          · exact .inl ⟨by simp,by simp [cleared_desc]⟩

theorem assign_first (inner : Inner s) (silent : Silent s) : noaAssignNoaid s = 0 := by
  have none := (activeNum_none s.fw).mpr silent
  have count := inner.count
  have zero : s.enDescNum = 0 := by
    rw [← UInt8.toNat_inj]
    simp only [UInt8.toNat_zero]
    omega
  rw [noaAssignNoaid,if_pos zero]

theorem assign_next (inner : Inner s) (active : ¬Silent s) (positive : 0 < topFrom s slots) (last : topFrom s slots < 254) :
    (noaAssignNoaid s).toNat = topFrom s slots + 1 := by
  have some : activeNum s.fw ≠ 0 := fun none => active ((activeNum_none s.fw).mp none)
  have count := inner.count
  have top := maxNoaid_top s
  have num : s.enDescNum ≠ 0 := by
    intro zero
    rw [zero,UInt8.toNat_zero] at count
    omega
  have nonzero : maxNoaid s ≠ 0 := by
    intro zero
    rw [zero,UInt8.toNat_zero] at top
    omega
  rw [noaAssignNoaid,if_neg num,if_pos nonzero,UInt8.toNat_add,UInt8.toNat_one]
  omega

theorem idOf_live (live : enToFw d) : idOf d = d.noaId.toNat := by
  have known : d.noaId ≠ noaidNone := by
    intro lost
    rw [enToFw,lost] at live
    simp at live
  rw [idOf,if_neg known]

theorem assign_fresh (inner : Inner s) (fits : Silent s ∨ 0 < topFrom s slots ∧ topFrom s slots < 254) :
    noaAssignNoaid s ≠ noaidNone ∧ ∀ j d, s.fw j = some d → d.noaId ≠ noaAssignNoaid s := by
  by_cases silent : Silent s
  · refine ⟨?_,?_⟩
    · rw [assign_first inner silent]
      decide
    · intro j d active
      cases (silent j).symm.trans active
  · obtain ⟨positive,last⟩ := fits.resolve_left silent
    have next := assign_next inner silent positive last
    refine ⟨?_,?_⟩
    · intro lost
      rw [lost] at next
      have all : noaidNone.toNat = 255 := rfl
      omega
    · intro j d active same
      have above := topFrom_above s (slots_all j)
      rw [inner.kept j d active,idOf_live (inner.live j d active).1,same,next] at above
      omega

structure Enabled (s t : NoaInfo) (i : P2ppsTrigTag) (inDesc : NoaDesc) (hal : HalStatus) (id : UInt8) : Prop where
  inner : Inner t
  paused : t.paused = s.paused
  beside : ∀ j, j ≠ i → Beside s t j
  served : Served t i
  here : (noaShouldActivate inDesc ∧ hal = .success ∧ t.fw i = some (t.noaDesc i) ∧ (t.noaDesc i).noaId = id) ∨
    (¬(noaShouldActivate inDesc ∧ hal = .success) ∧ t.fw i = none ∧ idOf (t.noaDesc i) = 0)

section
variable (s : NoaInfo) (i : P2ppsTrigTag) (d : NoaDesc)

@[simp] theorem copied_fw : (copyNoaDesc s i d).fw = s.fw := rfl

@[simp] theorem copied_paused :
    (copyNoaDesc s i d).paused = s.paused := rfl

@[simp] theorem copied_ok : (copyNoaDesc s i d).halOk = s.halOk := rfl

@[simp] theorem copied_desc : (copyNoaDesc s i d).noaDesc i = d := Function.update_self ..
end

theorem copied_beside (s : NoaInfo) (d : NoaDesc) (apart : j ≠ i) : (copyNoaDesc s i d).noaDesc j = s.noaDesc j :=
  Function.update_of_ne apart ..

theorem setNoaid_inner (inner : Inner s) (idle : s.fw i = none) (enabled : (s.noaDesc i).enable) (id : UInt8) :
    Inner (setNoaid s i id) := by
  apply inner.copied idle
  intro off
  cases enabled.symm.trans off

theorem setNoaid_beside (s : NoaInfo) (id : UInt8) (apart : j ≠ i) : Beside s (setNoaid s i id) j :=
  ⟨copied_beside s _ apart,rfl,fun ok => ok⟩

theorem setNoaid_desc (s : NoaInfo) (i : P2ppsTrigTag) (id : UInt8) :
    (setNoaid s i id).noaDesc i = {s.noaDesc i with noaId:=id} := copied_desc ..

section
variable (hal : HalStatus) (inner : Inner s) (idle : s.fw i = none) (enabled : (s.noaDesc i).enable)
include inner idle enabled

theorem unnumbered
    (off : ¬(noaShouldActivate (s.noaDesc i) ∧ hal = .success)) (same : t.noaDesc = (setNoaid s i noaidNone).noaDesc)
    (fw : t.fw = s.fw) (paused : t.paused = s.paused) (num : t.enDescNum = s.enDescNum) (ok : t.halOk → s.halOk)
    (told : noaShouldActivate (s.noaDesc i) → t.halOk = false) (id : UInt8) : Enabled s t i (s.noaDesc i) hal id := by
  have cut := setNoaid_inner inner idle enabled noaidNone
  have desc : t.noaDesc i = {s.noaDesc i with noaId:=noaidNone} := by rw [same,setNoaid_desc]
  constructor
  · refine ⟨?_,?_,?_,?_,?_⟩
    · rw [num,fw]; exact inner.count
    · rw [fw]; exact inner.distinct
    · rw [fw,same]; exact cut.kept
    · rw [fw]; exact inner.live
    · rw [same]; exact cut.blank
  · exact paused
  · intro j apart
    refine ⟨?_,congrFun fw j,ok⟩
    rw [same]
    exact (setNoaid_beside s noaidNone apart).desc
  · constructor
    · rw [desc]
      intro on
      simp [enToFw] at on
    · intro good
      rw [desc,fw,idle]
      have refused : noaShouldActivate (s.noaDesc i) = false := by
        cases accepted : noaShouldActivate (s.noaDesc i) with
        | false => rfl
        | true => cases good.symm.trans (told accepted)
      simpa [noaShouldActivate] using fun _ => refused
  · refine .inr ⟨off,?_,?_⟩
    · rw [fw,idle]
    · rw [desc,idOf,if_pos rfl]

theorem noaActivate_spec
    (accepted : noaShouldActivate (s.noaDesc i))
    (fits : hal = .success → Silent s ∨ 0 < topFrom s slots ∧ topFrom s slots < 254) :
    Enabled s (noaActivate s i hal).2 i (s.noaDesc i) hal (noaAssignNoaid s) := by
  have again : setNoaid (setNoaid s i (noaAssignNoaid s)) i noaidNone = setNoaid s i noaidNone := by simp [setNoaid,copyNoaDesc]
  have failed : hal ≠ .success →
      Enabled s (refused (setNoaid (setNoaid s i (noaAssignNoaid s)) i noaidNone)) i (s.noaDesc i) hal (noaAssignNoaid s) := by
    intro fails
    rw [again]
    apply unnumbered _ inner idle enabled
    · exact fun both => fails both.2
    · rfl
    · rfl
    · rfl
    · rfl
    · exact fun ok => nomatch ok
    · exact fun _ => rfl
  cases hal with
  | resource => exact failed (by simp)
  | failure => exact failed (by simp)
  | success =>
      obtain ⟨known,fresh⟩ := assign_fresh inner (fits rfl)
      have numbered := setNoaid_inner inner idle enabled (noaAssignNoaid s)
      have desc := setNoaid_desc s i (noaAssignNoaid s)
      have on : enToFw ((setNoaid s i (noaAssignNoaid s)).noaDesc i) := by
        rw [desc]
        simp [enToFw,known,enabled]
      have taken : noaShouldActivate ((setNoaid s i (noaAssignNoaid s)).noaDesc i) := by
        rw [desc]
        exact accepted
      have active : (given (setNoaid s i (noaAssignNoaid s)) i).fw i =
          some ((setNoaid s i (noaAssignNoaid s)).noaDesc i) := Function.update_self ..
      constructor
      · refine numbered.given idle on taken ?_
        intro j d apart other
        rw [desc]
        exact fresh j d other
      · rfl
      · intro j apart
        exact ⟨(setNoaid_beside s _ apart).desc,Function.update_of_ne apart ..,fun ok => ok⟩
      · constructor
        · intro _
          exact isSome_iff_exists.mpr ⟨_,active⟩
        · intro _
          constructor
          · intro _
            refine ⟨?_,taken⟩
            change ((setNoaid s i (noaAssignNoaid s)).noaDesc i).enable
            rw [desc]
            exact enabled
          · intro _
            exact isSome_iff_exists.mpr ⟨_,active⟩
      · refine .inl ⟨accepted,rfl,active,?_⟩
        change ((setNoaid s i (noaAssignNoaid s)).noaDesc i).noaId = _
        rw [desc]
end

theorem noted_assign (s : NoaInfo) (wRole : Bool) : noaAssignNoaid (roleNoaNotify s wRole) = noaAssignNoaid s := by
  cases wRole <;> rfl

theorem Enabled.after (enabled : Enabled u t i d hal num) (paused : u.paused = s.paused)
    (beside : ∀ j, j ≠ i → Beside s u j) : Enabled s t i d hal num where
  inner := enabled.inner
  paused := enabled.paused.trans paused
  beside := by
    intro j apart
    have first := beside j apart
    have second := enabled.beside j apart
    exact ⟨second.desc.trans first.desc,second.fw.trans first.fw,fun ok => first.ok (second.ok ok)⟩
  served := enabled.served
  here := enabled.here

theorem noaEnable_spec (hal : HalStatus) (inner : Inner s) (running : s.paused = false) (idle : s.fw i = none)
    (enabled : d.enable)
    (fits : noaShouldActivate d → hal = .success →
      Silent s ∨ 0 < topFrom (copyNoaDesc s i d) slots ∧ topFrom (copyNoaDesc s i d) slots < 254) :
    Enabled s (noaEnable s i d hal).2 i d hal (noaAssignNoaid (copyNoaDesc s i d)) := by
  have copied : Inner (copyNoaDesc s i d) := inner.copied idle (by simp [enabled])
  have noted := copied.noted d.wRole
  have desc : (roleNoaNotify (copyNoaDesc s i d) d.wRole).noaDesc i = d := by simp
  have empty : (roleNoaNotify (copyNoaDesc s i d) d.wRole).fw i = none := by simpa using idle
  have on : ((roleNoaNotify (copyNoaDesc s i d) d.wRole).noaDesc i).enable := by rw [desc]; exact enabled
  have beside : ∀ j, j ≠ i → Beside s (roleNoaNotify (copyNoaDesc s i d) d.wRole) j := by
    intro j apart
    exact ⟨by simp [copied_beside,apart],by simp,by simp⟩
  have still : (roleNoaNotify (copyNoaDesc s i d) d.wRole).paused = s.paused := by simp
  rw [← noted_assign _ d.wRole]
  simp only [noaEnable,still,running,Bool.false_eq_true,if_false]
  split
  · rename_i accepted
    have top : topFrom (roleNoaNotify (copyNoaDesc s i d) d.wRole) slots = topFrom (copyNoaDesc s i d) slots :=
      topFrom_same _ _ _ fun j _ => by simp
    have silent : Silent s → Silent (roleNoaNotify (copyNoaDesc s i d) d.wRole) := by
      intro silent j
      simpa using silent j
    have step := noaActivate_spec hal noted empty on (by rw [desc]; exact accepted) (by
      intro taken
      rw [top]
      exact (fits accepted taken).imp_left silent)
    rw [desc] at step
    exact step.after still beside
  · rename_i refused
    have step := unnumbered hal noted empty on (by rw [desc]; exact fun both => refused both.1)
      (t := setNoaid (roleNoaNotify (copyNoaDesc s i d) d.wRole) i noaidNone) rfl rfl rfl rfl (fun ok => ok)
      (by rw [desc]; exact fun accepted => absurd accepted refused)
      (noaAssignNoaid (roleNoaNotify (copyNoaDesc s i d) d.wRole))
    rw [desc] at step
    exact step.after still beside

theorem Disabled.served (disabled : Disabled s t i true hal) (served : Served s i) : Served t i := by
  rcases disabled.here with ⟨idle,desc⟩ | ⟨_,_,failed,fw,desc⟩
  · constructor
    · rw [desc]
      intro on
      cases on
    · rw [idle,desc]
      intro _
      simp [zeroDesc]
  · constructor
    · rw [fw,desc]
      exact served.idle
    · intro ok
      cases failed.symm.trans ok

theorem Disabled.withheld (disabled : Disabled s t i false hal) : Withheld t i := by
  intro ok
  rcases disabled.here with ⟨idle,_⟩ | ⟨_,_,failed,_,_⟩
  · exact idle
  · cases failed.symm.trans ok

section
variable (whole : Whole s) (running : s.paused = false)
include whole running

theorem Whole.one (inner : Inner t) (paused : t.paused = s.paused)
    (beside : ∀ j, j ≠ i → Beside s t j) (served : Served t i) : Whole t where
  inner := inner
  served := by
    intro _ j
    by_cases same : j = i
    · subst same
      exact served
    · exact (beside j same).served (whole.served running j)
  withheld := by
    intro stopped
    cases (paused.trans running).symm.trans stopped

theorem disable_whole (i : P2ppsTrigTag) (hal : HalStatus) :
    Whole (noaDisable s i true hal).2 := by
  have served := whole.served running i
  have spec := noaDisable_spec true whole.inner served.idle (by rw [running]; rfl) hal
  exact whole.one running spec.inner spec.paused spec.beside (spec.served served)

theorem update_running (enabled : d.enable)
    (fits : UpdateFits s d disable enable) : Whole (noaEnable (noaDisable s d.tag true disable).2 d.tag d enable).2 := by
  have served := whole.served running d.tag
  have spec := noaDisable_spec true whole.inner served.idle (by rw [running]; rfl) disable
  have between := disable_whole whole running d.tag disable
  generalize (noaDisable s d.tag true disable).2 = u at spec between
  have still := spec.paused.trans running
  have idle : u.fw d.tag = none := by
    rcases spec.here with ⟨idle,_⟩ | ⟨active,failed,_⟩
    · exact idle
    · exact absurd (fits.1 active) failed
  have top : topFrom (copyNoaDesc u d.tag d) slots = topFrom (copyNoaDesc s d.tag d) slots := by
    apply topFrom_same
    intro j _
    by_cases same : j = d.tag
    · subst same
      rw [copied_desc,copied_desc]
    · rw [copied_beside u d same,copied_beside s d same,(spec.beside j same).desc]
  have step := noaEnable_spec enable between.inner still idle enabled (by
    intro accepted taken
    rw [top]
    apply (fits.2 accepted taken).imp_left
    intro others j
    by_cases same : j = d.tag
    · rw [same]
      exact idle
    · rw [(spec.beside j same).fw]
      exact others j same)
  exact between.one still step.inner step.paused step.beside step.served
end

theorem noaDisable_paused (paused : s.paused) (hal : HalStatus) :
    (noaDisable s i true hal).2 = clearNoaDesc s i := by
  unfold noaDisable
  rw [paused]
  rfl

theorem update_paused (whole : Whole s) (paused : s.paused) (idle : s.fw d.tag = none) (disable enable : HalStatus) :
    Whole (noaUpdate s d disable enable).2 := by
  have cleared := noaDisable_paused (i := d.tag) paused disable
  have blank := whole.inner.copied idle (d := zeroDesc) fun _ => rfl
  have withheld := whole.withheld paused
  unfold noaUpdate
  cases enabled : d.enable with
  | false =>
      rw [if_neg Bool.false_ne_true,cleared]
      exact ⟨blank,fun running => (nomatch paused.symm.trans running),fun _ => withheld⟩
  | true =>
      have recorded := (blank.copied (d := d) idle (by simp [enabled])).noted d.wRole
      have still : (roleNoaNotify (copyNoaDesc (clearNoaDesc s d.tag) d.tag d) d.wRole).paused := by
        simpa [clearNoaDesc] using paused
      rw [if_pos rfl,cleared,noaEnable]
      simp only [still,if_true]
      refine ⟨recorded,fun running => (nomatch still.symm.trans running),?_⟩
      intro _ j ok
      have none := withheld j (by simpa [clearNoaDesc] using ok)
      simpa [clearNoaDesc] using none

theorem update_whole (whole : Whole s) (fits : Fits s (.update d disable enable)) :
    Whole (noaUpdate s d disable enable).2 := by
  simp only [Fits] at fits
  cases paused : s.paused with
  | true =>
      rw [paused,if_pos rfl] at fits
      exact update_paused whole paused fits disable enable
  | false =>
      rw [paused,if_neg Bool.false_ne_true] at fits
      unfold noaUpdate
      cases enabled : d.enable with
      | false =>
          rw [if_neg Bool.false_ne_true]
          exact disable_whole whole paused d.tag disable
      | true =>
          rw [if_pos rfl]
          exact update_running whole paused enabled (fits enabled)

theorem through (inv : List P2ppsTrigTag → NoaInfo → Prop) (f : NoaInfo → P2ppsTrigTag → NoaInfo)
    (kept : ∀ i rest s, i ∉ rest → inv (i :: rest) s → inv rest (f s i)) (l : List P2ppsTrigTag) (once : l.Nodup)
    (start : inv l s) : inv [] (l.foldl f s) := by
  induction l generalizing s with
  | nil => exact start
  | cons i rest ih =>
      obtain ⟨fresh,distinct⟩ := nodup_cons.mp once
      exact ih distinct (kept i rest s fresh start)

structure Pausing (rest : List P2ppsTrigTag) (s : NoaInfo) : Prop where
  inner : Inner s
  paused : s.paused
  served : ∀ i ∈ rest, Served s i
  withheld : ∀ i, i ∉ rest → Withheld s i

section
variable (hal : P2ppsTrigTag → HalStatus)

theorem pauseEach_pausing (fresh : i ∉ rest) (before : Pausing (i :: rest) s) :
    Pausing rest (pauseEach hal s i) := by
  have served := before.served i (mem_cons_self ..)
  have spec := noaDisable_spec false before.inner served.idle (by simp) (hal i)
  constructor
  · exact spec.inner
  · exact spec.paused.trans before.paused
  · intro j left
    have apart : j ≠ i := fun same => fresh (same ▸ left)
    exact (spec.beside j apart).served (before.served j (mem_cons_of_mem _ left))
  · intro j done
    by_cases same : j = i
    · subst same
      exact spec.withheld
    · have earlier := before.withheld j fun listed => done ((mem_cons.mp listed).resolve_left same)
      exact (spec.beside j same).withheld earlier

theorem pause_whole (whole : Whole s) (hal : P2ppsTrigTag → HalStatus) : Whole (noaPauseAll s hal) := by
  unfold noaPauseAll
  cases paused : s.paused with
  | true => exact whole
  | false =>
      have inner := whole.inner
      have start : Pausing slots {s with paused:=true} :=
        ⟨inner.same rfl rfl rfl,rfl,
          fun i _ => ⟨(whole.served paused i).idle,(whole.served paused i).exact⟩,
          fun i out => absurd (slots_all i) out⟩
      have done := through Pausing (pauseEach hal) (fun _ _ _ => pauseEach_pausing hal) slots (by decide) start
      exact ⟨done.inner,fun running => (nomatch done.paused.symm.trans running),
        fun _ i => done.withheld i not_mem_nil⟩

structure Emptying (rest : List P2ppsTrigTag) (s : NoaInfo) : Prop where
  inner : Inner s
  paused : s.paused
  silent : Silent s
  off : ∀ i, i ∉ rest → (s.noaDesc i).enable = false

theorem disableEach_emptying (before : Emptying (i :: rest) s) :
    Emptying rest (disableEach hal s i) := by
  have earlier : ∀ j, j ∉ rest → j ≠ i → (s.noaDesc j).enable = false := by
    intro j done apart
    exact before.off j fun listed => done ((mem_cons.mp listed).resolve_left apart)
  unfold disableEach
  split
  · rw [noaDisable_paused before.paused (hal i)]
    refine ⟨before.inner.copied (before.silent i) fun _ => rfl,before.paused,before.silent,?_⟩
    intro j done
    by_cases same : j = i
    · subst same
      exact congrArg NoaDesc.enable (copied_desc s j zeroDesc)
    · exact (congrArg NoaDesc.enable (copied_beside s zeroDesc same)).trans (earlier j done same)
  · rename_i off
    refine {before with off:=?_}
    intro j done
    by_cases same : j = i
    · subst same
      simpa using off
    · exact earlier j done same

theorem disableAll_whole (whole : Whole s) (hal : P2ppsTrigTag → HalStatus) (fits : Fits s (.disableAll hal)) :
    Whole (noaDisableAll s hal) := by
  unfold noaDisableAll
  cases paused : s.paused with
  | true =>
      have start : Emptying slots s := ⟨whole.inner,paused,fits paused,fun i out => absurd (slots_all i) out⟩
      have done := through Emptying (disableEach hal) (fun _ _ _ _ => disableEach_emptying hal) slots (by decide) start
      generalize slots.foldl (disableEach hal) s = t at done
      have inner := done.inner
      refine ⟨inner.same rfl rfl rfl,?_,fun stopped => (nomatch stopped)⟩
      intro _ i
      have off : (t.noaDesc i).enable = false := done.off i not_mem_nil
      have silent : t.fw i = none := done.silent i
      constructor
      · simp [enToFw,off]
      · simp [off,silent]
  | false =>
      have done := through (fun _ t => Whole t ∧ t.paused = false) (disableEach hal) (by
        rintro i rest t _ ⟨before,running⟩
        unfold disableEach
        split
        · have served := before.served running i
          have spec := noaDisable_spec true before.inner served.idle (by rw [running]; rfl) (hal i)
          exact ⟨disable_whole before running i (hal i),spec.paused.trans running⟩
        · exact ⟨before,running⟩) slots (by decide) ⟨whole,paused⟩
      generalize slots.foldl (disableEach hal) s = t at done
      obtain ⟨after,running⟩ := done
      have inner := after.inner
      exact ⟨inner.same rfl rfl rfl,
        fun _ i => ⟨(after.served running i).idle,(after.served running i).exact⟩,fun stopped => (nomatch stopped)⟩

structure Resuming (rest : List P2ppsTrigTag) (s : NoaInfo) : Prop where
  inner : Inner s
  running : s.paused = false
  idle : ∀ i ∈ rest, s.fw i = none
  served : ∀ i, i ∉ rest → Served s i

structure Resumed (hal : P2ppsTrigTag → HalStatus) (i : P2ppsTrigTag) (rest : List P2ppsTrigTag) (s t : NoaInfo) : Prop where
  after : Resuming rest t
  beside : ∀ j, j ≠ i → Beside s t j
  here : (resumes s hal i ∧ t.fw i = some (t.noaDesc i) ∧ (t.noaDesc i).noaId = noaAssignNoaid s) ∨
    (resumes s hal i = false ∧ t.fw i = none ∧ idOf (t.noaDesc i) = 0)

theorem copied_itself (s : NoaInfo) (i : P2ppsTrigTag) : copyNoaDesc s i (s.noaDesc i) = s := by
  unfold copyNoaDesc
  rw [Function.update_eq_self]

theorem Resuming.next (before : Resuming (i :: rest) s) (fresh : i ∉ rest) (inner : Inner t) (paused : t.paused = s.paused)
    (beside : ∀ j, j ≠ i → Beside s t j) (served : Served t i) : Resuming rest t where
  inner := inner
  running := paused.trans before.running
  idle := by
    intro j left
    have apart : j ≠ i := fun same => fresh (same ▸ left)
    exact (beside j apart).fw.trans (before.idle j (mem_cons_of_mem _ left))
  served := by
    intro j done
    by_cases same : j = i
    · subst same
      exact served
    · exact (beside j same).served (before.served j fun listed => done ((mem_cons.mp listed).resolve_left same))

theorem resumeEach_spec (before : Resuming (i :: rest) s) (fresh : i ∉ rest)
    (fits : resumes s hal i → Silent s ∨ 0 < topFrom s slots ∧ topFrom s slots < 254) :
    Resumed hal i rest s (resumeEach hal s i) := by
  have idle := before.idle i (mem_cons_self ..)
  unfold resumeEach
  cases enabled : (s.noaDesc i).enable with
  | false =>
      have beside : ∀ j, j ≠ i → Beside s s j := fun j _ => ⟨rfl,rfl,fun ok => ok⟩
      have served : Served s i := ⟨by simp [enToFw,enabled],by simp [enabled,idle]⟩
      refine ⟨before.next fresh before.inner rfl beside served,beside,.inr ⟨?_,idle,?_⟩⟩
      · simp [resumes,enabled]
      · rw [if_neg Bool.false_ne_true,idOf,before.inner.blank i enabled]
        rfl
  | true =>
      have spec := noaEnable_spec (hal i) before.inner before.running idle enabled (by
        intro accepted taken
        rw [copied_itself]
        exact fits (by simp [resumes,enabled,accepted,taken]))
      rw [copied_itself] at spec
      refine ⟨before.next fresh spec.inner spec.paused spec.beside spec.served,spec.beside,?_⟩
      rcases spec.here with ⟨accepted,taken,active,id⟩ | ⟨off,empty,low⟩
      · exact .inl ⟨by simp [resumes,enabled,accepted,taken],active,id⟩
      · refine .inr ⟨?_,empty,low⟩
        simpa [resumes,enabled] using off

theorem resumes_same (same : t.noaDesc i = s.noaDesc i) :
    resumes t hal i = resumes s hal i := by
  unfold resumes
  rw [same]

theorem climbFits_same (same : ∀ i ∈ l, t.noaDesc i = s.noaDesc i)
    (fits : ClimbFits s hal l) : ClimbFits t hal l := by
  induction l with
  | nil => trivial
  | cons i rest ih =>
      have top := topFrom_same s t (i :: rest) same
      have picked : (i :: rest).filter (resumes t hal) = (i :: rest).filter (resumes s hal) :=
        filter_congr fun j listed => resumes_same hal (same j listed)
      unfold ClimbFits at fits ⊢
      rw [top,picked,resumes_same hal (same i (mem_cons_self ..))]
      split
      · rename_i first
        rw [if_pos first] at fits
        exact fits
      · rename_i first
        rw [if_neg first] at fits
        exact ih (fun j listed => same j (mem_cons_of_mem _ listed)) fits

theorem resumeFits_same (same : ∀ i ∈ l, t.noaDesc i = s.noaDesc i)
    (fits : ResumeFits s hal l) : ResumeFits t hal l := by
  induction l with
  | nil => trivial
  | cons i rest ih =>
      have later := fun j listed => same j (mem_cons_of_mem i listed)
      unfold ResumeFits at fits ⊢
      rw [resumes_same hal (same i (mem_cons_self ..))]
      split
      · rename_i first
        rw [if_pos first] at fits
        exact climbFits_same hal later fits
      · rename_i first
        rw [if_neg first] at fits
        exact ih later fits
end
section
variable (resumed : Resumed hal i rest s t)
include resumed

theorem Resumed.same (fresh : i ∉ rest) (j : P2ppsTrigTag) (left : j ∈ rest) :
    t.noaDesc j = s.noaDesc j :=
  (resumed.beside j fun equal => fresh (equal ▸ left)).desc

theorem Resumed.busy (idle : s.fw i = none) (active : ¬Silent s) : ¬Silent t := by
  intro silent
  apply active
  intro j
  by_cases same : j = i
  · rw [same]
    exact idle
  · rw [← (resumed.beside j same).fw]
    exact silent j

theorem Resumed.climbs (inner : Inner s) (active : ¬Silent s)
    (positive : 0 < topFrom s slots) (last : topFrom s slots < 254) (granted : t.fw i = some (t.noaDesc i))
    (id : (t.noaDesc i).noaId = noaAssignNoaid s) :
    idOf (t.noaDesc i) = topFrom s slots + 1 ∧ topFrom t slots ≤ topFrom s slots + 1 := by
  have number : idOf (t.noaDesc i) = topFrom s slots + 1 := by
    rw [idOf_live (resumed.after.inner.live i _ granted).1,id,assign_next inner active positive last]
  refine ⟨number,?_⟩
  apply topFrom_below
  intro j _
  by_cases same : j = i
  · have equal : idOf (t.noaDesc j) = topFrom s slots + 1 := by rw [same,number]
    exact Nat.le_of_eq equal
  · have old := topFrom_above s (slots_all j)
    rw [(resumed.beside j same).desc]
    omega
end

theorem resume_climb (hal : P2ppsTrigTag → HalStatus) (l : List P2ppsTrigTag) (once : l.Nodup) (before : Resuming l s)
    (high : ∃ j, j ∉ l ∧ 0 < idOf (s.noaDesc j)) (active : ¬Silent s)
    (room : topFrom s slots + (l.filter (resumes s hal)).length < 255) : Resuming [] (l.foldl (resumeEach hal) s) := by
  induction l generalizing s with
  | nil => exact before
  | cons i rest ih =>
      obtain ⟨fresh,distinct⟩ := nodup_cons.mp once
      obtain ⟨k,out,positive⟩ := high
      have above := topFrom_above s (slots_all k)
      have apart : k ≠ i := fun same => out (same ▸ mem_cons_self ..)
      have spec := resumeEach_spec hal before fresh (by
        intro first
        rw [filter_cons_of_pos first,length_cons] at room
        exact .inr ⟨by omega,by omega⟩)
      have picked : rest.filter (resumes (resumeEach hal s i) hal) = rest.filter (resumes s hal) :=
        filter_congr fun j left => resumes_same hal (spec.same fresh j left)
      have busy := spec.busy (before.idle i (mem_cons_self ..)) active
      have still : ∃ j, j ∉ rest ∧ 0 < idOf ((resumeEach hal s i).noaDesc j) := by
        refine ⟨k,fun left => out (mem_cons_of_mem _ left),?_⟩
        rw [(spec.beside k apart).desc]
        exact positive
      rw [foldl_cons]
      apply ih distinct spec.after still busy
      rw [picked]
      rcases spec.here with ⟨first,granted,id⟩ | ⟨passed,_,low⟩
      · rw [filter_cons_of_pos first,length_cons] at room
        have climbs := spec.climbs before.inner active (by omega) (by omega) granted id
        omega
      · rw [filter_cons_of_neg (by simp [passed])] at room
        have top : topFrom (resumeEach hal s i) slots ≤ topFrom s slots := by
          apply topFrom_below
          intro j _
          by_cases same : j = i
          · subst same
            omega
          · have old := topFrom_above s (slots_all j)
            rw [(spec.beside j same).desc]
            exact old
        omega

theorem topFrom_left (s : NoaInfo) (l : List P2ppsTrigTag) (low : ∀ j, j ∉ l → idOf (s.noaDesc j) = 0) :
    topFrom s slots = topFrom s l := by
  apply Nat.le_antisymm
  · apply topFrom_below
    intro j _
    by_cases left : j ∈ l
    · exact topFrom_above s left
    · rw [low j left]
      exact Nat.zero_le _
  · apply topFrom_below
    intro j _
    exact topFrom_above s (slots_all j)

theorem Resumed.low (resumed : Resumed hal i rest s t) (low : ∀ j, j ∉ i :: rest → idOf (s.noaDesc j) = 0)
    (here : idOf (t.noaDesc i) = 0) (j : P2ppsTrigTag) (done : j ∉ rest) : idOf (t.noaDesc j) = 0 := by
  by_cases same : j = i
  · rw [same]
    exact here
  · rw [(resumed.beside j same).desc]
    exact low j fun listed => done ((mem_cons.mp listed).resolve_left same)

section
variable (hal : P2ppsTrigTag → HalStatus) (l : List P2ppsTrigTag) (once : l.Nodup) (before : Resuming l s) (low : ∀ j, j ∉ l → idOf (s.noaDesc j) = 0)
include once before low

theorem resume_second (active : ¬Silent s) (fits : ClimbFits s hal l) :
    Resuming [] (l.foldl (resumeEach hal) s) := by
  induction l generalizing s with
  | nil => exact before
  | cons i rest ih =>
      obtain ⟨fresh,distinct⟩ := nodup_cons.mp once
      have left := topFrom_left s (i :: rest) low
      unfold ClimbFits at fits
      have spec := resumeEach_spec hal before fresh (by
        intro first
        rw [if_pos first,filter_cons_of_pos first,length_cons] at fits
        exact .inr ⟨by omega,by omega⟩)
      have busy := spec.busy (before.idle i (mem_cons_self ..)) active
      rw [foldl_cons]
      rcases spec.here with ⟨first,granted,id⟩ | ⟨passed,_,here⟩
      · rw [if_pos first,filter_cons_of_pos first,length_cons] at fits
        have climbs := spec.climbs before.inner active (by omega) (by omega) granted id
        have picked : rest.filter (resumes (resumeEach hal s i) hal) = rest.filter (resumes s hal) :=
          filter_congr fun j later => resumes_same hal (spec.same fresh j later)
        apply resume_climb hal rest distinct spec.after ⟨i,fresh,by omega⟩ busy
        rw [picked]
        omega
      · rw [if_neg (by simp [passed])] at fits
        exact ih distinct spec.after (spec.low low here) busy (climbFits_same hal (spec.same fresh) fits)

theorem resume_first (silent : Silent s) (fits : ResumeFits s hal l) :
    Resuming [] (l.foldl (resumeEach hal) s) := by
  induction l generalizing s with
  | nil => exact before
  | cons i rest ih =>
      obtain ⟨fresh,distinct⟩ := nodup_cons.mp once
      have spec := resumeEach_spec hal before fresh fun _ => .inl silent
      unfold ResumeFits at fits
      rw [foldl_cons]
      rcases spec.here with ⟨first,granted,id⟩ | ⟨passed,empty,here⟩
      · rw [if_pos first] at fits
        have zero : idOf ((resumeEach hal s i).noaDesc i) = 0 := by
          rw [idOf_live (spec.after.inner.live i _ granted).1,id,assign_first before.inner silent]
          rfl
        have busy : ¬Silent (resumeEach hal s i) := fun none => nomatch (none i).symm.trans granted
        exact resume_second hal rest distinct spec.after (spec.low low zero) busy (climbFits_same hal (spec.same fresh) fits)
      · rw [if_neg (by simp [passed])] at fits
        have quiet : Silent (resumeEach hal s i) := by
          intro j
          by_cases same : j = i
          · rw [same]
            exact empty
          · rw [(spec.beside j same).fw]
            exact silent j
        exact ih distinct spec.after (spec.low low here) quiet (resumeFits_same hal (spec.same fresh) fits)
end

theorem resume_whole (whole : Whole s) (hal : P2ppsTrigTag → HalStatus) (fits : Fits s (.resumeAll hal)) :
    Whole (noaResumeAll s hal) := by
  unfold noaResumeAll
  cases paused : s.paused with
  | false => exact whole
  | true =>
      obtain ⟨silent,ids⟩ := fits paused
      have inner := whole.inner
      have start : Resuming slots {s with paused:=false} :=
        ⟨inner.same rfl rfl rfl,rfl,fun i _ => silent i,
          fun i out => absurd (slots_all i) out⟩
      have fitting : ResumeFits {s with paused:=false} hal slots := resumeFits_same hal (fun _ _ => rfl) ids
      have done := resume_first hal slots (by decide) start (fun j out => absurd (slots_all j) out) silent fitting
      exact ⟨done.inner,fun _ i => done.served i not_mem_nil,fun stopped => (nomatch done.running.symm.trans stopped)⟩

theorem step_whole (whole : Whole s) (call : Call) (fits : Fits s call) : Whole (step s call) := by
  cases call with
  | update inDesc disable enable => exact update_whole whole fits
  | pauseAll hal => exact pause_whole whole hal
  | resumeAll hal => exact resume_whole whole hal fits
  | disableAll hal => exact disableAll_whole whole hal fits

theorem init_whole : Whole p2ppsInit where
  inner := ⟨rfl,fun _ _ _ _ one => (nomatch one),fun _ _ active => (nomatch active),fun _ _ active => (nomatch active),
    fun _ _ => rfl⟩
  served := fun _ _ => ⟨fun on => (nomatch on),fun _ => ⟨fun active => (nomatch active),fun on => (nomatch on.1)⟩⟩
  withheld := fun stopped => nomatch stopped

theorem noa_table_sound (path : Machine.Reached step Fits p2ppsInit s) : NoaSound s := by
  have whole := path.invariant Whole init_whole fun s call before fits => step_whole before call fits
  exact whole.sound

def request (tag : P2ppsTrigTag) (id : UInt8) : NoaDesc := ⟨true,true,tag,0,0,102400,10240,255,id⟩
def allSucceed : P2ppsTrigTag → HalStatus := fun _ => .success

def resumedPair : List Call :=
  [.update (request .go 0) .success .success,.pauseAll allSucceed,.update (request .gc255 7) .success .success,.resumeAll allSucceed]

theorem noa_table_sound_resumed : NoaSound (Machine.run step p2ppsInit resumedPair) ∧
    ((Machine.run step p2ppsInit resumedPair).noaDesc .gc255).noaId = 8 := by
  refine ⟨noa_table_sound (Machine.Reached.start.run ⟨?_,trivial,?_,?_,trivial⟩),by decide⟩
  · exact fun _ => ⟨fun active => absurd rfl active,fun _ _ => .inl fun _ _ => rfl⟩
  · exact (rfl : _ = none)
  · refine fun _ => ⟨?_,?_⟩
    · intro i
      cases i <;> rfl
    · exact ⟨by decide,by decide⟩

-- The first id is 0 and so is the highest one, so the second descriptor has it too.
theorem noa_table_ids_collide : ∃ s, Machine.Reached step (fun _ _ => True) p2ppsInit s ∧ s.halOk = true ∧ ¬NoaSound s := by
  let calls : List Call := [.update (request .go 1) .success .success,.update (request .gc 0) .success .success]
  refine ⟨run step p2ppsInit calls,Machine.Reached.start.run ⟨trivial,trivial,trivial⟩,rfl,?_⟩
  intro sound
  have one : (run step p2ppsInit calls).fw .go = some (request .go 0) := rfl
  have two : (run step p2ppsInit calls).fw .gc = some (request .gc 0) := rfl
  exact sound.distinct .go .gc _ _ one two (by decide) rfl
end Rtl8852au.P2pps
