import Rtl8852au.MccSlots

namespace Rtl8852au.Mcc
open Function

@[simp] theorem modify_at (m : Mem) (p : Place) (change : MccInfo → MccInfo) : (m.modify p change) p = change (m p) :=
  update_self ..

theorem modify_away (m : Mem) (change : MccInfo → MccInfo) (apart : q ≠ p) : (m.modify p change) q = m q :=
  update_of_ne apart ..

@[simp] theorem modify_twice (m : Mem) (p : Place) (first second : MccInfo → MccInfo) :
    (m.modify p first).modify p second = m.modify p (fun i => second (first i)) := by
  unfold Mem.modify
  rw [update_self,update_idem]

section
variable (m : Mem) (r : RoleRef) (change : MccRole → MccRole)

theorem onRole_away (apart : q ≠ r.place) :
    (m.onRole r change) q = m q := modify_away m _ apart

theorem onRole_role (t : RoleRef) :
    (m.onRole r change).role t = if t = r then change (m.role r) else m.role t := by
  unfold Mem.role Mem.onRole
  by_cases place : t.place = r.place
  · rw [place,modify_at]
    by_cases idx : t.idx = r.idx
    · have same : t = r := by cases t; cases r; simp_all
      rw [if_pos same,idx]
      exact update_self ..
    · have other : t ≠ r := fun same => idx (by rw [same])
      rw [if_neg other]
      exact update_of_ne idx ..
  · have other : t ≠ r := fun same => place (by rw [same])
    rw [modify_away _ _ place,if_neg other]

theorem onRole_same (same : change (m.role r) = m.role r) :
    m.onRole r change = m := by
  unfold Mem.onRole Mem.modify
  have whole : (m r.place).onRole r.idx change = m r.place := by
    unfold MccInfo.onRole
    have kept : change ((m r.place).enInfo.mccRole r.idx) = (m r.place).enInfo.mccRole r.idx := same
    rw [kept,update_eq_self]
  dsimp only
  rw [whole,update_eq_self]
end

structure SameRole (before after : MccRole) : Prop where
  chandef : after.chandef = before.chandef
  macid : after.macid = before.macid
  group : after.group = before.group
  limit : after.policy.durInfo.durLimit = before.policy.durInfo.durLimit

structure Same (before after : MccInfo) : Prop where
  state : after.state = before.state
  mode : after.mccMode = before.mccMode
  segNum : after.btInfo.btSegNum = before.btInfo.btSegNum
  refIdx : after.enInfo.refRoleIdx = before.enInfo.refRoleIdx
  num : after.enInfo.mroleNum = before.enInfo.mroleNum
  group : after.enInfo.group = before.enInfo.group
  roles : ∀ idx, SameRole (before.enInfo.mccRole idx) (after.enInfo.mccRole idx)

theorem SameRole.refl (mrole : MccRole) : SameRole mrole mrole := ⟨rfl,rfl,rfl,rfl⟩

theorem SameRole.trans (one : SameRole a b) (two : SameRole b c) : SameRole a c :=
  ⟨two.chandef.trans one.chandef,two.macid.trans one.macid,two.group.trans one.group,two.limit.trans one.limit⟩

section
variable (i : MccInfo)

theorem Same.refl : Same i i := ⟨rfl,rfl,rfl,rfl,rfl,rfl,fun _ => .refl _⟩

theorem Same.trans (one : Same a b) (two : Same b c) : Same a c where
  state := two.state.trans one.state
  mode := two.mode.trans one.mode
  segNum := two.segNum.trans one.segNum
  refIdx := two.refIdx.trans one.refIdx
  num := two.num.trans one.num
  group := two.group.trans one.group
  roles idx := (one.roles idx).trans (two.roles idx)

theorem Same.onRole (idx : Fin 2) (change : MccRole → MccRole)
    (same : SameRole (i.enInfo.mccRole idx) (change (i.enInfo.mccRole idx))) : Same i (i.onRole idx change) where
  state := rfl
  mode := rfl
  segNum := rfl
  refIdx := rfl
  num := rfl
  group := rfl
  roles q := by
    unfold MccInfo.onRole
    dsimp only
    by_cases here : q = idx
    · subst here; rw [update_self]; exact same
    · rw [update_of_ne here]; exact .refl _

section
variable (same : Same before after)
include same

theorem Same.limited (idx : Fin 2) :
    limited (after.enInfo.mccRole idx) = limited (before.enInfo.mccRole idx) := by
  unfold Mcc.limited
  rw [(same.roles idx).limit]

theorem Same.limitedRef : Mcc.limited after.ref = Mcc.limited before.ref := by
  unfold MccInfo.ref
  rw [same.refIdx]
  exact same.limited _

theorem Same.limitedAno : Mcc.limited after.ano = Mcc.limited before.ano := by
  unfold MccInfo.ano
  rw [same.refIdx]
  exact same.limited _

theorem Same.on24g (env : Env) (idx : Fin 2) : after.on24g env idx = before.on24g env idx := by
  unfold MccInfo.on24g
  rw [(same.roles idx).chandef]
end

structure Tunes (before after : MccInfo) : Prop extends Same before after where
  slots : after.enInfo.pattern.slotOrder = before.enInfo.pattern.slotOrder
  roleRef : after.enInfo.pattern.roleRef = before.enInfo.pattern.roleRef
  roleAno : after.enInfo.pattern.roleAno = before.enInfo.pattern.roleAno
  courtesy : after.enInfo.pattern.courtesy = before.enInfo.pattern.courtesy
  addBt : after.btInfo.addBtRole = before.btInfo.addBtRole

theorem Tunes.refl : Tunes i i := ⟨.refl i,rfl,rfl,rfl,rfl,rfl⟩

theorem Tunes.trans (one : Tunes a b) (two : Tunes b c) : Tunes a c where
  toSame := one.toSame.trans two.toSame
  slots := two.slots.trans one.slots
  roleRef := two.roleRef.trans one.roleRef
  roleAno := two.roleAno.trans one.roleAno
  courtesy := two.courtesy.trans one.courtesy
  addBt := two.addBt.trans one.addBt

theorem Tunes.setDur (idx : Fin 2) (dur : Nat) : Tunes i (i.setDur idx dur) :=
  ⟨.onRole i idx _ ⟨rfl,rfl,rfl,rfl⟩,rfl,rfl,rfl,rfl,rfl⟩

theorem Tunes.setTwo (one two : Fin 2) (durOne durTwo : Nat) :
    Tunes i ((i.setDur one durOne).setDur two durTwo) := (Tunes.setDur i one durOne).trans (.setDur _ two durTwo)

theorem Tunes.setDurs (durs : Nat × Nat) : Tunes i (i.setDurs durs) := .setTwo i _ _ durs.1 durs.2

theorem Tunes.rest {before after : MccInfo} (tunes : Tunes before after) (mccIntvl btDur spacing offset : Nat)
    (btSeg : Fin 2 → Nat) :
    Tunes before {after with
      enInfo := {after.enInfo with mccIntvl,pattern:={after.enInfo.pattern with dRDASpacingMax:=spacing,bcnsOffset:=offset}}
      btInfo := {after.btInfo with btDur,btSeg}} :=
  ⟨{tunes with},
    tunes.slots,tunes.roleRef,tunes.roleAno,tunes.courtesy,tunes.addBt⟩

theorem adjust_2g_tunes (env : Env) (i : MccInfo) : Tunes i (mccAdjustDurFor2gMcc2roleBt env i) := by
  unfold mccAdjustDurFor2gMcc2roleBt
  split
  · exact .refl i
  · rename_i d1 d2 btDur _
    exact (Tunes.setTwo i 0 1 d1 d2).rest _ btDur btDur _ _

theorem discision_2g_tunes (env : Env) (i : MccInfo) : Tunes i (mccDiscisionDurFor2gMcc2roleBt env i) := by
  unfold mccDiscisionDurFor2gMcc2roleBt
  refine Tunes.trans ?_ (adjust_2g_tunes env _)
  split
  · exact (Tunes.refl i).rest _ btDurMax2ws _ _ _
  · exact .refl i

theorem adjust_2_band_tunes (role2g roleNon2g : Fin 2) :
    Tunes i (mccAdjustDurFor2BandMcc2roleBt i role2g roleNon2g) ∧
      (mccAdjustDurFor2BandMcc2roleBt i role2g roleNon2g).btInfo = i.btInfo := by
  unfold mccAdjustDurFor2BandMcc2roleBt
  dsimp only
  split
  · exact ⟨.refl i,rfl⟩
  · split
    · exact ⟨.refl i,rfl⟩
    · split
      · exact ⟨.refl i,rfl⟩
      · exact ⟨.setTwo i _ _ _ _,rfl⟩

theorem discision_tunes (env : Env) (i : MccInfo) : Tunes i (mccDiscisionDurationFor2roleBt env i).2 := by
  unfold mccDiscisionDurationFor2roleBt
  split
  · exact .refl i
  · split
    · exact discision_2g_tunes env i
    · exact .refl i
    · exact (adjust_2_band_tunes i 0 1).1
    · exact (adjust_2_band_tunes i 1 0).1

theorem discision_again (env : Env) (i : MccInfo) (no : (mccDiscisionDurationFor2roleBt env i).1 = false) :
    (mccDiscisionDurationFor2roleBt env (mccDiscisionDurationFor2roleBt env i).2).1 = false := by
  have bt : (mccDiscisionDurationFor2roleBt env i).2.btInfo = i.btInfo := by
    unfold mccDiscisionDurationFor2roleBt at no ⊢
    split at no
    · rename_i none; rw [if_pos none]
    · rename_i some
      rw [if_neg some]
      split at no
      · cases no
      · rfl
      · exact (adjust_2_band_tunes i 0 1).2
      · exact (adjust_2_band_tunes i 1 0).2
  have same := (discision_tunes env i).toSame
  unfold mccDiscisionDurationFor2roleBt at no
  rw [mccDiscisionDurationFor2roleBt,bt,same.on24g env 0,same.on24g env 1]
  split at no
  · rename_i none; rw [if_pos none]
  · rename_i some
    rw [if_neg some]
    split at no
    · cases no
    · rfl
    · rfl
    · rfl

structure Local (p : Place) (m m' : Mem) : Prop where
  away : ∀ q, q ≠ p → m' q = m q
  same : Same (m p) (m' p)

theorem Local.refl (p : Place) (m : Mem) : Local p m m := ⟨fun _ _ => rfl,.refl _⟩

theorem Local.trans (one : Local p a b) (two : Local p b c) : Local p a c :=
  ⟨fun q apart => (two.away q apart).trans (one.away q apart),one.same.trans two.same⟩

theorem Local.modify (m : Mem) (change : MccInfo → MccInfo) (same : Same (m p) (change (m p))) :
    Local p m (m.modify p change) where
  away _ apart := modify_away m change apart
  same := by rw [modify_at]; exact same

theorem Same.onPattern (change : Pattern → Pattern) : Same i (i.onPattern change) := ⟨rfl,rfl,rfl,rfl,rfl,rfl,fun _ => .refl _⟩
end

def BtFits (i : MccInfo) : Prop := (btPattern i).isSome

instance (i : MccInfo) : Decidable (BtFits i) := inferInstanceAs (Decidable (_ = true))

structure Arranged (extra : Bool) (fits : Prop) (before after : MccInfo) : Prop where
  plain : extra = false → TwoSlots before.enInfo.pattern after.enInfo.pattern ∧
    after.btInfo.addBtRole = before.btInfo.addBtRole
  added : extra → after.btInfo.addBtRole
  takes : extra → fits → TakesBt before.enInfo.pattern after.enInfo.pattern
  lacks : extra → ¬ fits → TwoSlots before.enInfo.pattern after.enInfo.pattern

section
variable (tunes : Tunes i j)
include tunes

theorem Appends.of_tunes (appends : Appends j.enInfo.pattern after added) :
    Appends i.enInfo.pattern after added where
  kinds := by
    have kinds : j.enInfo.pattern.kinds = i.enInfo.pattern.kinds := by unfold Pattern.kinds; rw [tunes.slots]
    rw [appends.kinds,kinds]
  roleRef := appends.roleRef.trans tunes.roleRef
  roleAno := appends.roleAno.trans tunes.roleAno
  courtesy := by
    have known := appends.courtesy
    unfold Fresh at known ⊢
    rw [tunes.roleRef,tunes.roleAno,tunes.courtesy] at known
    exact known

theorem TwoSlots.of_tunes (two : TwoSlots j.enInfo.pattern after) : TwoSlots i.enInfo.pattern after := by
  unfold TwoSlots refSlot anoSlot at two ⊢
  rw [tunes.roleRef,tunes.roleAno] at two
  exact two.of_tunes tunes

theorem TakesBt.of_tunes (takes : TakesBt j.enInfo.pattern after) : TakesBt i.enInfo.pattern after := by
  unfold TakesBt refSlot anoSlot at takes ⊢
  rw [tunes.roleRef,tunes.roleAno] at takes
  exact takes.imp (fun one => one.of_tunes tunes) (fun two => two.of_tunes tunes)

theorem Arranged.of_tunes (arranged : Arranged extra fits j after) : Arranged extra fits i after where
  plain no := ⟨(arranged.plain no).1.of_tunes tunes,(arranged.plain no).2.trans tunes.addBt⟩
  added := arranged.added
  takes yes fit := (arranged.takes yes fit).of_tunes tunes
  lacks yes none := (arranged.lacks yes none).of_tunes tunes
end

theorem Same.withBtRole (i : MccInfo) : Same i (withBtRole i) := ⟨rfl,rfl,rfl,rfl,rfl,rfl,fun _ => .refl _⟩
theorem btPattern_withBtRole (i : MccInfo) : btPattern (withBtRole i) = btPattern i := rfl

theorem bt_pattern_arranged (m : Mem) (seg : (m p).btInfo.btSegNum = 1) :
    Local p m (mccFill2WroleBtPattern p m) ∧ Arranged true (BtFits (m p)) (m p) (mccFill2WroleBtPattern p m p) := by
  unfold mccFill2WroleBtPattern
  rw [if_pos seg,modify_twice,modify_at]
  refine ⟨.modify m _ ((Same.withBtRole _).trans (.onPattern _ _)),nofun,fun _ => rfl,fun _ fits => ?_,fun _ unfit => ?_⟩
  · obtain ⟨pattern,found⟩ := Option.isSome_iff_exists.mp fits
    unfold MccInfo.onPattern
    rw [btPattern_withBtRole,found]
    exact calculate_bt_takes found
  · have none := Option.not_isSome_iff_eq_none.mp unfit
    unfold MccInfo.onPattern
    rw [btPattern_withBtRole,none]
    exact default_appends _ _ (.refl _)
end Rtl8852au.Mcc
