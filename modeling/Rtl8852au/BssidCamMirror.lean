import Rtl8852au.BssidCam

namespace Rtl8852au.Role
open Machine Function Option

theorem memEq_refl (a : MacAddr) (len : Nat) : memEq a a len := by simp [memEq]

theorem memEq_symm (same : memEq a b len) : memEq b a len := by
  simp only [memEq,decide_eq_true_eq] at same ⊢
  exact fun k inside => (same k inside).symm

theorem memEq_trans (one : memEq a b len) (two : memEq b c len) : memEq a c len := by
  simp only [memEq,decide_eq_true_eq] at one two ⊢
  exact fun k inside => (one k inside).trans (two k inside)

theorem memEq_whole (whole : 6 ≤ len) (same : memEq a b len) : a = b := by
  simp only [memEq,decide_eq_true_eq] at same
  funext k
  exact same k (by omega)

theorem srchByBssid_some (found : macRoleSrchByBssid roles i = some role) :
    role ∈ roles ∧ role.info.bInfo.bssidCamIdx = i ∧ role.info.aInfo.valid := by
  have holds := List.find?_some found
  simp only [Bool.and_eq_true,beq_iff_eq] at holds
  exact ⟨List.mem_of_find?_eq_some found,holds.1.symm,holds.2⟩

theorem free_iff : Free roles i ↔
    ∀ role ∈ roles, role.info.aInfo.valid → role.info.bInfo.bssidCamIdx ≠ i := by
  simp only [Free,macRoleSrchByBssid,isNone_iff_eq_none,List.find?_eq_none,
    Bool.and_eq_true,beq_iff_eq,not_and]
  constructor
  · intro none role member valid same
    exact none role member same.symm valid
  · intro none role member same valid
    exact none role member valid same.symm

theorem not_free_iff : ¬ Free roles i ↔
    ∃ role ∈ roles, role.info.aInfo.valid ∧ role.info.bInfo.bssidCamIdx = i := by
  rw [free_iff]
  push Not
  rfl

theorem srchByBssid_given (before after : List RoleTbl) (role : RoleTbl) (other : role.info.bInfo.bssidCamIdx ≠ i) :
    macRoleSrchByBssid (before ++ role :: after) i = macRoleSrchByBssid (before ++ after) i := by
  have skipped : (i == role.info.bInfo.bssidCamIdx && role.info.aInfo.valid) = false := by simp [Ne.symm other]
  simp only [macRoleSrchByBssid,List.find?_append,List.find?_cons,skipped]

-- What `find_avail_bssid_cam_entry` ends with, for a record compared on `cmpLen`
-- bytes against the roles that keep their entries.
inductive Picked (hw : HwInfo) (roles : List RoleTbl) (info : RoleInfo) : BssidPick → Prop where
  | joined (inside : i < hw.bssidNum) (found : macRoleSrchByBssid roles i = some role)
      (bssid : memEq info.bssid role.info.bssid (cmpLen info)) (band : info.band = role.info.band) :
      Picked hw roles info ⟨role.info.aInfo.bssidCamIdx,if cmpLen info < 6 then some role.info.bInfo.bssid else none⟩
  | fresh (inside : i < hw.bssidNum) (alone : ∀ j < hw.bssidNum, ¬ Joins roles info j) (free : Free roles i)
      (first : ∀ j < i, ¬ Free roles j) : Picked hw roles info ⟨i,none⟩
  | full (alone : ∀ j < hw.bssidNum, ¬ Joins roles info j) (held : ∀ j < hw.bssidNum, ¬ Free roles j) :
      Picked hw roles info ⟨hw.bssidNum,none⟩

structure Scanned (hw : HwInfo) (roles : List RoleTbl) (info : RoleInfo) (s found : Nat) : Prop where
  alone : ∀ j < s, ¬ Joins roles info j
  first : (found = hw.bssidNum ∧ ∀ j < s, ¬ Free roles j) ∨
    (found < hw.bssidNum ∧ Free roles found ∧ ∀ j < found, ¬ Free roles j)

theorem Scanned.pass (scanned : Scanned hw roles info s found) (held : ¬ Free roles s) (apart : ¬ Joins roles info s) :
    Scanned hw roles info (s+1) found := by
  have upTo (j : Nat) (below : j < s+1) : j < s ∨ j = s := by omega
  constructor
  · intro j below
    rcases upTo j below with before | rfl
    · exact scanned.alone j before
    · exact apart
  · apply scanned.first.imp_left
    rintro ⟨same,none⟩
    refine ⟨same,?_⟩
    intro j below
    rcases upTo j below with before | rfl
    · exact none j before
    · exact held

theorem Scanned.free (scanned : Scanned hw roles info s found) (inside : s < hw.bssidNum) (free : Free roles s) :
    Scanned hw roles info (s+1) (if found = hw.bssidNum then s else found) := by
  constructor
  · intro j below
    by_cases before : j < s
    · exact scanned.alone j before
    · have here : j = s := by omega
      rintro ⟨role,found,_⟩
      rw [Free,isNone_iff_eq_none,← here] at free
      rw [free] at found
      cases found
  · right
    rcases scanned.first with ⟨same,none⟩ | ⟨bounded,there,none⟩
    · rw [if_pos same]
      exact ⟨inside,free,none⟩
    · rw [if_neg (by omega)]
      exact ⟨bounded,there,none⟩

theorem bssidScan_picked (k : Nat) (scanned : Scanned hw roles info s found) (rest : s + k = hw.bssidNum) :
    Picked hw roles info (bssidScan hw roles info (cmpLen info) (List.range' s k) found) := by
  induction k generalizing s found with
  | zero =>
    simp only [List.range'_zero,bssidScan]
    have ended : s = hw.bssidNum := by omega
    subst ended
    rcases scanned.first with ⟨rfl,none⟩ | ⟨bounded,free,none⟩
    · exact .full scanned.alone none
    · exact .fresh bounded scanned.alone free none
  | succ k ih =>
    rw [List.range'_succ,bssidScan]
    cases here : macRoleSrchByBssid roles s with
    | none =>
      have free : Free roles s := by simp [Free,here]
      exact ih (scanned.free (by omega) free) (by omega)
    | some role =>
      have held : ¬ Free roles s := by simp [Free,here]
      dsimp only
      by_cases same : memEq info.bssid role.info.bssid (cmpLen info) ∧ info.band = role.info.band
      · simp only [same.1,same.2,beq_self_eq_true,Bool.and_self,if_true]
        exact .joined (by omega) here same.1 same.2
      · rw [if_neg (by simpa using same)]
        apply ih (scanned.pass held ?_) (by omega)
        rintro ⟨other,there,bssid,band⟩
        cases some.inj (here.symm.trans there)
        exact same ⟨bssid,band⟩

theorem bssidPick_picked (maskSel : info.aInfo.maskSel = info.maskSel) (addrMask : info.aInfo.addrMask = info.addrMask) :
    Picked hw roles info (bssidPick hw roles info) := by
  rw [bssidPick,maskSel,addrMask,List.range_eq_range']
  exact bssidScan_picked hw.bssidNum ⟨by omega,.inl ⟨rfl,by omega⟩⟩ (by omega)

def settle (pick : BssidPick) (info : RoleInfo) : RoleInfo :=
  {info with
    aInfo := {info.aInfo with bssidCamIdx:=pick.idx}
    bInfo := {info.bInfo with bssidCamIdx:=pick.idx,bssid:=pick.copied.getD info.bInfo.bssid}}

theorem findBssid_eq (hw : HwInfo) (roles : List RoleTbl) (info : RoleInfo) :
    findAvailBssidCamEntry hw roles info =
      (if (bssidPick hw roles info).idx = hw.bssidNum then .bssidCamFl else .success,
        settle (bssidPick hw roles info) info) := by
  unfold findAvailBssidCamEntry settle resetBssid
  dsimp only
  cases (bssidPick hw roles info).copied with
  | none => split <;> simp_all
  | some bssid => split <;> simp_all

structure Shown (bssidNum : Nat) (cam : BssidCam) (info : RoleInfo) : Prop where
  index : info.aInfo.bssidCamIdx = info.bInfo.bssidCamIdx
  bound : info.bInfo.bssidCamIdx < bssidNum
  entry : cam info.bInfo.bssidCamIdx = ⟨true,info.band,info.bInfo.bssid⟩
  named : memEq info.bInfo.bssid info.bssid (cmpLen info)

structure Mirror (bssidNum : Nat) (cam : BssidCam) (roles : List RoleTbl) : Prop where
  shown : ∀ role ∈ roles, role.info.aInfo.valid → Shown bssidNum cam role.info
  backed : ∀ i, (cam i).valid → ¬ Free roles i

theorem Mirror.perm (same : roles.Perm roles') (mirror : Mirror n cam roles) : Mirror n cam roles' := by
  constructor
  · intro role member
    exact mirror.shown role (same.mem_iff.mpr member)
  · intro i valid
    obtain ⟨role,member,holds⟩ := not_free_iff.mp (mirror.backed i valid)
    exact not_free_iff.mpr ⟨role,same.mem_iff.mp member,holds⟩

theorem free_cons : Free (role :: others) i ↔
    (role.info.aInfo.valid → role.info.bInfo.bssidCamIdx ≠ i) ∧ Free others i := by
  simp only [free_iff,List.mem_cons,forall_eq_or_imp]

theorem mirror_hidden (hidden : role.info.aInfo.valid = false) : Mirror n cam (role :: others) ↔ Mirror n cam others := by
  have same (i : Nat) : Free (role :: others) i ↔ Free others i := by
    rw [free_cons]
    simp [hidden]
  constructor
  · intro mirror
    refine ⟨?_,fun i valid => (same i).not.mp (mirror.backed i valid)⟩
    intro other member
    exact mirror.shown other (List.mem_cons_of_mem _ member)
  · intro mirror
    refine ⟨?_,fun i valid => (same i).not.mpr (mirror.backed i valid)⟩
    intro other member valid
    rcases List.mem_cons.mp member with rfl | member
    · rw [hidden] at valid
      cases valid
    · exact mirror.shown other member valid

theorem Mirror.leave (mirror : Mirror n cam (role :: others))
    (left : role.info.aInfo.valid → ¬ Free others role.info.bInfo.bssidCamIdx) : Mirror n cam others := by
  constructor
  · intro other member
    exact mirror.shown other (List.mem_cons_of_mem _ member)
  · intro i valid free
    apply mirror.backed i valid
    refine free_cons.mpr ⟨?_,free⟩
    rintro holder rfl
    exact left holder free

def noEntry : BssidCamEntry := ⟨false,0,fun _ => 0⟩

theorem Mirror.leaveLast (mirror : Mirror n cam (role :: others)) (last : Free others role.info.bInfo.bssidCamIdx) :
    Mirror n (update cam role.info.bInfo.bssidCamIdx noEntry) others := by
  constructor
  · intro other member valid
    have shown := mirror.shown other (List.mem_cons_of_mem _ member) valid
    have elsewhere := free_iff.mp last other member valid
    refine {shown with entry:=?_}
    rw [update_of_ne elsewhere]
    exact shown.entry
  · intro i valid free
    by_cases here : i = role.info.bInfo.bssidCamIdx
    · subst here
      simp [noEntry] at valid
    · rw [update_of_ne here] at valid
      apply mirror.backed i valid
      refine free_cons.mpr ⟨?_,free⟩
      rintro _ rfl
      exact here rfl

theorem Mirror.enter (role : RoleTbl) (mirror : Mirror n cam others) (free : Free others role.info.bInfo.bssidCamIdx)
    (valid : role.info.aInfo.valid)
    (shown : Shown n (update cam role.info.bInfo.bssidCamIdx e) role.info) :
    Mirror n (update cam role.info.bInfo.bssidCamIdx e) (role :: others) := by
  constructor
  · intro other member holder
    rcases List.mem_cons.mp member with rfl | member
    · exact shown
    · have there := mirror.shown other member holder
      have elsewhere := free_iff.mp free other member holder
      refine {there with entry:=?_}
      rw [update_of_ne elsewhere]
      exact there.entry
  · intro i marked none
    rw [free_cons] at none
    by_cases here : i = role.info.bInfo.bssidCamIdx
    · exact none.1 valid here.symm
    · rw [update_of_ne here] at marked
      exact mirror.backed i marked none.2

theorem Mirror.join (mirror : Mirror n cam others) (shown : Shown n cam role.info) : Mirror n cam (role :: others) := by
  constructor
  · intro other member holder
    rcases List.mem_cons.mp member with rfl | member
    · exact shown
    · exact mirror.shown other member holder
  · intro i marked none
    exact mirror.backed i marked (free_cons.mp none).2

structure Alike (info record : RoleInfo) : Prop where
  bssid : record.bssid = info.bssid
  band : record.band = info.band
  maskSel : record.maskSel = info.maskSel
  addrMask : record.addrMask = info.addrMask

section
variable (alike : Alike info record)
include alike

theorem Alike.cmpLen : cmpLen record = cmpLen info := by
  simp only [Role.cmpLen,alike.maskSel,alike.addrMask]

theorem Alike.joins : Joins roles record i ↔ Joins roles info i := by
  simp only [Joins,alike.cmpLen,alike.bssid,alike.band]

theorem Alike.candid : Candid hw roles record ↔ Candid hw roles info := by
  simp only [Candid,alike.cmpLen,alike.bssid,alike.band]

theorem Alike.hides : Hides hw roles record ↔ Hides hw roles info := by
  simp only [Hides,alike.joins]
end

structure Prepared (info record : RoleInfo) : Prop extends Alike info record where
  macid : record.macid = info.macid
  aMaskSel : record.aInfo.maskSel = info.maskSel
  aAddrMask : record.aInfo.addrMask = info.addrMask
  bValid : record.bInfo.valid
  bBand : record.bInfo.bbSel = info.band
  bBssid : record.bInfo.bssid = info.bssid

theorem Prepared.picked (prepared : Prepared info record) : Picked hw roles record (bssidPick hw roles record) :=
  bssidPick_picked (prepared.aMaskSel.trans prepared.maskSel.symm) (prepared.aAddrMask.trans prepared.addrMask.symm)

theorem Shown.written (shown : Shown n cam info) (valid : info.bInfo.valid) (band : info.bInfo.bbSel = info.band) :
    fillBssidCamInfo info.bInfo = cam info.bInfo.bssidCamIdx := by
  rw [shown.entry,fillBssidCamInfo,valid,band]

theorem joined_shown (mirror : Mirror hw.bssidNum cam others) (candid : Candid hw others record)
    (prepared : Prepared info record) (inside : i < hw.bssidNum) (found : macRoleSrchByBssid others i = some role)
    (bssid : memEq record.bssid role.info.bssid (cmpLen record)) (band : record.band = role.info.band) :
    Shown hw.bssidNum cam (settle ⟨role.info.aInfo.bssidCamIdx,
      if cmpLen record < 6 then some role.info.bInfo.bssid else none⟩ record) := by
  obtain ⟨member,_,valid⟩ := srchByBssid_some found
  have there := mirror.shown role member valid
  have honest : memEq role.info.bInfo.bssid role.info.bssid (cmpLen record) := candid i inside role found bssid band
  have copied : (if cmpLen record < 6 then some role.info.bInfo.bssid else none).getD record.bInfo.bssid =
      role.info.bInfo.bssid := by
    split
    · rfl
    · rename_i whole
      have own : record.bInfo.bssid = record.bssid := prepared.bBssid.trans prepared.bssid.symm
      have same : record.bssid = role.info.bssid := memEq_whole (by omega) bssid
      have shown : role.info.bInfo.bssid = role.info.bssid := memEq_whole (by omega) honest
      rw [getD_none,own,same,shown]
  constructor
  · rfl
  · simp only [settle,there.index]
    exact there.bound
  · simp only [settle,copied,band,there.index]
    exact there.entry
  · simp only [settle,copied]
    exact memEq_trans honest (memEq_symm bssid)

theorem fresh_shown (prepared : Prepared info record) (inside : i < n) :
    Shown n (update cam i (fillBssidCamInfo (settle ⟨i,none⟩ record).bInfo)) (settle ⟨i,none⟩ record) := by
  constructor
  · rfl
  · exact inside
  · simp only [settle,update_self,fillBssidCamInfo,prepared.bValid,prepared.bBand,prepared.band]
  · simp only [settle,getD_none,prepared.bBssid,prepared.bssid]
    exact memEq_refl _ _

theorem picked_room (mirror : Mirror hw.bssidNum cam roles) (picked : Picked hw roles record pick)
    (offered : ∃ j < hw.bssidNum, Joins roles record j ∨ Free roles j) : pick.idx ≠ hw.bssidNum := by
  cases picked with
  | joined inside found bssid band =>
    obtain ⟨member,_,valid⟩ := srchByBssid_some found
    have shown := mirror.shown _ member valid
    exact Nat.ne_of_lt (shown.index ▸ shown.bound)
  | fresh inside => exact Nat.ne_of_lt inside
  | full alone held =>
    obtain ⟨j,inside,joins | free⟩ := offered
    · exact absurd joins (alone j inside)
    · exact absurd free (held j inside)

theorem settle_valid (macid : Nat) (wmm : Fin 4) (mirror : Mirror hw.bssidNum cam others) (candid : Candid hw others record)
    (prepared : Prepared info record) (picked : Picked hw others record pick) (room : pick.idx ≠ hw.bssidNum)
    (valid : record.aInfo.valid) :
    Mirror hw.bssidNum (writeBssidCam cam (some (settle pick record))) (⟨macid,wmm,settle pick record⟩ :: others) := by
  cases picked with
  | joined inside found bssid band =>
    have shown := joined_shown mirror candid prepared inside found bssid band
    rw [writeBssidCam,shown.written prepared.bValid (prepared.bBand.trans (congrArg _ prepared.band.symm)),
      update_eq_self]
    exact mirror.join shown
  | fresh inside alone free first =>
    exact mirror.enter ⟨macid,wmm,settle ⟨_,none⟩ record⟩ free valid (fresh_shown prepared inside)
  | full => exact absurd rfl room

theorem settle_hidden (mirror : Mirror hw.bssidNum cam others) (candid : Candid hw others record)
    (prepared : Prepared info record) (picked : Picked hw others record pick) (room : pick.idx ≠ hw.bssidNum)
    (hides : Hides hw others record) : writeBssidCam cam (some (settle pick record)) = cam := by
  cases picked with
  | joined inside found bssid band =>
    have shown := joined_shown mirror candid prepared inside found bssid band
    rw [writeBssidCam,shown.written prepared.bValid (prepared.bBand.trans (congrArg _ prepared.band.symm)),
      update_eq_self]
  | fresh inside alone free first =>
    rcases hides with ⟨j,bounded,joins⟩ | held
    · exact absurd joins (alone j bounded)
    · exact absurd free (held _ inside)
  | full => exact absurd rfl room

theorem settle_back (macid : Nat) (wmm : Fin 4) (mirror : Mirror hw.bssidNum cam (role :: others))
    (candid : Candid hw others record)
    (prepared : Prepared info record) (picked : Picked hw others record pick) (inside : role.info.bInfo.bssidCamIdx < hw.bssidNum)
    (alone : ∀ j < hw.bssidNum, ¬ Joins others record j) (last : Free others role.info.bInfo.bssidCamIdx)
    (lower : ∀ j < role.info.bInfo.bssidCamIdx, ¬ Free others j) (valid : record.aInfo.valid) :
    pick.idx ≠ hw.bssidNum ∧
    Mirror hw.bssidNum (writeBssidCam cam (some (settle pick record))) (⟨macid,wmm,settle pick record⟩ :: others) := by
  have left := mirror.leaveLast last
  have entered (room : pick.idx ≠ hw.bssidNum) := settle_valid macid wmm left candid prepared picked room valid
  cases picked with
  | joined there found bssid band => exact absurd ⟨_,found,bssid,band⟩ (alone _ there)
  | full _ held => exact absurd last (held _ inside)
  | @fresh i there none free first =>
    have same : i = role.info.bInfo.bssidCamIdx := by
      rcases Nat.lt_trichotomy i role.info.bInfo.bssidCamIdx with below | same | above
      · exact absurd free (lower i below)
      · exact same
      · exact absurd last (first _ above)
    subst same
    have room : role.info.bInfo.bssidCamIdx ≠ hw.bssidNum := by omega
    have entered := entered room
    refine ⟨room,?_⟩
    simpa only [writeBssidCam,settle,update_idem] using entered

theorem bssidScan_srch (indices : List Nat) (found : Nat)
    (same : ∀ i ∈ indices, macRoleSrchByBssid roles' i = macRoleSrchByBssid roles i) :
    bssidScan hw roles' info len indices found = bssidScan hw roles info len indices found := by
  induction indices generalizing found with
  | nil => rfl
  | cons i rest ih =>
    have later := fun found => ih found (fun j member => same j (List.mem_cons_of_mem _ member))
    simp only [bssidScan,same i List.mem_cons_self,later]

theorem bssidPick_given (hw : HwInfo) (before after : List RoleTbl) (role : RoleTbl) :
    bssidPick hw (before ++ giveUpBssid hw role :: after) (giveUpBssid hw role).info =
      bssidPick hw (before ++ after) role.info := by
  have record : bssidPick hw (before ++ giveUpBssid hw role :: after) (giveUpBssid hw role).info =
      bssidPick hw (before ++ giveUpBssid hw role :: after) role.info := by
    apply bssidPick_congr <;> rfl
  rw [record]
  apply bssidScan_srch
  intro i inside
  apply srchByBssid_given
  have bounded := List.mem_range.mp inside
  exact Nat.ne_of_gt bounded

structure Listed (roles : List RoleTbl) (macid : Nat) (before : List RoleTbl) (role : RoleTbl) (after : List RoleTbl) :
    Prop where
  split : roles = before ++ role :: after
  named : role.macid = macid
  apart : ∀ other ∈ before, macid ≠ other.macid

theorem srch_listed (found : macRoleSrch roles macid = some role) : ∃ before after, Listed roles macid before role after := by
  obtain ⟨named,before,after,split,apart⟩ := List.find?_eq_some_iff_append.mp found
  exact ⟨before,after,split,(beq_iff_eq.mp named).symm,fun other member => by simpa using apart other member⟩

section
variable (listed : Listed roles macid before role after)
include listed

theorem Listed.found : macRoleSrch roles macid = some role := by
  apply List.find?_eq_some_iff_append.mpr
  exact ⟨by simp [listed.named],before,after,listed.split,fun other member => by simpa using listed.apart other member⟩

theorem Listed.changed (change : RoleTbl → RoleTbl) :
    updateRole macid change roles = before ++ change role :: after := by
  obtain ⟨rfl,named,apart⟩ := listed
  induction before with
  | nil => exact update_here named.symm
  | cons first rest ih =>
    rw [List.cons_append,update_later (apart first List.mem_cons_self),
      ih (fun other member => apart other (List.mem_cons_of_mem _ member)),List.cons_append]

theorem Listed.onRole (change : RoleTbl → RoleTbl)
    (named : (change role).macid = macid) :
    Listed (updateRole macid change roles) macid before (change role) after :=
  ⟨listed.changed change,named,listed.apart⟩

theorem Listed.erased :
    roles.eraseP (fun role => macid == role.macid) = before ++ after := by
  rw [listed.split,List.eraseP_append_right _ (by simpa using listed.apart)]
  simp [listed.named]
end

theorem updAddrCamChg_eq (listed : Listed a.roles macid before role after) :
    macUpdAddrCamChg .sent a macid =
      (if (bssidPick a.hw (before ++ after) role.info).idx = a.hw.bssidNum then .bssidCamFl else .success,
        {a with roles:=before ++
          {role with info:=settle (bssidPick a.hw (before ++ after) role.info) role.info} :: after}) := by
  have given := listed.onRole (giveUpBssid a.hw) listed.named
  have found := given.found
  unfold macUpdAddrCamChg
  rw [if_neg (by decide)]
  simp only [Adapter.onRole,found,findBssid_eq,given.changed]
  rw [given.split]
  simp only [bssidPick_given]
  split <;> rfl

theorem valid_chg (accepted : roleInfoValid a info .chg = .success) : info.updMode ≠ .create := by
  intro create
  rw [roleInfoValid,if_neg (by simp),if_neg (by simp),if_neg (by simp),if_pos ⟨rfl,create⟩] at accepted
  cases accepted

theorem changedRole_prepared (role : RoleTbl) (info : RoleInfo) : Prepared info (changedRole role info).info :=
  ⟨⟨rfl,rfl,rfl,rfl⟩,rfl,rfl,rfl,rfl,rfl,rfl⟩

def Rehomed (a : Adapter) (info : RoleInfo) (before : List RoleTbl) (role : RoleTbl) (after : List RoleTbl)
    (outcome : MacRet × Adapter) : Prop :=
  ∃ record table, Prepared info record ∧ record.aInfo.valid = role.info.aInfo.valid ∧
    record.aInfo.addrCamIdx = role.info.aInfo.addrCamIdx ∧
    outcome = (if (bssidPick a.hw (before ++ after) record).idx = a.hw.bssidNum then .bssidCamFl else .success,
      {a with
        roles := before ++ ⟨role.macid,role.wmm,settle (bssidPick a.hw (before ++ after) record) record⟩ :: after
        secCamTable := table})

theorem updAddrCam_rehomed (info : RoleInfo) (listed : Listed a.roles macid before role after)
    (prepared : Prepared info role.info) :
    Rehomed a info before role after (macUpdAddrCamChg .sent a macid) :=
  ⟨role.info,a.secCamTable,prepared,rfl,rfl,updAddrCamChg_eq listed⟩

theorem applyChange_rehomed (listed : Listed a.roles role.macid before role after) (prepared : Prepared info role.info)
    (create : role.info.updMode ≠ .create) (known : role.info.updMode ≠ .other) :
    Rehomed a info before role after (applyChange {} a role) := by
  have plain := updAddrCam_rehomed info listed prepared
  unfold applyChange
  cases kind : role.info.updMode with
  | create => exact absurd kind create
  | other => exact absurd kind known
  | typeChange => simpa using plain
  | remove => simpa using plain
  | infoChange => simpa using plain
  | conDisconn =>
    dsimp only
    rw [if_neg (by decide)]
    by_cases ended : role.info.opmode = .disconn
    · rw [if_pos ended]
      have clean := listed.onRole (fun role =>
        {role with info:={role.info with aInfo:={noKeys role.info.aInfo with secEntMode:=0}}}) rfl
      obtain ⟨record,table,same,valid,addr,outcome⟩ := updAddrCam_rehomed (a := secInfoDeinit a role.macid role) info
        clean ⟨{prepared with},prepared.macid,
          prepared.aMaskSel,prepared.aAddrMask,prepared.bValid,prepared.bBand,prepared.bBssid⟩
      exact ⟨record,table,same,valid,addr,outcome⟩
    · rw [if_neg ended]
      exact plain

theorem changeRole_rehomed (listed : Listed a.roles info.macid before role after)
    (accepted : roleInfoValid a info .chg = .success) (known : info.updMode ≠ .other) :
    Rehomed a info before (changedRole role info) after (macChangeRole {} a info) := by
  have stored : Listed (a.onRole info.macid (fun _ => changedRole role info)).roles (changedRole role info).macid before
      (changedRole role info) after := listed.onRole _ rfl
  unfold macChangeRole
  simp only [accepted,ne_eq,not_true,if_false,listed.found]
  exact applyChange_rehomed stored (changedRole_prepared role info) (valid_chg accepted) known

theorem changeRole_refused (refused : roleInfoValid a info .chg ≠ .success) :
    macChangeRole {} a info = (roleInfoValid a info .chg,a) := by
  unfold macChangeRole
  dsimp only
  rw [if_pos refused]

theorem changeRoleH2c_refused (refused : roleInfoValid a info .chg ≠ .success) : changeRoleH2c a info = none := by
  unfold changeRoleH2c
  simp [changeRole_refused refused,refused]

theorem changeRoleH2c_rehomed (listed : Listed a.roles info.macid before role after) (known : info.updMode ≠ .other)
    (outcome : macChangeRole {} a info = (if pick.idx = a.hw.bssidNum then .bssidCamFl else .success,
      {a with roles:=before ++ ⟨info.macid,wmm,settle pick record⟩ :: after,secCamTable:=table})) :
    changeRoleH2c a info = if pick.idx = a.hw.bssidNum then none else some (settle pick record) := by
  have found : macRoleSrch (before ++ ⟨info.macid,wmm,settle pick record⟩ :: after) info.macid =
      some ⟨info.macid,wmm,settle pick record⟩ := Listed.found ⟨rfl,rfl,listed.apart⟩
  unfold changeRoleH2c
  rw [outcome]
  by_cases full : pick.idx = a.hw.bssidNum
  · simp [full]
  · simp [full,known,found]

theorem changeRole_place (listed : Listed a.roles info.macid before role after) :
    ∃ role', role'.macid = info.macid ∧ (role.info.macid = role.macid → role'.info.macid = role'.macid) ∧
      role'.info.aInfo.valid = role.info.aInfo.valid ∧
      role'.info.aInfo.addrCamIdx = role.info.aInfo.addrCamIdx ∧
      (macChangeRole {} a info).2.roles = before ++ role' :: after := by
  by_cases accepted : roleInfoValid a info .chg = .success
  · by_cases known : info.updMode = .other
    · refine ⟨changedRole role info,rfl,fun _ => rfl,rfl,rfl,?_⟩
      have kind : (changedRole role info).info.updMode = .other := known
      unfold macChangeRole applyChange
      simp only [accepted,ne_eq,not_true,if_false,listed.found,kind]
      exact listed.changed _
    · obtain ⟨record,table,prepared,valid,addr,outcome⟩ := changeRole_rehomed listed accepted known
      exact ⟨⟨info.macid,info.wmm,settle _ record⟩,rfl,fun _ => prepared.macid,valid,addr,
        congrArg (fun outcome => outcome.2.roles) outcome⟩
  · exact ⟨role,listed.named,id,rfl,rfl,by rw [changeRole_refused accepted]; exact listed.split⟩

theorem changeRole_missing (missing : macRoleSrch a.roles info.macid = none) :
    (macChangeRole {} a info).1 ≠ .success ∧ (macChangeRole {} a info).2 = a := by
  unfold macChangeRole
  dsimp only
  split
  · rename_i refused
    exact ⟨refused,rfl⟩
  · rw [missing]
    exact ⟨nofun,rfl⟩

theorem changeRole_hidden (listed : Listed a.roles info.macid before role after) (known : info.updMode ≠ .other)
    (mirror : Mirror a.hw.bssidNum cam (before ++ after)) (candid : Candid a.hw (before ++ after) info)
    (hides : Hides a.hw (before ++ after) info) : writeBssidCam cam (changeRoleH2c a info) = cam := by
  by_cases accepted : roleInfoValid a info .chg = .success
  · obtain ⟨record,table,prepared,_,_,outcome⟩ := changeRole_rehomed listed accepted known
    rw [changeRoleH2c_rehomed listed known outcome]
    split
    · rfl
    · rename_i room
      exact settle_hidden mirror (prepared.candid.mpr candid) prepared prepared.picked room (prepared.hides.mpr hides)
  · rw [changeRoleH2c_refused accepted]
    rfl

theorem changeRole_valid (listed : Listed a.roles info.macid before role after)
    (accepted : roleInfoValid a info .chg = .success) (known : info.updMode ≠ .other)
    (valid : role.info.aInfo.valid) (mirror : Mirror a.hw.bssidNum cam (role :: (before ++ after)))
    (candid : Candid a.hw (before ++ after) info)
    (moves : Moves a.hw (before ++ after) info role.info.aInfo.bssidCamIdx) :
    Mirror a.hw.bssidNum (writeBssidCam cam (changeRoleH2c a info)) (macChangeRole {} a info).2.roles := by
  obtain ⟨record,table,prepared,marked,_,outcome⟩ := changeRole_rehomed listed accepted known
  rw [changeRoleH2c_rehomed listed known outcome,outcome]
  have marked : record.aInfo.valid := marked.trans valid
  have candid := prepared.candid.mpr candid
  have shown := mirror.shown role List.mem_cons_self valid
  rw [shown.index] at moves
  apply Mirror.perm List.perm_middle.symm
  unfold Moves at moves
  split at moves
  · rename_i last
    obtain ⟨alone,lower⟩ := moves
    have back := settle_back info.macid info.wmm mirror candid prepared prepared.picked shown.bound
      (fun j inside => prepared.joins.not.mpr (alone j inside)) last lower marked
    rw [if_neg back.1]
    exact back.2
  · rename_i held
    have left := mirror.leave (fun _ => held)
    have room : (bssidPick a.hw (before ++ after) record).idx ≠ a.hw.bssidNum := by
      apply picked_room left prepared.picked
      simpa only [prepared.joins] using moves
    rw [if_neg room]
    exact settle_valid _ _ left candid prepared prepared.picked room marked

section
variable (a : Adapter) (macid : Nat) (role : RoleTbl)

def leaving : RoleInfo := releasedBssid (a.onRole macid (fun role => {role with info:=removalInfo role})) (removalInfo role)

def cleared : Adapter :=
  (a.onRole macid (fun role => {role with info:=removalInfo role})).onRole macid
    (fun other => {other with info:=leaving a macid role})

theorem leaving_cases : leaving a macid role = removalInfo role ∨
    leaving a macid role = {removalInfo role with bInfo:={(removalInfo role).bInfo with valid:=false}} := by
  unfold leaving releasedBssid
  split
  · exact .inr rfl
  · exact .inl rfl

theorem leaving_fields :
    Alike role.info (leaving a macid role) ∧ (leaving a macid role).macid = role.info.macid ∧
    (leaving a macid role).updMode = .remove ∧ (leaving a macid role).aInfo.valid = false ∧
    (leaving a macid role).aInfo.addrCamIdx = role.info.aInfo.addrCamIdx := by
  rcases leaving_cases a macid role with same | same
  · rw [same]
    exact ⟨⟨rfl,rfl,rfl,rfl⟩,rfl,rfl,rfl,rfl⟩
  · rw [same]
    exact ⟨⟨rfl,rfl,rfl,rfl⟩,rfl,rfl,rfl,rfl⟩
end

theorem cleared_listed (listed : Listed a.roles macid before role after) (named : role.info.macid = macid) :
    Listed (cleared a macid role).roles (leaving a macid role).macid before {role with info:=leaving a macid role} after := by
  have there := (listed.onRole (fun role => {role with info:=removalInfo role}) listed.named).onRole
    (fun other => {other with info:=leaving a macid role}) listed.named
  have called : (leaving a macid role).macid = macid := (leaving_fields a macid role).2.1.trans named
  rw [called]
  exact there

theorem removeRole_eq (found : macRoleSrch a.roles macid = some role) :
    macRemoveRole {} a macid =
      let (ret,a) := macChangeRole {} (cleared a macid role) (leaving a macid role)
      if ret ≠ .success then (ret,a) else (.success,roleReturn a macid) := by
  unfold macRemoveRole
  rw [found]
  rfl

theorem removeRoleH2c_eq (found : macRoleSrch a.roles macid = some role) :
    removeRoleH2c a macid = changeRoleH2c (cleared a macid role) (leaving a macid role) := by
  unfold removeRoleH2c
  rw [found]
  rfl

theorem removeRole_place (listed : Listed a.roles macid before role after) (named : role.info.macid = macid) :
    (macRemoveRole {} a macid).2.roles = before ++ after ∨
    ∃ role', role'.info.macid = role'.macid ∧ role'.info.aInfo.valid = false ∧
      (macRemoveRole {} a macid).2.roles = before ++ role' :: after := by
  obtain ⟨_,same,_,hidden,_⟩ := leaving_fields a macid role
  have called : (leaving a macid role).macid = macid := same.trans named
  obtain ⟨role',macid',named',hidden',_,roles⟩ := changeRole_place (cleared_listed listed named)
  rw [removeRole_eq listed.found]
  dsimp only
  split
  · right
    exact ⟨role',named' (called.trans listed.named.symm),hidden'.trans hidden,roles⟩
  · left
    have left' : Listed (before ++ role' :: after) macid before role' after := ⟨rfl,macid'.trans called,listed.apart⟩
    have gone := left'.erased
    rw [← roles] at gone
    exact gone

theorem removeRole_cam (listed : Listed a.roles macid before role after) (named : role.info.macid = macid)
    (mirror : Mirror a.hw.bssidNum cam (before ++ after)) (candid : Candid a.hw (before ++ after) role.info)
    (hides : Hides a.hw (before ++ after) role.info) : writeBssidCam cam (removeRoleH2c a macid) = cam := by
  obtain ⟨alike,same,kind,hidden,_⟩ := leaving_fields a macid role
  rw [removeRoleH2c_eq listed.found]
  apply changeRole_hidden (cleared_listed listed named) (by rw [kind]; decide) mirror
  · exact alike.candid.mpr candid
  · exact alike.hides.mpr hides

def atAddrCam (i : Nat) (info : RoleInfo) : RoleInfo := {info with aInfo:={info.aInfo with addrCamIdx:=i}}

theorem updAddrCamAdd_none (none : findAvailAddrCamEntry a.hw a.roles = none) (info : RoleInfo) :
    macUpdAddrCamAdd .sent a info = (.addrCamFl,info) := by
  unfold macUpdAddrCamAdd
  rw [if_neg (by decide),none]

theorem updAddrCamAdd_some (avail : findAvailAddrCamEntry a.hw a.roles = some i) (info : RoleInfo) :
    macUpdAddrCamAdd .sent a info =
      (if (bssidPick a.hw a.roles (atAddrCam i info)).idx = a.hw.bssidNum then .bssidCamFl else .success,
        settle (bssidPick a.hw a.roles (atAddrCam i info)) (atAddrCam i info)) := by
  unfold macUpdAddrCamAdd
  rw [if_neg (by decide),avail]
  unfold atAddrCam
  dsimp only
  rw [findBssid_eq]
  split <;> rfl

theorem addRole_cases (a : Adapter) (info : RoleInfo) :
    (macAddRole {} a info).1 ≠ .success ∧ (macAddRole {} a info).2 = a ∨
    roleInfoValid a info .add = .success ∧ ∃ i record, findAvailAddrCamEntry a.hw a.roles = some i ∧
      Prepared info record ∧ record.aInfo.valid ∧ record.aInfo.addrCamIdx = i ∧
      (bssidPick a.hw a.roles record).idx ≠ a.hw.bssidNum ∧
      macAddRole {} a info = (.success,{a with pool:=a.pool - 1,roles:=a.roles ++
        [⟨info.macid,info.wmm,settle (bssidPick a.hw a.roles record) record⟩]}) := by
  unfold macAddRole
  by_cases empty : a.pool = 0
  · exact .inl (by rw [if_pos empty]; exact ⟨nofun,rfl⟩)
  rw [if_neg empty]
  dsimp only
  by_cases accepted : roleInfoValid a info .add = .success
  swap
  · exact .inl (by rw [if_pos accepted]; exact ⟨accepted,rfl⟩)
  rw [if_neg (not_not.mpr accepted)]
  by_cases long : a.hw.macidNum < a.roles.length
  · exact .inl (by rw [if_pos long]; exact ⟨nofun,rfl⟩)
  rw [if_neg long]
  cases avail : findAvailAddrCamEntry a.hw a.roles with
  | none =>
    left
    simp [updAddrCamAdd_none avail]
  | some i =>
    rw [updAddrCamAdd_some avail]
    by_cases full : (bssidPick a.hw a.roles (atAddrCam i (newRoleInfo info))).idx = a.hw.bssidNum
    · left
      simp [full]
    · right
      refine ⟨accepted,i,atAddrCam i (newRoleInfo info),rfl,?_,rfl,rfl,full,?_⟩
      · exact ⟨⟨rfl,rfl,rfl,rfl⟩,rfl,rfl,rfl,rfl,rfl,rfl⟩
      · simp [full]
        exact ⟨rfl,rfl⟩

def addrs (roles : List RoleTbl) : List Nat := (roles.filter (·.info.aInfo.valid)).map (·.info.aInfo.addrCamIdx)

structure Tidy (roles : List RoleTbl) : Prop where
  named : ∀ role ∈ roles, role.info.macid = role.macid
  apart : (addrs roles).Nodup

theorem addrs_append (roles later : List RoleTbl) : addrs (roles ++ later) = addrs roles ++ addrs later := by simp [addrs]

theorem avail_unused (avail : findAvailAddrCamEntry hw roles = some i) : i ∉ addrs roles := by
  have none := List.find?_some avail
  simp only [macRoleSrchByAddrCam,isNone_iff_eq_none,List.find?_eq_none,Bool.and_eq_true,beq_iff_eq,
    not_and] at none
  simp only [addrs,List.mem_map,List.mem_filter]
  rintro ⟨role,⟨member,valid⟩,same⟩
  exact none role member same.symm valid

theorem addRole_tidy (tidy : Tidy a.roles) (info : RoleInfo) : Tidy (macAddRole {} a info).2.roles := by
  rcases addRole_cases a info with ⟨_,same⟩ | ⟨_,i,record,avail,prepared,valid,addr,_,outcome⟩
  · rw [same]
    exact tidy
  · rw [outcome]
    constructor
    · intro role member
      rcases List.mem_append.mp member with member | member
      · exact tidy.named role member
      · cases List.mem_singleton.mp member
        exact prepared.macid
    · have own : addrs [⟨info.macid,info.wmm,settle (bssidPick a.hw a.roles record) record⟩] = [i] := by
        simp [addrs,settle,valid,addr]
      rw [addrs_append,own,List.nodup_append]
      refine ⟨tidy.apart,List.nodup_singleton i,?_⟩
      rintro one member two here rfl
      rw [List.mem_singleton.mp here] at member
      exact avail_unused avail member

section
variable (tidy : Tidy (before ++ role :: after))
include tidy

theorem Tidy.replace (named : role'.info.macid = role'.macid)
    (valid : role'.info.aInfo.valid = role.info.aInfo.valid)
    (addr : role'.info.aInfo.addrCamIdx = role.info.aInfo.addrCamIdx) : Tidy (before ++ role' :: after) := by
  constructor
  · intro other member
    rcases List.mem_append.mp member with member | member
    · exact tidy.named other (by simp [member])
    · rcases List.mem_cons.mp member with rfl | member
      · exact named
      · exact tidy.named other (by simp [member])
  · have same : addrs (role' :: after) = addrs (role :: after) := by
      simp only [addrs,List.filter_cons,valid]
      split
      · rw [List.map_cons,List.map_cons,addr]
      · rfl
    rw [addrs_append,same,← addrs_append]
    exact tidy.apart

theorem Tidy.drop : Tidy (before ++ after) := by
  have part : (before ++ after).Sublist (before ++ role :: after) := (List.sublist_cons_self role after).append_left before
  constructor
  · intro other member
    exact tidy.named other (part.subset member)
  · exact tidy.apart.sublist ((part.filter _).map _)

theorem Tidy.hide (named : role'.info.macid = role'.macid)
    (hidden : role'.info.aInfo.valid = false) : Tidy (before ++ role' :: after) := by
  have left := tidy.drop
  constructor
  · intro other member
    rcases List.mem_append.mp member with member | member
    · exact left.named other (by simp [member])
    · rcases List.mem_cons.mp member with rfl | member
      · exact named
      · exact left.named other (by simp [member])
  · have same : addrs (role' :: after) = addrs after := by simp [addrs,hidden]
    rw [addrs_append,same,← addrs_append]
    exact left.apart
end

theorem changeRole_tidy (tidy : Tidy a.roles) (info : RoleInfo) : Tidy (macChangeRole {} a info).2.roles := by
  cases found : macRoleSrch a.roles info.macid with
  | none =>
    rw [(changeRole_missing found).2]
    exact tidy
  | some role =>
    obtain ⟨before,after,listed⟩ := srch_listed found
    obtain ⟨role',_,named,valid,addr,roles⟩ := changeRole_place listed
    rw [listed.split] at tidy
    rw [roles]
    exact tidy.replace (named (tidy.named role (by simp))) valid addr

theorem removeRole_tidy (tidy : Tidy a.roles) (macid : Nat) : Tidy (macRemoveRole {} a macid).2.roles := by
  cases found : macRoleSrch a.roles macid with
  | none =>
    unfold macRemoveRole
    rw [found]
    exact tidy
  | some role =>
    obtain ⟨before,after,listed⟩ := srch_listed found
    rw [listed.split] at tidy
    have named := (tidy.named role (by simp)).trans listed.named
    rcases removeRole_place listed named with roles | ⟨role',named',hidden,roles⟩
    · rw [roles]
      exact tidy.drop
    · rw [roles]
      exact tidy.hide named' hidden

theorem nicStep_tidy (tidy : Tidy nic.adapter.roles) (event : RoleEvent) : Tidy (nicStep nic event).adapter.roles := by
  cases event with
  | addRole info => exact addRole_tidy tidy info
  | changeRole info => exact changeRole_tidy tidy info
  | removeRole macid => exact removeRole_tidy tidy macid

theorem addRoleH2c_refused (refused : (macAddRole {} a info).1 ≠ .success) : addRoleH2c a info = none := by
  unfold addRoleH2c
  exact if_neg refused

theorem addRole_mirror (mirror : Mirror a.hw.bssidNum cam a.roles) (info : RoleInfo)
    (candid : roleInfoValid a info .add = .success → Candid a.hw a.roles info) :
    Mirror a.hw.bssidNum (writeBssidCam cam (addRoleH2c a info)) (macAddRole {} a info).2.roles := by
  rcases addRole_cases a info with ⟨refused,same⟩ | ⟨accepted,i,record,_,prepared,valid,_,room,outcome⟩
  · rw [addRoleH2c_refused refused,same]
    exact mirror
  · have sent : addRoleH2c a info = some (settle (bssidPick a.hw a.roles record) record) := by
      unfold addRoleH2c
      rw [outcome]
      simp
    rw [sent,outcome]
    apply Mirror.perm (List.perm_append_singleton _ _).symm
    exact settle_valid _ _ mirror (prepared.candid.mpr (candid accepted)) prepared prepared.picked room valid

theorem changeRole_mirror (mirror : Mirror a.hw.bssidNum cam a.roles) (info : RoleInfo)
    (allowed : RoleGuard ⟨a,cam⟩ (.changeRole info)) :
    Mirror a.hw.bssidNum (writeBssidCam cam (changeRoleH2c a info)) (macChangeRole {} a info).2.roles := by
  by_cases accepted : roleInfoValid a info .chg = .success
  swap
  · rw [changeRoleH2c_refused accepted,changeRole_refused accepted]
    exact mirror
  obtain ⟨known,moves⟩ := allowed accepted
  cases found : macRoleSrch a.roles info.macid with
  | none =>
    have missing := changeRole_missing found
    have unsent : changeRoleH2c a info = none := if_neg (fun sent => missing.1 sent.1)
    rw [unsent,missing.2]
    exact mirror
  | some role =>
    obtain ⟨before,after,listed⟩ := srch_listed found
    obtain ⟨candid,moves⟩ := moves role found
    rw [Adapter.others,listed.erased] at candid moves
    have front : Mirror a.hw.bssidNum cam (role :: (before ++ after)) := mirror.perm (listed.split ▸ List.perm_middle)
    cases valid : role.info.aInfo.valid with
    | true =>
      rw [if_pos valid] at moves
      exact changeRole_valid listed accepted known valid front candid moves
    | false =>
      rw [if_neg (by simp [valid])] at moves
      have left := (mirror_hidden valid).mp front
      obtain ⟨role',_,_,hidden,_,roles⟩ := changeRole_place listed
      rw [changeRole_hidden listed known left candid moves,roles]
      apply Mirror.perm List.perm_middle.symm
      exact (mirror_hidden (hidden.trans valid)).mpr left

theorem addRole_hw (a : Adapter) (info : RoleInfo) : (macAddRole {} a info).2.hw = a.hw := by
  rcases addRole_cases a info with ⟨_,same⟩ | ⟨_,_,_,_,_,_,_,_,outcome⟩
  · rw [same]
  · rw [outcome]

theorem changeRole_hw (a : Adapter) (info : RoleInfo) : (macChangeRole {} a info).2.hw = a.hw := by
  cases found : macRoleSrch a.roles info.macid with
  | none => rw [(changeRole_missing found).2]
  | some role =>
    obtain ⟨before,after,listed⟩ := srch_listed found
    by_cases accepted : roleInfoValid a info .chg = .success
    · by_cases known : info.updMode = .other
      · have kind : (changedRole role info).info.updMode = .other := known
        unfold macChangeRole applyChange
        simp only [accepted,ne_eq,not_true,if_false,found,kind]
        rfl
      · obtain ⟨_,_,_,_,_,outcome⟩ := changeRole_rehomed listed accepted known
        rw [outcome]
    · rw [changeRole_refused accepted]

theorem removeRole_hw (a : Adapter) (macid : Nat) : (macRemoveRole {} a macid).2.hw = a.hw := by
  cases found : macRoleSrch a.roles macid with
  | none =>
    unfold macRemoveRole
    rw [found]
  | some role =>
    rw [removeRole_eq found]
    dsimp only
    split
    · exact changeRole_hw (cleared a macid role) (leaving a macid role)
    · exact changeRole_hw (cleared a macid role) (leaving a macid role)

theorem nicStep_hw (nic : Nic) (event : RoleEvent) : (nicStep nic event).adapter.hw = nic.adapter.hw := by
  cases event with
  | addRole info => exact addRole_hw nic.adapter info
  | changeRole info => exact changeRole_hw nic.adapter info
  | removeRole macid => exact removeRole_hw nic.adapter macid

theorem removeRole_mirror (mirror : Mirror a.hw.bssidNum cam a.roles) (tidy : Tidy a.roles) (macid : Nat)
    (allowed : RoleGuard ⟨a,cam⟩ (.removeRole macid)) :
    Mirror a.hw.bssidNum (writeBssidCam cam (removeRoleH2c a macid)) (macRemoveRole {} a macid).2.roles := by
  cases found : macRoleSrch a.roles macid with
  | none =>
    unfold macRemoveRole removeRoleH2c
    rw [found]
    exact mirror
  | some role =>
    obtain ⟨before,after,listed⟩ := srch_listed found
    obtain ⟨candid,held,hides⟩ := allowed role found
    rw [Adapter.others,listed.erased] at candid held hides
    have member : role ∈ a.roles := by rw [listed.split]; simp
    have named := (tidy.named role member).trans listed.named
    have front : Mirror a.hw.bssidNum cam (role :: (before ++ after)) := mirror.perm (listed.split ▸ List.perm_middle)
    have left : Mirror a.hw.bssidNum cam (before ++ after) := by
      apply front.leave
      intro valid
      have shown := front.shown role List.mem_cons_self valid
      exact shown.index ▸ held valid
    rw [removeRole_cam listed named left candid hides]
    rcases removeRole_place listed named with roles | ⟨role',_,hidden,roles⟩
    · rw [roles]
      exact left
    · rw [roles]
      apply Mirror.perm List.perm_middle.symm
      exact (mirror_hidden hidden).mpr left

theorem nicStep_mirror (mirror : Mirror nic.adapter.hw.bssidNum nic.bssidCam nic.adapter.roles)
    (tidy : Tidy nic.adapter.roles) (allowed : RoleGuard nic event) :
    Mirror (nicStep nic event).adapter.hw.bssidNum (nicStep nic event).bssidCam (nicStep nic event).adapter.roles := by
  rw [nicStep_hw]
  cases event with
  | addRole info => exact addRole_mirror mirror info allowed
  | changeRole info => exact changeRole_mirror mirror info allowed
  | removeRole macid => exact removeRole_mirror mirror tidy macid allowed

theorem Mirror.mirrors (mirror : Mirror nic.adapter.hw.bssidNum nic.bssidCam nic.adapter.roles)
    (tidy : Tidy nic.adapter.roles) : MirrorsRoles nic := by
  constructor
  · intro i
    constructor
    · intro valid
      obtain ⟨role,member,holder,same⟩ := not_free_iff.mp (mirror.backed i valid)
      exact ⟨role,member,holder,(mirror.shown role member holder).index.trans same⟩
    · rintro ⟨role,member,holder,rfl⟩
      have shown := mirror.shown role member holder
      rw [shown.index,shown.entry]
  · intro role member holder
    have shown := mirror.shown role member holder
    rw [shown.index,shown.entry]
    exact ⟨rfl,shown.named⟩
  · intro role member other there holder holds whole full same
    have one := mirror.shown role member holder
    have two := mirror.shown other there holds
    have entry := one.entry
    rw [← one.index,same,two.index,two.entry] at entry
    have own := memEq_whole whole one.named
    have its := memEq_whole full two.named
    simp only [BssidCamEntry.mk.injEq,true_and] at entry
    exact ⟨own.symm.trans (entry.2.symm.trans its),Fin.ext entry.1.symm⟩
  · exact tidy.apart

theorem init_tidy (hw : HwInfo) : Tidy (Nic.init hw).adapter.roles := by
  constructor
  · intro role member
    cases member
  · exact List.nodup_nil

theorem init_mirror (hw : HwInfo) :
    Mirror (Nic.init hw).adapter.hw.bssidNum (Nic.init hw).bssidCam (Nic.init hw).adapter.roles := by
  constructor
  · intro role member
    cases member
  · intro i valid
    cases valid

theorem mirror_reached (hw : HwInfo) (path : Reached nicStep RoleGuard (.init hw) nic) :
    Mirror nic.adapter.hw.bssidNum nic.bssidCam nic.adapter.roles ∧ Tidy nic.adapter.roles := by
  apply path.invariant (fun nic => Mirror nic.adapter.hw.bssidNum nic.bssidCam nic.adapter.roles ∧ Tidy nic.adapter.roles)
    ⟨init_mirror hw,init_tidy hw⟩
  intro nic event valid allowed
  exact ⟨nicStep_mirror valid.1 valid.2 allowed,nicStep_tidy valid.2 event⟩

theorem bssid_cam_mirrors (hw : HwInfo) (path : Reached nicStep RoleGuard (.init hw) nic) : MirrorsRoles nic := by
  obtain ⟨mirror,tidy⟩ := mirror_reached hw path
  exact mirror.mirrors tidy

def bss (macid : Nat) (byte : UInt8) (updMode : UpdMode) : RoleInfo :=
  {station macid updMode .disconn with bssid:=fun _ => byte}

def maskedBss : RoleInfo :=
  {bss 4 0x22 .create with maskSel:=.bssidMsk,addrMask:=3,bssid:=fun k => if k < 2 then 0x22 else 0x44}

def roaming : List RoleEvent :=
  [.addRole (bss 1 0x22 .create),.addRole (bss 2 0x22 .create),.addRole maskedBss,.changeRole (bss 2 0x66 .conDisconn),
    .changeRole (bss 2 0x66 .infoChange),.addRole (bss 3 0x66 .create),.removeRole 3]

theorem bssid_cam_mirrors_roaming :
    let nic := run nicStep (.init nicHw) roaming
    Admitted nicStep RoleGuard (.init nicHw) roaming ∧
    nic.adapter.roles.map (fun role => (role.macid,role.info.aInfo.bssidCamIdx)) = [(1,0),(2,1),(4,0)] ∧
    MirrorsRoles nic := by
  have admitted : Admitted nicStep RoleGuard (.init nicHw) roaming := by decide +kernel
  exact ⟨admitted,by decide +kernel,bssid_cam_mirrors nicHw (Reached.start.run admitted)⟩

def removedAlone : List RoleEvent := [.addRole (bss 1 0x22 .create),.removeRole 1]

theorem bssid_cam_stale :
    (run nicStep (.init nicHw) removedAlone).adapter.roles.length = 0 ∧
    ((run nicStep (.init nicHw) removedAlone).bssidCam 0).valid = true ∧
    ¬ ∀ events, MirrorsRoles (run nicStep (.init nicHw) events) := by
  have left : (run nicStep (.init nicHw) removedAlone).adapter.roles.length = 0 := by decide +kernel
  have stale : ((run nicStep (.init nicHw) removedAlone).bssidCam 0).valid := by decide +kernel
  refine ⟨left,stale,?_⟩
  intro all
  obtain ⟨role,member,_⟩ := ((all removedAlone).valid 0).mp stale
  rw [List.length_eq_zero_iff.mp left] at member
  cases member
end Rtl8852au.Role
