import Rtl8852au.BssidCamMirror
import Rtl8852au.SecurityCamSlots

namespace Rtl8852au.Role
open Machine List Option Adapter

structure InfoRest (ρ : Type) where
  port : Nat
  bssColor : Nat
  bcnHitCond : Nat
  hitRule : Nat
  tsfSync : Nat
  trigger : Bool
  lsigTxop : Bool
  tgtInd : Nat
  frmTgtInd : Nat
  wolPattern : Bool
  wolUc : Bool
  wolMagic : Bool
  wapi : Bool
  aid : Nat
  unread : ρ

structure AddrRest where
  offset : Nat
  len : Nat
  netType : NetType
  bcnHitCond : Nat
  hitRule : Nat
  bbSel : Nat
  isMulEnt : Bool
  sma : MacAddr
  tma : MacAddr
  macid : Nat
  portInt : Nat
  tsfSync : Nat
  tfTrs : Bool
  lsigTxop : Bool
  tgtInd : Nat
  frmTgtInd : Nat
  aid12 : Nat
  wolPattern : Bool
  wolUc : Bool
  wolMagic : Bool
  wapi : Bool

structure BssidRest where
  offset : Nat
  len : Nat
  bssColor : Nat

structure StoredRest (ρ : Type) where
  info : InfoRest ρ
  aInfo : AddrRest
  bInfo : BssidRest

def bssidCamEntSize : Nat := 0x08

def restInit (addrCamSize : Nat) (info : RoleInfo) (rest : InfoRest ρ) : StoredRest ρ :=
  ⟨rest,
    {offset := 0,len := addrCamSize,netType := info.netType,bcnHitCond := rest.bcnHitCond,hitRule := rest.hitRule
     bbSel := info.band,isMulEnt := info.isMulEnt,sma := info.selfMac,tma := info.targetMac,macid := info.macid
     portInt := rest.port,tsfSync := rest.tsfSync,tfTrs := rest.trigger,lsigTxop := rest.lsigTxop
     tgtInd := rest.tgtInd,frmTgtInd := rest.frmTgtInd,aid12 := rest.aid &&& 0xfff,wolPattern := rest.wolPattern
     wolUc := rest.wolUc,wolMagic := rest.wolMagic,wapi := rest.wapi},
    ⟨0,bssidCamEntSize,rest.bssColor⟩⟩

structure FullTable (ρ : Type) where
  adapter : Adapter
  addrCamSize : Nat
  rest : Nat → StoredRest ρ

abbrev Record (ρ : Type) := RoleTbl × StoredRest ρ

def FullTable.stored (t : FullTable ρ) (macid : Nat) : Option (Record ρ) :=
  (macRoleSrch t.adapter.roles macid).map (·,t.rest macid)

section
variable (t : FullTable ρ) (h2c : H2c)

def FullTable.changeRole (info : RoleInfo) (rest : InfoRest ρ) : MacRet × FullTable ρ :=
  let (ret,a) := macChangeRole h2c t.adapter info
  if roleInfoValid t.adapter info .chg ≠ .success then (ret,{t with adapter:=a})
  else (ret,{t with adapter:=a,rest:=Function.update t.rest info.macid (restInit t.addrCamSize info rest)})

def updSends (tx : AddrCamTx) (a : Adapter) (macid : Nat) : Option RoleTbl :=
  let (ret,a) := macUpdAddrCamChg tx a macid
  if tx = .sent ∧ ret = .success then macRoleSrch a.roles macid else none

def applySends (h2c : H2c) (a : Adapter) (role : RoleTbl) : Option RoleTbl :=
  match role.info.updMode with
  | .typeChange =>
    if h2c.roleMaintain = .fail then none
    else if role.info.selfRole = .ap ∧ h2c.joinInfo = .fail then none
    else updSends h2c.addrCam a role.macid
  | .remove => if h2c.roleMaintain = .fail then none else updSends h2c.addrCam a role.macid
  | .conDisconn =>
    let a := if role.info.opmode = .disconn then secInfoDeinit a role.macid role else a
    if h2c.joinInfo = .fail then none else updSends h2c.addrCam a role.macid
  | .infoChange => if h2c.joinInfo = .fail then none else updSends h2c.addrCam a role.macid
  | .create | .other => none

def FullTable.changeSends (info : RoleInfo) (rest : InfoRest ρ) : Option (Record ρ) :=
  if roleInfoValid t.adapter info .chg ≠ .success then none
  else
    match macRoleSrch t.adapter.roles info.macid with
    | none => none
    | some role =>
      (applySends h2c (t.adapter.onRole info.macid (fun _ => changedRole role info)) (changedRole role info)).map
        (·,restInit t.addrCamSize info rest)

def sevenSlots (aInfo : AddrCamInfo) : AddrCamInfo :=
  {aInfo with
    secEntKeyid := fun i => if i < 7 then aInfo.secEntKeyid i else 0
    secEntValid := fun i => decide (i < 7) && aInfo.secEntValid i
    secEnt := fun i => if i < 7 then aInfo.secEnt i else 0}

def seen (record : Record ρ) : Record ρ :=
  ({record.1 with info:={record.1.info with aInfo:=sevenSlots record.1.info.aInfo}},record.2)

structure ShowsInfo (t : FullTable ρ) (info : RoleInfo) (rest : InfoRest ρ) (record : Record ρ) : Prop where
  given : record.1.info = {info with aInfo:=record.1.info.aInfo,bInfo:=record.1.info.bInfo}
  mask : record.1.info.aInfo.maskSel = info.maskSel ∧ record.1.info.aInfo.addrMask = info.addrMask
  band : record.1.info.bInfo.valid ∧ record.1.info.bInfo.bbSel = info.band
  entry : record.1.info.aInfo.bssidCamIdx = record.1.info.bInfo.bssidCamIdx ∧
    record.1.info.bInfo.bssidCamIdx ≠ t.adapter.hw.bssidNum
  bssid : record.1.info.bInfo.bssid = info.bssid ∨ cmpLen info < 6 ∧
    ∃ other ∈ t.adapter.roles, memEq info.bssid other.info.bssid (cmpLen info) ∧ other.info.aInfo.valid ∧
      record.1.info.bInfo.bssidCamIdx = other.info.aInfo.bssidCamIdx ∧ record.1.info.bInfo.bssid = other.info.bInfo.bssid
  rest : record.2 = restInit t.addrCamSize info rest

-- A change that fails leaves the record of its role alone; one that succeeds
-- has sent it to the address CAM with the new info.
def ChangesWhole (info : RoleInfo) (rest : InfoRest ρ) : Prop :=
  ((t.changeRole h2c info rest).1 ≠ .success →
    ((t.changeRole h2c info rest).2.stored info.macid).map seen = (t.stored info.macid).map seen) ∧
  ((t.changeRole h2c info rest).1 = .success → ∃ record, t.changeSends h2c info rest = some record ∧
    (t.changeRole h2c info rest).2.stored info.macid = some record ∧ ShowsInfo t info rest record)

def stepFails (h2c : H2c) (info : RoleInfo) : Bool :=
  match info.updMode with
  | .typeChange => h2c.roleMaintain == .fail || (info.selfRole == .ap && h2c.joinInfo == .fail)
  | .remove => h2c.roleMaintain == .fail
  | .conDisconn | .infoChange => h2c.joinInfo == .fail
  | .create | .other => false

def renewed (role : RoleTbl) (info : RoleInfo) : RoleTbl :=
  let role := changedRole role info
  if info.updMode = .conDisconn ∧ info.opmode = .disconn then
    {role with info:={role.info with aInfo:={noKeys role.info.aInfo with secEntMode:=0}}}
  else role

section
variable (a : Adapter) (role : RoleTbl)

def givenUp : List RoleTbl := updateRole role.macid (fun _ => giveUpBssid a.hw role) a.roles

def rePick : BssidPick := bssidPick a.hw (givenUp a role) role.info

def rehome : RoleTbl := {role with info:=settle (rePick a role) role.info}
end

-- The info is refused; or every step succeeds; or one fails, and what is stored
-- by then is what was stored before.
def ChangeHarmless (info : RoleInfo) (rest : InfoRest ρ) : Prop :=
  roleInfoValid t.adapter info .chg ≠ .success ∨
    ∃ role, macRoleSrch t.adapter.roles info.macid = some role ∧ info.updMode ≠ .other ∧
      if stepFails h2c info ∨ h2c.addrCam = .noBuffer then
        seen (renewed role info,restInit t.addrCamSize info rest) = seen (role,t.rest info.macid)
      else (h2c.addrCam = .sent ∧ (rePick t.adapter (renewed role info)).idx ≠ t.adapter.hw.bssidNum) ∨
        seen (rehome t.adapter (renewed role info),restInit t.addrCamSize info rest) = seen (role,t.rest info.macid)
end

theorem updAddrCam_eq (found : macRoleSrch a.roles macid = some role) (heard : tx ≠ .noBuffer) : macUpdAddrCamChg tx a macid =
      (if (rePick a role).idx = a.hw.bssidNum then .bssidCamFl else addrCamRet tx,a.onRole macid fun _ => rehome a role) := by
  have isNamed := (srch_split found).1
  have given : macRoleSrch (a.onRole macid (giveUpBssid a.hw)).roles macid = some (giveUpBssid a.hw role) :=
    srch_update _ found isNamed
  have others : (a.onRole macid (giveUpBssid a.hw)).roles = givenUp a role := by
    rw [onRole_found found,givenUp,isNamed]
    rfl
  have picked : bssidPick a.hw (givenUp a role) (giveUpBssid a.hw role).info = rePick a role := by apply bssidPick_congr <;> rfl
  have settled : settle (rePick a role) (giveUpBssid a.hw role).info = settle (rePick a role) role.info := rfl
  unfold macUpdAddrCamChg
  rw [if_neg heard]
  dsimp only
  rw [given]
  dsimp only
  rw [findBssid_eq,others,picked,settled,onRole_found given]
  have written : (a.onRole macid (giveUpBssid a.hw)).onRole macid
      (fun _ => {giveUpBssid a.hw role with info:=settle (rePick a role) role.info}) =
      a.onRole macid fun _ => rehome a role := by
    have named (other : RoleTbl) : (giveUpBssid a.hw other).macid = other.macid := rfl
    unfold onRole
    dsimp only
    rw [update_update named]
    rfl
  rw [written]
  by_cases full : (rePick a role).idx = a.hw.bssidNum
  · simp [full]
  · simp [full]

theorem onRole_onRole {a : Adapter} (found : macRoleSrch a.roles macid = some role) (isNamed : new.macid = macid)
    (change : RoleTbl → RoleTbl) :
    (a.onRole macid fun _ => new).onRole macid change = a.onRole macid fun _ => change new := by
  let one := fun other : RoleTbl => if other.macid = macid then new else other
  have named (other : RoleTbl) : (one other).macid = other.macid := by
    by_cases mine : other.macid = macid
    · simp [one,mine,isNamed]
    · simp [one,mine]
  have here : one role = new := if_pos (srch_split found).1
  have asOne : (a.onRole macid fun _ => new) = a.onRole macid one := by rw [onRole_found found one,here]
  rw [asOne,← here,← onRole_found found fun other => change (one other)]
  unfold onRole
  dsimp only
  rw [update_update named]

theorem renewed_macid (role : RoleTbl) (info : RoleInfo) : (renewed role info).macid = info.macid := by
  unfold renewed changedRole
  dsimp only
  split <;> rfl

def renew (a : Adapter) (role : RoleTbl) (info : RoleInfo) : Adapter :=
  {a.onRole info.macid fun _ => renewed role info with
    secCamTable := if info.updMode = .conDisconn ∧ info.opmode = .disconn then
      disconnectFlushKey a.secCamTable (changedRole role info) else a.secCamTable}

theorem renew_found (found : macRoleSrch a.roles info.macid = some role) :
    macRoleSrch (renew a role info).roles info.macid = some (renewed role info) :=
  srch_update _ found (renewed_macid role info)

theorem secInfoDeinit_renew {a : Adapter} (found : macRoleSrch a.roles info.macid = some role)
    (ends : info.updMode = .conDisconn ∧ info.opmode = .disconn) :
    secInfoDeinit (a.onRole info.macid fun _ => changedRole role info) info.macid (changedRole role info) =
      renew a role info := by
  unfold secInfoDeinit renew renewed
  rw [onRole_onRole found rfl]
  simp only [if_pos ends]
  rfl

theorem renew_stored (ends : ¬(info.updMode = .conDisconn ∧ info.opmode = .disconn)) (a : Adapter) (role : RoleTbl) :
    (a.onRole info.macid fun _ => changedRole role info) = renew a role info := by
  unfold renew renewed
  simp only [if_neg ends]
  rfl

theorem changeRole_known (h2c : H2c) (accepted : roleInfoValid a info .chg = .success)
    (found : macRoleSrch a.roles info.macid = some role) (known : info.updMode ≠ .other) : macChangeRole h2c a info =
        (if stepFails h2c info then (.h2c,renew a role info) else macUpdAddrCamChg h2c.addrCam (renew a role info) info.macid) ∧
      applySends h2c (a.onRole info.macid fun _ => changedRole role info) (changedRole role info) =
        if stepFails h2c info then none else updSends h2c.addrCam (renew a role info) info.macid := by
  have create := valid_chg accepted
  have mode : (changedRole role info).info.updMode = info.updMode := rfl
  have named : (changedRole role info).macid = info.macid := rfl
  have opmode : (changedRole role info).info.opmode = info.opmode := rfl
  have selfRole : (changedRole role info).info.selfRole = info.selfRole := rfl
  unfold macChangeRole applySends applyChange stepFails
  simp only [accepted,found,ne_eq,not_true,if_false,mode,named,opmode,selfRole]
  cases kind : info.updMode with
  | create => exact absurd kind create
  | other => exact absurd kind known
  | typeChange =>
    rw [renew_stored (by simp [kind])]
    by_cases maintain : h2c.roleMaintain = .fail
    · simp [maintain]
    · simp [maintain]
  | remove =>
    rw [renew_stored (by simp [kind])]
    simp
  | infoChange =>
    rw [renew_stored (by simp [kind])]
    simp
  | conDisconn =>
    by_cases ended : info.opmode = .disconn
    · simp [ended,secInfoDeinit_renew found ⟨kind,ended⟩]
    · simp [ended,
        renew_stored (fun both : info.updMode = .conDisconn ∧ info.opmode = .disconn => ended both.2)]

theorem givenUp_renew {a : Adapter} (found : macRoleSrch a.roles info.macid = some role) :
    givenUp (renew a role info) (renewed role info) = givenUp a (renewed role info) := by
  have isNamed := renewed_macid role info
  have twice := onRole_onRole found isNamed fun _ => giveUpBssid a.hw (renewed role info)
  unfold givenUp
  rw [isNamed]
  exact congrArg roles twice

theorem rehome_renew (found : macRoleSrch a.roles info.macid = some role) :
    rePick (renew a role info) (renewed role info) = rePick a (renewed role info) ∧
      rehome (renew a role info) (renewed role info) = rehome a (renewed role info) := by
  have picked : rePick (renew a role info) (renewed role info) = rePick a (renewed role info) := by
    unfold rePick
    rw [givenUp_renew found]
    rfl
  exact ⟨picked,by rw [rehome,rehome,picked]⟩

section
variable (accepted : roleInfoValid a info .chg = .success) (found : macRoleSrch a.roles info.macid = some role) (known : info.updMode ≠ .other)
include accepted found known

theorem changeRole_early
    (early : stepFails h2c info ∨ h2c.addrCam = .noBuffer) : (macChangeRole h2c a info).1 ≠ .success ∧
      macRoleSrch (macChangeRole h2c a info).2.roles info.macid = some (renewed role info) := by
  rw [(changeRole_known h2c accepted found known).1]
  by_cases fails : stepFails h2c info
  · rw [if_pos fails]
    exact ⟨by simp,renew_found found⟩
  · have noBuffer := early.resolve_left fails
    rw [if_neg fails,noBuffer]
    exact ⟨by simp [macUpdAddrCamChg,addrCamRet],renew_found found⟩

theorem changeRole_late
    (late : ¬(stepFails h2c info ∨ h2c.addrCam = .noBuffer)) : ((macChangeRole h2c a info).1 = .success ↔
        h2c.addrCam = .sent ∧ (rePick a (renewed role info)).idx ≠ a.hw.bssidNum) ∧
      macRoleSrch (macChangeRole h2c a info).2.roles info.macid = some (rehome a (renewed role info)) ∧
      ((macChangeRole h2c a info).1 = .success →
        applySends h2c (a.onRole info.macid fun _ => changedRole role info) (changedRole role info) =
          some (rehome a (renewed role info))) := by
  obtain ⟨outcome,sends⟩ := changeRole_known h2c accepted found known
  obtain ⟨passes,heard⟩ := not_or.mp late
  obtain ⟨picked,rehomed⟩ := rehome_renew found
  have updated := updAddrCam_eq (renew_found found) heard
  rw [picked,rehomed] at updated
  have there : macRoleSrch ((renew a role info).onRole info.macid fun _ => rehome a (renewed role info)).roles info.macid =
      some (rehome a (renewed role info)) := srch_update _ (renew_found found) (renewed_macid role info)
  rw [outcome,if_neg passes,updated]
  have success : (if (rePick a (renewed role info)).idx = (renew a role info).hw.bssidNum then MacRet.bssidCamFl
      else addrCamRet h2c.addrCam) = .success ↔
      h2c.addrCam = .sent ∧ (rePick a (renewed role info)).idx ≠ a.hw.bssidNum := by
    have room : (renew a role info).hw = a.hw := rfl
    rw [room]
    by_cases full : (rePick a (renewed role info)).idx = a.hw.bssidNum
    · simp [full]
    · cases sent : h2c.addrCam <;> simp [full,addrCamRet]
  refine ⟨success,there,fun done => ?_⟩
  rw [sends,if_neg passes,updSends,updated]
  exact (if_pos ⟨(success.mp done).1,done⟩).trans there
end

theorem givenUp_other (found : macRoleSrch a.roles role.macid = some old)
    (there : macRoleSrchByBssid (givenUp a role) i = some other) (inside : i < a.hw.bssidNum) :
    other ∈ a.roles ∧ other.info.aInfo.valid := by
  obtain ⟨member,entry,valid⟩ := srchByBssid_some there
  obtain ⟨_,before,after,split,updated,_⟩ := srch_split found
  rw [givenUp,updated,mem_append,mem_cons] at member
  rw [split]
  rcases member with early | rfl | later
  · exact ⟨mem_append_left _ early,valid⟩
  · have out : a.hw.bssidNum = i := entry
    omega
  · exact ⟨mem_append_right _ (mem_cons_of_mem _ later),valid⟩

theorem rehome_shows (rest : InfoRest ρ) (found : macRoleSrch t.adapter.roles info.macid = some role)
    (room : (rePick t.adapter (renewed role info)).idx ≠ t.adapter.hw.bssidNum) :
    ShowsInfo t info rest (rehome t.adapter (renewed role info),restInit t.addrCamSize info rest) := by
  have given : ∀ info', info' = (renewed role info).info →
      info' = {info with aInfo:=info'.aInfo,bInfo:=info'.bInfo} ∧ info'.aInfo.maskSel = info.maskSel ∧
      info'.aInfo.addrMask = info.addrMask ∧ info'.bInfo.valid ∧ info'.bInfo.bbSel = info.band ∧
      info'.bInfo.bssid = info.bssid := by
    rintro _ rfl
    unfold renewed
    dsimp only
    split <;> exact ⟨rfl,rfl,rfl,rfl,rfl,rfl⟩
  obtain ⟨whole,maskSel,addrMask,valid,band,bssid⟩ := given _ rfl
  have length : cmpLen (renewed role info).info = cmpLen info := by rw [whole]; rfl
  have own : (renewed role info).info.bssid = info.bssid := by rw [whole]
  have picked : Picked t.adapter.hw (givenUp t.adapter (renewed role info)) (renewed role info).info
      (rePick t.adapter (renewed role info)) := by
    apply bssidPick_picked
    · rw [maskSel,whole]
    · rw [addrMask,whole]
  refine ⟨?_,⟨maskSel,addrMask⟩,⟨valid,band⟩,⟨rfl,room⟩,?_,rfl⟩
  · unfold rehome settle
    dsimp only
    rw [whole]
  · unfold rehome settle
    dsimp only
    generalize pick : rePick t.adapter (renewed role info) = choice at picked room
    cases picked with
    | full => exact absurd rfl room
    | fresh => exact .inl bssid
    | @joined i other inside there same _ =>
      by_cases short : cmpLen (renewed role info).info < 6
      · right
        rw [own,length] at same
        rw [← renewed_macid role info] at found
        obtain ⟨member,valid⟩ := givenUp_other found there inside
        exact ⟨length ▸ short,other,member,same,valid,rfl,by simp [short]⟩
      · left
        simp [short,bssid]

theorem valid_listed (accepted : roleInfoValid a info .chg = .success) : macRoleSrch a.roles info.macid ≠ none := by
  intro missing
  have create := valid_chg accepted
  rw [roleInfoValid,if_neg (by simp),if_neg (by simp),if_neg (by simp),if_neg (by simp [create]),
    if_pos ⟨rfl,by rw [missing]; rfl⟩] at accepted
  cases accepted

theorem changeRole_stored {t : FullTable ρ} (h2c : H2c) (rest : InfoRest ρ)
    (accepted : roleInfoValid t.adapter info .chg = .success) :
    (t.changeRole h2c info rest).1 = (macChangeRole h2c t.adapter info).1 ∧
      (t.changeRole h2c info rest).2.stored info.macid =
        (macRoleSrch (macChangeRole h2c t.adapter info).2.roles info.macid).map
          (·,restInit t.addrCamSize info rest) := by
  unfold FullTable.changeRole FullTable.stored
  dsimp only
  rw [if_neg (by simp [accepted])]
  exact ⟨rfl,by simp⟩

theorem changeSends_found {t : FullTable ρ} (h2c : H2c) (rest : InfoRest ρ)
    (accepted : roleInfoValid t.adapter info .chg = .success) (found : macRoleSrch t.adapter.roles info.macid = some role) :
    t.changeSends h2c info rest =
      (applySends h2c (t.adapter.onRole info.macid fun _ => changedRole role info) (changedRole role info)).map
        (·,restInit t.addrCamSize info rest) := by
  unfold FullTable.changeSends
  rw [if_neg (by simp [accepted]),found]

theorem changeRole_rejected {t : FullTable ρ} (h2c : H2c) (rest : InfoRest ρ)
    (rejected : roleInfoValid t.adapter info .chg ≠ .success) :
    (t.changeRole h2c info rest).1 ≠ .success ∧ (t.changeRole h2c info rest).2 = t := by
  have same : macChangeRole h2c t.adapter info = (roleInfoValid t.adapter info .chg,t.adapter) := by
    unfold macChangeRole
    exact if_pos rejected
  unfold FullTable.changeRole
  rw [same]
  dsimp only
  rw [if_pos rejected]
  exact ⟨rejected,rfl⟩

theorem changeRole_unknown {t : FullTable ρ} (h2c : H2c) (rest : InfoRest ρ)
    (accepted : roleInfoValid t.adapter info .chg = .success) (found : macRoleSrch t.adapter.roles info.macid = some role)
    (unknown : info.updMode = .other) :
    (t.changeRole h2c info rest).1 = .success ∧ t.changeSends h2c info rest = none := by
  have mode : (changedRole role info).info.updMode = .other := unknown
  constructor
  · rw [(changeRole_stored h2c rest accepted).1]
    unfold macChangeRole applyChange
    simp [accepted,found,mode]
  · rw [changeSends_found h2c rest accepted found]
    unfold applySends
    simp [mode]

theorem change_whole_exact (t : FullTable ρ) (h2c : H2c) (info : RoleInfo) (rest : InfoRest ρ) :
    ChangesWhole t h2c info rest ↔ ChangeHarmless t h2c info rest := by
  unfold ChangesWhole ChangeHarmless
  by_cases accepted : roleInfoValid t.adapter info .chg = .success
  case neg =>
    obtain ⟨failed,untouched⟩ := changeRole_rejected h2c rest accepted
    rw [untouched]
    exact ⟨fun _ => .inl accepted,fun _ => ⟨fun _ => rfl,fun success => absurd success failed⟩⟩
  obtain ⟨role,found⟩ : ∃ role, macRoleSrch t.adapter.roles info.macid = some role := by
    by_contra missing
    have none := eq_none_iff_forall_ne_some.mpr (not_exists.mp missing)
    exact valid_listed accepted none
  obtain ⟨ret,kept⟩ := changeRole_stored h2c rest accepted
  have before : t.stored info.macid = some (role,t.rest info.macid) := by rw [FullTable.stored,found]; rfl
  by_cases known : info.updMode = .other
  · obtain ⟨success,nothing⟩ := changeRole_unknown h2c rest accepted found known
    constructor
    · intro whole
      obtain ⟨record,sent,_⟩ := whole.2 success
      rw [nothing] at sent
      cases sent
    · rintro (rejected | ⟨_,_,other,_⟩)
      · exact absurd accepted rejected
      · exact absurd known other
  simp only [accepted,found,known,ne_eq,not_true,not_false_eq_true,false_or,true_and,some.injEq,exists_eq_left']
  by_cases early : stepFails h2c info ∨ h2c.addrCam = .noBuffer
  · obtain ⟨failed,left⟩ := changeRole_early accepted found known early
    rw [if_pos early,kept,left,before,ret]
    simp [failed]
  · obtain ⟨success,left,sent⟩ := changeRole_late accepted found known early
    rw [if_neg early,kept,left,before,ret,success]
    by_cases done : h2c.addrCam = .sent ∧ (rePick t.adapter (renewed role info)).idx ≠ t.adapter.hw.bssidNum
    · refine ⟨fun _ => .inl done,fun _ => ⟨fun failed => absurd done failed,fun _ => ?_⟩⟩
      refine ⟨_,?_,rfl,rehome_shows rest found done.2⟩
      rw [changeSends_found h2c rest accepted found,sent (success.mpr done)]
      rfl
    · simp only [done,not_false_eq_true,true_implies,false_implies,and_true,false_or,map_some,some.injEq]

def plainRest : InfoRest Unit :=
  {port := 0,bssColor := 0,bcnHitCond := 0,hitRule := 0,tsfSync := 0,trigger := false,lsigTxop := false,tgtInd := 0
   frmTgtInd := 0,wolPattern := false,wolUc := false,wolMagic := false,wapi := false,aid := 0,unread := ()}

def oneTable : FullTable Unit := ⟨oneRole,0x40,fun _ => restInit 0x40 (station 0 .create .disconn) plainRest⟩

-- The station connects and the join info is lost; and a change of no known mode.
theorem change_half_done :
    ¬ ChangesWhole oneTable {joinInfo := .fail} (station 0 .conDisconn .connect) plainRest ∧
      ¬ ChangesWhole oneTable {} (station 0 .other .connect) plainRest := by
  constructor
  · rintro ⟨kept,_⟩
    have same := congrArg (Option.map fun record => record.1.info.opmode) (kept (by decide +kernel))
    exact absurd same (by decide +kernel)
  · rintro ⟨_,sends⟩
    obtain ⟨record,sent,_⟩ := sends (by decide +kernel)
    have nothing : (oneTable.changeSends {} (station 0 .other .connect) plainRest).isSome = false := by decide +kernel
    rw [sent] at nothing
    cases nothing

end Rtl8852au.Role
