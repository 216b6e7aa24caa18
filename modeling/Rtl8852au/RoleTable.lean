import Rtl8852au.BssidCamMirror

namespace Rtl8852au.Role
open Machine List

inductive RoleCall where
  | add (h2c : H2c) (info : RoleInfo)
  | change (h2c : H2c) (info : RoleInfo)
  | remove (h2c : H2c) (macid : Nat)

def roleCall (a : Adapter) : RoleCall → Adapter
  | .add h2c info => (macAddRole h2c a info).2
  | .change h2c info => (macChangeRole h2c a info).2
  | .remove h2c macid => (macRemoveRole h2c a macid).2

def Proceeds (h2c : H2c) (a : Adapter) (info : RoleInfo) : Prop :=
  a.pool ≠ 0 ∧ roleInfoValid a info .add = .success ∧ a.roles.length ≤ a.hw.macidNum ∧ h2c.macidPause ∧
    h2c.roleMaintain ≠ .fail

instance (h2c : H2c) (a : Adapter) (info : RoleInfo) : Decidable (Proceeds h2c a info) := by
  unfold Proceeds
  infer_instance

def Joined (h2c : H2c) (info : RoleInfo) : Prop := info.selfRole = .ap → h2c.joinInfo ≠ .fail

instance (h2c : H2c) (info : RoleInfo) : Decidable (Joined h2c info) := by
  unfold Joined
  infer_instance

def camRoom (a : Adapter) (info : RoleInfo) : Bool :=
  match findAvailAddrCamEntry a.hw a.roles with
  | none => false
  | some i => (findAvailBssidCamEntry a.hw a.roles (atAddrCam i (newRoleInfo info))).1 = .success

def addrCamWritten (h2c : H2c) (a : Adapter) (info : RoleInfo) : Option RoleInfo :=
  if Proceeds h2c a info ∧ Joined h2c info then
    let (ret,record) := macUpdAddrCamAdd h2c.addrCam a (newRoleInfo info)
    if ret = .success then some record else none
  else none

structure Accounted (a : Adapter) : Prop where
  nodes : a.pool + a.roles.length = a.hw.macidNum
  apart : (a.roles.map RoleTbl.macid).Nodup

structure AddHonest (h2c : H2c) (a : Adapter) (info : RoleInfo) : Prop where
  told : (macAddRole h2c a info).1 = .success ↔ ∃ role ∈ (macAddRole h2c a info).2.roles,
    role.macid = info.macid ∧ addrCamWritten h2c a info = some role.info
  refused : (macAddRole h2c a info).1 ≠ .success →
    (macAddRole h2c a info).2.pool = a.pool ∧ (macAddRole h2c a info).2.roles = a.roles

-- Once past its own checks an add must not fail in `mac_h2c_join_info`, and
-- its address-CAM transfer may only fail where a CAM is full as well.
def AddGuard (h2c : H2c) (a : Adapter) (info : RoleInfo) : Prop :=
  Proceeds h2c a info → Joined h2c info ∧ (h2c.addrCam = .sent ∨ h2c.addrCam = .lost ∧ camRoom a info = false)

instance (h2c : H2c) (a : Adapter) (info : RoleInfo) : Decidable (AddGuard h2c a info) := by
  unfold AddGuard
  infer_instance

def CallGuard (a : Adapter) : RoleCall → Prop
  | .add h2c info => AddGuard h2c a info
  | .change .. | .remove .. => True

instance (a : Adapter) (call : RoleCall) : Decidable (CallGuard a call) := by
  unfold CallGuard
  split <;> infer_instance

theorem addRole_stops (stops : ¬ Proceeds h2c a info) :
    (macAddRole h2c a info).1 ≠ .success ∧ (macAddRole h2c a info).2 = a := by
  unfold macAddRole
  by_cases empty : a.pool = 0
  · rw [if_pos empty]
    exact ⟨nofun,rfl⟩
  rw [if_neg empty]
  dsimp only
  by_cases accepted : roleInfoValid a info .add = .success
  swap
  · rw [if_pos accepted]
    exact ⟨accepted,rfl⟩
  rw [if_neg (not_not.mpr accepted)]
  by_cases long : a.hw.macidNum < a.roles.length
  · rw [if_pos long]
    exact ⟨nofun,rfl⟩
  rw [if_neg long]
  by_cases paused : h2c.macidPause
  swap
  · rw [if_pos (by simpa using paused)]
    exact ⟨nofun,rfl⟩
  rw [if_neg (by simp [paused])]
  by_cases maintained : h2c.roleMaintain = .fail
  · rw [if_pos maintained]
    exact ⟨nofun,rfl⟩
  · exact absurd ⟨empty,accepted,Nat.not_lt.mp long,paused,maintained⟩ stops

theorem addRole_proceeds (proceeds : Proceeds h2c a info) :
    macAddRole h2c a info =
      if info.selfRole = .ap ∧ h2c.joinInfo = .fail then (.h2c,{a with pool:=a.pool - 1})
      else
        let (ret,record) := macUpdAddrCamAdd h2c.addrCam a (newRoleInfo info)
        if ret = .addrCamFl ∨ ret = .bssidCamFl then (ret,a)
        else (.success,{a with pool:=a.pool - 1,roles:=a.roles ++ [⟨record.macid,record.wmm,record⟩]}) := by
  obtain ⟨stocked,accepted,fits,paused,maintained⟩ := proceeds
  unfold macAddRole
  rw [if_neg stocked]
  dsimp only
  rw [if_neg (not_not.mpr accepted),if_neg (Nat.not_lt.mpr fits),if_neg (by simp [paused]),if_neg maintained]
  rfl

theorem findBssid_ret (hw : HwInfo) (roles : List RoleTbl) (info : RoleInfo) :
    (findAvailBssidCamEntry hw roles info).1 = .success ∨ (findAvailBssidCamEntry hw roles info).1 = .bssidCamFl := by
  unfold findAvailBssidCamEntry
  dsimp only
  split
  · exact .inr rfl
  · exact .inl rfl

theorem camRoom_some (avail : findAvailAddrCamEntry a.hw a.roles = some i) :
    camRoom a info = decide ((findAvailBssidCamEntry a.hw a.roles (atAddrCam i (newRoleInfo info))).1 = .success) := by
  unfold camRoom
  rw [avail]

theorem updAddrCamAdd_found (buffered : tx ≠ .noBuffer) (avail : findAvailAddrCamEntry a.hw a.roles = some i) :
    (macUpdAddrCamAdd tx a info).1 = if (findAvailBssidCamEntry a.hw a.roles (atAddrCam i info)).1 = .success then addrCamRet tx
      else (findAvailBssidCamEntry a.hw a.roles (atAddrCam i info)).1 := by
  unfold macUpdAddrCamAdd
  rw [if_neg buffered,avail]
  dsimp only [atAddrCam]
  split
  · rename_i room
    exact (if_pos room).symm
  · rename_i full
    exact (if_neg full).symm

theorem updAddrCamAdd_ret (tx : AddrCamTx) (a : Adapter) (info : RoleInfo) :
    (tx = .noBuffer ∨ camRoom a info) ∧ (macUpdAddrCamAdd tx a (newRoleInfo info)).1 = addrCamRet tx ∨
    tx ≠ .noBuffer ∧ camRoom a info = false ∧ ((macUpdAddrCamAdd tx a (newRoleInfo info)).1 = .addrCamFl ∨
      (macUpdAddrCamAdd tx a (newRoleInfo info)).1 = .bssidCamFl) := by
  by_cases buffered : tx = .noBuffer
  · subst buffered
    exact .inl ⟨.inl rfl,rfl⟩
  cases avail : findAvailAddrCamEntry a.hw a.roles with
  | none =>
    refine .inr ⟨buffered,?_,.inl ?_⟩
    · unfold camRoom
      rw [avail]
    · unfold macUpdAddrCamAdd
      rw [if_neg buffered,avail]
  | some i =>
    rw [camRoom_some avail,updAddrCamAdd_found buffered avail]
    rcases findBssid_ret a.hw a.roles (atAddrCam i (newRoleInfo info)) with room | full
    · exact .inl ⟨.inr (by rw [room]; rfl),if_pos room⟩
    · refine .inr ⟨buffered,by rw [full]; rfl,.inr ?_⟩
      rw [full,if_neg (by decide)]

theorem updAddrCamAdd_names (tx : AddrCamTx) (a : Adapter) (info : RoleInfo) :
    (macUpdAddrCamAdd tx a info).2.macid = info.macid := by
  unfold macUpdAddrCamAdd
  split
  · rfl
  · split
    · rfl
    · rename_i i _
      dsimp only
      rw [findBssid_eq]
      dsimp only
      split <;> rfl

theorem addRole_unjoined (proceeds : Proceeds h2c a info) (unjoined : ¬ Joined h2c info) :
    macAddRole h2c a info = (.h2c,{a with pool:=a.pool - 1}) := by
  rw [addRole_proceeds proceeds,if_pos]
  simpa [Joined] using unjoined

theorem addRole_joined (proceeds : Proceeds h2c a info) (joined : Joined h2c info) :
    macAddRole h2c a info =
      let (ret,record) := macUpdAddrCamAdd h2c.addrCam a (newRoleInfo info)
      if ret = .addrCamFl ∨ ret = .bssidCamFl then (ret,a)
      else (.success,{a with pool:=a.pool - 1,roles:=a.roles ++ [⟨record.macid,record.wmm,record⟩]}) := by
  rw [addRole_proceeds proceeds,if_neg]
  rintro ⟨ap,failed⟩
  exact joined ap failed

section
variable (h2c : H2c) (a : Adapter) (info : RoleInfo)

def fresh : RoleTbl :=
  let record := (macUpdAddrCamAdd h2c.addrCam a (newRoleInfo info)).2
  ⟨record.macid,record.wmm,record⟩

theorem fresh_macid : (fresh h2c a info).macid = info.macid := updAddrCamAdd_names _ _ _

def enlisted : Adapter := {a with pool:=a.pool - 1,roles:=a.roles ++ [fresh h2c a info]}
end

theorem room_missing {tx : AddrCamTx} (buffered : tx ≠ .noBuffer) (full : camRoom a info = false) : ¬(tx = .noBuffer ∨ camRoom a info) := by
  simp [buffered,full]

theorem addRole_full (proceeds : Proceeds h2c a info) (joined : Joined h2c info) (buffered : h2c.addrCam ≠ .noBuffer)
    (full : camRoom a info = false) : (macAddRole h2c a info).1 ≠ .success ∧ (macAddRole h2c a info).2 = a := by
  rw [addRole_joined proceeds joined]
  rcases updAddrCamAdd_ret h2c.addrCam a info with ⟨either,_⟩ | ⟨_,_,ret⟩
  · exact absurd either (room_missing buffered full)
  · dsimp only
    rw [if_pos ret]
    refine ⟨?_,rfl⟩
    rcases ret with ret | ret <;> rw [ret] <;> decide

theorem addRole_enlists (proceeds : Proceeds h2c a info) (joined : Joined h2c info)
    (either : h2c.addrCam = .noBuffer ∨ camRoom a info) :
    macAddRole h2c a info = (.success,enlisted h2c a info) ∧
    addrCamWritten h2c a info = if h2c.addrCam = .sent then some (fresh h2c a info).info else none := by
  rw [addRole_joined proceeds joined]
  rcases updAddrCamAdd_ret h2c.addrCam a info with ⟨_,ret⟩ | ⟨buffered,full,_⟩
  · constructor
    · dsimp only
      rw [ret,if_neg (by cases h2c.addrCam <;> decide)]
      rfl
    · unfold addrCamWritten
      rw [if_pos ⟨proceeds,joined⟩]
      dsimp only
      rw [ret]
      refine if_congr ?_ rfl rfl
      cases h2c.addrCam <;> decide
  · exact absurd either (room_missing buffered full)

theorem addrCamWritten_none (stops : ¬ (Proceeds h2c a info ∧ Joined h2c info)) : addrCamWritten h2c a info = none :=
  if_neg stops

theorem addrCamWritten_full (buffered : h2c.addrCam ≠ .noBuffer) (full : camRoom a info = false) :
    addrCamWritten h2c a info = none := by
  unfold addrCamWritten
  rcases updAddrCamAdd_ret h2c.addrCam a info with ⟨either,_⟩ | ⟨_,_,ret⟩
  · exact absurd either (room_missing buffered full)
  · split
    · dsimp only
      rw [if_neg]
      rcases ret with ret | ret <;> rw [ret] <;> decide
    · rfl

theorem refused_honest (refused : (macAddRole h2c a info).1 ≠ .success ∧ (macAddRole h2c a info).2 = a)
    (unwritten : addrCamWritten h2c a info = none) : AddHonest h2c a info := by
  constructor
  · constructor
    · intro told
      exact absurd told refused.1
    · rintro ⟨_,_,_,written⟩
      rw [unwritten] at written
      cases written
  · intro _
    rw [refused.2]
    exact ⟨rfl,rfl⟩

theorem srch_none (missing : macRoleSrch roles macid = none) : macid ∉ roles.map RoleTbl.macid := by
  simp only [macRoleSrch,find?_eq_none,beq_iff_eq] at missing
  intro member
  obtain ⟨role,listed,same⟩ := mem_map.mp member
  exact missing role listed same.symm

theorem valid_add (accepted : roleInfoValid a info .add = .success) : macRoleSrch a.roles info.macid = none := by
  unfold roleInfoValid at accepted
  by_contra found
  rw [← ne_eq,← Option.isSome_iff_ne_none] at found
  simp only [found,true_and,and_true,reduceIte] at accepted
  split at accepted
  · cases accepted
  · split at accepted <;> cases accepted

theorem enlisted_accounted (proceeds : Proceeds h2c a info) (accounted : Accounted a) :
    Accounted (enlisted h2c a info) := by
  constructor
  · have stocked := proceeds.1
    have nodes := accounted.nodes
    simp only [enlisted,length_append,length_singleton]
    omega
  · have apart : info.macid ∉ a.roles.map RoleTbl.macid := srch_none (valid_add proceeds.2.1)
    simp only [enlisted,map_append,map_singleton,fresh_macid]
    rw [nodup_append_comm]
    exact nodup_cons.mpr ⟨apart,accounted.apart⟩

theorem addRole_honest (accounted : Accounted a) (h2c : H2c) (info : RoleInfo) :
    AddHonest h2c a info ∧ Accounted (macAddRole h2c a info).2 ↔ AddGuard h2c a info := by
  by_cases proceeds : Proceeds h2c a info
  swap
  · have stops := addRole_stops proceeds
    have honest := refused_honest stops (addrCamWritten_none (fun both => proceeds both.1))
    rw [stops.2]
    exact ⟨fun _ both => absurd both proceeds,fun _ => ⟨honest,accounted⟩⟩
  by_cases joined : Joined h2c info
  swap
  · constructor
    · rintro ⟨_,nodes,_⟩
      rw [addRole_unjoined proceeds joined] at nodes
      dsimp only at nodes
      have stocked := proceeds.1
      have before := accounted.nodes
      omega
    · intro guarded
      exact absurd (guarded proceeds).1 joined
  by_cases full : h2c.addrCam ≠ .noBuffer ∧ camRoom a info = false
  · have stops := addRole_full proceeds joined full.1 full.2
    have honest := refused_honest stops (addrCamWritten_full full.1 full.2)
    rw [stops.2]
    refine ⟨fun _ _ => ⟨joined,?_⟩,fun _ => ⟨honest,accounted⟩⟩
    cases sent : h2c.addrCam with
    | sent => exact .inl rfl
    | noBuffer => exact absurd sent full.1
    | lost => exact .inr ⟨rfl,full.2⟩
  · have either : h2c.addrCam = .noBuffer ∨ camRoom a info := by
      by_cases none : h2c.addrCam = .noBuffer
      · exact .inl none
      · exact .inr (by simpa [none] using full)
    obtain ⟨outcome,written⟩ := addRole_enlists proceeds joined either
    constructor
    · rintro ⟨honest,_⟩ _
      refine ⟨joined,.inl ?_⟩
      obtain ⟨_,_,_,there⟩ := honest.told.mp (by rw [outcome])
      by_contra unsent
      rw [written,if_neg unsent] at there
      cases there
    · intro guarded
      have sent : h2c.addrCam = .sent := by
        rcases (guarded proceeds).2 with sent | ⟨lost,none⟩
        · exact sent
        · rw [lost] at either
          simp [none] at either
      refine ⟨⟨⟨fun _ => ?_,fun _ => by rw [outcome]⟩,fun refused => absurd (by rw [outcome]) refused⟩,?_⟩
      · refine ⟨fresh h2c a info,?_,fresh_macid h2c a info,?_⟩
        · rw [outcome]
          exact mem_append_right _ (mem_singleton_self _)
        · rw [written,if_pos sent]
      · rw [outcome]
        exact enlisted_accounted proceeds accounted

def Named (a : Adapter) : Prop := ∀ role ∈ a.roles, role.info.macid = role.macid

structure Kept (a a' : Adapter) : Prop where
  named : Named a'
  macids : a'.roles.map RoleTbl.macid = a.roles.map RoleTbl.macid
  pool : a'.pool = a.pool
  hw : a'.hw = a.hw

theorem Kept.refl (named : Named a) : Kept a a := ⟨named,rfl,rfl,rfl⟩

theorem Kept.trans (one : Kept a b) (two : Kept b c) : Kept a c :=
  ⟨two.named,two.macids.trans one.macids,two.pool.trans one.pool,two.hw.trans one.hw⟩

theorem Kept.accounted (kept : Kept a a') (accounted : Accounted a) : Accounted a' := by
  have long : a'.roles.length = a.roles.length := by simpa using congrArg length kept.macids
  constructor
  · rw [kept.pool,kept.hw,long]
    exact accounted.nodes
  · rw [kept.macids]
    exact accounted.apart

def KeepsName (macid : Nat) (change : RoleTbl → RoleTbl) : Prop :=
  ∀ role, role.macid = macid → role.info.macid = macid → (change role).macid = macid ∧ (change role).info.macid = macid

theorem updateRole_named (keeps : KeepsName macid change) (named : ∀ role ∈ roles, role.info.macid = role.macid) :
    (∀ role ∈ updateRole macid change roles, role.info.macid = role.macid) ∧
    (updateRole macid change roles).map RoleTbl.macid = roles.map RoleTbl.macid := by
  induction roles with
  | nil => exact ⟨named,rfl⟩
  | cons first rest ih =>
    by_cases here : macid = first.macid
    · have own := named first mem_cons_self
      obtain ⟨called,called'⟩ := keeps first here.symm (own.trans here.symm)
      rw [update_here here]
      constructor
      · rintro role (_ | ⟨_,member⟩)
        · rw [called,called']
        · exact named role (mem_cons_of_mem _ member)
      · rw [map_cons,map_cons,called,here]
    · obtain ⟨named',macids⟩ := ih (fun role member => named role (mem_cons_of_mem _ member))
      rw [update_later here]
      constructor
      · rintro role (_ | ⟨_,member⟩)
        · exact named first mem_cons_self
        · exact named' role member
      · rw [map_cons,map_cons,macids]

theorem onRole_kept (named : Named a) (keeps : KeepsName macid change) : Kept a (a.onRole macid change) := by
  obtain ⟨named',macids⟩ := updateRole_named keeps named
  exact ⟨named',macids,rfl,rfl⟩

theorem srch_named (named : Named a) (found : macRoleSrch a.roles macid = some role) :
    role.macid = macid ∧ role.info.macid = macid := by
  have called := (srch_split found).1
  exact ⟨called,(named role (mem_of_find?_eq_some found)).trans called⟩

theorem findBssid_macid (hw : HwInfo) (roles : List RoleTbl) (info : RoleInfo) :
    (findAvailBssidCamEntry hw roles info).2.macid = info.macid := by
  rw [findBssid_eq]
  rfl

theorem updAddrCam_kept (named : Named a) (tx : AddrCamTx) (macid : Nat) : Kept a (macUpdAddrCamChg tx a macid).2 := by
  unfold macUpdAddrCamChg
  split
  · exact .refl named
  have given : Kept a (a.onRole macid (giveUpBssid a.hw)) := onRole_kept named (fun _ one two => ⟨one,two⟩)
  dsimp only
  split
  · exact .refl named
  · rename_i role found
    have called := (srch_named given.named found).2
    have stored : Kept _ ((a.onRole macid (giveUpBssid a.hw)).onRole macid fun other =>
        {other with info:=(findAvailBssidCamEntry a.hw (a.onRole macid (giveUpBssid a.hw)).roles role.info).2}) :=
      onRole_kept given.named (fun _ one _ => ⟨one,(findBssid_macid _ _ _).trans called⟩)
    split <;> exact given.trans stored

theorem applyChange_kept (named : Named a) (h2c : H2c) (role : RoleTbl) : Kept a (applyChange h2c a role).2 := by
  unfold applyChange
  have updated := updAddrCam_kept named h2c.addrCam role.macid
  split
  · split
    · exact .refl named
    · split
      · exact .refl named
      · exact updated
  · split
    · exact .refl named
    · exact updated
  · have deinit : Kept a (secInfoDeinit a role.macid role) :=
      have kept : Kept a (a.onRole role.macid fun role => {role with info := {role.info with
          aInfo := {noKeys role.info.aInfo with secEntMode:=0}}}) := onRole_kept named (fun _ one two => ⟨one,two⟩)
      {kept with}
    have begun : Kept a (if role.info.opmode = .disconn then secInfoDeinit a role.macid role else a) := by
      split
      · exact deinit
      · exact .refl named
    dsimp only
    split
    · exact begun
    · exact begun.trans (updAddrCam_kept begun.named h2c.addrCam role.macid)
  · split
    · exact .refl named
    · exact updated
  · exact .refl named
  · exact .refl named

theorem changeRole_kept (named : Named a) (h2c : H2c) (info : RoleInfo) : Kept a (macChangeRole h2c a info).2 := by
  unfold macChangeRole
  dsimp only
  split
  · exact .refl named
  · split
    · exact .refl named
    · rename_i role found
      have stored : Kept a (a.onRole info.macid fun _ => changedRole role info) := onRole_kept named (fun _ _ _ => ⟨rfl,rfl⟩)
      exact stored.trans (applyChange_kept stored.named h2c _)

theorem removeRole_split (found : macRoleSrch a.roles macid = some role) (h2c : H2c) :
    macRemoveRole h2c a macid =
      let (ret,a) := macChangeRole h2c (cleared a macid role) (leaving a macid role)
      if ret ≠ .success then (ret,a) else (.success,roleReturn a macid) := by
  unfold macRemoveRole
  rw [found]
  rfl

theorem cleared_kept (named : Named a) (found : macRoleSrch a.roles macid = some role) :
    Kept a (cleared a macid role) := by
  have called : (leaving a macid role).macid = macid := (leaving_fields a macid role).2.1.trans (srch_named named found).2
  have marked : Kept a (a.onRole macid fun role => {role with info:=removalInfo role}) :=
    onRole_kept named (fun _ one two => ⟨one,two⟩)
  exact marked.trans (onRole_kept marked.named (fun _ one _ => ⟨one,called⟩))

theorem roleReturn_accounted (accounted : Accounted a) (named : Named a) (listed : macid ∈ a.roles.map RoleTbl.macid) :
    Accounted (roleReturn a macid) ∧ Named (roleReturn a macid) := by
  cases found : macRoleSrch a.roles macid with
  | none => exact absurd listed (srch_none found)
  | some role =>
    obtain ⟨_,before,after,split,_,erased⟩ := srch_split found
    have nodes := accounted.nodes
    have apart := accounted.apart
    rw [split] at nodes apart
    refine ⟨⟨?_,?_⟩,?_⟩
    · simp only [roleReturn,erased]
      simp only [length_append,length_cons] at nodes ⊢
      omega
    · simp only [roleReturn,erased]
      rw [map_append,map_cons] at apart
      rw [map_append]
      exact (nodup_middle.mp apart).of_cons
    · intro other member
      simp only [roleReturn,erased] at member
      refine named other ?_
      rw [split]
      rcases mem_append.mp member with member | member
      · exact mem_append_left _ member
      · exact mem_append_right _ (mem_cons_of_mem _ member)

theorem removeRole_accounted (accounted : Accounted a) (named : Named a) (h2c : H2c) (macid : Nat) :
    Accounted (macRemoveRole h2c a macid).2 ∧ Named (macRemoveRole h2c a macid).2 := by
  cases found : macRoleSrch a.roles macid with
  | none =>
    unfold macRemoveRole
    rw [found]
    exact ⟨accounted,named⟩
  | some role =>
    have marked := cleared_kept named found
    have changed := marked.trans (changeRole_kept marked.named h2c (leaving a macid role))
    have counted := changed.accounted accounted
    rw [removeRole_split found]
    dsimp only
    split
    · exact ⟨counted,changed.named⟩
    · refine roleReturn_accounted counted changed.named ?_
      rw [changed.macids]
      exact mem_map.mpr ⟨role,mem_of_find?_eq_some found,(srch_split found).1⟩

theorem addRole_named (named : Named a) (h2c : H2c) (info : RoleInfo) : Named (macAddRole h2c a info).2 := by
  by_cases proceeds : Proceeds h2c a info
  swap
  · rw [(addRole_stops proceeds).2]
    exact named
  by_cases joined : Joined h2c info
  swap
  · rw [addRole_unjoined proceeds joined]
    exact named
  rw [addRole_joined proceeds joined]
  dsimp only
  split
  · exact named
  · intro role member
    rcases mem_append.mp member with member | member
    · exact named role member
    · cases mem_singleton.mp member
      rfl

theorem init_accounted (hw : HwInfo) : Accounted (.init hw) := ⟨rfl,nodup_nil⟩

theorem reached_accounted (path : Reached roleCall CallGuard (.init hw) a) : Accounted a ∧ Named a := by
  have named : Named (.init hw) := fun _ member => absurd member not_mem_nil
  apply path.invariant (fun a => Accounted a ∧ Named a) ⟨init_accounted hw,named⟩
  intro a call ⟨accounted,named⟩ allowed
  cases call with
  | add h2c info => exact ⟨((addRole_honest accounted h2c info).mpr allowed).2,addRole_named named h2c info⟩
  | change h2c info =>
    have kept := changeRole_kept named h2c info
    exact ⟨kept.accounted accounted,kept.named⟩
  | remove h2c macid => exact removeRole_accounted accounted named h2c macid

theorem role_table_accounted (hw : HwInfo) (path : Reached roleCall CallGuard (.init hw) a) :
    Accounted a ∧ ∀ h2c info, AddHonest h2c a info ∧ Accounted (macAddRole h2c a info).2 ↔ AddGuard h2c a info := by
  have accounted := (reached_accounted path).1
  refine ⟨accounted,?_⟩
  intro h2c info
  exact addRole_honest accounted h2c info

def accessPoint (macid : Nat) : RoleInfo :=
  {selfRole := .ap,netType := .ap,updMode := .create,opmode := .disconn,macid,isMulEnt := false,
    selfMac := fun _ => 2,targetMac := fun _ => 2,bssid := fun _ => 2}

def comings : List RoleCall :=
  [.add {} (accessPoint 0),.add {roleMaintain:=.fail,addrCam:=.noBuffer} (station 1 .create .disconn),
    .add {} (station 1 .create .disconn),.add {joinInfo:=.fail} (station 1 .create .disconn),
    .change {joinInfo:=.fail} (station 1 .conDisconn .disconn),.remove {} 1,.remove {roleMaintain:=.fail} 0,
    .add {} (station 5 .create .disconn)]

theorem role_table_accounted_comings :
    let a := run roleCall (.init nicHw) comings
    Admitted roleCall CallGuard (.init nicHw) comings ∧ a.roles.map RoleTbl.macid = [0,5] ∧ a.pool = 30 ∧
    Accounted a ∧ ∀ h2c info, AddHonest h2c a info ∧ Accounted (macAddRole h2c a info).2 ↔ AddGuard h2c a info := by
  have admitted : Admitted roleCall CallGuard (.init nicHw) comings := by decide +kernel
  exact ⟨admitted,by decide +kernel,by decide +kernel,role_table_accounted nicHw (Reached.start.run admitted)⟩

-- An access point whose join report fails takes its node with it, and a role
-- whose address-CAM transfer fails is still listed.
theorem role_table_unaccounted :
    ¬ Accounted (run roleCall (.init nicHw) [.add {joinInfo := .fail} (accessPoint 0)]) ∧
    ¬ AddHonest {addrCam := .lost} (.init nicHw) (station 0 .create .disconn) := by
  constructor
  · rintro ⟨nodes,_⟩
    have gone : (run roleCall (.init nicHw) [.add {joinInfo := .fail} (accessPoint 0)]).pool +
      (run roleCall (.init nicHw) [.add {joinInfo := .fail} (accessPoint 0)]).roles.length ≠ 32 := by decide +kernel
    exact gone nodes
  · rintro ⟨told,_⟩
    have added : (macAddRole {addrCam := .lost} (.init nicHw) (station 0 .create .disconn)).1 = .success := by decide +kernel
    have unwritten : (addrCamWritten {addrCam := .lost} (.init nicHw) (station 0 .create .disconn)).isNone := by
      decide +kernel
    obtain ⟨_,_,_,written⟩ := told.mp added
    rw [written] at unwritten
    cases unwritten
end Rtl8852au.Role
