import Mathlib.Data.List.Permutation
import Rtl8852au.SecurityCam

namespace Rtl8852au.Role
open Machine Slots List Option Function Bool Prod

abbrev Key := Nat × Nat × Nat

def slotKey (role : RoleTbl) (i : Nat) : Option Key :=
  if role.info.aInfo.secEntValid i then
    some (role.info.aInfo.secEnt i,role.macid,role.info.aInfo.secEntKeyid i) else none

def entryKey (table : SecCamTable) (i : Nat) : Option Key :=
  if (table.secCamEntry i).valid then some (i,(table.secCamEntry i).macId,(table.secCamEntry i).keyId) else none

def heldKeys (role : RoleTbl) : List Key := contents 7 (slotKey role)
def roleKeys (roles : List RoleTbl) : List Key := roles.flatMap heldKeys
def camKeys (entryNum : Nat) (table : SecCamTable) : List Key := contents entryNum (entryKey table)

structure KeysMatch (a : Adapter) : Prop where
  keys : (roleKeys a.roles).Perm (camKeys a.hw.secCamEntryNum a.secCamTable)
  next : 0 < a.hw.secCamEntryNum → a.secCamTable.nextCamStorageIdx < a.hw.secCamEntryNum

def keyView (role : RoleTbl) : Nat × List Key := (role.macid,heldKeys role)

structure SameKeys (a a' : Adapter) : Prop where
  hw : a'.hw = a.hw
  table : a'.secCamTable = a.secCamTable
  views : a'.roles.map keyView = a.roles.map keyView

theorem SameKeys.refl (a : Adapter) : SameKeys a a := ⟨rfl,rfl,rfl⟩
theorem SameKeys.trans (one : SameKeys a b) (two : SameKeys b c) : SameKeys a c :=
  ⟨two.hw.trans one.hw,two.table.trans one.table,two.views.trans one.views⟩

theorem roleKeys_view (roles : List RoleTbl) : roleKeys roles = (roles.map keyView).flatMap snd := by
  rw [flatMap_map]
  rfl

theorem SameKeys.keys (same : SameKeys a a') : roleKeys a'.roles = roleKeys a.roles := by
  rw [roleKeys_view,same.views,← roleKeys_view]

theorem SameKeys.match (same : SameKeys a a') (valid : KeysMatch a) : KeysMatch a' := by
  refine ⟨?_,?_⟩
  · rw [same.keys,same.hw,same.table]; exact valid.keys
  · rw [same.hw,same.table]; exact valid.next

theorem srch_here (here : macid = first.macid) : macRoleSrch (first :: rest) macid = some first := by simp [macRoleSrch,here]

theorem srch_later (other : macid ≠ first.macid) : macRoleSrch (first :: rest) macid = macRoleSrch rest macid := by
  simp [macRoleSrch,other]

theorem update_here (here : macid = first.macid) : updateRole macid change (first :: rest) = change first :: rest := by
  simp [updateRole,here]

theorem update_later (other : macid ≠ first.macid) :
    updateRole macid change (first :: rest) = first :: updateRole macid change rest := by
  simp [updateRole,other]

theorem srch_split (found : macRoleSrch roles macid = some role) :
    role.macid = macid ∧ ∃ before after, roles = before ++ role :: after ∧
      (∀ change, updateRole macid change roles = before ++ change role :: after) ∧
      roles.eraseP (fun role => macid == role.macid) = before ++ after := by
  induction roles with
  | nil => cases found
  | cons first rest ih =>
    by_cases here : macid = first.macid
    · rw [srch_here here] at found
      cases some.inj found
      exact ⟨here.symm,[],rest,rfl,fun _ => update_here here,by simp [here]⟩
    · rw [srch_later here] at found
      obtain ⟨same,before,after,split,updated,erased⟩ := ih found
      refine ⟨same,first :: before,after,by rw [split,cons_append],?_,?_⟩
      · intro change
        rw [update_later here,updated change,cons_append]
      · rw [eraseP_cons_of_neg (by simpa using here),erased,cons_append]

theorem srch_update (change : RoleTbl → RoleTbl) (found : macRoleSrch roles macid = some role)
    (named : (change role).macid = macid) :
    macRoleSrch (updateRole macid change roles) macid = some (change role) := by
  induction roles with
  | nil => cases found
  | cons first rest ih =>
    by_cases here : macid = first.macid
    · rw [srch_here here] at found
      cases some.inj found
      rw [update_here here,srch_here named.symm]
    · rw [srch_later here] at found
      rw [update_later here,srch_later here]
      exact ih found

theorem srch_update_none (missing : macRoleSrch roles macid = none) : updateRole macid change roles = roles := by
  induction roles with
  | nil => rfl
  | cons first rest ih =>
    by_cases here : macid = first.macid
    · rw [srch_here here] at missing
      cases missing
    · rw [srch_later here] at missing
      rw [update_later here,ih missing]

theorem roleKeys_split (before after : List RoleTbl) (role : RoleTbl) :
    (roleKeys (before ++ role :: after)).Perm (heldKeys role ++ roleKeys (before ++ after)) := by
  simp only [roleKeys,flatMap_append,flatMap_cons]
  exact perm_append_comm_assoc _ _ _

theorem onRole_same (a : Adapter) (macid : Nat) (change : RoleTbl → RoleTbl)
    (kept : ∀ role, macRoleSrch a.roles macid = some role → keyView (change role) = keyView role) :
    SameKeys a (a.onRole macid change) := by
  refine ⟨rfl,rfl,?_⟩
  simp only [Adapter.onRole]
  cases found : macRoleSrch a.roles macid with
  | none => rw [srch_update_none found]
  | some role =>
    obtain ⟨_,before,after,split,updated,_⟩ := srch_split found
    rw [updated change,split]
    simp only [map_append,map_cons,kept role found]

structure SameSlots (x y : AddrCamInfo) : Prop where
  valid : y.secEntValid = x.secEntValid
  keyid : y.secEntKeyid = x.secEntKeyid
  ent : y.secEnt = x.secEnt

theorem keyView_congr {role role' : RoleTbl} (macid : role'.macid = role.macid)
    (same : SameSlots role.info.aInfo role'.info.aInfo) : keyView role' = keyView role := by
  have keys : heldKeys role' = heldKeys role := by
    apply contents_congr
    intro i _
    simp only [slotKey,macid,same.valid,same.keyid,same.ent]
  rw [keyView,keyView,macid,keys]

theorem heldKeys_none (empty : ∀ i < 7, role.info.aInfo.secEntValid i = false) : heldKeys role = [] := by
  have nothing : heldKeys role = contents 7 (fun _ => none) := by
    apply contents_congr
    intro i bound
    simp [slotKey,empty i bound]
  simpa [contents] using nothing

theorem findBssid_slots (hw : HwInfo) (roles : List RoleTbl) (info : RoleInfo) :
    SameSlots info.aInfo (findAvailBssidCamEntry hw roles info).2.aInfo := by
  unfold findAvailBssidCamEntry
  dsimp only
  split <;> split <;> exact ⟨rfl,rfl,rfl⟩

section
variable (tx : AddrCamTx) (a : Adapter)

theorem updAddrCamAdd_slots (info : RoleInfo) :
    SameSlots info.aInfo (macUpdAddrCamAdd tx a info).2.aInfo := by
  unfold macUpdAddrCamAdd
  split
  · exact ⟨rfl,rfl,rfl⟩
  · split
    · exact ⟨rfl,rfl,rfl⟩
    · rename_i i _
      have slots := findBssid_slots a.hw a.roles {info with aInfo:={info.aInfo with addrCamIdx:=i}}
      dsimp only
      split <;> exact ⟨slots.valid,slots.keyid,slots.ent⟩

theorem updAddrCam_same (macid : Nat) :
    SameKeys a (macUpdAddrCamChg tx a macid).2 := by
  unfold macUpdAddrCamChg
  split
  · exact SameKeys.refl a
  · dsimp only
    have given : SameKeys a (a.onRole macid (giveUpBssid a.hw)) :=
      onRole_same a macid _ fun role _ => keyView_congr rfl ⟨rfl,rfl,rfl⟩
    generalize a.onRole macid (giveUpBssid a.hw) = b at given ⊢
    cases found : macRoleSrch b.roles macid with
    | none => exact SameKeys.refl a
    | some role =>
      have picked : SameKeys b (b.onRole macid fun other =>
          {other with info:=(findAvailBssidCamEntry a.hw b.roles role.info).2}) := by
        apply onRole_same
        intro other same
        rw [found] at same
        cases some.inj same
        exact keyView_congr rfl (findBssid_slots _ _ _)
      dsimp only
      split
      · exact given.trans picked
      · exact given.trans picked

theorem writeAddrCam_same (macid : Nat) : SameKeys a (writeAddrCam tx a macid).2 := updAddrCam_same tx a macid
end

def bssidView (role : RoleTbl) : Nat × Bool × MacAddr × Fin 2 × Nat × MacAddr :=
  (role.info.bInfo.bssidCamIdx,role.info.aInfo.valid,role.info.bssid,role.info.band,role.info.aInfo.bssidCamIdx,
    role.info.bInfo.bssid)

theorem srchByBssid_view (roles : List RoleTbl) (i : Nat) :
    (macRoleSrchByBssid roles i).map bssidView =
      (roles.map bssidView).find? (fun view => i == view.1 && view.2.1) := by
  rw [find?_map]
  rfl

section
variable {roles roles' : List RoleTbl} {info info' : RoleInfo} (same : roles'.map bssidView = roles.map bssidView)
  (bssid : info'.bssid = info.bssid) (band : info'.band = info.band)
include same bssid band

theorem bssidScan_congr (indices : List Nat) (found : Nat) :
    bssidScan hw roles' info' cmpLen indices found = bssidScan hw roles info cmpLen indices found := by
  induction indices generalizing found with
  | nil => rfl
  | cons i rest ih =>
    have views : (macRoleSrchByBssid roles' i).map bssidView = (macRoleSrchByBssid roles i).map bssidView := by
      rw [srchByBssid_view,srchByBssid_view,same]
    unfold bssidScan
    cases one : macRoleSrchByBssid roles i with
    | none =>
      cases two : macRoleSrchByBssid roles' i with
      | none => simp only [ih]
      | some role => simp [one,two] at views
    | some role =>
      cases two : macRoleSrchByBssid roles' i with
      | none => simp [one,two] at views
      | some role' =>
        simp only [one,two,map_some,some.injEq,bssidView,mk.injEq] at views
        obtain ⟨_,_,bssidThere,bandThere,index,copied⟩ := views
        simp only [bssid,band,bssidThere,bandThere,index,copied,ih]

theorem bssidPick_congr (maskSel : info'.aInfo.maskSel = info.aInfo.maskSel)
    (addrMask : info'.aInfo.addrMask = info.aInfo.addrMask) : bssidPick hw roles' info' = bssidPick hw roles info := by
  unfold bssidPick
  rw [bssidScan_congr same bssid band,maskSel,addrMask]
end

def BssidRoom (a : Adapter) (macid : Nat) : Prop :=
  ∀ role ∈ macRoleSrch a.roles macid,
    (bssidPick a.hw (updateRole macid (giveUpBssid a.hw) a.roles) role.info).idx ≠ a.hw.bssidNum

instance (a : Adapter) (macid : Nat) : Decidable (BssidRoom a macid) :=
  inferInstanceAs (Decidable (∀ role ∈ macRoleSrch a.roles macid, _ ≠ _))

theorem findBssid_success : (findAvailBssidCamEntry hw roles info).1 = .success ↔ (bssidPick hw roles info).idx ≠ hw.bssidNum := by
  unfold findAvailBssidCamEntry
  by_cases full : (bssidPick hw roles info).idx = hw.bssidNum
  · simp [full]
  · simp [full]

theorem findBssid_full (failed : (findAvailBssidCamEntry hw roles info).1 ≠ .success) :
    (findAvailBssidCamEntry hw roles info).1 = .bssidCamFl := by
  unfold findAvailBssidCamEntry at failed ⊢
  dsimp only at failed ⊢
  split
  · rfl
  · rename_i room
    rw [if_neg room] at failed
    exact absurd rfl failed

theorem writeAddrCam_room (tx : AddrCamTx) (a : Adapter) (macid : Nat) :
    (writeAddrCam tx a macid).1 = .success ↔ tx = .noBuffer ∨ BssidRoom a macid := by
  have reply : addrCamRet tx ≠ .bssidCamFl := by cases tx <;> decide
  unfold writeAddrCam macUpdAddrCamChg
  by_cases unsent : tx = .noBuffer
  · simp [unsent,addrCamRet]
  · simp only [if_neg unsent]
    cases found : macRoleSrch a.roles macid with
    | none =>
      have missing : macRoleSrch (a.onRole macid (giveUpBssid a.hw)).roles macid = none := by
        rw [Adapter.onRole,srch_update_none found]; exact found
      simp [missing,reply,BssidRoom,found]
    | some role =>
      have given : macRoleSrch (a.onRole macid (giveUpBssid a.hw)).roles macid = some (giveUpBssid a.hw role) :=
        srch_update _ found (srch_split found).1
      have same : bssidPick a.hw (a.onRole macid (giveUpBssid a.hw)).roles (giveUpBssid a.hw role).info =
          bssidPick a.hw (a.onRole macid (giveUpBssid a.hw)).roles role.info := by
        refine bssidPick_congr ?_ ?_ ?_ ?_ ?_ <;> rfl
      have room : BssidRoom a macid ↔ (findAvailBssidCamEntry a.hw (a.onRole macid (giveUpBssid a.hw)).roles
          (giveUpBssid a.hw role).info).1 = .success := by
        rw [findBssid_success,same]
        simp [BssidRoom,found,Adapter.onRole]
      rw [room]
      simp only [given]
      by_cases success : (findAvailBssidCamEntry a.hw (a.onRole macid (giveUpBssid a.hw)).roles
          (giveUpBssid a.hw role).info).1 = .success
      · simp [success,reply]
      · simp [unsent,findBssid_full success]

theorem update_update (named : ∀ role, (one role).macid = role.macid) (roles : List RoleTbl) :
    updateRole macid two (updateRole macid one roles) = updateRole macid (fun role => two (one role)) roles := by
  induction roles with
  | nil => rfl
  | cons first rest ih =>
    by_cases here : macid = first.macid
    · rw [update_here here,update_here here,update_here (here.trans (named first).symm)]
    · rw [update_later here,update_later here,update_later here,ih]

theorem update_view (same : ∀ role, bssidView (one role) = bssidView (two role)) (roles : List RoleTbl) :
    (updateRole macid one roles).map bssidView = (updateRole macid two roles).map bssidView := by
  induction roles with
  | nil => rfl
  | cons first rest ih =>
    by_cases here : macid = first.macid
    · simp only [update_here here,map_cons,same first]
    · simp only [update_later here,map_cons,ih]

theorem room_writeSlot (a : Adapter) (macid i keyId : Nat) (valid : Bool) (index : Nat) :
    BssidRoom (a.onRole macid (writeSlot i keyId valid index)) macid ↔ BssidRoom a macid := by
  cases before : macRoleSrch a.roles macid with
  | none => rw [Adapter.onRole,srch_update_none before]
  | some role =>
    have after : macRoleSrch (a.onRole macid (writeSlot i keyId valid index)).roles macid =
        some (writeSlot i keyId valid index role) := srch_update _ before (srch_split before).1
    have views : (updateRole macid (giveUpBssid a.hw) (updateRole macid (writeSlot i keyId valid index) a.roles)).map
        bssidView = (updateRole macid (giveUpBssid a.hw) a.roles).map bssidView := by
      rw [update_update (by intro role; rfl)]
      exact update_view (by intro role; rfl) a.roles
    have pick : bssidPick a.hw (updateRole macid (giveUpBssid a.hw) (updateRole macid (writeSlot i keyId valid index)
        a.roles)) (writeSlot i keyId valid index role).info =
        bssidPick a.hw (updateRole macid (giveUpBssid a.hw) a.roles) role.info := by
      refine bssidPick_congr views ?_ ?_ ?_ ?_ <;> rfl
    unfold BssidRoom
    rw [after,before]
    simp only [mem_def,some.injEq,forall_eq',Adapter.onRole,pick]

theorem slotKey_writeSlot (role : RoleTbl) (i keyId : Nat) (valid : Bool) (index : Nat) :
    slotKey (writeSlot i keyId valid index role) =
      update (slotKey role) i (if valid then some (index,role.macid,keyId) else none) := by
  funext j
  by_cases same : j = i
  · subst j; simp [slotKey,writeSlot]
  · simp [slotKey,writeSlot,update_of_ne same]

theorem heldKeys_insert (bounded : i < 7) (free : role.info.aInfo.secEntValid i = false) (keyId index : Nat) :
    (heldKeys (writeSlot i keyId true index role)).Perm ((index,role.macid,keyId) :: heldKeys role) := by
  unfold heldKeys
  rw [slotKey_writeSlot]
  exact contents_fill bounded (by simp [slotKey,free]) _

theorem heldKeys_delete (bounded : i < 7) (held : role.info.aInfo.secEntValid i) :
    (heldKeys role).Perm ((role.info.aInfo.secEnt i,role.macid,role.info.aInfo.secEntKeyid i) ::
      heldKeys (writeSlot i 0 false 0 role)) := by
  unfold heldKeys
  rw [slotKey_writeSlot]
  exact contents_clear bounded (by simp [slotKey,held])

theorem entryKey_hal (table : SecCamTable) (secCamInfo : SecCamInfo) (macId keyId keyType index : Nat) (clear : Bool) :
    entryKey (mSecurityCamHal table secCamInfo macId keyId keyType index clear) =
      update (entryKey table) index (if clear then none else some (index,macId,keyId)) := by
  funext j
  by_cases same : j = index
  · subst j; cases clear <;> simp [entryKey,mSecurityCamHal]
  · simp [entryKey,mSecurityCamHal,update_of_ne same]

section
variable (secCamInfo : SecCamInfo) (macId keyId keyType : Nat)

theorem camKeys_set (bounded : index < entryNum)
    (free : (table.secCamEntry index).valid = false) :
    (camKeys entryNum (mSecurityCamHal table secCamInfo macId keyId keyType index false)).Perm
      ((index,macId,keyId) :: camKeys entryNum table) := by
  unfold camKeys
  rw [entryKey_hal]
  exact contents_fill bounded (by simp [entryKey,free]) _

theorem camKeys_clear (listed : key ∈ camKeys entryNum table) :
    (camKeys entryNum table).Perm
      (key :: camKeys entryNum (mSecurityCamHal table secCamInfo macId keyId keyType key.1 true)) := by
  obtain ⟨i,bounded,held⟩ := mem_contents.mp listed
  have index : key.1 = i := by
    unfold entryKey at held
    split at held
    · cases some.inj held; rfl
    · cases held
  unfold camKeys
  rw [entryKey_hal,index]
  exact contents_clear bounded held
end

theorem camKeys_nodup (entryNum : Nat) (table : SecCamTable) : (camKeys entryNum table).Nodup := by
  refine List.Nodup.of_map fst ?_
  have sub : List.Sublist ((camKeys entryNum table).map fst) (range entryNum) := by
    unfold camKeys contents
    induction range entryNum with
    | nil => exact .slnil
    | cons i rest ih =>
      cases held : entryKey table i with
      | none =>
        rw [filterMap_cons_none held]
        exact ih.cons i
      | some key =>
        have index : key.1 = i := by
          unfold entryKey at held
          split at held
          · cases some.inj held; rfl
          · cases held
        rw [filterMap_cons_some held,map_cons,index]
        exact ih.cons_cons i
  exact sub.nodup nodup_range

theorem flush_keys (role : RoleTbl) (indices : List Nat)
    (listed : (indices.filterMap (slotKey role) ++ others).Perm (camKeys entryNum table)) :
    others.Perm (camKeys entryNum (indices.foldl (fun table keyIndex => if role.info.aInfo.secEntValid keyIndex then
      mSecurityCamHal table {} 0 (role.info.aInfo.secEntKeyid keyIndex) 3 (role.info.aInfo.secEnt keyIndex) true
      else table) table)) := by
  induction indices generalizing table with
  | nil => exact listed
  | cons i rest ih =>
    rw [foldl_cons]
    cases held : role.info.aInfo.secEntValid i with
    | false =>
      have empty : slotKey role i = none := by simp [slotKey,held]
      rw [filterMap_cons_none empty] at listed
      exact ih listed
    | true =>
      have full : slotKey role i = some (role.info.aInfo.secEnt i,role.macid,role.info.aInfo.secEntKeyid i) := by
        simp [slotKey,held]
      rw [filterMap_cons_some full,cons_append] at listed
      have member := listed.mem_iff.mp mem_cons_self
      apply ih
      exact (listed.trans (camKeys_clear {} 0 _ 3 member)).cons_inv

theorem flush_next (table : SecCamTable) (role : RoleTbl) :
    (disconnectFlushKey table role).nextCamStorageIdx = table.nextCamStorageIdx := by
  unfold disconnectFlushKey
  induction range 7 generalizing table with
  | nil => rfl
  | cons i rest ih =>
    rw [foldl_cons,ih]
    split <;> rfl

theorem keySlot_ok (chosen : keySlot mode keyType fits missing = .ok i) : i < 7 ∧ fits i := by
  unfold keySlot at chosen
  split at chosen
  · cases chosen
  · rename_i first decided
    split at chosen
    · cases chosen
    · rename_i j found
      split at chosen
      · cases chosen
        have inside := mem_range'.mp (mem_of_find?_eq_some found)
        exact ⟨by omega,find?_some found⟩
      · cases chosen

theorem secCamSearch_free (start : secIdx < entryNum) (found : secCamSearch table entryNum fuel secIdx = some index) :
    index < entryNum ∧ (table.secCamEntry index).valid = false := by
  induction fuel generalizing secIdx with
  | zero => cases found
  | succ fuel ih =>
    unfold secCamSearch at found
    split at found
    · exact ih (Nat.mod_lt _ (by omega)) found
    · rename_i free
      cases some.inj found
      exact ⟨start,by simpa using free⟩

theorem decideSecCamIndex_free (next : 0 < hw.secCamEntryNum → table.nextCamStorageIdx < hw.secCamEntryNum)
    (found : decideSecCamIndex hw table = some index) :
    index < hw.secCamEntryNum ∧ (table.secCamEntry index).valid = false := by
  by_cases some : 0 < hw.secCamEntryNum
  · exact secCamSearch_free (next some) found
  · have none : hw.secCamEntryNum = 0 := by omega
    simp [decideSecCamIndex,none,secCamSearch] at found

theorem addRole_match (valid : KeysMatch a) (h2c : H2c) (info : RoleInfo) : KeysMatch (macAddRole h2c a info).2 := by
  unfold macAddRole
  dsimp only
  split
  · exact valid
  split
  · exact valid
  split
  · exact valid
  split
  · exact valid
  split
  · exact valid
  split
  · exact ⟨valid.keys,valid.next⟩
  split
  · exact valid
  · -- the new role has no keys yet
    refine ⟨?_,valid.next⟩
    generalize updated : macUpdAddrCamAdd h2c.addrCam a (newRoleInfo info) = result
    have slots : SameSlots (newRoleInfo info).aInfo result.2.aInfo := updated ▸ updAddrCamAdd_slots _ _ _
    have empty : heldKeys ⟨result.2.macid,result.2.wmm,result.2⟩ = [] := by
      apply heldKeys_none
      intro i _
      simp only [slots.valid]
      rfl
    simp only [roleKeys,flatMap_append,flatMap_cons,flatMap_nil,append_nil,empty]
    exact valid.keys

theorem deinit_match (valid : KeysMatch a) (found : macRoleSrch a.roles macid = some role) :
    KeysMatch (secInfoDeinit a macid role) := by
  obtain ⟨_,before,after,split,updated,_⟩ := srch_split found
  refine ⟨?_,?_⟩
  · have listed : (heldKeys role ++ roleKeys (before ++ after)).Perm (camKeys a.hw.secCamEntryNum a.secCamTable) := by
      refine (roleKeys_split before after role).symm.trans ?_
      rw [← split]
      exact valid.keys
    have flushed := flush_keys role (range 7) listed
    simp only [secInfoDeinit,Adapter.onRole,updated]
    refine (roleKeys_split before after _).trans ?_
    rw [heldKeys_none (by intro i _; rfl),nil_append]
    exact flushed
  · intro some
    simp only [secInfoDeinit,flush_next]
    exact valid.next some

theorem changed_same (found : macRoleSrch a.roles info.macid = some role) :
    SameKeys a (a.onRole info.macid fun _ => changedRole role info) := by
  apply onRole_same
  intro other same
  rw [found] at same
  cases some.inj same
  exact keyView_congr (srch_split found).1.symm ⟨rfl,rfl,rfl⟩

theorem applyChange_match (valid : KeysMatch a) (found : macRoleSrch a.roles role.macid = some role) (h2c : H2c) :
    KeysMatch (applyChange h2c a role).2 := by
  have kept := (updAddrCam_same h2c.addrCam a role.macid).match valid
  unfold applyChange
  cases role.info.updMode with
  | create | other => exact valid
  | typeChange =>
    dsimp only
    split
    · exact valid
    split
    · exact valid
    · exact kept
  | remove | infoChange =>
    dsimp only
    split
    · exact valid
    · exact kept
  | conDisconn =>
    have cleared := deinit_match valid found
    cases role.info.opmode with
    | connect =>
      simp only [reduceCtorEq,if_false]
      split
      · exact valid
      · exact kept
    | disconn =>
      simp only [if_true]
      split
      · exact cleared
      · exact (updAddrCam_same _ _ _).match cleared

theorem changeRole_match (valid : KeysMatch a) (h2c : H2c) (info : RoleInfo) :
    KeysMatch (macChangeRole h2c a info).2 := by
  unfold macChangeRole
  dsimp only
  split
  · exact valid
  · cases found : macRoleSrch a.roles info.macid with
    | none => exact valid
    | some role =>
      have there := srch_update (fun _ => changedRole role info) found rfl
      apply applyChange_match ((changed_same found).match valid)
      exact there

theorem removal_same (a : Adapter) (h2c : H2c) (removing : info.updMode = .remove) :
    SameKeys a (macChangeRole h2c a info).2 := by
  unfold macChangeRole
  dsimp only
  split
  · exact SameKeys.refl a
  · cases found : macRoleSrch a.roles info.macid with
    | none => exact SameKeys.refl a
    | some role =>
      have stored := changed_same found
      have mode : (changedRole role info).info.updMode = .remove := removing
      dsimp only
      unfold applyChange
      rw [mode]
      dsimp only
      split
      · exact stored
      · exact stored.trans (updAddrCam_same _ _ _)

theorem roleReturn_keys (found : macRoleSrch a.roles macid = some role) (empty : heldKeys role = [])
    (same : SameKeys a b) : roleKeys (roleReturn b macid).roles = roleKeys a.roles := by
  obtain ⟨_,before,after,split,_,erased⟩ := srch_split found
  have views : (roleReturn b macid).roles.map keyView = (before ++ after).map keyView := by
    rw [← erased]
    simp only [roleReturn]
    have mapped : ∀ roles : List RoleTbl, (roles.eraseP fun role => macid == role.macid).map keyView =
        (roles.map keyView).eraseP (fun view => macid == view.1) := by
      intro roles
      rw [eraseP_map]
      rfl
    rw [mapped,mapped,same.views]
  rw [roleKeys_view,views,← roleKeys_view,split]
  simp only [roleKeys,flatMap_append,flatMap_cons,empty,nil_append]

def RemovalSent (h2c : H2c) : Prop := h2c.roleMaintain ≠ .fail ∧ h2c.addrCam = .sent

instance (h2c : H2c) : Decidable (RemovalSent h2c) := inferInstanceAs (Decidable (_ ∧ _))

theorem updAddrCam_sent (done : (macUpdAddrCamChg tx a macid).1 = .success) : tx = .sent := by
  cases tx with
  | sent => rfl
  | noBuffer => cases done
  | lost =>
    unfold macUpdAddrCamChg at done
    dsimp only at done
    rw [if_neg (by decide)] at done
    split at done
    · cases done
    · split at done
      · cases done
      · contradiction

theorem removal_sent (removing : info.updMode = .remove) (done : (macChangeRole h2c a info).1 = .success) : RemovalSent h2c := by
  unfold macChangeRole at done
  dsimp only at done
  split at done
  · contradiction
  · split at done
    · cases done
    · rename_i role _
      have mode : (changedRole role info).info.updMode = .remove := removing
      unfold applyChange at done
      rw [mode] at done
      dsimp only at done
      split at done
      · cases done
      · exact ⟨‹_›,updAddrCam_sent done⟩

theorem removeRole_match (valid : KeysMatch a) (h2c : H2c)
    (empty : RemovalSent h2c → ∀ role ∈ macRoleSrch a.roles macid, ∀ i < 7, role.info.aInfo.secEntValid i = false) :
    KeysMatch (macRemoveRole h2c a macid).2 := by
  unfold macRemoveRole
  cases found : macRoleSrch a.roles macid with
  | none => exact valid
  | some role =>
    dsimp only
    have marked : SameKeys a (a.onRole macid fun role => {role with info:=removalInfo role}) :=
      onRole_same a macid _ fun role _ => keyView_congr rfl ⟨rfl,rfl,rfl⟩
    have there := srch_update (fun role => {role with info:=removalInfo role}) found (srch_split found).1
    change macRoleSrch (a.onRole macid fun role => {role with info:=removalInfo role}).roles macid = _ at there
    generalize a.onRole macid (fun role => {role with info:=removalInfo role}) = b at marked there ⊢
    have released : SameKeys b (b.onRole macid fun other => {other with info:=releasedBssid b (removalInfo role)}) := by
      apply onRole_same
      intro other same
      rw [there] at same
      cases some.inj same
      unfold releasedBssid
      split <;> exact keyView_congr rfl ⟨rfl,rfl,rfl⟩
    have mode : (releasedBssid b (removalInfo role)).updMode = .remove := by
      unfold releasedBssid
      split <;> rfl
    have same := (marked.trans released).trans (removal_same _ h2c mode)
    split
    · exact same.match valid
    · rename_i done
      have sent := removal_sent mode (not_not.mp done)
      have kept := same.match valid
      refine ⟨?_,kept.next⟩
      rw [roleReturn_keys found (heldKeys_none (empty sent role found)) same,← same.keys]
      exact kept.keys

theorem keySlot_error (refused : keySlot mode keyType fits missing = .error ret) (named : missing ≠ .success) :
    ret ≠ .success := by
  unfold keySlot at refused
  split at refused
  · cases refused; decide
  · split at refused
    · cases refused; exact named
    · split at refused
      · cases refused
      · cases refused; decide

theorem onRole_keys {a : Adapter} (found : macRoleSrch a.roles macid = some role) (change : RoleTbl → RoleTbl) :
    ∃ rest, (roleKeys a.roles).Perm (heldKeys role ++ rest) ∧
      (roleKeys (a.onRole macid change).roles).Perm (heldKeys (change role) ++ rest) := by
  obtain ⟨_,before,after,split,updated,_⟩ := srch_split found
  refine ⟨roleKeys (before ++ after),?_,?_⟩
  · rw [split]; exact roleKeys_split before after role
  · rw [Adapter.onRole,updated]; exact roleKeys_split before after (change role)

def KeyWritten (h2c : H2c) (a : Adapter) (macid : Nat) : Prop := h2c.secCam ∧ (h2c.addrCam = .noBuffer ∨ BssidRoom a macid)

instance (h2c : H2c) (a : Adapter) (macid : Nat) : Decidable (KeyWritten h2c a macid) := inferInstanceAs (Decidable (_ ∧ _))

theorem writeSlot_room (tx : AddrCamTx) (a : Adapter) (macid i keyId : Nat) (valid : Bool) (index : Nat) :
    (writeAddrCam tx (a.onRole macid (writeSlot i keyId valid index)) macid).1 = .success ↔
      tx = .noBuffer ∨ BssidRoom a macid := by
  rw [writeAddrCam_room,room_writeSlot]

theorem writeSlot_written (written : KeyWritten h2c a macid) (i keyId : Nat) (valid : Bool) (index : Nat) :
    (writeAddrCam h2c.addrCam (a.onRole macid (writeSlot i keyId valid index)) macid).1 = .success :=
  (writeSlot_room h2c.addrCam a macid i keyId valid index).mpr written.2

theorem addKeyAt_match (valid : KeysMatch a) (found : macRoleSrch a.roles macId = some role)
    (bounded : index < a.hw.secCamEntryNum) (free : (a.secCamTable.secCamEntry index).valid = false)
    (written : (insertSlot role.info.aInfo keyType).isOk → KeyWritten h2c a macId) :
    KeysMatch (addKeyAt h2c a role secCamInfo macId keyId keyType index).2 := by
  unfold addKeyAt insertKeyToAddrCam
  cases chosen : insertSlot role.info.aInfo keyType with
  | error ret =>
    have failed := keySlot_error chosen (by decide)
    simp only [ne_eq,failed,not_false_eq_true,if_true]
    exact valid
  | ok i =>
    obtain ⟨inside,empty⟩ := keySlot_ok chosen
    have written := written (by rw [chosen]; rfl)
    have same := writeAddrCam_same h2c.addrCam (a.onRole macId (writeSlot i keyId true index)) macId
    simp only [writeSlot_written written,written.1,ne_eq,not_true_eq_false,if_false,Bool.not_true,Bool.false_eq_true]
    refine ⟨?_,?_⟩
    · -- the key enters both tables
      obtain ⟨rest,before,after⟩ := onRole_keys found (writeSlot i keyId true index)
      have inserted := heldKeys_insert inside (by simpa using empty) keyId index
      rw [(srch_split found).1] at inserted
      have keys := after.trans ((inserted.append_right rest).trans (before.symm.cons _))
      have set := camKeys_set secCamInfo macId keyId keyType bounded free
      simp only [same.keys,same.hw,same.table]
      exact keys.trans ((valid.keys.cons _).trans set.symm)
    · simp only [same.hw,same.table]
      exact valid.next

theorem addKey_match (valid : KeysMatch a) (h2c : H2c) (secCamInfo : SecCamInfo) (macId keyId keyType : Nat)
    (written : secCamInfo.type ≤ hwSupportEncTypeNum → (decideSecCamIndex a.hw a.secCamTable).isSome →
      ∀ role ∈ macRoleSrch a.roles macId, (insertSlot role.info.aInfo keyType).isOk → KeyWritten h2c a macId) :
    KeysMatch (macStaAddKey h2c a secCamInfo macId keyId keyType).2 := by
  unfold macStaAddKey
  split
  · exact valid
  rename_i known
  cases found : macRoleSrch a.roles macId with
  | none => exact valid
  | some role =>
    cases decided : decideSecCamIndex a.hw a.secCamTable with
    | none => exact valid
    | some index =>
      obtain ⟨bounded,free⟩ := decideSecCamIndex_free valid.next decided
      have moved : KeysMatch {a with secCamTable := {a.secCamTable with
          nextCamStorageIdx := (index+1) % a.hw.secCamEntryNum}} :=
        ⟨valid.keys,fun positive => Nat.mod_lt _ positive⟩
      exact addKeyAt_match moved found bounded free (written (by omega) (by rw [decided]; rfl) role found)

theorem delKey_match (valid : KeysMatch a) (h2c : H2c) (macId keyId keyType : Nat)
    (written : ∀ role ∈ macRoleSrch a.roles macId, (deleteSlot role.info.aInfo keyType keyId).isOk →
      KeyWritten h2c a macId) :
    KeysMatch (macStaDelKey h2c a macId keyId keyType).2 := by
  unfold macStaDelKey
  cases found : macRoleSrch a.roles macId with
  | none => exact valid
  | some role =>
    dsimp only
    unfold deleteKeyFromAddrCam
    cases chosen : deleteSlot role.info.aInfo keyType keyId with
    | error ret =>
      have failed := keySlot_error chosen (by decide)
      simp only [ne_eq,failed,not_false_eq_true,if_true]
      exact valid
    | ok i =>
      obtain ⟨inside,held⟩ := keySlot_ok chosen
      have written := written role found (by rw [chosen]; rfl)
      have same := writeAddrCam_same h2c.addrCam (a.onRole macId (writeSlot i 0 false 0)) macId
      simp only [writeSlot_written written,written.1,ne_eq,not_true_eq_false,if_false,Bool.not_true,Bool.false_eq_true]
      refine ⟨?_,?_⟩
      · -- the key leaves both tables
        obtain ⟨rest,before,after⟩ := onRole_keys found (writeSlot i 0 false 0)
        have deleted := heldKeys_delete inside (by simpa using (and_eq_true _ _ ▸ held).2)
        have keys := before.trans (deleted.append_right rest)
        have listed := valid.keys.mem_iff.mp (keys.mem_iff.mpr mem_cons_self)
        have cleared := camKeys_clear {} macId keyId keyType listed
        simp only [same.keys,same.hw,same.table]
        exact after.trans (((keys.symm.trans valid.keys).trans cleared).cons_inv)
      · simp only [same.hw,same.table]
        exact valid.next

def Holds (a : Adapter) (k i index : Nat) : Prop :=
  ∃ role, a.roles[k]? = some role ∧ i < 7 ∧ role.info.aInfo.secEntValid i ∧ role.info.aInfo.secEnt i = index

structure CamConsistent (a : Adapter) : Prop where
  pointed : ∀ role ∈ a.roles, ∀ i < 7, role.info.aInfo.secEntValid i →
    role.info.aInfo.secEnt i < a.hw.secCamEntryNum ∧
    (a.secCamTable.secCamEntry (role.info.aInfo.secEnt i)).valid ∧
    (a.secCamTable.secCamEntry (role.info.aInfo.secEnt i)).macId = role.macid ∧
    (a.secCamTable.secCamEntry (role.info.aInfo.secEnt i)).keyId = role.info.aInfo.secEntKeyid i
  distinct : ∀ k l i j index, Holds a k i index → Holds a l j index → k = l ∧ i = j
  referenced : ∀ index < a.hw.secCamEntryNum, (a.secCamTable.secCamEntry index).valid →
    ∃! slot : Nat × Nat, Holds a slot.1 slot.2 index

theorem mem_camKeys : (index,macId,keyId) ∈ camKeys entryNum table ↔ index < entryNum ∧
    (table.secCamEntry index).valid ∧ (table.secCamEntry index).macId = macId ∧
    (table.secCamEntry index).keyId = keyId := by
  constructor
  · intro listed
    obtain ⟨i,bounded,held⟩ := mem_contents.mp listed
    unfold entryKey at held
    split at held
    · rename_i valid
      simp only [some.injEq,mk.injEq] at held
      obtain ⟨rfl,rfl,rfl⟩ := held
      exact ⟨bounded,valid,rfl,rfl⟩
    · cases held
  · rintro ⟨bounded,valid,rfl,rfl⟩
    exact mem_contents.mpr ⟨index,bounded,by simp [entryKey,valid]⟩

section
variable (valid : KeysMatch a)
include valid

theorem slot_listed (member : role ∈ a.roles) (inside : i < 7)
    (held : role.info.aInfo.secEntValid i) :
    (role.info.aInfo.secEnt i,role.macid,role.info.aInfo.secEntKeyid i) ∈
      camKeys a.hw.secCamEntryNum a.secCamTable := by
  apply valid.keys.mem_iff.mp
  exact mem_flatMap.mpr ⟨role,member,mem_contents.mpr ⟨i,inside,by simp [slotKey,held]⟩⟩

theorem holds_distinct (one : Holds a k i index) (two : Holds a l j index) : k = l ∧ i = j := by
  obtain ⟨role,here,inside,held,rfl⟩ := one
  obtain ⟨role',there,inside',held',same⟩ := two
  have once : (roleKeys a.roles).Nodup := valid.keys.nodup_iff.mpr (camKeys_nodup _ _)
  obtain ⟨single,apart⟩ := nodup_flatMap.mp once
  obtain ⟨_,_,macId,keyId⟩ := mem_camKeys.mp (slot_listed valid (mem_of_getElem? here) inside held)
  obtain ⟨_,_,macId',keyId'⟩ := mem_camKeys.mp (slot_listed valid (mem_of_getElem? there) inside' held')
  -- the entry both point to says which key it is
  rw [same] at macId' keyId'
  have first : slotKey role i = some (role.info.aInfo.secEnt i,role.macid,role.info.aInfo.secEntKeyid i) := by
    simp [slotKey,held]
  have second : slotKey role' j = some (role.info.aInfo.secEnt i,role.macid,role.info.aInfo.secEntKeyid i) := by
    simp [slotKey,held',same,← macId,← macId',← keyId,← keyId']
  have listed := mem_contents.mpr ⟨i,inside,first⟩
  have listed' := mem_contents.mpr ⟨j,inside',second⟩
  obtain ⟨kBound,atK⟩ := List.getElem?_eq_some_iff.mp here
  obtain ⟨lBound,atL⟩ := List.getElem?_eq_some_iff.mp there
  have pairs := pairwise_iff_getElem.mp apart
  have place : k = l := by
    rcases Nat.lt_trichotomy k l with less | equal | more
    · have none := pairs k l kBound lBound less
      rw [onFun,atK,atL] at none
      exact (none listed listed').elim
    · exact equal
    · have none := pairs l k lBound kBound more
      rw [onFun,atK,atL] at none
      exact (none listed' listed).elim
  subst place
  rw [here] at there
  cases some.inj there
  exact ⟨rfl,contents_injective (single role (mem_of_getElem? here)) inside inside' first second⟩

theorem KeysMatch.consistent : CamConsistent a := by
  refine ⟨?_,?_,?_⟩
  · intro role member i inside held
    exact mem_camKeys.mp (slot_listed valid member inside held)
  · intro k l i j index one two
    exact holds_distinct valid one two
  · intro index bounded used
    have listed := mem_camKeys.mpr ⟨bounded,used,rfl,rfl⟩
    obtain ⟨role,member,key⟩ := mem_flatMap.mp (valid.keys.mem_iff.mpr listed)
    obtain ⟨i,inside,held⟩ := mem_contents.mp key
    obtain ⟨k,here⟩ := getElem?_of_mem member
    unfold slotKey at held
    split at held
    · rename_i set
      have holds : Holds a k i index := ⟨role,here,inside,set,congrArg fst (some.inj held)⟩
      refine ⟨(k,i),holds,?_⟩
      rintro ⟨l,j⟩ other
      obtain ⟨rfl,rfl⟩ := holds_distinct valid other holds
      rfl
    · cases held

-- The steps that keep the two tables in step: a role whose removal reaches the
-- firmware has no keys, and a key that is inserted or deleted is written to
-- both CAMs.
def CamGuard (a : Adapter) : CamEvent → Prop
  | .addRole .. | .changeRole .. => True
  | .removeRole h2c macid => RemovalSent h2c →
    ∀ role ∈ macRoleSrch a.roles macid, ∀ i < 7, role.info.aInfo.secEntValid i = false
  | .addKey h2c secCamInfo macId _ keyType =>
    secCamInfo.type ≤ hwSupportEncTypeNum → (decideSecCamIndex a.hw a.secCamTable).isSome →
      ∀ role ∈ macRoleSrch a.roles macId, (insertSlot role.info.aInfo keyType).isOk → KeyWritten h2c a macId
  | .delKey h2c macId keyId keyType =>
    ∀ role ∈ macRoleSrch a.roles macId, (deleteSlot role.info.aInfo keyType keyId).isOk → KeyWritten h2c a macId

instance (a : Adapter) : (event : CamEvent) → Decidable (CamGuard a event)
  | .addRole .. | .changeRole .. => isTrue trivial
  | .removeRole h2c macid => inferInstanceAs (Decidable (RemovalSent h2c → ∀ role ∈ macRoleSrch a.roles macid, ∀ i < 7,
      role.info.aInfo.secEntValid i = false))
  | .addKey h2c secCamInfo macId _ keyType => inferInstanceAs (Decidable (secCamInfo.type ≤ hwSupportEncTypeNum →
      (decideSecCamIndex a.hw a.secCamTable).isSome → ∀ role ∈ macRoleSrch a.roles macId,
        (insertSlot role.info.aInfo keyType).isOk → KeyWritten h2c a macId))
  | .delKey h2c macId keyId keyType => inferInstanceAs (Decidable (∀ role ∈ macRoleSrch a.roles macId,
      (deleteSlot role.info.aInfo keyType keyId).isOk → KeyWritten h2c a macId))

theorem camStep_match (allowed : CamGuard a event) : KeysMatch (camStep a event) := by
  cases event with
  | addRole h2c info => exact addRole_match valid h2c info
  | changeRole h2c info => exact changeRole_match valid h2c info
  | removeRole h2c macid => exact removeRole_match valid h2c allowed
  | addKey h2c secCamInfo macId keyId keyType => exact addKey_match valid h2c secCamInfo macId keyId keyType allowed
  | delKey h2c macId keyId keyType => exact delKey_match valid h2c macId keyId keyType allowed
end

theorem init_match (hw : HwInfo) : KeysMatch (.init hw) := by
  refine ⟨?_,id⟩
  have empty : camKeys hw.secCamEntryNum (Adapter.init hw).secCamTable = [] := by simp [camKeys,contents,entryKey,Adapter.init]
  simp only [Adapter.init] at empty
  simp [roleKeys,Adapter.init,empty]

theorem cam_consistent_reached (hw : HwInfo) (path : Reached camStep CamGuard (.init hw) a) : CamConsistent a := by
  have valid : KeysMatch a := path.invariant KeysMatch (init_match hw) (fun _ _ valid allowed => camStep_match valid allowed)
  exact valid.consistent

def nicHw : HwInfo := ⟨32,20,16,false⟩

def station (macid : Nat) (updMode : UpdMode) (opmode : OpMode) : RoleInfo :=
  {selfRole := .client,netType := .infra,updMode,opmode,macid,secEntMode := 2,isMulEnt := false,
    selfMac := fun _ => 2,targetMac := fun _ => 4,bssid := fun _ => 4}

def keyTraffic : List CamEvent :=
  [.addRole {} (station 0 .create .disconn),.addKey {} {} 0 0 0,.addKey {} {} 0 1 1,
    .addRole {} (station 5 .create .disconn),.addKey {addrCam:=.lost} {} 5 1 1,.delKey {} 0 1 1,
    .changeRole {joinInfo:=.fail} (station 0 .conDisconn .disconn),.removeRole {} 0]

theorem cam_consistent_reached_keys :
    Admitted camStep CamGuard (.init nicHw) keyTraffic ∧
    roleKeys (run camStep (.init nicHw) keyTraffic).roles = [(2,5,1)] ∧
    CamConsistent (run camStep (.init nicHw) keyTraffic) := by
  have admitted : Admitted camStep CamGuard (.init nicHw) keyTraffic := by decide +kernel
  exact ⟨admitted,by decide +kernel,cam_consistent_reached nicHw (Reached.start.run admitted)⟩

def removedWithKey : List CamEvent := [.addRole {} (station 0 .create .disconn),.addKey {} {} 0 0 0,.removeRole {} 0]

def keyNotSent : List CamEvent := [.addRole {} (station 0 .create .disconn),.addKey {secCam:=false} {} 0 0 0]

def keyNotCleared : List CamEvent :=
  [.addRole {} (station 0 .create .disconn),.addKey {} {} 0 0 0,.delKey {secCam:=false} 0 0 0]

def dangling (a : Adapter) : Bool :=
  (range a.hw.secCamEntryNum).any (fun index => (a.secCamTable.secCamEntry index).valid &&
    !a.roles.any (fun role => (range 7).any fun i => role.info.aInfo.secEntValid i && role.info.aInfo.secEnt i == index)) ||
  a.roles.any (fun role => (range 7).any fun i =>
    role.info.aInfo.secEntValid i && !(a.secCamTable.secCamEntry (role.info.aInfo.secEnt i)).valid)

theorem dangling_inconsistent (found : dangling a) : ¬ CamConsistent a := by
  intro consistent
  rcases (or_eq_true _ _).mp found with leaked | empty
  · obtain ⟨index,bound,leaked⟩ := any_eq_true.mp leaked
    obtain ⟨used,unheld⟩ := (and_eq_true _ _).mp leaked
    obtain ⟨⟨k,i⟩,⟨role,here,inside,held,points⟩,_⟩ := consistent.referenced index (mem_range.mp bound) used
    have holds : a.roles.any (fun role => (range 7).any fun i =>
        role.info.aInfo.secEntValid i && role.info.aInfo.secEnt i == index) :=
      any_eq_true.mpr ⟨role,mem_of_getElem? here,
        any_eq_true.mpr ⟨i,mem_range.mpr inside,by simp [held,points]⟩⟩
    simp [holds] at unheld
  · obtain ⟨role,member,empty⟩ := any_eq_true.mp empty
    obtain ⟨i,inside,empty⟩ := any_eq_true.mp empty
    obtain ⟨held,unset⟩ := (and_eq_true _ _).mp empty
    have valid := (consistent.pointed role member i (mem_range.mp inside) held).2.1
    simp [valid] at unset

theorem cam_inconsistent :
    ¬ CamConsistent (run camStep (.init nicHw) removedWithKey) ∧
    ¬ CamConsistent (run camStep (.init nicHw) keyNotSent) ∧
    ¬ CamConsistent (run camStep (.init nicHw) keyNotCleared) :=
  ⟨dangling_inconsistent (by decide +kernel),dangling_inconsistent (by decide +kernel),
    dangling_inconsistent (by decide +kernel)⟩
end Rtl8852au.Role
