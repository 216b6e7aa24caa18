import Mathlib.Data.Nat.Find
import Rtl8852au.SecurityCamAtomic

namespace Rtl8852au.Role
open Machine Slots Function List Option Bool

section
variable (mode : Fin 4)

-- `none` is `MACKEYNOTEXT`.
def checkKeyType (keyIndex : Nat) : Option Nat :=
  match mode with
  | 0 | 1 => if keyIndex ≤ 6 then some 0 else none
  | 2 => if keyIndex ≤ 1 then some 0 else if keyIndex ≤ 4 then some 1 else if keyIndex ≤ 6 then some 2 else none
  | 3 => if keyIndex ≤ 1 then some 0 else if keyIndex ≤ 5 then some 1 else if keyIndex = 6 then some 2 else none

def slotMap (role : RoleTbl) (i : Nat) : Option (Nat × Nat) :=
  if role.info.aInfo.secEntValid i then some (role.info.aInfo.secEntKeyid i,role.info.aInfo.secEnt i) else none

def roleSlots (a : Adapter) (macId : Nat) : Option (Fin 4 × (Nat → Option (Nat × Nat))) :=
  (macRoleSrch a.roles macId).map fun role => (role.info.aInfo.secEntMode,slotMap role)

def holdsKey (slots : Nat → Option (Nat × Nat)) (keyType keyId i : Nat) : Bool :=
  checkKeyType mode i == some keyType && (slots i).any fun slot => slot.1 == keyId

def holders (slots : Nat → Option (Nat × Nat)) (keyType keyId : Nat) : Nat :=
  (range 7).countP (holdsKey mode slots keyType keyId)

theorem checkKeyIndex_other (t i : Nat) : checkKeyIndex mode (t+3) i = false := by
  match mode with
  | 0 | 1 | 2 | 3 => rfl

theorem checkKeyIndex_type (keyType i : Nat) :
    checkKeyIndex mode keyType i ↔ checkKeyType mode i = some keyType := by
  match mode,keyType with
  | 0,0 | 1,0 => simp [checkKeyIndex,checkKeyType]
  | 0,t+1 | 1,t+1 => simp [checkKeyIndex,checkKeyType]
  | 2,0 | 2,1 | 2,2 | 3,0 | 3,1 | 3,2 =>
    simp only [checkKeyIndex,checkKeyType,and_eq_true,decide_eq_true_eq]
    grind
  | 2,t+3 | 3,t+3 =>
    rw [checkKeyIndex_other]
    simp only [checkKeyType]
    grind
end

theorem checkKeyType_small (typed : checkKeyType mode i = some keyType) : i < 7 := by
  unfold checkKeyType at typed
  split at typed <;> grind

theorem checkKeyType_first (typed : checkKeyType mode i = some keyType) :
    ∃ first, decideKeyIndex mode keyType = some first ∧ first ≤ i ∧ ∀ j, first ≤ j → j ≤ i → checkKeyType mode j = some keyType := by
  have small := checkKeyType_small typed
  match mode,keyType with
  | 0,0 | 1,0 =>
    refine ⟨0,rfl,Nat.zero_le _,fun j _ below => ?_⟩
    simp only [checkKeyType]
    grind
  | 0,t+1 | 1,t+1 => simp [checkKeyType] at typed
  | 2,0 | 3,0 =>
    refine ⟨0,rfl,Nat.zero_le _,fun j _ below => ?_⟩
    simp only [checkKeyType] at typed ⊢
    grind
  | 2,1 | 3,1 =>
    refine ⟨2,rfl,?_,fun j above below => ?_⟩
    · simp only [checkKeyType] at typed
      grind
    · simp only [checkKeyType] at typed ⊢
      grind
  | 2,2 =>
    refine ⟨5,rfl,?_,fun j above below => ?_⟩
    · simp only [checkKeyType] at typed
      grind
    · simp only [checkKeyType] at typed ⊢
      grind
  | 3,2 =>
    refine ⟨6,rfl,?_,fun j above below => ?_⟩
    · simp only [checkKeyType] at typed
      grind
    · simp only [checkKeyType] at typed ⊢
      grind
  | 2,t+3 | 3,t+3 =>
    simp only [checkKeyType] at typed
    grind

theorem keySlot_exact : keySlot mode keyType fits missing = .ok i ↔
    checkKeyType mode i = some keyType ∧ fits i ∧
      ∀ j < i, checkKeyType mode j = some keyType → fits j = false := by
  constructor
  · intro chosen
    unfold keySlot at chosen
    split at chosen
    · exact nomatch chosen
    rename_i first decided
    split at chosen
    · exact nomatch chosen
    rename_i k found
    split at chosen
    · rename_i isType
      cases chosen
      obtain ⟨fit,_,before⟩ := find?_range'_eq_some.mp found
      refine ⟨(checkKeyIndex_type mode keyType i).mp isType,fit,fun j below typed => ?_⟩
      obtain ⟨first',decided',above,_⟩ := checkKeyType_first typed
      rw [decided] at decided'
      obtain rfl := some.inj decided'
      simpa using before j above below
    · exact nomatch chosen
  · rintro ⟨typed,fit,before⟩
    obtain ⟨first,decided,above,between⟩ := checkKeyType_first typed
    have small := checkKeyType_small typed
    have found : (range' first (7 - first)).find? fits = some i := by
      refine find?_range'_eq_some.mpr ⟨fit,?_,fun j from_ below => ?_⟩
      · exact mem_range'.mpr ⟨i-first,by omega,by omega⟩
      · simpa using before j below (between j from_ (Nat.le_of_lt below))
    unfold keySlot
    rw [decided]
    dsimp only
    rw [found]
    dsimp only
    rw [if_pos ((checkKeyIndex_type mode keyType i).mpr typed)]

theorem countP_change (i : Nat) (same : ∀ j, j ≠ i → q j = p j) (off : p i = false) (queue : List Nat)
    (once : queue.Nodup) : queue.countP q = queue.countP p + if i ∈ queue ∧ q i then 1 else 0 := by
  induction queue with
  | nil => simp
  | cons j rest ih =>
    obtain ⟨out,once'⟩ := nodup_cons.mp once
    rw [countP_cons,countP_cons,ih once']
    by_cases here : j = i
    · subst here
      simp [out,off]
    · rw [same j here]
      have member : i ∈ j :: rest ↔ i ∈ rest := by simp [Ne.symm here]
      simp only [member]
      omega

theorem holders_fill (slots : Nat → Option (Nat × Nat)) (free : slots i = none) (typed : checkKeyType mode i = some keyType)
    (keyId index t id' : Nat) :
    holders mode (update slots i (some (keyId,index))) t id' =
      holders mode slots t id' + if t = keyType ∧ id' = keyId then 1 else 0 := by
  have inside : i ∈ range 7 := mem_range.mpr (checkKeyType_small typed)
  unfold holders
  rw [countP_change (p := holdsKey mode slots t id') i ?_ ?_ _ nodup_range]
  · congr 1
    have now : holdsKey mode (update slots i (some (keyId,index))) t id' i ↔ t = keyType ∧ id' = keyId := by
      unfold holdsKey
      rw [typed,update_self]
      simp only [any_some,and_eq_true,beq_iff_eq,some.injEq]
      exact ⟨fun both => ⟨both.1.symm,both.2.symm⟩,fun both => ⟨both.1.symm,both.2.symm⟩⟩
    simp [inside,now]
  · intro j other
    simp [holdsKey,update_of_ne other]
  · simp [holdsKey,free]

theorem holders_clear (slots : Nat → Option (Nat × Nat)) (full : slots i = some (keyId,index))
    (typed : checkKeyType mode i = some keyType) (t id' : Nat) :
    holders mode (update slots i none) t id' + (if t = keyType ∧ id' = keyId then 1 else 0) = holders mode slots t id' := by
  have back : update (update slots i none) i (some (keyId,index)) = slots := by rw [update_idem,← full,update_eq_self]
  rw [← holders_fill (update slots i none) (by simp) typed keyId index t id',back]

theorem holders_pos : 0 < holders mode slots keyType keyId ↔
    ∃ i index, checkKeyType mode i = some keyType ∧ slots i = some (keyId,index) := by
  unfold holders
  rw [countP_pos_iff]
  constructor
  · rintro ⟨i,_,holds⟩
    unfold holdsKey at holds
    simp only [and_eq_true,beq_iff_eq] at holds
    obtain ⟨typed,isKey⟩ := holds
    cases full : slots i with
    | none =>
      rw [full] at isKey
      exact nomatch isKey
    | some slot =>
      rw [full] at isKey
      have same : slot.1 = keyId := by simpa using isKey
      exact ⟨i,slot.2,typed,by rw [full,← same]⟩
  · rintro ⟨i,index,typed,full⟩
    exact ⟨i,mem_range.mpr (checkKeyType_small typed),by simp [holdsKey,typed,full]⟩

def atBssid (aIdx bIdx : Nat) (bssid : MacAddr) (role : RoleTbl) : RoleTbl :=
  {role with info := {role.info with
    aInfo := {role.info.aInfo with bssidCamIdx:=aIdx}
    bInfo := {role.info.bInfo with bssidCamIdx:=bIdx,bssid:=bssid}}}

theorem findBssid_at (hw : HwInfo) (roles : List RoleTbl) (role : RoleTbl) :
    ∃ aIdx bIdx bssid, {role with info:=(findAvailBssidCamEntry hw roles role.info).2} = atBssid aIdx bIdx bssid role := by
  unfold findAvailBssidCamEntry
  dsimp only
  split
  · split <;> exact ⟨_,_,_,rfl⟩
  · split <;> exact ⟨_,_,_,rfl⟩

theorem onRole_self {a : Adapter} (found : macRoleSrch a.roles macid = some role) : a.onRole macid (fun _ => role) = a := by
  obtain ⟨_,before,after,split,updated,_⟩ := srch_split found
  unfold Adapter.onRole
  rw [updated,← split]

theorem onRole_found {a : Adapter} (found : macRoleSrch a.roles macid = some role) (change : RoleTbl → RoleTbl) :
    a.onRole macid change = a.onRole macid fun _ => change role := by
  obtain ⟨_,before,after,_,updated,_⟩ := srch_split found
  unfold Adapter.onRole
  rw [updated change,updated fun _ => change role]

theorem updAddrCam_at (found : macRoleSrch a.roles macid = some role) (tx : AddrCamTx) :
    ∃ aIdx bIdx bssid, (macUpdAddrCamChg tx a macid).2 = a.onRole macid fun _ => atBssid aIdx bIdx bssid role := by
  unfold macUpdAddrCamChg
  split
  · exact ⟨role.info.aInfo.bssidCamIdx,role.info.bInfo.bssidCamIdx,role.info.bInfo.bssid,(onRole_self found).symm⟩
  · have given : macRoleSrch (a.onRole macid (giveUpBssid a.hw)).roles macid = some (giveUpBssid a.hw role) :=
      srch_update _ found (srch_split found).1
    dsimp only
    rw [given]
    obtain ⟨aIdx,bIdx,bssid,picked⟩ := findBssid_at a.hw (a.onRole macid (giveUpBssid a.hw)).roles (giveUpBssid a.hw role)
    have written : ((a.onRole macid (giveUpBssid a.hw)).onRole macid fun other =>
        {other with info:=(findAvailBssidCamEntry a.hw (a.onRole macid (giveUpBssid a.hw)).roles (giveUpBssid a.hw role).info).2}) =
        a.onRole macid fun _ => atBssid aIdx bIdx bssid role := by
      rw [onRole_found given,picked]
      have named (other : RoleTbl) : (giveUpBssid a.hw other).macid = other.macid := rfl
      unfold Adapter.onRole
      dsimp only
      rw [update_update named]
      rfl
    refine ⟨aIdx,bIdx,bssid,?_⟩
    rw [← written]
    dsimp only
    split <;> rfl

theorem srch_other (other : k ≠ macid) (named : ∀ role, macRoleSrch roles macid = some role → (change role).macid = macid) :
    macRoleSrch (updateRole macid change roles) k = macRoleSrch roles k := by
  induction roles with
  | nil => rfl
  | cons first rest ih =>
    by_cases here : macid = first.macid
    · have isNamed := named first (srch_here here)
      rw [update_here here,srch_later (isNamed ▸ other),srch_later (here ▸ other)]
    · rw [update_later here]
      by_cases mine : k = first.macid
      · rw [srch_here mine,srch_here mine]
      · rw [srch_later mine,srch_later mine]
        exact ih fun role found => named role ((srch_later here).trans found)

theorem writeSlot_slots (found : macRoleSrch a.roles macId = some role) (tx : AddrCamTx) (i keyId : Nat) (valid : Bool)
    (index : Nat) : roleSlots (writeAddrCam tx (a.onRole macId (writeSlot i keyId valid index)) macId).2 macId =
        some (role.info.aInfo.secEntMode,update (slotMap role) i (if valid then some (keyId,index) else none)) ∧
      ∀ k, k ≠ macId → roleSlots (writeAddrCam tx (a.onRole macId (writeSlot i keyId valid index)) macId).2 k = roleSlots a k := by
  have named := (srch_split found).1
  have written : macRoleSrch (a.onRole macId (writeSlot i keyId valid index)).roles macId =
      some (writeSlot i keyId valid index role) := srch_update _ found named
  obtain ⟨aIdx,bIdx,bssid,sent⟩ := updAddrCam_at written tx
  have isRet : (writeAddrCam tx (a.onRole macId (writeSlot i keyId valid index)) macId).2 =
      (a.onRole macId (writeSlot i keyId valid index)).onRole macId fun _ =>
        atBssid aIdx bIdx bssid (writeSlot i keyId valid index role) := sent
  rw [isRet]
  constructor
  · unfold roleSlots
    have after : macRoleSrch ((a.onRole macId (writeSlot i keyId valid index)).onRole macId fun _ =>
        atBssid aIdx bIdx bssid (writeSlot i keyId valid index role)).roles macId =
        some (atBssid aIdx bIdx bssid (writeSlot i keyId valid index role)) := srch_update _ written named
    rw [after,map_some]
    congr 2
    funext j
    by_cases same : j = i
    · subst same
      simp [slotMap,atBssid,writeSlot]
    · simp [slotMap,atBssid,writeSlot,update_of_ne same]
  · intro k other
    unfold roleSlots
    have two : macRoleSrch ((a.onRole macId (writeSlot i keyId valid index)).onRole macId fun _ =>
        atBssid aIdx bIdx bssid (writeSlot i keyId valid index role)).roles k =
        macRoleSrch (a.onRole macId (writeSlot i keyId valid index)).roles k := srch_other other fun _ _ => named
    have one : macRoleSrch (a.onRole macId (writeSlot i keyId valid index)).roles k = macRoleSrch a.roles k :=
      srch_other other fun role' found' => (srch_split found').1
    rw [two,one]

theorem addKeyAt_slots (found : macRoleSrch b.roles macId = some role)
    (success : (addKeyAt h2c b role secCamInfo macId keyId keyType index).1 = .success) :
    ∃ i, insertSlot role.info.aInfo keyType = .ok i ∧
      roleSlots (addKeyAt h2c b role secCamInfo macId keyId keyType index).2 macId =
        some (role.info.aInfo.secEntMode,update (slotMap role) i (some (keyId,index))) ∧
      ∀ k, k ≠ macId → roleSlots (addKeyAt h2c b role secCamInfo macId keyId keyType index).2 k = roleSlots b k := by
  cases chosen : insertSlot role.info.aInfo keyType with
  | error ret =>
    obtain ⟨refused,failed⟩ := insert_refused chosen h2c secCamInfo macId keyId index (a := b)
    rw [refused] at success
    exact absurd success failed
  | ok i =>
    obtain ⟨here,others⟩ := writeSlot_slots found h2c.addrCam i keyId true index
    have after (k : Nat) : roleSlots (addKeyAt h2c b role secCamInfo macId keyId keyType index).2 k =
        roleSlots (writeAddrCam h2c.addrCam (b.onRole macId (writeSlot i keyId true index)) macId).2 k := by
      unfold addKeyAt insertKeyToAddrCam
      rw [chosen]
      dsimp only
      split
      · rfl
      split <;> rfl
    exact ⟨i,rfl,(after macId).trans here,fun k other => (after k).trans (others k other)⟩

theorem addKey_slots (success : (macStaAddKey h2c a secCamInfo macId keyId keyType).1 = .success) :
    ∃ role i index, macRoleSrch a.roles macId = some role ∧ insertSlot role.info.aInfo keyType = .ok i ∧
      roleSlots (macStaAddKey h2c a secCamInfo macId keyId keyType).2 macId =
        some (role.info.aInfo.secEntMode,update (slotMap role) i (some (keyId,index))) ∧
      ∀ k, k ≠ macId → roleSlots (macStaAddKey h2c a secCamInfo macId keyId keyType).2 k = roleSlots a k := by
  unfold macStaAddKey at success ⊢
  split at success
  · exact nomatch success
  rename_i known
  rw [if_neg known]
  cases found : macRoleSrch a.roles macId with
  | none =>
    rw [found] at success
    exact nomatch success
  | some role =>
    rw [found] at success
    dsimp only at success ⊢
    cases decided : decideSecCamIndex a.hw a.secCamTable with
    | none =>
      rw [decided] at success
      exact nomatch success
    | some index =>
      rw [decided] at success
      obtain ⟨i,chosen,here,others⟩ := addKeyAt_slots (b := {a with secCamTable := {a.secCamTable with
        nextCamStorageIdx := (index+1) % a.hw.secCamEntryNum}}) found success
      exact ⟨role,i,index,rfl,chosen,here,others⟩

theorem delKey_slots (found : macRoleSrch a.roles macId = some role) (chosen : deleteSlot role.info.aInfo keyType keyId = .ok i)
    (h2c : H2c) :
    roleSlots (macStaDelKey h2c a macId keyId keyType).2 macId =
        some (role.info.aInfo.secEntMode,update (slotMap role) i none) ∧
      ∀ k, k ≠ macId → roleSlots (macStaDelKey h2c a macId keyId keyType).2 k = roleSlots a k := by
  obtain ⟨here,others⟩ := writeSlot_slots found h2c.addrCam i 0 false 0
  have after : ∀ k, roleSlots (macStaDelKey h2c a macId keyId keyType).2 k =
      roleSlots (writeAddrCam h2c.addrCam (a.onRole macId (writeSlot i 0 false 0)) macId).2 k := by
    intro k
    unfold macStaDelKey deleteKeyFromAddrCam
    rw [found]
    dsimp only
    rw [chosen]
    dsimp only
    split
    · rfl
    split <;> rfl
  exact ⟨(after macId).trans here,fun k other => (after k).trans (others k other)⟩

theorem delKey_nothing (missing : ∀ role, macRoleSrch a.roles macId = some role → ∀ i, deleteSlot role.info.aInfo keyType keyId ≠ .ok i)
    (h2c : H2c) : (macStaDelKey h2c a macId keyId keyType).2 = a := by
  cases found : macRoleSrch a.roles macId with
  | none =>
    unfold macStaDelKey
    rw [found]
  | some role =>
    cases chosen : deleteSlot role.info.aInfo keyType keyId with
    | ok i => exact absurd chosen (missing role found i)
    | error ret => rw [delete_refused found chosen h2c]

theorem insertSlot_exact : insertSlot role.info.aInfo keyType = .ok i ↔
    checkKeyType role.info.aInfo.secEntMode i = some keyType ∧ slotMap role i = none ∧
      ∀ j < i, checkKeyType role.info.aInfo.secEntMode j = some keyType → (slotMap role j).isSome := by
  unfold insertSlot
  rw [keySlot_exact]
  have isFree (j : Nat) : (!role.info.aInfo.secEntValid j) ↔ slotMap role j = none := by
    unfold slotMap
    cases role.info.aInfo.secEntValid j <;> simp
  have isFull (j : Nat) : (!role.info.aInfo.secEntValid j) = false ↔ (slotMap role j).isSome := by
    unfold slotMap
    cases role.info.aInfo.secEntValid j <;> simp
  simp only [isFree,isFull]

theorem deleteSlot_exact : deleteSlot role.info.aInfo keyType keyId = .ok i ↔
    checkKeyType role.info.aInfo.secEntMode i = some keyType ∧ (∃ index, slotMap role i = some (keyId,index)) ∧
      ∀ j < i, checkKeyType role.info.aInfo.secEntMode j = some keyType → ∀ index, slotMap role j ≠ some (keyId,index) := by
  unfold deleteSlot
  rw [keySlot_exact]
  have holds (j : Nat) : (role.info.aInfo.secEntKeyid j == keyId && role.info.aInfo.secEntValid j) ↔
      ∃ index, slotMap role j = some (keyId,index) := by
    unfold slotMap
    cases role.info.aInfo.secEntValid j <;> simp
  have holdsNot (j : Nat) : (role.info.aInfo.secEntKeyid j == keyId && role.info.aInfo.secEntValid j) = false ↔
      ∀ index, slotMap role j ≠ some (keyId,index) := by
    rw [← not_eq_true,holds]
    simp
  simp only [holds,holdsNot]

section
variable (here : roleSlots a macId = some (mode,slots))
include here

theorem roleSlots_some :
    ∃ role, macRoleSrch a.roles macId = some role ∧ role.info.aInfo.secEntMode = mode ∧ slotMap role = slots := by
  unfold roleSlots at here
  obtain ⟨role,found,same⟩ := map_eq_some_iff.mp here
  simp only [Prod.mk.injEq] at same
  exact ⟨role,found,same.1,same.2⟩

theorem addKey_typed
    (success : (macStaAddKey h2c a secCamInfo macId keyId keyType).1 = .success) :
    ∃ i index, checkKeyType mode i = some keyType ∧ slots i = none ∧
      (∀ j < i, checkKeyType mode j = some keyType → (slots j).isSome) ∧
      roleSlots (macStaAddKey h2c a secCamInfo macId keyId keyType).2 macId =
        some (mode,update slots i (some (keyId,index))) := by
  obtain ⟨role,found,rfl,rfl⟩ := roleSlots_some here
  obtain ⟨other,i,index,found',chosen,after,_⟩ := addKey_slots success
  rw [found] at found'
  obtain rfl := some.inj found'
  obtain ⟨typed,free,before⟩ := insertSlot_exact.mp chosen
  exact ⟨i,index,typed,free,before,after⟩

theorem delKey_exact (h2c : H2c) (keyId keyType : Nat)
    (typed : checkKeyType mode i = some keyType) (full : slots i = some (keyId,index))
    (first : ∀ j < i, checkKeyType mode j = some keyType → ∀ index, slots j ≠ some (keyId,index)) :
    roleSlots (macStaDelKey h2c a macId keyId keyType).2 macId = some (mode,update slots i none) := by
  obtain ⟨role,found,rfl,rfl⟩ := roleSlots_some here
  exact (delKey_slots found (deleteSlot_exact.mpr ⟨typed,⟨index,full⟩,first⟩) h2c).1

theorem delKey_absent (h2c : H2c) (absent : holders mode slots keyType keyId = 0) :
    (macStaDelKey h2c a macId keyId keyType).2 = a := by
  obtain ⟨role,found,rfl,rfl⟩ := roleSlots_some here
  refine delKey_nothing (fun other found' i chosen => ?_) h2c
  rw [found] at found'
  obtain rfl := some.inj found'
  obtain ⟨typed,⟨index,full⟩,_⟩ := deleteSlot_exact.mp chosen
  have held := holders_pos.mpr ⟨i,index,typed,full⟩
  omega
end

theorem holders_first (present : 0 < holders mode slots keyType keyId) :
    ∃ i index, checkKeyType mode i = some keyType ∧ slots i = some (keyId,index) ∧
      ∀ j < i, checkKeyType mode j = some keyType → ∀ index, slots j ≠ some (keyId,index) := by
  have some_ : ∃ i, checkKeyType mode i = some keyType ∧ ∃ index, slots i = some (keyId,index) := by
    obtain ⟨i,index,typed,full⟩ := holders_pos.mp present
    exact ⟨i,typed,index,full⟩
  classical
  obtain ⟨typed,index,full⟩ := Nat.find_spec some_
  refine ⟨Nat.find some_,index,typed,full,fun j below typed' index' full' => ?_⟩
  exact Nat.find_min some_ below ⟨typed',index',full'⟩

theorem delKey_present (here : roleSlots a macId = some (mode,slots)) (h2c : H2c) (present : 0 < holders mode slots keyType keyId) :
    ∃ i index, checkKeyType mode i = some keyType ∧ slots i = some (keyId,index) ∧
      roleSlots (macStaDelKey h2c a macId keyId keyType).2 macId = some (mode,update slots i none) := by
  obtain ⟨i,index,typed,full,first⟩ := holders_first present
  exact ⟨i,index,typed,full,delKey_exact here h2c keyId keyType typed full first⟩

theorem add_delete (here : roleSlots a macId = some (mode,slots))
    (success : (macStaAddKey h2c a secCamInfo macId keyId keyType).1 = .success) (absent : holders mode slots keyType keyId = 0)
    (h2c' : H2c) :
    roleSlots (macStaDelKey h2c' (macStaAddKey h2c a secCamInfo macId keyId keyType).2 macId keyId keyType).2 macId =
      some (mode,slots) := by
  obtain ⟨i,index,typed,free,_,after⟩ := addKey_typed here success
  have back : update (update slots i (some (keyId,index))) i none = slots := by rw [update_idem,← free,update_eq_self]
  have deleted := delKey_exact after h2c' keyId keyType typed (update_self ..) fun j below typed' index' full => by
    rw [update_of_ne (Nat.ne_of_lt below)] at full
    have held := holders_pos.mpr ⟨j,index',typed',full⟩
    omega
  rw [deleted,back]

def keyOps (a : Adapter) : CamEvent → Prop
  | .addKey h2c secCamInfo macId keyId keyType => (macStaAddKey h2c a secCamInfo macId keyId keyType).1 = .success
  | .delKey _ _ _ _ => True
  | _ => False

instance (a : Adapter) : DecidablePred (keyOps a)
  | .addKey _ _ _ _ _ => inferInstanceAs (Decidable (_ = _))
  | .delKey _ _ _ _ => inferInstanceAs (Decidable True)
  | .addRole _ _ | .changeRole _ _ | .removeRole _ _ => inferInstanceAs (Decidable False)

section
variable (macId keyType keyId : Nat)

def addOf : CamEvent → Nat
  | .addKey _ _ m k t => if m = macId ∧ t = keyType ∧ k = keyId then 1 else 0
  | _ => 0

def findsKey (a : Adapter) (macId keyType keyId : Nat) : Bool :=
  match macRoleSrch a.roles macId with
  | none => false
  | some role => (deleteSlot role.info.aInfo keyType keyId).isOk

def delOf (a : Adapter) : CamEvent → Nat
  | .delKey _ m k t => if m = macId ∧ t = keyType ∧ k = keyId ∧ findsKey a macId keyType keyId then 1 else 0
  | _ => 0

def addsOf (events : List CamEvent) : Nat := (events.map (addOf macId keyType keyId)).sum
end

def delsOf (macId keyType keyId : Nat) : Adapter → List CamEvent → Nat
  | _,[] => 0
  | a,event :: rest => delOf macId keyType keyId a event + delsOf macId keyType keyId (camStep a event) rest

theorem findsKey_exact (here : roleSlots a macId = some (mode,slots)) (keyType keyId : Nat) :
    findsKey a macId keyType keyId ↔ 0 < holders mode slots keyType keyId := by
  obtain ⟨role,found,rfl,rfl⟩ := roleSlots_some here
  unfold findsKey
  rw [found]
  dsimp only
  constructor
  · intro isOk
    cases chosen : deleteSlot role.info.aInfo keyType keyId with
    | error ret =>
      rw [chosen] at isOk
      exact nomatch isOk
    | ok i =>
      obtain ⟨typed,⟨index,full⟩,_⟩ := deleteSlot_exact.mp chosen
      exact holders_pos.mpr ⟨i,index,typed,full⟩
  · intro present
    obtain ⟨i,index,typed,full,first⟩ := holders_first present
    rw [deleteSlot_exact.mpr ⟨typed,⟨index,full⟩,first⟩]
    rfl

theorem keyOps_step (here : roleSlots a macId = some (mode,slots)) (allowed : keyOps a event) :
    ∃ slots', roleSlots (camStep a event) macId = some (mode,slots') ∧
      ∀ t k, holders mode slots' t k + delOf macId t k a event = holders mode slots t k + addOf macId t k event := by
  cases event with
  | addRole h2c info => exact allowed.elim
  | changeRole h2c info => exact allowed.elim
  | removeRole h2c m => exact allowed.elim
  | addKey h2c secCamInfo m keyId keyType =>
    by_cases mine : m = macId
    · subst mine
      obtain ⟨i,index,typed,free,_,after⟩ := addKey_typed here allowed
      refine ⟨_,after,fun t k => ?_⟩
      rw [holders_fill slots free typed keyId index t k]
      have same : (keyType = t ∧ keyId = k) ↔ (t = keyType ∧ k = keyId) :=
        ⟨fun both => ⟨both.1.symm,both.2.symm⟩,fun both => ⟨both.1.symm,both.2.symm⟩⟩
      simp [delOf,addOf,same]
    · obtain ⟨_,_,_,_,_,_,others⟩ := addKey_slots allowed
      refine ⟨slots,(others macId (Ne.symm mine)).trans here,fun t k => ?_⟩
      simp [delOf,addOf,mine]
  | delKey h2c m keyId keyType =>
    by_cases mine : m = macId
    · subst mine
      by_cases present : 0 < holders mode slots keyType keyId
      · obtain ⟨i,index,typed,full,after⟩ := delKey_present here h2c present
        refine ⟨_,after,fun t k => ?_⟩
        have cleared := holders_clear slots full typed t k
        by_cases same : t = keyType ∧ k = keyId
        · obtain ⟨rfl,rfl⟩ := same
          have finds := (findsKey_exact here t k).mpr present
          simpa [delOf,addOf,finds] using cleared
        · have other : ¬(keyType = t ∧ keyId = k ∧ findsKey a m t k) := fun both => same ⟨both.1.symm,both.2.1.symm⟩
          simpa [delOf,addOf,same,other] using cleared
      · have absent : holders mode slots keyType keyId = 0 := by omega
        refine ⟨slots,by rw [show camStep a (.delKey h2c m keyId keyType) = a from delKey_absent here h2c absent]; exact here,
          fun t k => ?_⟩
        have other : ¬(keyType = t ∧ keyId = k ∧ findsKey a m t k) := by
          rintro ⟨rfl,rfl,finds⟩
          exact present ((findsKey_exact here keyType keyId).mp finds)
        simp [delOf,addOf,other]
    · have untouched : roleSlots (camStep a (.delKey h2c m keyId keyType)) macId = roleSlots a macId := by
        unfold camStep
        dsimp only
        by_cases chosen : ∃ role i, macRoleSrch a.roles m = some role ∧ deleteSlot role.info.aInfo keyType keyId = .ok i
        · obtain ⟨role,i,found,chosen⟩ := chosen
          exact (delKey_slots found chosen h2c).2 macId (Ne.symm mine)
        · rw [delKey_nothing fun role found i chosen' => chosen ⟨role,i,found,chosen'⟩]
      refine ⟨slots,untouched.trans here,fun t k => ?_⟩
      simp [delOf,addOf,mine]

def onceOnly (macId : Nat) (a : Adapter) (event : CamEvent) : Prop :=
  ∀ mode slots, roleSlots a macId = some (mode,slots) → ∀ t k, addOf macId t k event = 1 → holders mode slots t k = 0

-- Over any run of accepted additions and of deletions a key is in as many slots
-- of its type as it was added times less deleted ones, so in one at most when
-- no key is added that is there; and the next operation fills a free slot of
-- the key's type, or clears one slot that holds the key and no other.
theorem key_slots_kept (here : roleSlots a macId = some (mode,slots)) (events : List CamEvent)
    (admitted : Admitted camStep keyOps a events) :
    ∃ slots', roleSlots (run camStep a events) macId = some (mode,slots') ∧
      (∀ t k, holders mode slots' t k + delsOf macId t k a events = holders mode slots t k + addsOf macId t k events) ∧
      (Admitted camStep (onceOnly macId) a events → (∀ t k, holders mode slots t k ≤ 1) → ∀ t k, holders mode slots' t k ≤ 1) ∧
      (∀ h2c secCamInfo k t, (macStaAddKey h2c (run camStep a events) secCamInfo macId k t).1 = .success →
        (∃ i index, checkKeyType mode i = some t ∧ slots' i = none ∧
          roleSlots (macStaAddKey h2c (run camStep a events) secCamInfo macId k t).2 macId =
            some (mode,Function.update slots' i (some (k,index)))) ∧
        (holders mode slots' t k = 0 → ∀ h2c',
          roleSlots (macStaDelKey h2c' (macStaAddKey h2c (run camStep a events) secCamInfo macId k t).2 macId k t).2 macId =
            some (mode,slots'))) ∧
      ∀ h2c k t,
        (holders mode slots' t k = 0 → (macStaDelKey h2c (run camStep a events) macId k t).2 = run camStep a events) ∧
        (0 < holders mode slots' t k → ∃ i index, checkKeyType mode i = some t ∧ slots' i = some (k,index) ∧
          roleSlots (macStaDelKey h2c (run camStep a events) macId k t).2 macId = some (mode,Function.update slots' i none)) := by
  induction events generalizing a slots with
  | nil =>
    refine ⟨slots,here,fun t k => by simp [delsOf,addsOf],fun _ once => once,fun h2c secCamInfo k t success => ⟨?_,?_⟩,
      fun h2c k t => ⟨delKey_absent here h2c,delKey_present here h2c⟩⟩
    · obtain ⟨i,index,typed,free,_,after⟩ := addKey_typed here success
      exact ⟨i,index,typed,free,after⟩
    · exact add_delete here success
  | cons event rest ih =>
    obtain ⟨next,after,counts⟩ := keyOps_step here admitted.1
    obtain ⟨slots',final,counts',once,ops⟩ := ih after admitted.2
    refine ⟨slots',final,fun t k => ?_,fun fresh bounded => once fresh.2 fun t k => ?_,ops⟩
    · have now := counts t k
      have later := counts' t k
      simp only [delsOf,addsOf,map_cons,sum_cons] at later ⊢
      omega
    · have now := counts t k
      have before := bounded t k
      have absent := fresh.1 mode slots here t k
      have small : addOf macId t k event ≤ 1 := by
        unfold addOf
        split
        · split <;> decide
        · decide
      omega

def oneRole : Adapter := camStep (.init nicHw) (.addRole {} (station 0 .create .disconn))
theorem oneRole_slots : roleSlots oneRole 0 = some (2,fun _ => none) := rfl
def bothHalves : List CamEvent := replicate 2 (.addKey {} {extKey:=true} 0 3 0)

theorem key_slots_two : Admitted camStep keyOps oneRole bothHalves ∧
    ∃ mode slots, roleSlots (run camStep oneRole bothHalves) 0 = some (mode,slots) ∧ holders mode slots 0 3 = 2 := by
  refine ⟨by decide +kernel,_,_,rfl,by decide +kernel⟩

def twoKeys : List CamEvent := [.addKey {} {} 0 3 0,.addKey {} {} 0 1 0,.delKey {} 0 3 0]

theorem key_slots_kept_two : ∃ slots, roleSlots (run camStep oneRole twoKeys) 0 = some (2,slots) ∧
    ∀ t k, holders 2 slots t k + delsOf 0 t k oneRole twoKeys = addsOf 0 t k twoKeys := by
  obtain ⟨slots,here,counts,_⟩ := key_slots_kept oneRole_slots twoKeys (by decide +kernel)
  refine ⟨slots,here,fun t k => (counts t k).trans ?_⟩
  have empty : holders 2 (fun _ => none) t k = 0 := by simp [holders,holdsKey]
  omega

end Rtl8852au.Role
