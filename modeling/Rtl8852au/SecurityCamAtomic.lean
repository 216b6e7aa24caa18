import Rtl8852au.SecurityCamKeys

namespace Rtl8852au.Role
open Machine Slots Option List

structure KeyState where
  hw : HwInfo
  pool : Nat
  roles : List RoleTbl
  secCamTable : Option SecCamTable

-- The table afterwards: an allocation that fails midway leaves the blocks it
-- got, their pointers in a table whose other pointers are not set.
inductive TableMem where
  | null
  | torn (blocks : Nat)
  | whole (table : SecCamTable)

def tableMem : Option SecCamTable → TableMem
  | none => .null
  | some table => .whole table

inductive KeyRet where
  | noBuf
  | ret (ret : MacRet)
  deriving DecidableEq,Repr

structure KeyResult where
  ret : KeyRet
  roles : List RoleTbl
  secCamTable : TableMem

def emptyTable : SecCamTable := ⟨fun _ => ⟨false,0,0,0,{}⟩,0⟩
def KeyState.adapter (s : KeyState) : Adapter := ⟨s.hw,s.pool,s.roles,s.secCamTable.getD emptyTable⟩

def refusedBlock (hw : HwInfo) (mallocs : Nat → Bool) : Option Nat :=
  (range (2*hw.secCamEntryNum + 1)).find? fun block => !mallocs block

def KeyResult.ofAdapter (result : MacRet × Adapter) : KeyResult := ⟨.ret result.1,result.2.roles,.whole result.2.secCamTable⟩

section
variable (mallocs : Nat → Bool) (h2c : H2c) (s : KeyState)

-- `mac_sta_add_key` with the allocation of `decide_sec_cam_index`. With a
-- table it is the function of the other model, which makes the same two
-- checks first.
def staAddKey (secCamInfo : SecCamInfo)
    (macId keyId keyType : Nat) : KeyResult :=
  if secCamInfo.type > hwSupportEncTypeNum then ⟨.ret .wngKeyType,s.roles,tableMem s.secCamTable⟩
  else if (macRoleSrch s.roles macId).isNone then ⟨.ret .noRole,s.roles,tableMem s.secCamTable⟩
  else
    match s.secCamTable,refusedBlock s.hw mallocs with
    | none,some 0 => ⟨.noBuf,s.roles,.null⟩
    | none,some block => ⟨.noBuf,s.roles,.torn block⟩
    | _,_ => .ofAdapter (macStaAddKey h2c s.adapter secCamInfo macId keyId keyType)

-- `m_security_cam_hal` does nothing where there is no table, and nothing else
-- of a deletion looks at it.
def staDelKey (h2c : H2c) (s : KeyState) (macId keyId keyType : Nat) : KeyResult :=
  let result := macStaDelKey h2c s.adapter macId keyId keyType
  ⟨.ret result.1,result.2.roles,tableMem (s.secCamTable.map fun _ => result.2.secCamTable)⟩

inductive KeyCall where
  | add (secCamInfo : SecCamInfo)
  | del

def staKey (call : KeyCall) (macId keyId keyType : Nat) : KeyResult :=
  match call with
  | .add secCamInfo => staAddKey mallocs h2c s secCamInfo macId keyId keyType
  | .del => staDelKey h2c s macId keyId keyType

structure KeySlots where
  keyid : Nat → Nat
  valid : Nat → Bool
  ent : Nat → Nat

def RoleTbl.slots (role : RoleTbl) : KeySlots :=
  ⟨role.info.aInfo.secEntKeyid,role.info.aInfo.secEntValid,role.info.aInfo.secEnt⟩

def keySlots (roles : List RoleTbl) (macId : Nat) : Option KeySlots := (macRoleSrch roles macId).map RoleTbl.slots

def KeyAtomic (s : KeyState) (macId : Nat) (result : KeyResult) : Prop :=
  result.ret ≠ .ret .success → keySlots result.roles macId = keySlots s.roles macId ∧ result.secCamTable = tableMem s.secCamTable

-- When a call can fail without a trace only. A slot once written is never
-- taken back, and neither is the storage index an addition moved on or the
-- table it allocated.
def AddFine (secCamInfo : SecCamInfo) (macId keyType : Nat) : Prop :=
  secCamInfo.type ≤ hwSupportEncTypeNum → ∀ role ∈ macRoleSrch s.roles macId,
    match s.secCamTable with
    | some table => ∀ index ∈ decideSecCamIndex s.hw table,
      if (insertSlot role.info.aInfo keyType).isOk then KeyWritten h2c s.adapter macId
      else (index+1) % s.hw.secCamEntryNum = table.nextCamStorageIdx
    | none => refusedBlock s.hw mallocs = some 0 ∨
      (refusedBlock s.hw mallocs = none ∧ 0 < s.hw.secCamEntryNum ∧ (insertSlot role.info.aInfo keyType).isOk ∧
        KeyWritten h2c s.adapter macId)

def DelFine (h2c : H2c) (s : KeyState) (macId keyId keyType : Nat) : Prop :=
  ∀ role ∈ macRoleSrch s.roles macId, (deleteSlot role.info.aInfo keyType keyId).isOk → KeyWritten h2c s.adapter macId

def KeyFine (call : KeyCall) (macId keyId keyType : Nat) : Prop :=
  match call with
  | .add secCamInfo => AddFine mallocs h2c s secCamInfo macId keyType
  | .del => DelFine h2c s macId keyId keyType
end

theorem srch_view (macId : Nat) (roles : List RoleTbl) :
    (macRoleSrch roles macId).map keyView = (roles.map keyView).find? fun view => macId == view.1 := by
  rw [find?_map]
  rfl

theorem slots_keys (macid : role'.macid = role.macid) (same : role'.slots = role.slots) : heldKeys role' = heldKeys role := by
  have views := keyView_congr macid ⟨congrArg KeySlots.valid same,congrArg KeySlots.keyid same,congrArg KeySlots.ent same⟩
  exact congrArg Prod.snd views

theorem write_shows {a : Adapter} (found : macRoleSrch a.roles macId = some role) (tx : AddrCamTx) (i keyId : Nat)
    (valid : Bool) (index : Nat) (differs : (heldKeys (writeSlot i keyId valid index role)).length ≠ (heldKeys role).length) :
    keySlots (writeAddrCam tx (a.onRole macId (writeSlot i keyId valid index)) macId).2.roles macId ≠ keySlots a.roles macId := by
  intro same
  have written : macRoleSrch (a.onRole macId (writeSlot i keyId valid index)).roles macId =
      some (writeSlot i keyId valid index role) := srch_update _ found (srch_split found).1
  have views := (writeAddrCam_same tx (a.onRole macId (writeSlot i keyId valid index)) macId).views
  have after := srch_view macId (writeAddrCam tx (a.onRole macId (writeSlot i keyId valid index)) macId).2.roles
  rw [views,← srch_view,written,map_some] at after
  obtain ⟨other,here,view⟩ := map_eq_some_iff.mp after
  have slots : other.slots = role.slots := by simpa [keySlots,here,found] using same
  have macids : other.macid = role.macid := (srch_split here).1.trans (srch_split found).1.symm
  have keys : heldKeys other = heldKeys (writeSlot i keyId valid index role) := congrArg Prod.snd view
  exact differs (by rw [← keys,slots_keys macids slots])

theorem insert_ok {a : Adapter} (found : macRoleSrch a.roles macId = some role)
    (chosen : insertSlot role.info.aInfo keyType = .ok i) (h2c : H2c) (secCamInfo : SecCamInfo) (keyId index : Nat) :
    ((addKeyAt h2c a role secCamInfo macId keyId keyType index).1 = .success ↔ KeyWritten h2c a macId) ∧
    (¬KeyWritten h2c a macId → keySlots (addKeyAt h2c a role secCamInfo macId keyId keyType index).2.roles macId ≠
      keySlots a.roles macId) := by
  obtain ⟨inside,empty⟩ := keySlot_ok chosen
  have differs : (heldKeys (writeSlot i keyId true index role)).length ≠ (heldKeys role).length := by
    rw [(heldKeys_insert inside (by simpa using empty) keyId index).length_eq,length_cons]
    exact Nat.succ_ne_self _
  have shows := write_shows found h2c.addrCam i keyId true index differs
  have room := writeSlot_room h2c.addrCam a macId i keyId true index
  simp only [addKeyAt,insertKeyToAddrCam,chosen,KeyWritten,← room]
  by_cases written : (writeAddrCam h2c.addrCam (a.onRole macId (writeSlot i keyId true index)) macId).1 = .success
  · cases sent : h2c.secCam with
    | true => simp [written]
    | false => simpa [written] using shows
  · simpa [written] using shows

theorem delete_ok {a : Adapter} (found : macRoleSrch a.roles macId = some role)
    (chosen : deleteSlot role.info.aInfo keyType keyId = .ok i) (h2c : H2c) :
    ((macStaDelKey h2c a macId keyId keyType).1 = .success ↔ KeyWritten h2c a macId) ∧
    (¬KeyWritten h2c a macId → keySlots (macStaDelKey h2c a macId keyId keyType).2.roles macId ≠ keySlots a.roles macId) := by
  obtain ⟨inside,held⟩ := keySlot_ok chosen
  have differs : (heldKeys (writeSlot i 0 false 0 role)).length ≠ (heldKeys role).length := by
    have deleted : (heldKeys role).Perm (_ :: heldKeys (writeSlot i 0 false 0 role)) :=
      heldKeys_delete inside (Bool.and_eq_true _ _ ▸ held).2
    rw [deleted.length_eq,length_cons]
    exact (Nat.succ_ne_self _).symm
  have shows := write_shows found h2c.addrCam i 0 false 0 differs
  have room := writeSlot_room h2c.addrCam a macId i 0 false 0
  simp only [macStaDelKey,found,deleteKeyFromAddrCam,chosen,KeyWritten,← room]
  by_cases written : (writeAddrCam h2c.addrCam (a.onRole macId (writeSlot i 0 false 0)) macId).1 = .success
  · cases sent : h2c.secCam with
    | true => simp [written]
    | false => simpa [written] using shows
  · simpa [written] using shows

theorem insert_refused (chosen : insertSlot role.info.aInfo keyType = .error ret) (h2c : H2c)
    (secCamInfo : SecCamInfo) (macId keyId index : Nat) :
    addKeyAt h2c a role secCamInfo macId keyId keyType index = (ret,a) ∧ ret ≠ .success := by
  have failed := keySlot_error chosen (by decide)
  exact ⟨by simp [addKeyAt,insertKeyToAddrCam,chosen,failed],failed⟩

theorem delete_refused (found : macRoleSrch a.roles macId = some role)
    (chosen : deleteSlot role.info.aInfo keyType keyId = .error ret) (h2c : H2c) :
    macStaDelKey h2c a macId keyId keyType = (ret,a) := by
  have failed := keySlot_error chosen (by decide)
  simp [macStaDelKey,found,deleteKeyFromAddrCam,chosen,failed]

theorem del_atomic (h2c : H2c) (s : KeyState) (macId keyId keyType : Nat) :
    KeyAtomic s macId (staDelKey h2c s macId keyId keyType) ↔ DelFine h2c s macId keyId keyType := by
  have unchanged : (s.secCamTable.map fun _ => s.adapter.secCamTable) = s.secCamTable := by
    cases held : s.secCamTable <;> simp [KeyState.adapter,held]
  cases found : macRoleSrch s.roles macId with
  | none =>
    have refused : macStaDelKey h2c s.adapter macId keyId keyType = (.noRole,s.adapter) := by
      simp [macStaDelKey,KeyState.adapter,found]
    refine ⟨fun _ => by simp [DelFine,found],fun _ _ => ?_⟩
    simp only [staDelKey,refused,unchanged]
    exact ⟨rfl,trivial⟩
  | some role =>
    have here : macRoleSrch s.adapter.roles macId = some role := found
    simp only [DelFine,found,mem_def,some.injEq,forall_eq']
    cases chosen : deleteSlot role.info.aInfo keyType keyId with
    | error ret =>
      refine ⟨fun _ ok => (by cases ok),fun _ _ => ?_⟩
      simp only [staDelKey,delete_refused here chosen h2c,unchanged]
      exact ⟨rfl,trivial⟩
    | ok i =>
      obtain ⟨success,shows⟩ := delete_ok here chosen h2c
      constructor
      · intro atomic _
        by_contra lost
        have failed : (staDelKey h2c s macId keyId keyType).ret ≠ .ret .success :=
          fun same => lost (success.mp (KeyRet.ret.inj same))
        exact shows lost (atomic failed).1
      · intro written failed
        exact absurd (congrArg KeyRet.ret (success.mpr (written rfl))) failed

theorem add_table (held : s.secCamTable = some table) (found : macRoleSrch s.roles macId = some role) (type : ¬secCamInfo.type > hwSupportEncTypeNum) (h2c : H2c) (keyId keyType : Nat) :
    KeyAtomic s macId (.ofAdapter (macStaAddKey h2c s.adapter secCamInfo macId keyId keyType)) ↔
      ∀ index ∈ decideSecCamIndex s.hw table, if (insertSlot role.info.aInfo keyType).isOk then KeyWritten h2c s.adapter macId
        else (index+1) % s.hw.secCamEntryNum = table.nextCamStorageIdx := by
  have here : macRoleSrch s.adapter.roles macId = some role := found
  have same : s.adapter.secCamTable = table := by simp [KeyState.adapter,held]
  cases decided : decideSecCamIndex s.hw table with
  | none =>
    have full : decideSecCamIndex s.adapter.hw s.adapter.secCamTable = none := by rw [same]; exact decided
    refine ⟨fun _ index member => (by cases member),fun _ _ => ?_⟩
    have refused : macStaAddKey h2c s.adapter secCamInfo macId keyId keyType = (.secCamFl,s.adapter) := by
      simp only [macStaAddKey,if_neg type,here,full]
    rw [refused,held]
    exact ⟨rfl,congrArg TableMem.whole same⟩
  | some index =>
    have free : decideSecCamIndex s.adapter.hw s.adapter.secCamTable = some index := by rw [same]; exact decided
    let moved : Adapter := {s.adapter with secCamTable := {s.adapter.secCamTable with
      nextCamStorageIdx := (index+1) % s.hw.secCamEntryNum}}
    have steps : macStaAddKey h2c s.adapter secCamInfo macId keyId keyType =
        addKeyAt h2c moved role secCamInfo macId keyId keyType index := by
      simp only [macStaAddKey,if_neg type,here,free]
      rfl
    have place : macRoleSrch moved.roles macId = some role := found
    rw [steps]
    simp only [mem_def,some.injEq,forall_eq']
    cases chosen : insertSlot role.info.aInfo keyType with
    | error ret =>
      obtain ⟨refused,failed⟩ := insert_refused (a := moved) chosen h2c secCamInfo macId keyId index
      rw [refused]
      have tables : (KeyResult.ofAdapter (ret,moved)).secCamTable = tableMem s.secCamTable ↔
          (index+1) % s.hw.secCamEntryNum = table.nextCamStorageIdx := by
        simp only [KeyResult.ofAdapter,held,tableMem,TableMem.whole.injEq,moved,same]
        exact ⟨fun equal => congrArg SecCamTable.nextCamStorageIdx equal,fun equal => by rw [equal]⟩
      constructor
      · intro atomic
        exact tables.mp (atomic (fun equal => failed (KeyRet.ret.inj equal))).2
      · intro unmoved _
        exact ⟨rfl,tables.mpr unmoved⟩
    | ok i =>
      obtain ⟨success,shows⟩ := insert_ok place chosen h2c secCamInfo keyId index
      constructor
      · intro atomic
        by_contra lost
        exact shows lost (atomic fun equal => lost (success.mp (KeyRet.ret.inj equal))).1
      · intro written failed
        exact absurd (congrArg KeyRet.ret (success.mpr written)) failed

theorem add_first (null : s.secCamTable = none) (found : macRoleSrch s.roles macId = some role) (type : ¬secCamInfo.type > hwSupportEncTypeNum) (h2c : H2c) (keyId keyType : Nat) :
    KeyAtomic s macId (.ofAdapter (macStaAddKey h2c s.adapter secCamInfo macId keyId keyType)) ↔
      0 < s.hw.secCamEntryNum ∧ (insertSlot role.info.aInfo keyType).isOk ∧ KeyWritten h2c s.adapter macId := by
  have stays : KeyAtomic s macId (.ofAdapter (macStaAddKey h2c s.adapter secCamInfo macId keyId keyType)) ↔
      (macStaAddKey h2c s.adapter secCamInfo macId keyId keyType).1 = .success := by
    constructor
    · intro atomic
      by_contra failed
      have kept := (atomic fun equal => failed (KeyRet.ret.inj equal)).2
      rw [null] at kept
      cases kept
    · intro success failed
      exact absurd (congrArg KeyRet.ret success) failed
  rw [stays]
  have here : macRoleSrch s.adapter.roles macId = some role := found
  have same : s.adapter.secCamTable = emptyTable := by simp [KeyState.adapter,null]
  by_cases some_ : 0 < s.hw.secCamEntryNum
  · have free : decideSecCamIndex s.adapter.hw s.adapter.secCamTable = some 0 := by
      obtain ⟨n,size⟩ := Nat.exists_eq_succ_of_ne_zero (Nat.pos_iff_ne_zero.mp some_)
      have size : s.adapter.hw.secCamEntryNum = n + 1 := size
      simp [same,decideSecCamIndex,size,secCamSearch,emptyTable]
    let moved : Adapter := {s.adapter with secCamTable := {s.adapter.secCamTable with
      nextCamStorageIdx := (0+1) % s.hw.secCamEntryNum}}
    have steps : macStaAddKey h2c s.adapter secCamInfo macId keyId keyType =
        addKeyAt h2c moved role secCamInfo macId keyId keyType 0 := by
      simp only [macStaAddKey,if_neg type,here,free]
      rfl
    have place : macRoleSrch moved.roles macId = some role := found
    rw [steps]
    cases chosen : insertSlot role.info.aInfo keyType with
    | error ret =>
      obtain ⟨refused,failed⟩ := insert_refused (a := moved) chosen h2c secCamInfo macId keyId 0
      simp [refused,failed,Except.isOk,Except.toBool]
    | ok i =>
      rw [(insert_ok place chosen h2c secCamInfo keyId 0).1]
      exact ⟨fun written => ⟨some_,rfl,written⟩,fun fine => fine.2.2⟩
  · have none_ : decideSecCamIndex s.adapter.hw s.adapter.secCamTable = none := by
      have size : s.adapter.hw.secCamEntryNum = 0 := Nat.eq_zero_of_not_pos some_
      simp [decideSecCamIndex,size,secCamSearch]
    simp [macStaAddKey,if_neg type,here,none_,some_]

theorem add_atomic (mallocs : Nat → Bool) (h2c : H2c) (s : KeyState) (secCamInfo : SecCamInfo) (macId keyId keyType : Nat) :
    KeyAtomic s macId (staAddKey mallocs h2c s secCamInfo macId keyId keyType) ↔
      AddFine mallocs h2c s secCamInfo macId keyType := by
  unfold staAddKey AddFine
  by_cases type : secCamInfo.type > hwSupportEncTypeNum
  · rw [if_pos type]
    exact ⟨fun _ low => absurd type (Nat.not_lt.mpr low),fun _ _ => ⟨rfl,rfl⟩⟩
  · rw [if_neg type]
    cases found : macRoleSrch s.roles macId with
    | none => exact ⟨fun _ _ role member => (by cases member),fun _ _ => ⟨rfl,rfl⟩⟩
    | some role =>
      have low : secCamInfo.type ≤ hwSupportEncTypeNum := Nat.not_lt.mp type
      simp only [low,forall_const,isNone_some,Bool.false_eq_true,if_false,mem_def,some.injEq,forall_eq']
      cases held : s.secCamTable with
      | some table => exact add_table held found type h2c keyId keyType
      | none =>
        cases refused : refusedBlock s.hw mallocs with
        | none => simpa using add_first held found type h2c keyId keyType
        | some block =>
          cases block with
          | zero => exact ⟨fun _ => .inl rfl,fun _ _ => ⟨rfl,by rw [held]; rfl⟩⟩
          | succ block =>
            constructor
            · intro atomic
              have kept := (atomic (by simp)).2
              rw [held] at kept
              cases kept
            · intro fine
              simp at fine

theorem key_atomic (mallocs : Nat → Bool) (h2c : H2c) (s : KeyState) (call : KeyCall) (macId keyId keyType : Nat) :
    KeyAtomic s macId (staKey mallocs h2c s call macId keyId keyType) ↔ KeyFine mallocs h2c s call macId keyId keyType := by
  cases call with
  | add secCamInfo => exact add_atomic mallocs h2c s secCamInfo macId keyId keyType
  | del => exact del_atomic h2c s macId keyId keyType

-- A first key of a station whose security-CAM transfer fails: its slot stays.
theorem key_torn : ¬∀ (mallocs : Nat → Bool) (h2c : H2c) (s : KeyState) (call : KeyCall) (macId keyId keyType : Nat),
    KeyAtomic s macId (staKey mallocs h2c s call macId keyId keyType) := by
  intro always
  have atomic := always (fun _ => true) {secCam := false}
    ⟨nicHw,31,(macAddRole {} (.init nicHw) (station 0 .create .disconn)).2.roles,some emptyTable⟩ (.add {}) 0 0 0
  have kept := (atomic (by decide)).1
  have valid := congrArg (fun slots => slots.map fun (slots : KeySlots) => slots.valid 0) kept
  revert valid
  decide +kernel

end Rtl8852au.Role
