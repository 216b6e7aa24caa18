import Rtl8852au.WifiRole

namespace Rtl8852au.WifiRole
open Bitmap Machine Option Set
variable {n : Nat} {x : Sys n} {s s' : MrCtl n} {r : Fin n} {spec : HalSpec} {macAddr : MacAddr} {hwPort : Nat}

structure Owned (x : Sys n) : Prop extends Sound x where
  counted : ∀ r, (x.mr.roles r).hwWmm0RefCnt = if r ∈ x.live ∧ x.wmm r = 0 then 1 else 0
  alone : ∀ r ∈ x.live, ∀ q ∈ x.live, x.wmm q = x.wmm r → x.wmm r ≠ 0 → q = r

theorem owned_init (n : Nat) : Owned (Sys.init n) where
  roles := by simpa [Sys.init] using Holds.empty
  band := by simpa [Sys.init] using Holds.empty
  ports := by simpa [Sys.init] using Holds.empty
  wmms := by simpa [Sys.init] using Holds.empty
  portsApart := by simp [Sys.init]
  addrsApart := by simp [Sys.init]
  counted := by simp [Sys.init]
  alone := by simp [Sys.init]

theorem Sound.marked (sound : Sound x) : x.mr.roleMap.testBit r ↔ r ∈ x.live := by
  rw [sound.roles r,mem_image]
  constructor
  · rintro ⟨q,member,same⟩
    exact Fin.val_injective same ▸ member
  · intro member
    exact ⟨r,member,rfl⟩

theorem newRoleIdx_free (found : newRoleIdx s ridx = some r) : s.roleMap.testBit r = false := by
  cases ridx with
  | none => simpa using List.find?_some found
  | some given =>
    by_cases taken : s.roleMap.testBit given
    · simp [newRoleIdx,taken] at found
    · obtain rfl : given = r := by simpa [newRoleIdx,taken] using found
      simpa using taken

theorem Sound.new (sound : Sound x) (found : newRoleIdx x.mr ridx = some r) : r ∉ x.live := by
  rw [← sound.marked,newRoleIdx_free found]
  exact Bool.false_ne_true

theorem Sound.searched (sound : Sound x) (found : phlSearchRoleidxByAddr x.mr macAddr = some r) :
    r ∈ x.live ∧ x.addr r = macAddr := by
  have here := List.find?_some found
  rw [Bool.and_eq_true,sound.marked] at here
  exact ⟨here.1,eq_of_beq here.2⟩

theorem Sound.unknown (sound : Sound x) : phlSearchRoleidxByAddr x.mr macAddr = none ↔ ∀ r ∈ x.live, x.addr r ≠ macAddr := by
  rw [phlSearchRoleidxByAddr,List.find?_eq_none]
  constructor
  · intro nowhere r member same
    exact nowhere r (List.mem_finRange r) (by rw [sound.marked.mpr member]; exact beq_iff_eq.mpr same)
  · intro others r _ here
    rw [Bool.and_eq_true,sound.marked] at here
    exact others r here.1 (eq_of_beq here.2)

structure Granted (spec : HalSpec) (s : MrCtl n) (r : Fin n) (macAddr : MacAddr) (hwPort : Nat) (s' : MrCtl n) : Prop where
  roleMap : s'.roleMap = mark s.roleMap r
  bandRoleMap : s'.bandRoleMap = mark s.bandRoleMap r
  portMap : s'.portMap = mark s.portMap hwPort
  wmmMap : s'.wmmMap = (allocWmm spec s.wmmMap).1
  others : ∀ q, q ≠ r → s'.roles q = s.roles q
  port : (s'.roles r).hwPort = hwPort
  wmm : (s'.roles r).hwWmm = (allocWmm spec s.wmmMap).2
  refCnt : (s'.roles r).hwWmm0RefCnt =
    if (allocWmm spec s.wmmMap).2 = 0 then (s.roles r).hwWmm0RefCnt + 1 else (s.roles r).hwWmm0RefCnt
  addr : (s'.roles r).macAddr = macAddr

theorem allocSw_granted (index : newRoleIdx s ridx = some r) (room : firstFree s.portMap spec.portNum = some hwPort)
    (macAddr : MacAddr) (type : RoleType) : ∃ s', Granted spec s r macAddr hwPort s' ∧
      phlWifiRoleAllocSw spec s macAddr type ridx = (some r,s') := by
  unfold phlWifiRoleAllocSw phlAllocHwResource
  simp only [index,MrCtl.onRole,room]
  refine ⟨_,?_,rfl⟩
  constructor
  case others =>
    intro q apart
    simp [apart]
  all_goals simp

theorem allocSw_full (index : newRoleIdx s ridx = some r) (full : firstFree s.portMap spec.portNum = none)
    (macAddr : MacAddr) (type : RoleType) : ∃ roles,
      phlWifiRoleAllocSw spec s macAddr type ridx = (none,{s with roleMap:=mark s.roleMap r,roles}) := by
  unfold phlWifiRoleAllocSw phlAllocHwResource
  simp only [index,MrCtl.onRole,full]
  exact ⟨_,rfl⟩

theorem Granted.started (granted : Granted spec s r macAddr hwPort s') :
    Granted spec s r macAddr hwPort (s'.onRole r (fun role => {role with active:=true})) := by
  constructor
  case others =>
    intro q apart
    rw [← granted.others q apart]
    exact Function.update_of_ne apart _ _
  case roleMap => exact granted.roleMap
  case bandRoleMap => exact granted.bandRoleMap
  case portMap => exact granted.portMap
  case wmmMap => exact granted.wmmMap
  case port => simpa [MrCtl.onRole] using granted.port
  case wmm => simpa [MrCtl.onRole] using granted.wmm
  case refCnt => simpa [MrCtl.onRole] using granted.refCnt
  case addr => simpa [MrCtl.onRole] using granted.addr

theorem allocWmm_free (found : firstFree map spec.wmmNum = some wmm) : allocWmm spec map = (mark map wmm,wmm) := by
  simp only [allocWmm,found]

theorem allocWmm_shared (full : firstFree map spec.wmmNum = none) : allocWmm spec map = (map,0) := by simp only [allocWmm,full]

theorem Sound.zero_used (sound : Sound x) (full : firstFree x.mr.wmmMap spec.wmmNum = none) : ∃ q ∈ x.live, x.wmm q = 0 := by
  obtain ⟨q,member,zero⟩ := (sound.wmms 0).mp (firstFree_none.mp full 0 spec.wmm)
  exact ⟨q,member,zero⟩

theorem Sound.wmm_new (sound : Sound x) (found : firstFree x.mr.wmmMap spec.wmmNum = some wmm) :
    ∀ q ∈ x.live, x.wmm q ≠ wmm := by
  intro q member same
  have free := (firstFree_some found).2
  rw [sound.wmms.free] at free
  exact free ⟨q,member,same⟩

theorem Owned.granted (owned : Owned x) (new : r ∉ x.live) (fresh : ∀ q ∈ x.live, x.addr q ≠ macAddr)
    (room : firstFree x.mr.portMap spec.portNum = some hwPort) (granted : Granted spec x.mr r macAddr hwPort s') :
    Owned ⟨s',insert r x.live⟩ := by
  have kept : ∀ q ∈ x.live, s'.roles q = x.mr.roles q := fun q member => granted.others q (fun same => new (same ▸ member))
  have ports : ∀ q ∈ x.live, (s'.roles q).hwPort = x.port q := fun q member => congrArg Role.hwPort (kept q member)
  have wmms : ∀ q ∈ x.live, (s'.roles q).hwWmm = x.wmm q := fun q member => congrArg Role.hwWmm (kept q member)
  have addrs : ∀ q ∈ x.live, (s'.roles q).macAddr = x.addr q := fun q member => congrArg Role.macAddr (kept q member)
  have outside : r ∉ (x.live : Set (Fin n)) := new
  have noRef : (x.mr.roles r).hwWmm0RefCnt = 0 := by rw [owned.counted r,if_neg (fun held => new held.1)]
  constructor
  case toSound =>
    constructor
    case roles =>
      rw [granted.roleMap,Finset.coe_insert]
      exact owned.roles.take (fun _ _ => rfl) r
    case band =>
      rw [granted.bandRoleMap,Finset.coe_insert]
      exact owned.band.take (fun _ _ => rfl) r
    case ports =>
      rw [granted.portMap,Finset.coe_insert,← granted.port]
      exact owned.ports.take ports r
    case wmms =>
      rw [granted.wmmMap,Finset.coe_insert]
      cases found : firstFree x.mr.wmmMap spec.wmmNum with
      | some wmm =>
        have taken := owned.wmms.take wmms r
        rw [granted.wmm,allocWmm_free found] at taken
        rw [allocWmm_free found]
        exact taken
      | none =>
        obtain ⟨q,member,zero⟩ := owned.zero_used found
        have here := granted.wmm
        rw [allocWmm_shared found] at here ⊢
        apply owned.wmms.same
        intro i
        have image := image_congr wmms
        change _ = x.wmm '' _ at image
        rw [← image,image_insert_eq,mem_insert_iff]
        constructor
        · exact .inr
        · rintro (same | there)
          · exact ⟨q,member,(wmms q member).trans (zero.trans (here.symm.trans same.symm))⟩
          · exact there
    case portsApart =>
      rw [Finset.coe_insert,injOn_insert outside]
      refine ⟨fun q member p member' same => ?_,?_⟩
      · exact owned.portsApart member member' (((ports q member).symm.trans same).trans (ports p member'))
      · rintro ⟨q,member,same⟩
        have free := (firstFree_some room).2
        rw [owned.ports.free] at free
        exact free ⟨q,member,(ports q member).symm.trans (same.trans granted.port)⟩
    case addrsApart =>
      rw [Finset.coe_insert,injOn_insert outside]
      refine ⟨fun q member p member' same => ?_,?_⟩
      · exact owned.addrsApart member member' (((addrs q member).symm.trans same).trans (addrs p member'))
      · rintro ⟨q,member,same⟩
        exact fresh q member ((addrs q member).symm.trans (same.trans granted.addr))
  case counted =>
    intro q
    change (s'.roles q).hwWmm0RefCnt = if q ∈ insert r x.live ∧ (s'.roles q).hwWmm = 0 then 1 else 0
    by_cases same : q = r
    · subst same
      rw [granted.refCnt,granted.wmm,noRef]
      simp
    · rw [granted.others q same,owned.counted q]
      simp only [Finset.mem_insert,same,false_or]
      congr
  case alone =>
    intro p inP q inQ same nonzero
    change (s'.roles q).hwWmm = (s'.roles p).hwWmm at same
    change (s'.roles p).hwWmm ≠ 0 at nonzero
    -- A wmm other than 0 that is given was free.
    have given : (s'.roles r).hwWmm ≠ 0 → ∀ q ∈ x.live, (s'.roles q).hwWmm ≠ (s'.roles r).hwWmm := by
      intro some q member
      rw [granted.wmm] at some ⊢
      rw [wmms q member]
      cases found : firstFree x.mr.wmmMap spec.wmmNum with
      | some wmm => rw [allocWmm_free found]; exact owned.wmm_new found q member
      | none => exact absurd (by rw [allocWmm_shared found]) some
    rcases Finset.mem_insert.mp inP with rfl | memberP <;> rcases Finset.mem_insert.mp inQ with rfl | memberQ
    · rfl
    · exact absurd same (given nonzero q memberQ)
    · exact absurd same.symm (given (same ▸ nonzero) p memberP)
    · rw [wmms p memberP] at same nonzero
      rw [wmms q memberQ] at same
      exact owned.alone p memberP q memberQ same nonzero

theorem freeSw_wmm (s : MrCtl n) (r : Fin n) : (phlWifiRoleFreeSw s r).wmmMap =
    if (s.roles r).hwWmm = 0 ∧ (s.roles r).hwWmm0RefCnt ≠ 1 then s.wmmMap else clear s.wmmMap (s.roles r).hwWmm := by
  unfold phlWifiRoleFreeSw phlFreeHwResource
  by_cases zero : (s.roles r).hwWmm = 0
  · by_cases last : (s.roles r).hwWmm0RefCnt = 1
    · simp [zero,last,MrCtl.onRole]
    · have more : (s.roles r).hwWmm0RefCnt - 1 ≠ 0 := by omega
      simp [zero,last,more,MrCtl.onRole]
  · simp [zero,MrCtl.onRole]

theorem freeSw_maps (s : MrCtl n) (r : Fin n) : (phlWifiRoleFreeSw s r).roleMap = clear s.roleMap r ∧
    (phlWifiRoleFreeSw s r).bandRoleMap = clear s.bandRoleMap r ∧
    (phlWifiRoleFreeSw s r).portMap = clear s.portMap (s.roles r).hwPort := by
  unfold phlWifiRoleFreeSw phlFreeHwResource
  by_cases zero : (s.roles r).hwWmm = 0
  · simp [zero,MrCtl.onRole]
  · simp [zero,MrCtl.onRole]

theorem freeSw_others (s : MrCtl n) (apart : q ≠ r) : (phlWifiRoleFreeSw s r).roles q = s.roles q := by
  unfold phlWifiRoleFreeSw phlFreeHwResource
  by_cases zero : (s.roles r).hwWmm = 0
  · simp [zero,MrCtl.onRole,apart]
  · simp [zero,MrCtl.onRole,apart]

theorem freeSw_own (s : MrCtl n) (r : Fin n) : ((phlWifiRoleFreeSw s r).roles r).hwWmm = (s.roles r).hwWmm ∧
    ((phlWifiRoleFreeSw s r).roles r).hwWmm0RefCnt =
      if (s.roles r).hwWmm = 0 then (s.roles r).hwWmm0RefCnt - 1 else (s.roles r).hwWmm0RefCnt := by
  unfold phlWifiRoleFreeSw phlFreeHwResource
  by_cases zero : (s.roles r).hwWmm = 0
  · simp [zero,MrCtl.onRole]
  · simp [zero,MrCtl.onRole]

theorem Owned.wmm_cleared (owned : Owned x) (live : r ∈ x.live) :
    (phlWifiRoleFreeSw x.mr r).wmmMap = clear x.mr.wmmMap (x.wmm r) := by
  rw [freeSw_wmm,if_neg]
  · rfl
  · rintro ⟨zero,count⟩
    rw [owned.counted r,if_pos ⟨live,zero⟩] at count
    exact count rfl

def Own (x : Sys n) (r : Fin n) : Prop := x.wmm r = 0 → ∀ q ∈ x.live, q ≠ r → x.wmm q ≠ 0

theorem Owned.own (owned : Owned x) (live : r ∈ x.live) (own : Own x r) : ∀ q ∈ x.live, q ≠ r → x.wmm q ≠ x.wmm r := by
  intro q member apart same
  by_cases zero : x.wmm r = 0
  · exact own zero q member apart (same.trans zero)
  · exact apart (owned.alone r live q member same zero)

theorem Owned.freed (owned : Owned x) (live : r ∈ x.live) (own : Own x r) :
    Owned ⟨phlWifiRoleFreeSw x.mr r,x.live.erase r⟩ := by
  obtain ⟨roleMap,bandRoleMap,portMap⟩ := freeSw_maps x.mr r
  obtain ⟨wmm,refCnt⟩ := freeSw_own x.mr r
  have rest : ((x.live.erase r : Finset (Fin n)) : Set (Fin n)) = ↑x.live \ {r} := Finset.coe_erase r x.live
  have kept : ∀ q ∈ (x.live : Set (Fin n)) \ {r}, (phlWifiRoleFreeSw x.mr r).roles q = x.mr.roles q :=
    fun q member => freeSw_others x.mr member.2
  have ports : Set.EqOn x.port (fun q => ((phlWifiRoleFreeSw x.mr r).roles q).hwPort) (↑x.live \ {r}) :=
    fun q member => congrArg Role.hwPort (kept q member).symm
  have wmms : Set.EqOn x.wmm (fun q => ((phlWifiRoleFreeSw x.mr r).roles q).hwWmm) (↑x.live \ {r}) :=
    fun q member => congrArg Role.hwWmm (kept q member).symm
  have addrs : Set.EqOn x.addr (fun q => ((phlWifiRoleFreeSw x.mr r).roles q).macAddr) (↑x.live \ {r}) :=
    fun q member => congrArg Role.macAddr (kept q member).symm
  constructor
  case toSound =>
    constructor
    case roles =>
      rw [roleMap,rest]
      exact owned.roles.give (fun q _ apart same => apart (Fin.val_injective same))
    case band =>
      rw [bandRoleMap,rest]
      exact owned.band.give (fun q _ apart same => apart (Fin.val_injective same))
    case ports =>
      have given := owned.ports.give (fun q member apart same => apart (owned.portsApart member live same))
      rw [image_congr ports] at given
      rw [portMap,rest]
      exact given
    case wmms =>
      have given := owned.wmms.give (owned.own live own)
      rw [image_congr wmms] at given
      rw [owned.wmm_cleared live,rest]
      exact given
    case portsApart =>
      rw [rest]
      exact (owned.portsApart.mono sdiff_subset).congr ports
    case addrsApart =>
      rw [rest]
      exact (owned.addrsApart.mono sdiff_subset).congr addrs
  case counted =>
    intro q
    change ((phlWifiRoleFreeSw x.mr r).roles q).hwWmm0RefCnt =
      if q ∈ x.live.erase r ∧ ((phlWifiRoleFreeSw x.mr r).roles q).hwWmm = 0 then 1 else 0
    by_cases same : q = r
    · subst same
      have gone : ¬ (q ∈ x.live.erase q ∧ ((phlWifiRoleFreeSw x.mr q).roles q).hwWmm = 0) :=
        fun held => Finset.notMem_erase q x.live held.1
      rw [if_neg gone,refCnt,owned.counted q]
      by_cases zero : x.wmm q = 0
      · rw [if_pos (show (x.mr.roles q).hwWmm = 0 from zero),if_pos ⟨live,zero⟩]
        rfl
      · rw [if_neg (show ¬ (x.mr.roles q).hwWmm = 0 from zero),if_neg (fun held => zero held.2)]
    · rw [freeSw_others x.mr same,owned.counted q]
      simp only [Finset.mem_erase,ne_eq,same,not_false_eq_true,true_and]
      congr
  case alone =>
    intro p inP q inQ same nonzero
    have memberP : p ∈ (x.live : Set (Fin n)) \ {r} := rest ▸ inP
    have memberQ : q ∈ (x.live : Set (Fin n)) \ {r} := rest ▸ inQ
    have wmmP := wmms memberP
    have wmmQ := wmms memberQ
    exact owned.alone p memberP.1 q memberQ.1 (wmmQ.trans (same.trans wmmP.symm)) (fun zero => nonzero (wmmP.symm.trans zero))

theorem Owned.unfreed (owned : Owned x) (live : r ∈ x.live) (zero : x.wmm r = 0) (apart : q ≠ r) (shared : x.wmm q = 0)
    {left : Finset (Fin n)} (stays : q ∈ left) : ¬ Sound ⟨phlWifiRoleFreeSw x.mr r,left⟩ := by
  intro sound
  have held : (phlWifiRoleFreeSw x.mr r).wmmMap.testBit 0 := by
    apply (sound.wmms 0).mpr
    refine ⟨q,stays,?_⟩
    change ((phlWifiRoleFreeSw x.mr r).roles q).hwWmm = 0
    rw [freeSw_others x.mr apart]
    exact shared
  rw [owned.wmm_cleared live,zero,testBit_clear] at held
  simp at held

theorem Sound.sameMaps (sound : Sound x) (sound' : Sound ⟨s',x.live⟩) (kept : ∀ q ∈ x.live, s'.roles q = x.mr.roles q) :
    SameMaps x.mr s' := by
  have ports : Holds s'.portMap (x.port '' (x.live : Set (Fin n))) :=
    image_congr (fun q member => congrArg Role.hwPort (kept q member)) ▸ sound'.ports
  have wmms : Holds s'.wmmMap (x.wmm '' (x.live : Set (Fin n))) :=
    image_congr (fun q member => congrArg Role.hwWmm (kept q member)) ▸ sound'.wmms
  exact ⟨sound'.roles.unique sound.roles,sound'.band.unique sound.band,ports.unique sound.ports,wmms.unique sound.wmms⟩

theorem alloc_new (sound : Sound x) (fresh : ∀ q ∈ x.live, x.addr q ≠ macAddr) (index : newRoleIdx x.mr ridx = some r)
    (room : firstFree x.mr.portMap spec.portNum = some hwPort) (type : RoleType) (env : AllocEnv) :
    ∃ s', Granted spec x.mr r macAddr hwPort s' ∧
      rtwPhlWifiRoleAlloc spec x.mr (some macAddr) type ridx env =
        if env.stainfo = false ∨ env.start = false then (none,phlWifiRoleFreeSw s' r)
        else (some r,s'.onRole r (fun role => {role with active:=true})) := by
  obtain ⟨s',granted,same⟩ := allocSw_granted index room macAddr type
  refine ⟨s',granted,?_⟩
  simp only [rtwPhlWifiRoleAlloc,sound.unknown.mpr fresh,same]
  cases env with
  | mk stainfo start => cases stainfo <;> cases start <;> rfl

theorem Owned.undone (owned : Owned x) (new : r ∉ x.live) (fresh : ∀ q ∈ x.live, x.addr q ≠ macAddr)
    (room : firstFree x.mr.portMap spec.portNum = some hwPort) (granted : Granted spec x.mr r macAddr hwPort s') :
    (firstFree x.mr.wmmMap spec.wmmNum ≠ none → Owned ⟨phlWifiRoleFreeSw s' r,x.live⟩) ∧
    (firstFree x.mr.wmmMap spec.wmmNum = none → ¬ Sound ⟨phlWifiRoleFreeSw s' r,x.live⟩) := by
  have during := owned.granted new fresh room granted
  have joined : r ∈ insert r x.live := Finset.mem_insert_self r x.live
  have apart : ∀ q ∈ x.live, q ≠ r := fun q member same => new (same ▸ member)
  constructor
  · intro some
    have own : Own ⟨s',insert r x.live⟩ r := by
      obtain ⟨wmm,found⟩ := ne_none_iff_exists'.mp some
      intro zero q member other shared
      have there := Finset.mem_of_mem_insert_of_ne member other
      have mine := granted.wmm
      rw [allocWmm_free found] at mine
      apply owned.wmm_new found q there
      change (s'.roles q).hwWmm = 0 at shared
      change (s'.roles r).hwWmm = 0 at zero
      rw [granted.others q other] at shared
      exact shared.trans (zero.symm.trans mine)
    have after := during.freed joined own
    rwa [Finset.erase_insert new] at after
  · intro full
    obtain ⟨q,member,zero⟩ := owned.zero_used full
    have mine := granted.wmm
    rw [allocWmm_shared full] at mine
    apply during.unfreed joined mine (apart q member) _ member
    change (s'.roles q).hwWmm = 0
    rw [granted.others q (apart q member)]
    exact zero

theorem freeSw_same (granted : Granted spec s r macAddr hwPort s') (apart : q ≠ r) :
    (phlWifiRoleFreeSw s' r).roles q = s.roles q := (freeSw_others s' apart).trans (granted.others q apart)

theorem alloc_guarded (owned : Owned x) (given : Option MacAddr)
    (guarded : Guard spec x (.alloc given type ridx env)) :
    Owned (x.step spec (.alloc given type ridx env)) ∧ Kept spec x (.alloc given type ridx env) := by
  have unmoved (result : rtwPhlWifiRoleAlloc spec x.mr given type ridx env = (none,x.mr)) :
      Owned (x.step spec (.alloc given type ridx env)) ∧ Kept spec x (.alloc given type ridx env) := by
    have after : x.step spec (.alloc given type ridx env) = x := by simp only [Sys.step,result]
    unfold Kept
    rw [after]
    exact ⟨owned,owned.toSound,fun _ => ⟨congrArg Prod.fst result,rfl,rfl,rfl,rfl⟩⟩
  cases given with
  | none => exact unmoved rfl
  | some macAddr =>
    cases found : phlSearchRoleidxByAddr x.mr macAddr with
    | some r =>
      obtain ⟨there,here⟩ := owned.searched found
      have after : x.step spec (.alloc (some macAddr) type ridx env) = x := by
        simp only [Sys.step,rtwPhlWifiRoleAlloc,found,Finset.insert_eq_of_mem there]
      unfold Kept
      rw [after]
      exact ⟨owned,owned.toSound,fun fails => absurd here (fails.1 r there)⟩
    | none =>
      have fresh := owned.unknown.mp found
      cases index : newRoleIdx x.mr ridx with
      | none => exact unmoved (by simp only [rtwPhlWifiRoleAlloc,found,phlWifiRoleAllocSw,index])
      | some r =>
        obtain ⟨port,wmm⟩ := guarded fresh (by rw [index]; exact some_ne_none r)
        obtain ⟨hwPort,room⟩ := ne_none_iff_exists'.mp port
        obtain ⟨s',granted,result⟩ := alloc_new owned.toSound fresh index room type env
        have new := owned.new index
        by_cases fails : env.stainfo = false ∨ env.start = false
        · rw [if_pos fails] at result
          have after : x.step spec (.alloc (some macAddr) type ridx env) = ⟨phlWifiRoleFreeSw s' r,x.live⟩ := by
            simp only [Sys.step,result]
          have undone := (owned.undone new fresh room granted).1 (wmm fails)
          have same := owned.sameMaps undone.toSound fun q member => freeSw_same granted (fun same => new (same ▸ member))
          unfold Kept
          rw [after]
          exact ⟨undone,undone.toSound,fun _ => ⟨congrArg Prod.fst result,same⟩⟩
        · rw [if_neg fails] at result
          have after : x.step spec (.alloc (some macAddr) type ridx env) =
              ⟨s'.onRole r (fun role => {role with active:=true}),insert r x.live⟩ := by simp only [Sys.step,result]
          have given := owned.granted new fresh room granted.started
          unfold Kept
          rw [after]
          refine ⟨given,given.toSound,fun failed => ?_⟩
          obtain none' | none' | env' := failed.2
          · rw [index] at none'; cases none'
          · rw [room] at none'; cases none'
          · exact absurd env' fails

theorem alloc_unguarded (owned : Owned x) (given : Option MacAddr)
    (kept : Kept spec x (.alloc given type ridx env)) :
    Guard spec x (.alloc given type ridx env) := by
  cases given with
  | none => trivial
  | some macAddr =>
    intro fresh indexed
    obtain ⟨r,index⟩ := ne_none_iff_exists'.mp indexed
    have new := owned.new index
    have unknown := owned.unknown.mpr fresh
    cases room : firstFree x.mr.portMap spec.portNum with
    | none =>
      obtain ⟨roles,result⟩ := allocSw_full index room macAddr type
      have sound := kept.1
      simp only [Sys.step,rtwPhlWifiRoleAlloc,unknown,result] at sound
      exact absurd (sound.marked.mp (by simp)) new
    | some hwPort =>
      refine ⟨some_ne_none hwPort,fun fails full => ?_⟩
      obtain ⟨s',granted,result⟩ := alloc_new owned.toSound fresh index room type env
      rw [if_pos fails] at result
      have sound := kept.1
      simp only [Sys.step,result] at sound
      exact (owned.undone new fresh room granted).2 full sound

theorem free_step (x : Sys n) (r : Fin n) : x.step spec (.free r) = ⟨phlWifiRoleFreeSw x.mr r,x.live.erase r⟩ := by
  have rest : x.live.filter (fun q => q.val ≠ r.val) = x.live.erase r := by
    ext q
    simp [Fin.val_inj,and_comm]
  simp only [Sys.step,rtwPhlWifiRoleFree,r.isLt,dite_true,rest]

theorem free_absent (x : Sys n) (outside : n ≤ roleIdx) : x.step spec (.free roleIdx) = x := by
  have rest : x.live.filter (fun q => q.val ≠ roleIdx) = x.live := by
    apply Finset.filter_true_of_mem
    intro q _
    omega
  simp only [Sys.step,rtwPhlWifiRoleFree,Nat.not_lt.mpr outside,dite_false,rest]

theorem free_guarded (owned : Owned x) (guarded : Guard spec x (.free roleIdx)) :
    Owned (x.step spec (.free roleIdx)) := by
  by_cases bound : roleIdx < n
  · obtain ⟨live,own⟩ := guarded ⟨roleIdx,bound⟩ rfl
    have after := owned.freed live own
    rwa [← free_step] at after
  · rwa [free_absent x (by omega)]

theorem free_unguarded (owned : Owned x) (proper : Proper x (.free roleIdx)) (kept : Kept spec x (.free roleIdx)) :
    Guard spec x (.free roleIdx) := by
  rintro r rfl
  refine ⟨proper r rfl,fun zero q member apart shared => ?_⟩
  have sound := kept.1
  rw [free_step] at sound
  exact owned.unfreed (proper r rfl) zero apart shared (Finset.mem_erase.mpr ⟨apart,member⟩) sound

theorem guarded_kept (owned : Owned x) (guarded : Guard spec x event) :
    Owned (x.step spec event) ∧ Kept spec x event := by
  cases event with
  | alloc macAddr type ridx env => exact alloc_guarded owned macAddr guarded
  | free roleIdx =>
    have after := free_guarded owned guarded
    exact ⟨after,after.toSound,fun fails => fails.elim⟩

theorem reached_owned (path : Reached (Sys.step spec) (Guard spec) (Sys.init n) x) : Owned x :=
  path.invariant Owned (owned_init n) fun _ _ owned guarded => (guarded_kept owned guarded).1

theorem role_resources_kept (spec : HalSpec) (x : Sys n) (path : Reached (Sys.step spec) (Guard spec) (Sys.init n) x) :
    Sound x ∧ ∀ event, Proper x event → (Kept spec x event ↔ Guard spec x event) := by
  have owned := reached_owned path
  refine ⟨owned.toSound,fun event proper => ⟨fun kept => ?_,fun guarded => (guarded_kept owned guarded).2⟩⟩
  cases event with
  | alloc macAddr type ridx env => exact alloc_unguarded owned macAddr kept
  | free roleIdx => exact free_unguarded owned proper kept

def join (macAddr : MacAddr) : Event 5 := .alloc (some macAddr) .station none ⟨true,true⟩
def visit : List (Event 5) := [join 0x10,.alloc (some 0x30) .ap (some 4) ⟨true,false⟩,join 0x20,join 0x10,.free 1]

theorem role_resources_visit :
    Sound (run (Sys.step rtl8852a) (Sys.init 5) visit) ∧ ∀ event, Proper (run (Sys.step rtl8852a) (Sys.init 5) visit) event →
      (Kept rtl8852a (run (Sys.step rtl8852a) (Sys.init 5) visit) event ↔
        Guard rtl8852a (run (Sys.step rtl8852a) (Sys.init 5) visit) event) :=
  role_resources_kept rtl8852a _ (Reached.start.run (by decide +kernel))

def crowded : List (Event 5) := [join 0x10,join 0x20,join 0x30,.free 2]

theorem role_resources_lost : ¬ ∀ events : List (Event 5), Admitted (Sys.step rtl8852a) Proper (Sys.init 5) events →
    Sound (run (Sys.step rtl8852a) (Sys.init 5) events) := by
  intro kept
  have sound := kept crowded (by decide +kernel)
  have there : (0 : Fin 5) ∈ (run (Sys.step rtl8852a) (Sys.init 5) crowded).live ∧
      (run (Sys.step rtl8852a) (Sys.init 5) crowded).wmm 0 = 0 := by decide +kernel
  have lost : (run (Sys.step rtl8852a) (Sys.init 5) crowded).mr.wmmMap.testBit 0 = false := by decide +kernel
  rw [sound.wmms.free] at lost
  exact lost ⟨0,there⟩
end Rtl8852au.WifiRole
