import Rtl8852au.MacidKept

namespace Rtl8852au.Macid
open Bitmap Machine Function List Option
open WifiRole (RoleType MacAddr)
variable {s : Ctl} {sta mid role : Nat} {addr : MacAddr} {roles : Nat → Wrole}

theorem Tidy.put_back (tidy : Tidy s) (free : s.freeStaQueue = sta :: rest) (change : StaInfo → StaInfo) :
    Tidy {s.onSta sta change with freeStaQueue:=rest ++ [sta]} := by
  have new : sta ∉ s.live := tidy.apart sta (free ▸ mem_cons_self)
  have others {other} (live : other ∈ s.live) : (s.onSta sta change).stas other = s.stas other :=
    update_of_ne (fun same => new (by rwa [← same])) _ _
  have macids : Set.EqOn s.macid (s.onSta sta change).macid s.live := fun other live => congrArg StaInfo.macid (others live).symm
  have wroles {other} (live : other ∈ s.live) : (s.onSta sta change).wrole other = s.wrole other :=
    congrArg StaInfo.wrole (others live)
  have turned : (rest ++ [sta]).Perm (sta :: rest) := perm_append_singleton sta rest
  constructor
  case toConsistent =>
    constructor
    case used =>
      have used := tidy.used
      rwa [Set.image_congr macids] at used
    case once => exact tidy.once.congr macids
    case perRole =>
      intro r
      have same : {other ∈ s.live | (s.onSta sta change).wrole other = r} = {other ∈ s.live | s.wrole other = r} := by
        ext other
        exact and_congr_right fun live => by rw [wroles live]
      have held := tidy.perRole r
      rw [Set.image_congr (fun other live => macids live.1),← same] at held
      exact held
    case stations =>
      intro m other
      exact (tidy.stations m other).trans (and_congr_right fun live => iff_of_eq (congrArg (· = m) (macids live)))
    case bmc =>
      intro r
      rcases tidy.bmc r with invalid | ⟨other,live,owner,broadcast,here⟩
      · exact .inl invalid
      · refine .inr ⟨other,live,(wroles live).trans owner,?_,(macids live).symm.trans here⟩
        rw [← broadcast]
        exact congrArg StaInfo.macAddr (others live)
  case placed =>
    intro r other member
    exact (wroles ⟨r,member⟩).trans (tidy.placed r other member)
  case nodup => exact tidy.nodup
  case apart =>
    intro other member
    apply tidy.apart other
    rw [free]
    exact turned.mem_iff.mp member
  case freeNodup =>
    have once := tidy.freeNodup
    rw [free] at once
    exact turned.nodup_iff.mpr once
  case bounded =>
    intro other live
    exact (macids live).symm.trans_lt (tidy.bounded other live)

theorem onSta_onSta (s : Ctl) (sta : Nat) (one two : StaInfo → StaInfo) :
    (s.onSta sta one).onSta sta two = s.onSta sta (fun info => two (one info)) := by
  simp [Ctl.onSta]

def begun (s : Ctl) (sta : Nat) (rest : List Nat) (role : Nat) (addr : MacAddr) : Ctl :=
  {s with freeStaQueue:=rest}.onSta sta (fun info => {info with macAddr:=addr,wrole:=role})

theorem begun_macid (room : firstFree s.usedMap s.maxNum = some mid) : phlAllocMacid (begun s sta rest role addr) sta =
      (true,{acquired s sta rest role addr mid with assocStaQueue:=s.assocStaQueue}) := by
  unfold phlAllocMacid begun
  simp only [Ctl.onSta,room]
  simp [acquired]

-- The new station of a refused tx ring: on the queue of its role, its macid released.
def unringed (s : Ctl) (sta : Nat) (rest : List Nat) (role : Nat) (addr : MacAddr) (mid : Nat) : Ctl :=
  {released (acquired s sta rest role addr mid) sta with
    assocStaQueue := (acquired s sta rest role addr mid).assocStaQueue
    freeStaQueue := rest}

theorem unringed_own (s : Ctl) (sta : Nat) (rest : List Nat) (role : Nat) (addr : MacAddr) (mid : Nat) :
    (unringed s sta rest role addr mid).stas sta = {s.stas sta with macAddr:=addr,wrole:=role,macid:=s.maxNum} := by
  simp [unringed,released,acquired]

theorem unringed_freed (s : Ctl) (sta : Nat) (rest : List Nat) (role : Nat) (addr : MacAddr) (mid : Nat) :
    freeSta (unringed s sta rest role addr mid) sta = released (acquired s sta rest role addr mid) sta := by
  have own := unringed_own s sta rest role addr mid
  have invalid : (unringed s sta rest role addr mid).maxNum ≤ s.maxNum := Nat.le_refl s.maxNum
  unfold freeSta phlReleaseMacid
  simp only [own,invalid,true_or,reduceIte]
  simp [unringed,released,acquired,Ctl.onSta,Ctl.macid,Ctl.wrole]

theorem unused_lost (live : sta ∈ s.live) (unused : s.usedMap.testBit (s.macid sta) = false) : ¬ Consistent s := by
  intro consistent
  have used := (consistent.used _).mpr ⟨sta,live,rfl⟩
  rw [unused] at used
  cases used

theorem Tidy.invalid_unused (tidy : Tidy s) : s.usedMap.testBit s.maxNum = false := by
  rw [Bool.eq_false_iff,ne_eq,tidy.used]
  rintro ⟨sta,live,same⟩
  exact absurd (tidy.bounded sta live) (Nat.not_lt.mpr (Nat.le_of_eq same.symm))

theorem unringed_lost (tidy : Tidy s) {change : StaInfo → StaInfo}
    (macid : (change ((unringed s sta rest role addr mid).stas sta)).macid = ((unringed s sta rest role addr mid).stas sta).macid) :
    ¬ Consistent ((unringed s sta rest role addr mid).onSta sta change) := by
  have live : sta ∈ ((unringed s sta rest role addr mid).onSta sta change).live := ⟨role,by simp [unringed,acquired,Ctl.onSta]⟩
  apply unused_lost live
  rw [macid_onSta macid,Ctl.macid,unringed_own]
  change (clear (mark s.usedMap mid) ((acquired s sta rest role addr mid).macid sta)).testBit s.maxNum = false
  rw [Ctl.macid,acquired_own,testBit_clear,testBit_mark,tidy.invalid_unused]
  simp

theorem named_onSta {change : StaInfo → StaInfo} (macid : (change (s.stas sta)).macid = (s.stas sta).macid)
    (wrole : (change (s.stas sta)).wrole = (s.stas sta).wrole) : (s.onSta sta change).Named = s.Named := by
  funext other
  unfold Ctl.Named
  rw [macid_onSta macid,wrole_onSta wrole]
  rfl

theorem Tidy.marked (tidy : Tidy s) (sta : Nat) (active : Bool) : Tidy (s.onSta sta (fun info => {info with active})) :=
  tidy.onSta rfl rfl (fun _ broadcast => broadcast)

theorem chk_broadcast (broadcast : (s.stas sta).macAddr = bcAddr) : chkUnlessBroadcast s roles sta = (false,s) :=
  if_pos broadcast

theorem chk_split (s : Ctl) (roles : Nat → Wrole) (sta : Nat) :
    chkUnlessBroadcast s roles sta = (false,s) ∨ chkUnlessBroadcast s roles sta = (true,s) ∨
    chkUnlessBroadcast s roles sta = (true,s.onSta sta (fun info => {info with macAddr:=(roles (s.wrole sta)).macAddr})) := by
  unfold chkUnlessBroadcast
  split
  · exact .inl rfl
  · unfold phlSelfStainfoChk
    split
    · exact .inr (.inr rfl)
    · exact .inr (.inr rfl)
    all_goals try exact .inl rfl
    all_goals
      cases (roles (s.stas sta).wrole).macAddr == (s.stas sta).macAddr with
      | false => exact .inl rfl
      | true => exact .inr (.inl rfl)

theorem Tidy.freeSw (tidy : Tidy s) (live : sta ∈ s.live) (unnamed : ¬ s.Named sta) (roles : Nat → Wrole) :
    Tidy (phlFreeStainfoSw s roles sta) := by
  unfold phlFreeStainfoSw
  rcases chk_split s roles sta with same | same | same
  · rw [same]
    change Tidy (freeSta s sta)
    rw [tidy.freed live]
    exact tidy.released live unnamed
  · rw [same]
    exact tidy
  · rw [same]
    exact tidy.onSta rfl rfl (fun named => absurd named unnamed)

theorem Tidy.freeSw_lost (tidy : Tidy s) (live : sta ∈ s.live) (named : s.Named sta) (roles : Nat → Wrole) :
    ¬ Consistent (phlFreeStainfoSw s roles sta) := by
  have broadcast : chkUnlessBroadcast s roles sta = (false,s) := chk_broadcast (tidy.broadcast live named)
  unfold phlFreeStainfoSw
  rw [broadcast]
  change ¬ Consistent (freeSta s sta)
  rw [tidy.freed live]
  exact tidy.released_lost live named

theorem free_guarded (tidy : Tidy s) (guarded : Guard s (.free roles sta)) : Tidy (macidStep s (.free roles sta)) := by
  obtain ⟨member,unnamed⟩ := guarded
  have live := (tidy.mem_live member).1
  have marked {change : StaInfo → StaInfo} (macid : (change (s.stas sta)).macid = (s.stas sta).macid)
      (wrole : (change (s.stas sta)).wrole = (s.stas sta).wrole) : Tidy (phlFreeStainfoSw (s.onSta sta change) roles sta) := by
    have still : ¬ (s.onSta sta change).Named sta := by rwa [named_onSta macid wrole]
    exact (tidy.onSta macid wrole (fun named => absurd named unnamed)).freeSw live still roles
  change Tidy (phlFreeStainfoSw (phlFreeStainfoHw s roles sta) roles sta)
  unfold phlFreeStainfoHw
  rcases chk_split s roles sta with same | same | same
  · rw [same]
    exact marked rfl rfl
  · rw [same]
    exact tidy.freeSw live unnamed roles
  · rw [same]
    exact marked rfl rfl

theorem free_lost (tidy : Tidy s) (member : sta ∈ s.assocStaQueue (s.wrole sta)) (named : s.Named sta) :
    ¬ Consistent (macidStep s (.free roles sta)) := by
  have live := (tidy.mem_live member).1
  have broadcast : chkUnlessBroadcast s roles sta = (false,s) := chk_broadcast (tidy.broadcast live named)
  change ¬ Consistent (phlFreeStainfoSw (phlFreeStainfoHw s roles sta) roles sta)
  unfold phlFreeStainfoHw
  rw [broadcast]
  have marked := tidy.marked sta false
  apply marked.freeSw_lost live
  rw [named_onSta rfl rfl]
  exact named

def answered (s : Ctl) (roles : Nat → Wrole) (sta : Nat) (hw : Bool) : Option Nat × Ctl :=
  if (s.stas sta).active then (some sta,s)
  else if hw then (some sta,s.onSta sta (fun info => {info with active:=true}))
  else (none,phlFreeStainfoSw s roles sta)

theorem Tidy.answered (tidy : Tidy s) (live : sta ∈ s.live) (hw : Bool) (held : s.Named sta → ¬ Refused s sta hw) :
    Tidy (answered s roles sta hw).2 := by
  unfold Macid.answered
  split
  · exact tidy
  · rename_i idle
    split
    · exact tidy.marked sta true
    · rename_i failed
      exact tidy.freeSw live (fun named => held named ⟨by simpa using idle,by simpa using failed⟩) roles

theorem Tidy.answered_lost (tidy : Tidy s) (live : sta ∈ s.live) (named : s.Named sta) (refused : Refused s sta hw) :
    ¬ Consistent (Macid.answered s roles sta hw).2 := by
  unfold Macid.answered
  rw [refused.1,refused.2]
  exact tidy.freeSw_lost live named roles

theorem answered_some (answer : (answered s roles sta hw).1 = some other) : other = sta ∧
    (answered s roles sta hw).2.macid other = s.macid other := by
  unfold answered at *
  split at answer
  · rename_i active
    rw [if_pos active]
    exact ⟨(some.inj answer).symm,rfl⟩
  · rename_i idle
    rw [if_neg idle]
    split at answer
    · rename_i done
      rw [if_pos done,macid_onSta rfl]
      exact ⟨(some.inj answer).symm,rfl⟩
    · cases answer

theorem alloc_answered (got : phlAllocStainfoSw s roles role addr env.ring = (some sta,s')) :
    phlAllocStainfo s roles role addr env = answered s' roles sta env.hw := by
  unfold phlAllocStainfo
  rw [got]
  rfl

theorem alloc_none (got : phlAllocStainfoSw s roles role addr env.ring = (none,s')) :
    phlAllocStainfo s roles role addr env = (none,s') := by
  unfold phlAllocStainfo
  rw [got]

theorem selfStainfo_some (self : selfStainfo s roles role addr = some sta) :
    (roles role).type = .station ∧ addr ≠ bcAddr ∧ (s.assocStaQueue role).head? = some sta := by
  unfold selfStainfo at self
  split at self
  · rename_i held
    exact ⟨held.1,held.2,self⟩
  · cases self

theorem allocSw_self (self : selfStainfo s roles role addr = some sta) (ring : Bool) :
    phlAllocStainfoSw s roles role addr ring = (some sta,s.onSta sta (fun info => {info with macAddr:=addr})) := by
  simp only [phlAllocStainfoSw,self]

theorem allocSw_found (self : selfStainfo s roles role addr = none) (found : getStainfoByAddr s role addr = some sta)
    (ring : Bool) : phlAllocStainfoSw s roles role addr ring = (some sta,s) := by
  simp only [phlAllocStainfoSw,self,found]

theorem allocSw_new (self : selfStainfo s roles role addr = none) (found : getStainfoByAddr s role addr = none)
    (ring : Bool) : phlAllocStainfoSw s roles role addr ring = newStainfo s role addr ring := by
  simp only [phlAllocStainfoSw,self,found]

theorem newStainfo_full (free : s.freeStaQueue = sta :: rest) (full : firstFree s.usedMap s.maxNum = none)
    (role : Nat) (addr : MacAddr) (ring : Bool) :
    ∃ change, newStainfo s role addr ring = (none,{s.onSta sta change with freeStaQueue:=rest ++ [sta]}) := by
  refine ⟨fun info => {info with macAddr:=addr,wrole:=role,macid:=s.maxNum},?_⟩
  unfold newStainfo
  simp only [free,allocMacidRing,phlAllocMacid,Ctl.onSta,full,update_idem,update_self]

theorem newStainfo_ringed (free : s.freeStaQueue = sta :: rest)
    (room : firstFree s.usedMap s.maxNum = some mid) (role : Nat) (addr : MacAddr) :
    newStainfo s role addr true = (some sta,acquired s sta rest role addr mid) := by
  have given : allocMacidRing (begun s sta rest role addr) sta true =
      (true,{acquired s sta rest role addr mid with assocStaQueue:=s.assocStaQueue}) := by
    simp only [allocMacidRing,begun_macid room]
    rfl
  unfold begun at given
  unfold newStainfo
  simp only [free,given]
  rfl

theorem newStainfo_unringed (free : s.freeStaQueue = sta :: rest)
    (room : firstFree s.usedMap s.maxNum = some mid) (role : Nat) (addr : MacAddr) :
    newStainfo s role addr false = (some sta,unringed s sta rest role addr mid) := by
  have bound := (firstFree_some room).1
  have own := acquired_own s sta rest role addr mid
  have used : ¬ ((acquired s sta rest role addr mid).maxNum ≤ mid ∨ (acquired s sta rest role addr mid).usedMap.testBit mid = false) := by simp [acquired,bound]
  have given : allocMacidRing (begun s sta rest role addr) sta false =
      (true,{unringed s sta rest role addr mid with assocStaQueue:=s.assocStaQueue}) := by
    simp only [allocMacidRing,begun_macid room,phlReleaseMacid,own]
    simp only [Bool.false_eq_true,reduceIte]
    rw [if_neg used]
    simp [unringed,released,Ctl.onSta,Ctl.macid,Ctl.wrole,acquired]
  unfold begun at given
  unfold newStainfo
  simp only [free,given]
  rfl

theorem alloc_self (self : selfStainfo s roles role addr = some sta) (owner : s.wrole sta = role) (env : AllocEnv) :
    ∃ change : StaInfo → StaInfo, (change (s.stas sta)).macid = (s.stas sta).macid ∧
      (change (s.stas sta)).wrole = (s.stas sta).wrole ∧
      (phlAllocStainfo s roles role addr env).2 = s.onSta sta change ∧
      ((s.stas sta).active = false ∧ env.hw = false → (change (s.stas sta)).macAddr = (roles role).macAddr) ∧
      (¬ ((s.stas sta).active = false ∧ env.hw = false) → (change (s.stas sta)).macAddr = addr) := by
  obtain ⟨station,unicast,_⟩ := selfStainfo_some self
  rw [alloc_answered (allocSw_self self env.ring)]
  have own : ((s.onSta sta (fun info => {info with macAddr:=addr})).stas sta) = {s.stas sta with macAddr:=addr} :=
    update_self ..
  unfold answered
  rw [own]
  dsimp only
  cases active : (s.stas sta).active with
  | true => exact ⟨fun info => {info with macAddr:=addr},rfl,rfl,rfl,by simp,fun _ => rfl⟩
  | false =>
    cases hw : env.hw with
    | true =>
      refine ⟨fun info => {info with macAddr:=addr,active:=true},rfl,rfl,?_,by simp,fun _ => rfl⟩
      simp only [Bool.false_eq_true,reduceIte,onSta_onSta]
    | false =>
      refine ⟨fun info => {info with macAddr:=(roles role).macAddr},rfl,rfl,?_,fun _ => rfl,by simp⟩
      have checked : chkUnlessBroadcast (s.onSta sta (fun info => {info with macAddr:=addr})) roles sta =
          (true,s.onSta sta (fun info => {info with macAddr:=(roles role).macAddr})) := by
        have role' : (s.stas sta).wrole = role := owner
        simp only [chkUnlessBroadcast,own,if_neg unicast,phlSelfStainfoChk,role',station,onSta_onSta]
      unfold phlFreeStainfoSw
      rw [checked]
      rfl

theorem Tidy.self_live (tidy : Tidy s) (self : selfStainfo s roles role addr = some sta) :
    sta ∈ s.live ∧ s.wrole sta = role :=
  tidy.mem_live (mem_of_head? (selfStainfo_some self).2.2)

theorem Tidy.found_broadcast (tidy : Tidy s) (found : getStainfoByAddr s role bcAddr = some sta) :
    sta ∈ s.live ∧ s.Named sta := by
  unfold getStainfoByAddr at found
  rw [if_pos rfl] at found
  split at found
  · cases found
  · rename_i valid
    obtain ⟨live,here⟩ := (tidy.stations _ sta).mp found
    rcases tidy.bmc role with invalid | ⟨other,there,owner,_,same⟩
    · exact absurd (Nat.le_of_eq invalid.symm) valid
    · obtain rfl : other = sta := tidy.once there live (same.trans here.symm)
      refine ⟨live,?_⟩
      unfold Ctl.Named
      rw [owner]
      exact here.symm

theorem Tidy.found_unicast (tidy : Tidy s) (unicast : addr ≠ bcAddr) (found : getStainfoByAddr s role addr = some sta) :
    sta ∈ s.live ∧ ¬ s.Named sta := by
  unfold getStainfoByAddr at found
  rw [if_neg unicast] at found
  have live := (tidy.mem_live (mem_of_find?_eq_some found)).1
  have here := find?_some found
  refine ⟨live,fun named => unicast ?_⟩
  rw [← eq_of_beq here]
  exact tidy.broadcast live named

theorem acquired_named (tidy : Tidy (acquired s sta rest role addr mid)) :
    (acquired s sta rest role addr mid).Named sta ↔ addr = bcAddr := by
  have own := acquired_own s sta rest role addr mid
  have live : sta ∈ (acquired s sta rest role addr mid).live := by
    rw [acquired_live]
    exact .inl rfl
  constructor
  · intro named
    have broadcast := tidy.broadcast live named
    rwa [own] at broadcast
  · intro broadcast
    have macid : (acquired s sta rest role addr mid).macid sta = mid := congrArg StaInfo.macid own
    have wrole : (acquired s sta rest role addr mid).wrole sta = role := congrArg StaInfo.wrole own
    unfold Ctl.Named
    rw [macid,wrole]
    simp [acquired,broadcast]

theorem selfStainfo_broadcast (s : Ctl) (roles : Nat → Wrole) (role : Nat) : selfStainfo s roles role bcAddr = none := by
  unfold selfStainfo
  exact if_neg (fun held => held.2 rfl)

theorem selfChk_keeps (s : Ctl) (roles : Nat → Wrole) (sta : Nat) (unicast : (s.stas sta).macAddr ≠ bcAddr) :
    (chkUnlessBroadcast s roles sta).1 = keepsSelf (roles (s.wrole sta)) (s.stas sta).macAddr := by
  unfold chkUnlessBroadcast
  rw [if_neg unicast]
  change (phlSelfStainfoChk s (roles (s.wrole sta)) sta).1 = _
  unfold phlSelfStainfoChk keepsSelf
  cases (roles (s.wrole sta)).type <;> rfl

theorem unringed_answered (mid : Nat) (rest : List Nat) (refused : Refused s sta hw) (gone : addr = bcAddr ∨ keepsSelf (roles role) addr = false) :
    (answered (unringed s sta rest role addr mid) roles sta hw).2 = released (acquired s sta rest role addr mid) sta := by
  have own := unringed_own s sta rest role addr mid
  have checked : chkUnlessBroadcast (unringed s sta rest role addr mid) roles sta =
      (false,unringed s sta rest role addr mid) := by
    by_cases broadcast : addr = bcAddr
    · exact chk_broadcast (by rw [own]; exact broadcast)
    · have kept := selfChk_keeps (unringed s sta rest role addr mid) roles sta (by rw [own]; exact broadcast)
      rw [Ctl.wrole,own,gone.resolve_left broadcast] at kept
      rcases chk_split (unringed s sta rest role addr mid) roles sta with same | same | same
      · exact same
      all_goals
        rw [same] at kept
        cases kept
  unfold answered
  rw [own]
  simp only [refused.1,refused.2,Bool.false_eq_true,reduceIte]
  unfold phlFreeStainfoSw
  rw [checked]
  exact unringed_freed s sta rest role addr mid

structure Starts (s : Ctl) (roles : Nat → Wrole) (role : Nat) (addr : MacAddr) (sta : Nat) (rest : List Nat) (mid : Nat) : Prop where
  self : selfStainfo s roles role addr = none
  found : getStainfoByAddr s role addr = none
  free : s.freeStaQueue = sta :: rest
  room : firstFree s.usedMap s.maxNum = some mid

section
variable (starts : Starts s roles role addr sta rest mid)
include starts

theorem Starts.newSta : newSta s roles role addr = some sta := by
  unfold Macid.newSta
  rw [if_pos ⟨starts.self,starts.found,by simp [starts.room]⟩,starts.free]
  rfl

theorem Starts.ringed (ring : env.ring = true) :
    phlAllocStainfo s roles role addr env = answered (acquired s sta rest role addr mid) roles sta env.hw :=
  alloc_answered ((allocSw_new starts.self starts.found _).trans (ring ▸ newStainfo_ringed starts.free starts.room role addr))

theorem Starts.unringed (ring : env.ring = false) :
    phlAllocStainfo s roles role addr env = answered (Macid.unringed s sta rest role addr mid) roles sta env.hw :=
  alloc_answered ((allocSw_new starts.self starts.found _).trans (ring ▸ newStainfo_unringed starts.free starts.room role addr))

theorem Starts.given (tidy : Tidy s) :
    Tidy (acquired s sta rest role addr mid) ∧ sta ∈ (acquired s sta rest role addr mid).live := by
  refine ⟨tidy.acquired starts.free starts.room role addr,?_⟩
  rw [acquired_live]
  exact .inl rfl

theorem Starts.ringed_tidy (tidy : Tidy s) (taken : addr = bcAddr → ¬ Refused s sta hw) :
    Tidy (answered (acquired s sta rest role addr mid) roles sta hw).2 := by
  obtain ⟨given,live⟩ := starts.given tidy
  apply given.answered live
  rw [acquired_named given,Refused,acquired_own]
  exact taken

theorem Starts.ringed_lost (tidy : Tidy s) (broadcast : addr = bcAddr) (refused : Refused s sta hw) :
    ¬ Consistent (answered (acquired s sta rest role addr mid) roles sta hw).2 := by
  obtain ⟨given,live⟩ := starts.given tidy
  apply given.answered_lost live ((acquired_named given).mpr broadcast)
  rw [Refused,acquired_own]
  exact refused

theorem Starts.unringed_tidy (tidy : Tidy s) (refused : Refused s sta hw) (unicast : addr ≠ bcAddr)
    (gone : keepsSelf (roles role) addr = false) : Tidy (answered (Macid.unringed s sta rest role addr mid) roles sta hw).2 := by
  obtain ⟨given,live⟩ := starts.given tidy
  rw [unringed_answered mid rest refused (.inr gone)]
  exact given.released live (fun named => unicast ((acquired_named given).mp named))

theorem Starts.unringed_needs (tidy : Tidy s) (after : Consistent (answered (Macid.unringed s sta rest role addr mid) roles sta hw).2) :
    addr ≠ bcAddr ∧ Refused s sta hw ∧ keepsSelf (roles role) addr = false := by
  obtain ⟨given,live⟩ := starts.given tidy
  have own := unringed_own s sta rest role addr mid
  have lost (change : StaInfo → StaInfo) (same : ∀ info, (change info).macid = info.macid) :
      ¬ Consistent ((Macid.unringed s sta rest role addr mid).onSta sta change) := unringed_lost tidy (same _)
  have still : ¬ Consistent (Macid.unringed s sta rest role addr mid) := by
    have lost := lost id (fun _ => rfl)
    simpa [Ctl.onSta] using lost
  by_cases refused : Refused s sta hw
  · have unicast : addr ≠ bcAddr := by
      intro broadcast
      rw [unringed_answered mid rest refused (.inl broadcast)] at after
      exact given.released_lost live ((acquired_named given).mpr broadcast) after
    refine ⟨unicast,refused,?_⟩
    have kept := selfChk_keeps (Macid.unringed s sta rest role addr mid) roles sta (by rw [own]; exact unicast)
    rw [Ctl.wrole,own] at kept
    unfold answered phlFreeStainfoSw at after
    rw [own] at after
    simp only [refused.1,refused.2,Bool.false_eq_true,reduceIte] at after
    rcases chk_split (Macid.unringed s sta rest role addr mid) roles sta with same | same | same
    · rw [same] at kept
      exact kept.symm
    · rw [same] at after
      exact absurd after still
    · rw [same] at after
      exact absurd after (lost (fun info => {info with macAddr:=(roles _).macAddr}) (fun _ => rfl))
  · unfold answered at after
    split at after
    · exact absurd after still
    · rename_i idle
      split at after
      · exact absurd after (lost (fun info => {info with active:=true}) (fun _ => rfl))
      · rename_i failed
        rw [own] at idle
        exact absurd ⟨by simpa using idle,by simpa using failed⟩ refused
end

theorem alloc_guarded (tidy : Tidy s) (guarded : AllocGuard s roles role addr env) :
    Tidy (phlAllocStainfo s roles role addr env).2 := by
  obtain ⟨new,old⟩ := guarded
  cases self : selfStainfo s roles role addr with
  | some sta =>
    obtain ⟨station,unicast,head⟩ := selfStainfo_some self
    obtain ⟨live,owner⟩ := tidy.self_live self
    obtain ⟨change,macid,wrole,after,refused,_⟩ := alloc_self self owner env
    rw [if_neg unicast] at old
    rw [after]
    apply tidy.onSta macid wrole
    intro named _
    obtain ⟨idle,broadcast⟩ := old sta self named
    exact (refused idle).trans broadcast
  | none =>
    cases found : getStainfoByAddr s role addr with
    | some sta =>
      rw [alloc_answered (allocSw_found self found env.ring)]
      by_cases broadcast : addr = bcAddr
      · subst broadcast
        exact tidy.answered (tidy.found_broadcast found).1 env.hw (fun _ => old sta found)
      · obtain ⟨live,unnamed⟩ := tidy.found_unicast broadcast found
        exact tidy.answered live env.hw (fun named => absurd named unnamed)
    | none =>
      cases free : s.freeStaQueue with
      | nil =>
        have empty : newStainfo s role addr env.ring = (none,s) := by simp only [newStainfo,free]
        rw [alloc_none ((allocSw_new self found env.ring).trans empty)]
        exact tidy
      | cons sta rest =>
        cases room : firstFree s.usedMap s.maxNum with
        | none =>
          obtain ⟨change,full⟩ := newStainfo_full free room role addr env.ring
          rw [alloc_none ((allocSw_new self found env.ring).trans full)]
          exact tidy.put_back free change
        | some mid =>
          have starts : Starts s roles role addr sta rest mid := ⟨self,found,free,room⟩
          have taken := new sta starts.newSta
          cases ring : env.ring with
          | true =>
            rw [starts.ringed ring]
            apply starts.ringed_tidy tidy
            intro broadcast
            rw [if_pos broadcast] at taken
            exact taken.2
          | false =>
            rw [starts.unringed ring]
            rw [ring] at taken
            by_cases broadcast : addr = bcAddr
            · simp [broadcast] at taken
            · rw [if_neg broadcast] at taken
              obtain ⟨refused,gone⟩ := taken.resolve_left (by decide)
              exact starts.unringed_tidy tidy refused broadcast gone

theorem alloc_lost (tidy : Tidy s) (after : Consistent (phlAllocStainfo s roles role addr env).2) :
    AllocGuard s roles role addr env := by
  constructor
  · intro sta new
    unfold newSta at new
    split at new
    · rename_i held
      obtain ⟨self,found,some⟩ := held
      obtain ⟨mid,room⟩ := ne_none_iff_exists'.mp some
      obtain ⟨rest,free⟩ := head?_eq_some_iff.mp new
      have starts : Starts s roles role addr sta rest mid := ⟨self,found,free,room⟩
      cases ring : env.ring with
      | true =>
        rw [starts.ringed ring] at after
        split
        · rename_i broadcast
          exact ⟨rfl,fun refused => starts.ringed_lost tidy broadcast refused after⟩
        · exact .inl rfl
      | false =>
        rw [starts.unringed ring] at after
        obtain ⟨unicast,back⟩ := starts.unringed_needs tidy after
        rw [if_neg unicast]
        exact .inr back
    · cases new
  · split
    · rename_i broadcast
      subst broadcast
      intro sta found refused
      obtain ⟨live,named⟩ := tidy.found_broadcast found
      rw [alloc_answered (allocSw_found (selfStainfo_broadcast s roles role) found env.ring)] at after
      exact tidy.answered_lost live named refused after
    · rename_i unicast
      intro sta self named
      obtain ⟨live,owner⟩ := tidy.self_live self
      obtain ⟨change,macid,_,same,refused,kept⟩ := alloc_self self owner env
      rw [same] at after
      have broadcast : (change (s.stas sta)).macAddr = bcAddr := by
        by_contra lost
        exact tidy.onSta_lost live named macid lost after
      by_cases idle : Refused s sta env.hw
      · exact ⟨idle,(refused idle).symm.trans broadcast⟩
      · exact absurd ((kept idle).symm.trans broadcast) unicast

theorem alloc_fresh (tidy : Tidy s) (answer : (phlAllocStainfo s roles role addr env).1 = some sta) (new : sta ∉ s.live) :
    s.usedMap.testBit ((phlAllocStainfo s roles role addr env).2.macid sta) = false := by
  cases self : selfStainfo s roles role addr with
  | some other =>
    rw [alloc_answered (allocSw_self self env.ring)] at answer
    obtain ⟨rfl,_⟩ := answered_some answer
    exact absurd (tidy.self_live self).1 new
  | none =>
    cases found : getStainfoByAddr s role addr with
    | some other =>
      rw [alloc_answered (allocSw_found self found env.ring)] at answer
      obtain ⟨rfl,_⟩ := answered_some answer
      have live : sta ∈ s.live := by
        by_cases broadcast : addr = bcAddr
        · subst broadcast
          exact (tidy.found_broadcast found).1
        · exact (tidy.found_unicast broadcast found).1
      exact absurd live new
    | none =>
      have next := allocSw_new self found env.ring
      cases free : s.freeStaQueue with
      | nil =>
        have empty : newStainfo s role addr env.ring = (none,s) := by simp only [newStainfo,free]
        rw [alloc_none (next.trans empty)] at answer
        cases answer
      | cons first rest =>
        cases room : firstFree s.usedMap s.maxNum with
        | none =>
          obtain ⟨change,full⟩ := newStainfo_full free room role addr env.ring
          rw [alloc_none (next.trans full)] at answer
          cases answer
        | some mid =>
          have starts : Starts s roles role addr first rest mid := ⟨self,found,free,room⟩
          cases ring : env.ring with
          | true =>
            rw [starts.ringed ring] at answer ⊢
            obtain ⟨rfl,macid⟩ := answered_some answer
            rw [macid,Ctl.macid,acquired_own]
            exact (firstFree_some room).2
          | false =>
            rw [starts.unringed ring] at answer ⊢
            obtain ⟨rfl,macid⟩ := answered_some answer
            rw [macid,Ctl.macid,unringed_own]
            exact tidy.invalid_unused

theorem guarded_tidy (tidy : Tidy s) (guarded : Guard s event) : Tidy (macidStep s event) := by
  cases event with
  | alloc roles role addr env => exact alloc_guarded tidy guarded
  | free roles sta => exact free_guarded tidy guarded

theorem kept_iff (tidy : Tidy s) (proper : Proper s event) : Kept s event ↔ Guard s event := by
  constructor
  · rintro ⟨after,_⟩
    cases event with
    | alloc roles role addr env => exact alloc_lost tidy after
    | free roles sta => exact ⟨proper,fun named => free_lost tidy proper named after⟩
  · intro guarded
    refine ⟨(guarded_tidy tidy guarded).toConsistent,?_⟩
    intro sta answer new
    cases event with
    | alloc roles role addr env => exact alloc_fresh tidy answer new
    | free roles other => cases answer

theorem reached_tidy (path : Reached macidStep Guard (init maxNum staNum) s) : Tidy s :=
  path.invariant Tidy (tidy_init maxNum staNum) fun _ _ tidy guarded => guarded_tidy tidy guarded

theorem macids_kept (maxNum staNum : Nat) (s : Ctl) (path : Reached macidStep Guard (init maxNum staNum) s) :
    Consistent s ∧ ∀ event, Proper s event → (Kept s event ↔ Guard s event) :=
  ⟨(reached_tidy path).toConsistent,fun _ proper => kept_iff (reached_tidy path) proper⟩

def twoRoles : Nat → Wrole
  | 0 => ⟨.ap,0x10⟩
  | _ => ⟨.station,0x20⟩

def cell : List Event := [.alloc twoRoles 0 0x10 ⟨true,true⟩,.alloc twoRoles 0 bcAddr ⟨true,true⟩,
  .alloc twoRoles 1 0x20 ⟨true,true⟩,.alloc twoRoles 0 0x31 ⟨false,false⟩,.alloc twoRoles 0 0x32 ⟨true,true⟩,
  .alloc twoRoles 1 0x33 ⟨true,true⟩,.free twoRoles 4]

theorem macids_cell : Consistent (run macidStep (init 128 128) cell) ∧
    ∀ event, Proper (run macidStep (init 128 128) cell) event →
      (Kept (run macidStep (init 128 128) cell) event ↔ Guard (run macidStep (init 128 128) cell) event) :=
  macids_kept 128 128 _ (Reached.start.run (by decide +kernel))

-- The broadcast station of an access point is freed: wrole_bmc keeps its macid.
theorem macids_stale : ¬ ∀ events : List Event, Admitted macidStep Proper (init 128 128) events →
    Consistent (run macidStep (init 128 128) events) := by
  intro kept
  have path : Reached macidStep Guard (init 128 128) (macidStep (init 128 128) (.alloc twoRoles 0 bcAddr ⟨true,true⟩)) :=
    .step .start (by decide +kernel)
  have lost : ¬ Consistent (macidStep (macidStep (init 128 128) (.alloc twoRoles 0 bcAddr ⟨true,true⟩)) (.free twoRoles 0)) :=
    free_lost (reached_tidy path) (by decide +kernel) (by decide +kernel)
  have after := kept [.alloc twoRoles 0 bcAddr ⟨true,true⟩,.free twoRoles 0] (by decide +kernel)
  rw [run,foldl_cons,foldl_cons,foldl_nil] at after
  exact lost after
end Rtl8852au.Macid
