import Rtl8852au.Macid

namespace Rtl8852au.Macid
open Bitmap Machine Function List Nat Set
open WifiRole (RoleType MacAddr)
variable {s : Ctl} {sta mid role : Nat} {addr : MacAddr}

structure Tidy (s : Ctl) : Prop extends Consistent s where
  placed : ∀ role, ∀ sta ∈ s.assocStaQueue role, s.wrole sta = role
  nodup : ∀ role, (s.assocStaQueue role).Nodup
  apart : ∀ sta ∈ s.freeStaQueue, sta ∉ s.live
  freeNodup : s.freeStaQueue.Nodup
  bounded : ∀ sta ∈ s.live, s.macid sta < s.maxNum

theorem live_init (maxNum staNum : Nat) : (init maxNum staNum).live = ∅ := by
  apply eq_empty_of_forall_notMem
  rintro sta ⟨role,member⟩
  cases member

theorem tidy_init (maxNum staNum : Nat) : Tidy (init maxNum staNum) where
  used := by rw [live_init,image_empty]; exact .empty
  once := by simp [live_init]
  perRole role := by
    simp only [live_init,mem_empty_iff_false,false_and,ofPred_false,image_empty]
    exact .empty
  stations mid sta := by
    rw [live_init]
    exact ⟨fun absent => (by cases absent),fun held => held.1.elim⟩
  bmc role := .inl rfl
  placed role sta member := absurd member not_mem_nil
  nodup role := nodup_nil
  apart := by simp [live_init]
  freeNodup := nodup_range
  bounded := by simp [live_init]

theorem Tidy.queued (tidy : Tidy s) : sta ∈ s.live ↔ sta ∈ s.assocStaQueue (s.wrole sta) := by
  constructor
  · rintro ⟨role,member⟩
    rwa [tidy.placed role sta member]
  · exact fun member => ⟨_,member⟩

theorem Tidy.mem_live (tidy : Tidy s) (member : sta ∈ s.assocStaQueue role) : sta ∈ s.live ∧ s.wrole sta = role :=
  ⟨⟨role,member⟩,tidy.placed role sta member⟩

theorem Tidy.broadcast (tidy : Tidy s) (live : sta ∈ s.live) (named : s.Named sta) : (s.stas sta).macAddr = bcAddr := by
  rcases tidy.bmc (s.wrole sta) with invalid | ⟨other,there,_,broadcast,same⟩
  · have bound := tidy.bounded sta live
    rw [← named,invalid] at bound
    exact absurd bound (lt_irrefl _)
  · rw [named] at same
    rwa [tidy.once there live same] at broadcast

section onSta
variable {change : StaInfo → StaInfo}

theorem macid_onSta (macid : (change (s.stas sta)).macid = (s.stas sta).macid) : (s.onSta sta change).macid = s.macid := by
  funext other
  by_cases same : other = sta
  · subst same
    simpa [Ctl.macid,Ctl.onSta] using macid
  · simp [Ctl.macid,Ctl.onSta,same]

theorem wrole_onSta (wrole : (change (s.stas sta)).wrole = (s.stas sta).wrole) : (s.onSta sta change).wrole = s.wrole := by
  funext other
  by_cases same : other = sta
  · subst same
    simpa [Ctl.wrole,Ctl.onSta] using wrole
  · simp [Ctl.wrole,Ctl.onSta,same]

theorem Tidy.onSta (tidy : Tidy s) (macid : (change (s.stas sta)).macid = (s.stas sta).macid)
    (wrole : (change (s.stas sta)).wrole = (s.stas sta).wrole)
    (addr : s.Named sta → (s.stas sta).macAddr = bcAddr → (change (s.stas sta)).macAddr = bcAddr) :
    Tidy (s.onSta sta change) := by
  have macids := macid_onSta macid
  have wroles := wrole_onSta wrole
  constructor
  case toConsistent =>
    constructor
    case used => rw [macids]; exact tidy.used
    case once => rw [macids]; exact tidy.once
    case perRole => rw [macids,wroles]; exact tidy.perRole
    case stations => rw [macids]; exact tidy.stations
    case bmc =>
      intro role
      rcases tidy.bmc role with invalid | ⟨other,live,owner,broadcast,here⟩
      · exact .inl invalid
      · refine .inr ⟨other,live,by rw [wroles]; exact owner,?_,by rw [macids]; exact here⟩
        by_cases same : other = sta
        · subst same
          have named : s.Named other := by rw [Ctl.Named,owner]; exact here.symm
          simpa [Ctl.onSta] using addr named broadcast
        · simpa [Ctl.onSta,same] using broadcast
  case placed => rw [wroles]; exact tidy.placed
  case nodup => exact tidy.nodup
  case apart => exact tidy.apart
  case freeNodup => exact tidy.freeNodup
  case bounded => rw [macids]; exact tidy.bounded

theorem Tidy.onSta_lost (tidy : Tidy s) (live : sta ∈ s.live) (named : s.Named sta)
    (macid : (change (s.stas sta)).macid = (s.stas sta).macid) (addr : (change (s.stas sta)).macAddr ≠ bcAddr) :
    ¬ Consistent (s.onSta sta change) := by
  intro consistent
  have macids := macid_onSta macid
  rcases consistent.bmc (s.wrole sta) with invalid | ⟨other,there,_,broadcast,here⟩
  · have bound := tidy.bounded sta live
    rw [← named] at bound
    exact absurd (invalid ▸ bound) (lt_irrefl _)
  · rw [macids] at here
    obtain rfl : other = sta := tidy.once there live (here.trans named)
    apply addr
    simpa [Ctl.onSta] using broadcast
end onSta

-- A live station that is freed: every table forgets its macid, wrole_bmc does not.
def released (s : Ctl) (sta : Nat) : Ctl :=
  {s with
    stas := update s.stas sta {s.stas sta with macid:=s.maxNum}
    usedMap := clear s.usedMap (s.macid sta)
    wifiRoleUsedmap := update s.wifiRoleUsedmap (s.wrole sta) (clear (s.wifiRoleUsedmap (s.wrole sta)) (s.macid sta))
    sta := update s.sta (s.macid sta) none
    bmcMap := if (s.stas sta).macAddr == bcAddr then clear s.bmcMap (s.macid sta) else s.bmcMap
    assocStaQueue := update s.assocStaQueue (s.wrole sta) ((s.assocStaQueue (s.wrole sta)).erase sta)
    freeStaQueue := s.freeStaQueue ++ [sta]}

theorem Tidy.used_bit (tidy : Tidy s) (live : sta ∈ s.live) : s.usedMap.testBit (s.macid sta) :=
  (tidy.used _).mpr ⟨sta,live,rfl⟩

theorem Tidy.freed (tidy : Tidy s) (live : sta ∈ s.live) : freeSta s sta = released s sta := by
  have used := tidy.used_bit live
  have bound := tidy.bounded sta live
  unfold freeSta phlReleaseMacid
  dsimp only
  rw [if_neg]
  · rfl
  · rintro (large | unused)
    · exact not_lt.mpr large bound
    · exact absurd (used.symm.trans unused) (by decide)

theorem released_live (tidy : Tidy s) (sta : Nat) : (released s sta).live = s.live \ {sta} := by
  ext other
  constructor
  · rintro ⟨role,member⟩
    by_cases same : role = s.wrole sta
    · subst same
      simp only [released,update_self] at member
      obtain ⟨apart,there⟩ := (tidy.nodup _).mem_erase_iff.mp member
      exact ⟨⟨_,there⟩,apart⟩
    · simp only [released,update_of_ne same] at member
      obtain ⟨there,owner⟩ := tidy.mem_live member
      exact ⟨there,fun equal => same (owner.symm.trans (congrArg s.wrole equal))⟩
  · rintro ⟨there,apart⟩
    refine ⟨s.wrole other,?_⟩
    have member := tidy.queued.mp there
    by_cases same : s.wrole other = s.wrole sta
    · rw [same] at member ⊢
      simp only [released,update_self]
      exact (tidy.nodup _).mem_erase_iff.mpr ⟨apart,member⟩
    · simpa only [released,update_of_ne same] using member

theorem released_stas (apart : other ≠ sta) : (released s sta).stas other = s.stas other := update_of_ne apart _ _

theorem released_wrole (s : Ctl) (sta : Nat) : (released s sta).wrole = s.wrole := by
  funext other
  by_cases same : other = sta
  · subst same
    simp [Ctl.wrole,released]
  · exact congrArg StaInfo.wrole (released_stas same)

theorem Tidy.released (tidy : Tidy s) (live : sta ∈ s.live) (unnamed : ¬ s.Named sta) : Tidy (released s sta) := by
  have rest := released_live tidy sta
  have macids : Set.EqOn s.macid (Macid.released s sta).macid (s.live \ {sta}) :=
    fun other member => congrArg StaInfo.macid (released_stas member.2).symm
  have wroles := released_wrole s sta
  have others {other} (member : other ∈ s.live) (apart : other ≠ sta) : s.macid other ≠ s.macid sta :=
    fun same => apart (tidy.once member live same)
  constructor
  case toConsistent =>
    constructor
    case used =>
      have given := tidy.used.give (fun other member apart => others member apart)
      rw [image_congr macids] at given
      rw [rest]
      exact given
    case once =>
      rw [rest]
      exact (tidy.once.mono sdiff_subset).congr macids
    case perRole =>
      intro role
      have within : {other ∈ s.live \ {sta} | s.wrole other = role} ⊆ s.live \ {sta} := fun _ member => member.1
      rw [rest,wroles,← image_congr (macids.mono within)]
      by_cases same : role = s.wrole sta
      · subst same
        have given := (tidy.perRole (s.wrole sta)).give (r := sta) (fun other member apart => others member.1 apart)
        have left : {other ∈ s.live | s.wrole other = s.wrole sta} \ {sta} =
            {other ∈ s.live \ {sta} | s.wrole other = s.wrole sta} := by
          ext other
          simp only [mem_sdiff,mem_ofPred_eq]
          tauto
        rw [left] at given
        simpa only [Macid.released,update_self] using given
      · have left : {other ∈ s.live \ {sta} | s.wrole other = role} = {other ∈ s.live | s.wrole other = role} := by
          ext other
          simp only [mem_sdiff,mem_ofPred_eq,mem_singleton_iff]
          constructor
          · exact fun held => ⟨held.1.1,held.2⟩
          · exact fun held => ⟨⟨held.1,fun equal => same (held.2.symm.trans (congrArg s.wrole equal))⟩,held.2⟩
        rw [left]
        simpa only [Macid.released,update_of_ne same] using tidy.perRole role
    case stations =>
      intro mid other
      rw [rest]
      by_cases same : mid = s.macid sta
      · subst same
        simp only [Macid.released,update_self]
        constructor
        · intro absent
          cases absent
        · rintro ⟨⟨member,apart⟩,here⟩
          exact absurd ((macids ⟨member,apart⟩).trans here) (others member apart)
      · simp only [Macid.released,update_of_ne same]
        rw [tidy.stations]
        constructor
        · rintro ⟨member,here⟩
          have apart : other ≠ sta := fun equal => same (here.symm.trans (congrArg s.macid equal))
          exact ⟨⟨member,apart⟩,(macids ⟨member,apart⟩).symm.trans here⟩
        · rintro ⟨member,here⟩
          exact ⟨member.1,(macids member).trans here⟩
    case bmc =>
      intro role
      rcases tidy.bmc role with invalid | ⟨other,there,owner,broadcast,here⟩
      · exact .inl invalid
      · have apart : other ≠ sta := by
          rintro rfl
          rw [← owner] at here
          exact unnamed here.symm
        refine .inr ⟨other,rest ▸ ⟨there,apart⟩,by rw [wroles]; exact owner,?_,?_⟩
        · rw [released_stas apart]
          exact broadcast
        · exact (macids ⟨there,apart⟩).symm.trans here
  case placed =>
    intro role other member
    rw [wroles]
    by_cases same : role = s.wrole sta
    · subst same
      simp only [Macid.released,update_self] at member
      exact tidy.placed _ other (mem_of_mem_erase member)
    · simp only [Macid.released,update_of_ne same] at member
      exact tidy.placed role other member
  case nodup =>
    intro role
    by_cases same : role = s.wrole sta
    · subst same
      simpa only [Macid.released,update_self] using (tidy.nodup _).erase sta
    · simpa only [Macid.released,update_of_ne same] using tidy.nodup role
  case apart =>
    intro other member
    rw [rest]
    rintro ⟨there,apart⟩
    rcases mem_append.mp member with old | new
    · exact tidy.apart other old there
    · exact apart (mem_singleton.mp new)
  case freeNodup =>
    apply nodup_append'.mpr
    refine ⟨tidy.freeNodup,nodup_singleton sta,?_⟩
    intro other old new
    exact tidy.apart other old (mem_singleton.mp new ▸ live)
  case bounded =>
    intro other member
    rw [rest] at member
    rw [← macids member]
    exact tidy.bounded other member.1

theorem Tidy.released_lost (tidy : Tidy s) (live : sta ∈ s.live) (named : s.Named sta) : ¬ Consistent (Macid.released s sta) := by
  intro consistent
  rcases consistent.bmc (s.wrole sta) with invalid | ⟨other,there,_,_,here⟩
  · have bound := tidy.bounded sta live
    rw [← named] at bound
    exact absurd (invalid ▸ bound) (lt_irrefl _)
  · rw [released_live tidy sta] at there
    have same : (Macid.released s sta).macid other = s.macid other := congrArg StaInfo.macid (released_stas there.2)
    rw [same] at here
    exact there.2 (tidy.once there.1 live (here.trans named))

section
variable (s : Ctl) (sta : Nat) (rest : List Nat) (role : Nat) (addr : MacAddr)

def acquired (mid : Nat) : Ctl :=
  {s with
    stas := update s.stas sta {s.stas sta with macAddr:=addr,wrole:=role,macid:=mid}
    usedMap := mark s.usedMap mid
    wifiRoleUsedmap := update s.wifiRoleUsedmap role (mark (s.wifiRoleUsedmap role) mid)
    sta := update s.sta mid (some sta)
    bmcMap := if addr == bcAddr then mark s.bmcMap mid else s.bmcMap
    wroleBmc := if addr == bcAddr then update s.wroleBmc role mid else s.wroleBmc
    freeStaQueue := rest
    assocStaQueue := update s.assocStaQueue role (s.assocStaQueue role ++ [sta])}

theorem acquired_live (mid : Nat) :
    (acquired s sta rest role addr mid).live = insert sta s.live := by
  ext other
  constructor
  · rintro ⟨r,member⟩
    by_cases same : r = role
    · subst same
      simp only [acquired,update_self] at member
      rcases mem_append.mp member with old | new
      · exact .inr ⟨r,old⟩
      · exact .inl (mem_singleton.mp new)
    · simp only [acquired,update_of_ne same] at member
      exact .inr ⟨r,member⟩
  · rintro (rfl | ⟨r,member⟩)
    · exact ⟨role,by simp [acquired]⟩
    · refine ⟨r,?_⟩
      by_cases same : r = role
      · subst same
        simp only [acquired,update_self]
        exact mem_append_left _ member
      · simpa only [acquired,update_of_ne same] using member
end

theorem acquired_stas {rest : List Nat} (apart : other ≠ sta) :
    (acquired s sta rest role addr mid).stas other = s.stas other := update_of_ne apart _ _

theorem acquired_own (s : Ctl) (sta : Nat) (rest : List Nat) (role : Nat) (addr : MacAddr) (mid : Nat) :
    (acquired s sta rest role addr mid).stas sta = {s.stas sta with macAddr:=addr,wrole:=role,macid:=mid} :=
  update_self ..

theorem Tidy.macid_new (tidy : Tidy s) (room : firstFree s.usedMap s.maxNum = some mid) : mid ∉ s.macid '' s.live :=
  tidy.used.free.mp (firstFree_some room).2

theorem Tidy.acquired {rest : List Nat} (tidy : Tidy s) (free : s.freeStaQueue = sta :: rest)
    (room : firstFree s.usedMap s.maxNum = some mid) (role : Nat) (addr : MacAddr) :
    Tidy (acquired s sta rest role addr mid) := by
  have unused := tidy.macid_new room
  have new : sta ∉ s.live := tidy.apart sta (free ▸ mem_cons_self)
  have apart {other} (live : other ∈ s.live) : other ≠ sta := fun same => new (same ▸ live)
  have live := acquired_live s sta rest role addr mid
  have own := acquired_own s sta rest role addr mid
  have macids : Set.EqOn (Macid.acquired s sta rest role addr mid).macid s.macid s.live :=
    fun other there => congrArg StaInfo.macid (acquired_stas (apart there))
  have wroles : Set.EqOn (Macid.acquired s sta rest role addr mid).wrole s.wrole s.live :=
    fun other there => congrArg StaInfo.wrole (acquired_stas (apart there))
  have ownMacid : (Macid.acquired s sta rest role addr mid).macid sta = mid := congrArg StaInfo.macid own
  have ownWrole : (Macid.acquired s sta rest role addr mid).wrole sta = role := congrArg StaInfo.wrole own
  constructor
  case toConsistent =>
    constructor
    case used =>
      have taken := tidy.used.take macids sta
      rw [ownMacid] at taken
      rw [live]
      exact taken
    case once =>
      rw [live,injOn_insert new]
      refine ⟨tidy.once.congr macids.symm,?_⟩
      rw [ownMacid,image_congr macids]
      exact unused
    case perRole =>
      intro r
      by_cases same : r = role
      · subst same
        have taken := (tidy.perRole r).take (fun other there => macids there.1) sta
        have grown : insert sta {other ∈ s.live | s.wrole other = r} =
            {other ∈ insert sta s.live | (Macid.acquired s sta rest r addr mid).wrole other = r} := by
          ext other
          simp only [mem_insert_iff,mem_ofPred_eq]
          constructor
          · rintro (rfl | ⟨there,owner⟩)
            · exact ⟨.inl rfl,ownWrole⟩
            · exact ⟨.inr there,(wroles there).trans owner⟩
          · rintro ⟨rfl | there,owner⟩
            · exact .inl rfl
            · exact .inr ⟨there,(wroles there).symm.trans owner⟩
        rw [ownMacid,grown] at taken
        rw [live]
        simpa only [Macid.acquired,update_self] using taken
      · have left : {other ∈ insert sta s.live | (Macid.acquired s sta rest role addr mid).wrole other = r} =
            {other ∈ s.live | s.wrole other = r} := by
          ext other
          simp only [mem_insert_iff,mem_ofPred_eq]
          constructor
          · rintro ⟨rfl | there,owner⟩
            · exact absurd (owner.symm.trans ownWrole) same
            · exact ⟨there,(wroles there).symm.trans owner⟩
          · exact fun held => ⟨.inr held.1,(wroles held.1).trans held.2⟩
        have kept := tidy.perRole r
        rw [← image_congr (fun other there => macids there.1),← left] at kept
        rw [live]
        simpa only [Macid.acquired,update_of_ne same] using kept
    case stations =>
      intro m other
      rw [live]
      by_cases same : m = mid
      · subst same
        simp only [Macid.acquired,update_self]
        constructor
        · rintro ⟨⟩
          exact ⟨.inl rfl,ownMacid⟩
        · rintro ⟨rfl | there,here⟩
          · rfl
          · exact absurd ⟨other,there,(macids there).symm.trans here⟩ unused
      · simp only [Macid.acquired,update_of_ne same]
        rw [tidy.stations]
        constructor
        · exact fun held => ⟨.inr held.1,(macids held.1).trans held.2⟩
        · rintro ⟨rfl | there,here⟩
          · exact absurd (here.symm.trans ownMacid) same
          · exact ⟨there,(macids there).symm.trans here⟩
    case bmc =>
      intro r
      rw [live]
      by_cases given : addr = bcAddr ∧ r = role
      · obtain ⟨broadcast,rfl⟩ := given
        refine .inr ⟨sta,.inl rfl,ownWrole,(congrArg StaInfo.macAddr own).trans broadcast,?_⟩
        rw [ownMacid]
        simp [Macid.acquired,broadcast]
      · have same : (Macid.acquired s sta rest role addr mid).wroleBmc r = s.wroleBmc r := by
          by_cases broadcast : addr = bcAddr
          · have other : r ≠ role := fun equal => given ⟨broadcast,equal⟩
            simp [Macid.acquired,broadcast,other]
          · simp [Macid.acquired,broadcast]
        rw [same]
        rcases tidy.bmc r with invalid | ⟨other,there,owner,broadcast,here⟩
        · exact .inl invalid
        · refine .inr ⟨other,.inr there,(wroles there).trans owner,?_,(macids there).trans here⟩
          rw [acquired_stas (apart there)]
          exact broadcast
  case placed =>
    intro r other member
    by_cases same : r = role
    · subst same
      simp only [Macid.acquired,update_self] at member
      rcases mem_append.mp member with old | new
      · exact (wroles ⟨r,old⟩).trans (tidy.placed r other old)
      · rw [mem_singleton.mp new]
        exact ownWrole
    · simp only [Macid.acquired,update_of_ne same] at member
      exact (wroles ⟨r,member⟩).trans (tidy.placed r other member)
  case nodup =>
    intro r
    by_cases same : r = role
    · subst same
      simp only [Macid.acquired,update_self]
      apply nodup_append'.mpr
      refine ⟨tidy.nodup r,nodup_singleton sta,?_⟩
      intro other old new'
      exact new ⟨r,mem_singleton.mp new' ▸ old⟩
    · simpa only [Macid.acquired,update_of_ne same] using tidy.nodup r
  case apart =>
    have once := tidy.freeNodup
    rw [free] at once
    intro other member
    rw [live]
    rintro (rfl | there)
    · exact (nodup_cons.mp once).1 member
    · exact tidy.apart other (free ▸ mem_cons_of_mem sta member) there
  case freeNodup =>
    have once := tidy.freeNodup
    rw [free] at once
    exact (nodup_cons.mp once).2
  case bounded =>
    intro other member
    rw [live] at member
    rcases member with rfl | there
    · rw [ownMacid]
      exact (firstFree_some room).1
    · rw [macids there]
      exact tidy.bounded other there
end Rtl8852au.Macid
