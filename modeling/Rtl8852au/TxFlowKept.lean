import Rtl8852au.TxFlow

namespace Rtl8852au.TxFlow
open UsbTx Function List Option Nat

abbrev PhlInfo.sorted (s : PhlInfo) (key : Nat) : List StsId := (s.tring key).txPlan.sortedRing
def TxPlan.Quiet (plan : TxPlan) : Prop := plan.sortedRing = [] ∧ plan.hasMgnt = false ∧ plan.hasHiq = false

structure Kept (s : PhlInfo) : Prop where
  whole : (s.idle ++ s.tFctrlResult).Perm (finRange maxPhlRingStatusNumber)
  plans : ∀ key, (s.tring key).txPlan.Quiet
  held : ∀ id ∈ s.tFctrlResult, (s.ringSts id).ringPtr ≠ none
  distinct : s.tRingList.Nodup

structure Gathered (s : PhlInfo) (keys : List Nat) : Prop where
  whole : (s.idle ++ keys.flatMap s.sorted).Perm (finRange maxPhlRingStatusNumber)
  others : ∀ key, key ∉ keys → (s.tring key).txPlan.Quiet
  flags : ∀ key, (s.tring key).txPlan.hasHiq.toNat + (s.tring key).txPlan.hasMgnt.toNat ≤ (s.sorted key).length
  held : ∀ key, ∀ id ∈ s.sorted key, (s.ringSts id).ringPtr ≠ none
  distinct : keys.Nodup

structure Moved (s : PhlInfo) (keys : List Nat) (t : PhlInfo) : Prop where
  result : t.tFctrlResult.Perm (s.tFctrlResult ++ (keys.filter (fun key => !(s.tring key).txPlan.sleep)).flatMap s.sorted)
  idle : t.idle = s.idle ++ (keys.filter (fun key => (s.tring key).txPlan.sleep)).flatMap s.sorted

def Got (s : PhlInfo) (key : Nat) (cat : Cat) : Prop := ∃ id ∈ s.sorted key, (s.ringSts id).ringPtr = some (key,cat)

structure Looked (s t : PhlInfo) : Prop where
  idle : t.idle ≠ [] → s.idle ≠ []
  avail : ∀ key cat, ((t.tring key).phlRing cat).avail = ((s.tring key).phlRing cat).avail
  got : ∀ key cat, Got s key cat → Got t key cat

theorem Looked.refl (s : PhlInfo) : Looked s s := ⟨id,fun _ _ => rfl,fun _ _ => id⟩

theorem Looked.trans (first : Looked s t) (second : Looked t u) : Looked s u where
  idle left := first.idle (second.idle left)
  avail key cat := (second.avail key cat).trans (first.avail key cat)
  got key cat there := second.got key cat (first.got key cat there)

-- A ring that is not empty has its entry, unless the pool has run out.
def Serves (s : PhlInfo) (key : Nat) (cat : Cat) : Prop :=
  ((s.tring key).phlRing cat).avail.val ≠ 0 → s.idle ≠ [] → Got s key cat

theorem Looked.serves (looked : Looked s t) (served : Serves s key cat) : Serves t key cat := by
  intro some left
  rw [looked.avail] at some
  exact looked.got key cat (served some (looked.idle left))

section lists
variable {pos new id : StsId} {list : List StsId}

theorem insertAfter_perm (there : pos ∈ list) : ∃ longer, insertAfter pos new list = some longer ∧ longer.Perm (new :: list) := by
  induction list with
  | nil => cases there
  | cons id rest ih =>
    unfold insertAfter
    by_cases here : id = pos
    · rw [if_pos here]
      exact ⟨_,rfl,.swap new id rest⟩
    · obtain ⟨longer,inserted,perm⟩ := ih (by
        rcases mem_cons.mp there with same | behind
        · exact absurd same.symm here
        · exact behind)
      rw [if_neg here,inserted]
      exact ⟨_,rfl,(perm.cons id).trans (.swap new id rest)⟩

theorem takeFirst_perm (flag : Bool) (lists : List StsId × List StsId) (enough : flag.toNat ≤ lists.1.length) :
    ∃ out, takeFirst flag lists = some out ∧ out.1.length + flag.toNat = lists.1.length ∧
      (out.2 ++ out.1).Perm (lists.2 ++ lists.1) ∧ lists.2 ⊆ out.2 := by
  obtain ⟨sorted,result⟩ := lists
  cases flag with
  | false => exact ⟨_,rfl,rfl,.refl _,fun _ there => there⟩
  | true =>
    cases sorted with
    | nil => exact absurd enough (not_succ_le_zero 0)
    | cons id rest => exact ⟨_,rfl,rfl,perm_middle.symm,fun _ there => mem_cons_of_mem id there⟩

theorem placeRings_perm (tid : StsId → Option Nat) (ids result : List StsId) (tidEntry : Nat → Option StsId)
    (known : ∀ id ∈ ids, tid id ≠ none) (placed : ∀ t pos, tidEntry t = some pos → pos ∈ result) :
    ∃ out, placeRings tid ids (result,tidEntry) = some out ∧ out.1.Perm (result ++ ids) ∧
      ∀ t pos, out.2 t = some pos → pos ∈ out.1 := by
  induction ids generalizing result tidEntry with
  | nil => exact ⟨_,rfl,by rw [append_nil],placed⟩
  | cons id rest ih =>
    obtain ⟨t,found⟩ := ne_none_iff_exists'.mp (known id (mem_cons_self ..))
    have step : ∃ longer, placeRing id result (tidEntry t) = some longer ∧ longer.Perm (id :: result) := by
      cases last : tidEntry t with
      | none => exact ⟨_,rfl,perm_append_singleton id result⟩
      | some pos => exact insertAfter_perm (placed t pos last)
    obtain ⟨longer,inserted,perm⟩ := step
    have placed' : ∀ u pos, update tidEntry t (some id) u = some pos → pos ∈ longer := by
      intro u pos last
      by_cases same : u = t
      · subst same
        rw [update_self] at last
        cases last
        exact perm.mem_iff.mpr (mem_cons_self ..)
      · rw [update_of_ne same] at last
        exact perm.mem_iff.mpr (mem_cons_of_mem _ (placed u pos last))
    obtain ⟨out,done,whole,inside⟩ := ih longer _ (fun other there => known other (mem_cons_of_mem _ there)) placed'
    refine ⟨out,?_,whole.trans ?_,inside⟩
    · simp only [placeRings,found,inserted,bind_eq_bind,bind_some]
      exact done
    · exact (perm.append_right rest).trans perm_middle.symm
end lists
section reset
variable {s : PhlInfo} {key : Nat}

theorem release_all (ids : List StsId) (s : PhlInfo) : ids.foldl phlReleaseRingSts s =
    {s with idle:=s.idle ++ ids, ringSts:=fun id => if id ∈ ids then .zero else s.ringSts id} := by
  induction ids generalizing s with
  | nil => simp
  | cons id rest ih =>
    rw [foldl_cons,ih]
    simp only [phlReleaseRingSts,append_assoc,singleton_append,PhlInfo.mk.injEq,and_true,true_and]
    funext other
    by_cases later : other ∈ rest
    · rw [if_pos later,if_pos (mem_cons_of_mem _ later)]
    · by_cases same : other = id
      · subst same
        rw [if_neg later,if_pos (mem_cons_self ..),update_self]
      · rw [if_neg later,if_neg (fun there => (mem_cons.mp there).elim same later),update_of_ne same]

@[simp] theorem setPlan_plan (s : PhlInfo) (key other : Nat) (plan : TxPlan) :
    ((s.setPlan key plan).tring other).txPlan = if other = key then plan else (s.tring other).txPlan := by
  unfold PhlInfo.setPlan
  by_cases same : other = key
  · subst same
    simp
  · simp [same]

@[simp] theorem setRing_plan (s : PhlInfo) (key other : Nat) (cat : Cat) (ring : TxRing) :
    ((s.setRing key cat ring).tring other).txPlan = (s.tring other).txPlan := by
  unfold PhlInfo.setRing
  by_cases same : other = key
  · subst same
    simp
  · simp [same]

theorem checked_avail (ring : TxRing) : ring.checked.avail = ring.avail := by
  unfold TxRing.checked
  split <;> rfl

theorem setRing_checked (s : PhlInfo) (key : Nat) (cat : Cat) (other : Nat) (c : Cat) :
    (((s.setRing key cat ((s.tring key).phlRing cat).checked).tring other).phlRing c).avail =
      ((s.tring other).phlRing c).avail := by
  unfold PhlInfo.setRing
  by_cases same : other = key
  · subst same
    by_cases here : c = cat
    · subst here
      simp only [update_self,checked_avail]
    · simp only [update_self,update_of_ne here]
  · simp only [update_of_ne same]
end reset
section check
variable {s t : PhlInfo} {id : StsId} {sta keys : List Nat} {key : Nat}

theorem phlCheckRingStatus_cases (s : PhlInfo) (key : Nat) (cat : Cat) :
    phlCheckRingStatus s key cat = (none,s) ∧ Serves s key cat ∨
    ∃ id rest sts t, s.idle = id :: rest ∧ phlCheckRingStatus s key cat = (some id,t) ∧ sts.ringPtr = some (key,cat) ∧
      (∀ other c, ((t.tring other).phlRing c).avail = ((s.tring other).phlRing c).avail) ∧ t.idle = rest ∧ t.ringSts = Function.update s.ringSts id sts ∧ (∀ other, (t.tring other).txPlan = (s.tring other).txPlan) ∧
      t.tRingList = s.tRingList ∧ t.tFctrlResult = s.tFctrlResult := by
  unfold phlCheckRingStatus
  dsimp only
  split
  · rename_i nothing
    exact .inl ⟨rfl,fun some => absurd nothing some⟩
  · cases idle : s.idle with
    | nil =>
      have none : phlAllocRingSts s = (none,s) := by simp only [phlAllocRingSts,idle]
      rw [none]
      exact .inl ⟨rfl,fun _ left => absurd idle left⟩
    | cons id rest =>
      have some : phlAllocRingSts s = (some id,{s with idle:=rest}) := by simp only [phlAllocRingSts,idle]
      rw [some]
      exact .inr ⟨id,rest,_,_,rfl,rfl,rfl,setRing_checked _ key cat,rfl,rfl,
        fun other => setRing_plan _ _ _ _ _,rfl,rfl⟩

theorem phlSortRingByTid_perm (plan : TxPlan) (cat : Cat) (known : ∀ other ∈ id :: plan.sortedRing, s.tid other ≠ none) :
    ∃ next, phlSortRingByTid s id cat plan = some next ∧ next.sortedRing.Perm (id :: plan.sortedRing) ∧
      next.hasHiq.toNat + next.hasMgnt.toNat ≤ plan.hasHiq.toNat + plan.hasMgnt.toNat + 1 := by
  obtain ⟨tid,found⟩ := ne_none_iff_exists'.mp (known id (mem_cons_self ..))
  have last := perm_append_singleton id plan.sortedRing
  simp only [phlSortRingByTid,found,bind_eq_bind,bind_some]
  split
  · exact ⟨_,rfl,last,le_succ _⟩
  · split
    · cases final : plan.sortedRing.getLast? with
      | none => exact ⟨_,rfl,last,le_succ _⟩
      | some lastSts =>
        have member := mem_of_getLast? final
        obtain ⟨lastTid,lastFound⟩ := ne_none_iff_exists'.mp (known lastSts (mem_cons_of_mem id member))
        simp only [lastFound,bind_some]
        split
        · refine ⟨_,rfl,?_,le_succ _⟩
          have whole : plan.sortedRing.dropLast ++ [lastSts] = plan.sortedRing := by
            obtain ⟨front,eq⟩ := getLast?_eq_some_iff.mp final
            rw [eq,dropLast_concat]
          dsimp only
          calc plan.sortedRing.dropLast ++ [id,lastSts]
            List.Perm _ (id :: (plan.sortedRing.dropLast ++ [lastSts])) := perm_middle
            List.Perm _ (id :: plan.sortedRing) := by rw [whole]
        · exact ⟨_,rfl,last,le_succ _⟩
    · split
      · refine ⟨_,rfl,.refl _,?_⟩
        cases plan.hasMgnt <;> simp
      · split
        · refine ⟨_,rfl,.refl _,?_⟩
          cases plan.hasHiq <;> cases plan.hasMgnt <;> simp
        · exact ⟨_,rfl,.refl _,le_succ _⟩
theorem tid_known (there : (s.ringSts id).ringPtr ≠ none) : s.tid id ≠ none := by
  unfold PhlInfo.tid
  rw [ne_eq,map_eq_none_iff]
  exact there

theorem checkCat_gathered (gathered : Gathered s (sta ++ [key])) (empty : s.tFctrlResult = []) (cat : Cat) :
    ∃ t, checkCat key s cat = some t ∧ Gathered t (sta ++ [key]) ∧ t.tFctrlResult = [] ∧ t.tRingList = s.tRingList ∧
      Looked s t ∧ Serves t key cat := by
  unfold checkCat
  rcases phlCheckRingStatus_cases s key cat with
    ⟨none,served⟩ | ⟨id,rest,sts,t,idle,found,ring,avail,left,entries,plans,list,result⟩
  · rw [none]
    exact ⟨s,rfl,gathered,empty,rfl,.refl s,served⟩
  · rw [found]
    dsimp only
    have ptr : sts.ringPtr ≠ none := by rw [ring]; exact some_ne_none _
    have unused : ∀ other, id ∉ s.sorted other := by
      intro other member
      by_cases listed : other ∈ sta ++ [key]
      · have nodup := gathered.whole.nodup_iff.mpr (nodup_finRange _)
        rw [idle] at nodup
        exact (nodup_append.mp nodup).2.2 id (mem_cons_self ..) id (mem_flatMap.mpr ⟨other,listed,member⟩) rfl
      · rw [PhlInfo.sorted,(gathered.others other listed).1] at member
        cases member
    have held : ∀ other, ∀ entry ∈ s.sorted other, (t.ringSts entry).ringPtr ≠ none := by
      intro other entry member
      have differs : entry ≠ id := by
        rintro rfl
        exact unused other member
      rw [entries,update_of_ne differs]
      exact gathered.held other entry member
    have known : ∀ entry ∈ id :: (t.tring key).txPlan.sortedRing, t.tid entry ≠ none := by
      intro entry member
      rw [plans] at member
      rcases mem_cons.mp member with rfl | there
      · exact tid_known (by rw [entries,update_self]; exact ptr)
      · exact tid_known (held key entry there)
    obtain ⟨plan,sorted,perm,flags⟩ := phlSortRingByTid_perm (t.tring key).txPlan cat known
    rw [sorted]
    rw [plans] at perm flags
    refine ⟨t.setPlan key plan,rfl,⟨?_,?_,?_,?_,gathered.distinct⟩,result.trans empty,list,⟨?_,?_,?_⟩,?_⟩
    · have apart : ∀ other ∈ sta, (t.setPlan key plan).sorted other = s.sorted other := by
        intro other member
        have differs : other ≠ key := by
          rintro rfl
          exact (nodup_append.mp gathered.distinct).2.2 other member other (mem_singleton_self _) rfl
        rw [PhlInfo.sorted,setPlan_plan,if_neg differs,plans]
      have whole := gathered.whole
      rw [idle,flatMap_append] at whole
      rw [flatMap_append,flatMap_congr apart]
      simp only [flatMap_cons,flatMap_nil,append_nil,PhlInfo.sorted,setPlan_plan,if_true] at whole ⊢
      refine List.Perm.trans ?_ whole
      rw [show (t.setPlan key plan).idle = rest from left]
      calc rest ++ (sta.flatMap s.sorted ++ plan.sortedRing)
        List.Perm _ (rest ++ (sta.flatMap s.sorted ++ (id :: (s.tring key).txPlan.sortedRing))) := (perm.append_left _).append_left _
        List.Perm _ (rest ++ (id :: (sta.flatMap s.sorted ++ (s.tring key).txPlan.sortedRing))) := perm_middle.append_left _
        List.Perm _ (id :: rest ++ (sta.flatMap s.sorted ++ (s.tring key).txPlan.sortedRing)) := perm_middle
    · intro other outside
      have differs : other ≠ key := by
        rintro rfl
        exact outside (mem_append_right _ (mem_singleton_self _))
      rw [setPlan_plan,if_neg differs,plans]
      exact gathered.others other outside
    · intro other
      rw [PhlInfo.sorted,setPlan_plan]
      by_cases same : other = key
      · have before := gathered.flags key
        rw [if_pos same,perm.length_eq,length_cons]
        unfold PhlInfo.sorted at before
        omega
      · rw [if_neg same,plans]
        exact gathered.flags other
    · intro other entry member
      rw [PhlInfo.sorted,setPlan_plan] at member
      show (t.ringSts entry).ringPtr ≠ none
      by_cases same : other = key
      · rw [if_pos same] at member
        rcases mem_cons.mp (perm.mem_iff.mp member) with rfl | there
        · rw [entries,update_self]
          exact ptr
        · exact held key entry there
      · rw [if_neg same,plans] at member
        exact held other entry member
    · intro _
      rw [idle]
      exact cons_ne_nil _ _
    · intro other c
      rw [← avail other c]
      unfold PhlInfo.setPlan
      by_cases same : other = key
      · subst same
        simp only [update_self]
      · simp only [update_of_ne same]
    · rintro other c ⟨entry,member,points⟩
      have differs : entry ≠ id := by
        rintro rfl
        exact unused other member
      refine ⟨entry,?_,?_⟩
      · rw [PhlInfo.sorted,setPlan_plan]
        split
        · rename_i same
          subst same
          exact perm.mem_iff.mpr (mem_cons_of_mem id member)
        · rw [plans]
          exact member
      · show (t.ringSts entry).ringPtr = _
        rw [entries,update_of_ne differs]
        exact points
    · intro _ _
      refine ⟨id,?_,?_⟩
      · rw [PhlInfo.sorted,setPlan_plan,if_pos rfl]
        exact perm.mem_iff.mpr (mem_cons_self ..)
      · show (t.ringSts id).ringPtr = _
        rw [entries,update_self]
        exact ring

theorem checkCats_gathered (cats : List Cat) (gathered : Gathered s (sta ++ [key])) (empty : s.tFctrlResult = []) :
    ∃ t, cats.foldlM (checkCat key) s = some t ∧ Gathered t (sta ++ [key]) ∧ t.tFctrlResult = [] ∧ t.tRingList = s.tRingList ∧
      Looked s t ∧ ∀ cat ∈ cats, Serves t key cat := by
  induction cats generalizing s with
  | nil => exact ⟨s,rfl,gathered,empty,rfl,.refl s,nofun⟩
  | cons cat rest ih =>
    obtain ⟨t,checked,next,none,same,looked,served⟩ := checkCat_gathered gathered empty cat
    obtain ⟨u,done,last,clear,list,further,others⟩ := ih next none
    refine ⟨u,?_,last,clear,list.trans same,looked.trans further,forall_mem_cons.mpr ⟨further.serves served,others⟩⟩
    rw [foldlM_cons,checked]
    exact done

theorem Gathered.join (gathered : Gathered s sta) (fresh : key ∉ sta) : Gathered s (sta ++ [key]) := by
  have quiet := gathered.others key fresh
  refine ⟨?_,?_,gathered.flags,gathered.held,nodup_append.mpr ⟨gathered.distinct,nodup_singleton key,?_⟩⟩
  · have whole := gathered.whole
    rw [flatMap_append,flatMap_singleton,show s.sorted key = [] from quiet.1,append_nil]
    exact whole
  · intro other outside
    exact gathered.others other (fun there => outside (mem_append_left _ there))
  · rintro other member _ last rfl
    rw [mem_singleton.mp last] at member
    exact fresh member

theorem Gathered.leave (gathered : Gathered s (sta ++ [key])) (empty : s.sorted key = []) : Gathered s sta := by
  have whole := gathered.whole
  rw [flatMap_append,flatMap_singleton,empty,append_nil] at whole
  refine ⟨whole,?_,gathered.flags,gathered.held,(nodup_append.mp gathered.distinct).1⟩
  intro other outside
  by_cases same : other = key
  · subst same
    have flags := gathered.flags other
    rw [empty,length_nil] at flags
    refine ⟨empty,?_,?_⟩
    · cases mgnt : (s.tring other).txPlan.hasMgnt with
      | false => rfl
      | true =>
        rw [mgnt,Bool.toNat_true] at flags
        omega
    · cases hiq : (s.tring other).txPlan.hasHiq with
      | false => rfl
      | true =>
        rw [hiq,Bool.toNat_true] at flags
        omega
  · refine gathered.others other (fun there => ?_)
    rcases mem_append.mp there with inside | last
    · exact outside inside
    · exact same (mem_singleton.mp last)

theorem phlCheckTringList_gathered (gathered : Gathered s sta) (empty : s.tFctrlResult = []) (fresh : key ∉ sta) :
    ∃ next t, phlCheckTringList sta s key = some (next,t) ∧ Gathered t next ∧ t.tFctrlResult = [] ∧
      t.tRingList = s.tRingList ∧ next ⊆ sta ++ [key] ∧ Looked s t ∧ ∀ cat, Serves t key cat := by
  obtain ⟨t,checked,next,none,same,looked,served⟩ := checkCats_gathered (finRange maxPhlRingCatNum) (gathered.join fresh) empty
  simp only [phlCheckTringList,checked,bind_eq_bind,bind_some]
  split
  · rename_i nothing
    exact ⟨sta,t,rfl,next.leave nothing,none,same,subset_append_left sta [key],looked,fun cat => served cat (mem_finRange cat)⟩
  · exact ⟨sta ++ [key],t,rfl,next,none,same,List.Subset.refl _,looked,fun cat => served cat (mem_finRange cat)⟩

theorem checkLists_gathered (keys : List Nat) (gathered : Gathered s sta) (empty : s.tFctrlResult = []) (distinct : keys.Nodup)
    (apart : ∀ key ∈ keys, key ∉ sta) :
    ∃ next t, keys.foldlM (fun acc key => phlCheckTringList acc.1 acc.2 key) (sta,s) = some (next,t) ∧ Gathered t next ∧
      t.tFctrlResult = [] ∧ t.tRingList = s.tRingList ∧ Looked s t ∧ ∀ key ∈ keys, ∀ cat, Serves t key cat := by
  induction keys generalizing s sta with
  | nil => exact ⟨sta,s,rfl,gathered,empty,rfl,.refl s,nofun⟩
  | cons key rest ih =>
    obtain ⟨next,t,checked,step,none,same,inside,looked,served⟩ := phlCheckTringList_gathered gathered empty (apart key (mem_cons_self ..))
    obtain ⟨outside,others⟩ := nodup_cons.mp distinct
    obtain ⟨last,u,done,whole,clear,list,further,more⟩ := ih step none others (by
      intro other member there
      rcases mem_append.mp (inside there) with prior | self
      · exact apart other (mem_cons_of_mem _ member) prior
      · rw [mem_singleton.mp self] at member
        exact outside member)
    refine ⟨last,u,?_,whole,clear,list.trans same,looked.trans further,
      forall_mem_cons.mpr ⟨fun cat => further.serves (served cat),more⟩⟩
    rw [foldlM_cons,checked]
    exact done

theorem Kept.gathered (kept : Kept s) (empty : s.tFctrlResult = []) : Gathered s [] where
  whole := by
    have whole := kept.whole
    rwa [empty] at whole
  others key _ := kept.plans key
  flags key := by
    obtain ⟨_,mgnt,hiq⟩ := kept.plans key
    rw [mgnt,hiq]
    exact zero_le _
  held key id member := by
    rw [PhlInfo.sorted,(kept.plans key).1] at member
    cases member
  distinct := nodup_nil

theorem phlCheckXmitRingResource_gathered (kept : Kept s) (empty : s.tFctrlResult = []) :
    ∃ staList t, phlCheckXmitRingResource s = some (staList,t) ∧ Gathered t staList ∧ t.tFctrlResult = [] ∧
      t.tRingList = s.tRingList ∧ Looked s t ∧ ∀ key ∈ s.tRingList, ∀ cat, Serves t key cat :=
  checkLists_gathered s.tRingList (kept.gathered empty) empty kept.distinct (fun _ _ there => by cases there)
end check

end Rtl8852au.TxFlow
