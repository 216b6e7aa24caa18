import Rtl8852au.TxFlowKept

namespace Rtl8852au.TxFlow
open UsbTx List Function Option

structure Flowing (s : PhlInfo) (tidEntry : Nat → Option StsId) (keys : List Nat) : Prop where
  once : (s.tFctrlResult ++ keys.flatMap s.sorted).Nodup
  entries : ∀ t pos, tidEntry t = some pos → pos ∈ s.tFctrlResult
  others : ∀ key, key ∉ keys → (s.tring key).txPlan.Quiet
  flags : ∀ key, (s.tring key).txPlan.hasHiq.toNat + (s.tring key).txPlan.hasMgnt.toNat ≤ (s.sorted key).length
  held : ∀ key, ∀ id ∈ s.sorted key, (s.ringSts id).ringPtr ≠ none
  taken : ∀ id ∈ s.tFctrlResult, (s.ringSts id).ringPtr ≠ none
  distinct : keys.Nodup

section plan
variable {s t u : PhlInfo} {tidEntry : Nat → Option StsId} {key other : Nat} {keys rest : List Nat} {id : StsId}

theorem phlResetTxPlan_eq (s : PhlInfo) (key : Nat) : phlResetTxPlan s key =
    {s with
      idle := s.idle ++ s.sorted key
      ringSts := fun id => if id ∈ s.sorted key then .zero else s.ringSts id}.setPlan key .init := by
  rw [phlResetTxPlan,release_all]

theorem Moved.cons (first : Moved s [key] t) (rest : Moved t keys u) (same : ∀ other ∈ keys, (t.tring other).txPlan = (s.tring other).txPlan) :
    Moved s (key :: keys) u := by
  have awake : keys.filter (fun other => !(t.tring other).txPlan.sleep) = keys.filter (fun other => !(s.tring other).txPlan.sleep) :=
    filter_congr (fun other member => by rw [same other member])
  have asleep : keys.filter (fun other => (t.tring other).txPlan.sleep) = keys.filter (fun other => (s.tring other).txPlan.sleep) :=
    filter_congr (fun other member => by rw [same other member])
  have sorted : ∀ some : Nat → Bool, (keys.filter some).flatMap t.sorted = (keys.filter some).flatMap s.sorted :=
    fun some => flatMap_congr (fun other member => by rw [PhlInfo.sorted,same other (mem_filter.mp member).1])
  have result := rest.result
  have idle := rest.idle
  have alone := first.result
  rw [awake,sorted] at result
  rw [asleep,sorted,first.idle] at idle
  constructor
  · refine result.trans ((alone.append_right _).trans ?_)
    rw [append_assoc,← flatMap_append,← filter_append]
    rfl
  · rw [idle,append_assoc,← flatMap_append,← filter_append]
    rfl

section
variable (flowing : Flowing s tidEntry (key :: rest))
include flowing

theorem Flowing.next (entry : Nat → Option StsId)
    (plans : ∀ other, (t.tring other).txPlan = if other = key then .init else (s.tring other).txPlan)
    (once : (t.tFctrlResult ++ rest.flatMap s.sorted).Nodup)
    (entries : ∀ tid pos, entry tid = some pos → pos ∈ t.tFctrlResult)
    (ptrs : ∀ id, id ∈ t.tFctrlResult ∨ (∃ other, other ≠ key ∧ id ∈ s.sorted other) → (t.ringSts id).ringPtr = (s.ringSts id).ringPtr)
    (taken : ∀ id ∈ t.tFctrlResult, (s.ringSts id).ringPtr ≠ none) : Flowing t entry rest := by
  obtain ⟨outside,distinct⟩ := nodup_cons.mp flowing.distinct
  refine ⟨?_,entries,?_,?_,?_,?_,distinct⟩
  · have same : ∀ other ∈ rest, t.sorted other = s.sorted other := by
      intro other member
      have differs : other ≠ key := by
        rintro rfl
        exact outside member
      rw [PhlInfo.sorted,plans,if_neg differs]
    rw [flatMap_congr same]
    exact once
  · intro other absent
    rw [plans]
    split
    · exact ⟨rfl,rfl,rfl⟩
    · rename_i differs
      exact flowing.others other (fun there => (mem_cons.mp there).elim differs absent)
  · intro other
    rw [PhlInfo.sorted,plans]
    split
    · exact Nat.le_refl 0
    · exact flowing.flags other
  · intro other id member
    rw [PhlInfo.sorted,plans] at member
    split at member
    · cases member
    · rename_i differs
      rw [ptrs id (.inr ⟨other,differs,member⟩)]
      exact flowing.held other id member
  · intro id member
    rw [ptrs id (.inl member)]
    exact taken id member

theorem Flowing.apart (differs : other ≠ key) (mine : id ∈ s.sorted key) : id ∉ s.sorted other := by
  intro member
  have once := (nodup_append.mp flowing.once).2.1
  rw [flatMap_cons] at once
  by_cases listed : other ∈ rest
  · exact (nodup_append.mp once).2.2 id mine id (mem_flatMap.mpr ⟨other,listed,member⟩) rfl
  · have quiet := flowing.others other (fun there => (mem_cons.mp there).elim differs listed)
    rw [PhlInfo.sorted,quiet.1] at member
    cases member

theorem flowPlan_asleep (sleep : (s.tring key).txPlan.sleep) :
    Flowing (phlResetTxPlan s key) tidEntry rest ∧ Moved s [key] (phlResetTxPlan s key) := by
  have once := flowing.once
  rw [flatMap_cons] at once
  obtain ⟨results,more,apart⟩ := nodup_append.mp once
  rw [phlResetTxPlan_eq]
  constructor
  · refine flowing.next tidEntry (fun other => setPlan_plan _ key other _) ?_ flowing.entries ?_ flowing.taken
    · refine nodup_append.mpr ⟨results,(nodup_append.mp more).2.1,?_⟩
      intro id mine other behind
      exact apart id mine other (mem_append_right _ behind)
    · intro id where_
      have free : id ∉ s.sorted key := by
        intro mine
        rcases where_ with result | ⟨other,differs,member⟩
        · exact apart id result id (mem_append_left _ mine) rfl
        · exact flowing.apart differs mine member
      show (if id ∈ s.sorted key then RingSts.zero else s.ringSts id).ringPtr = _
      rw [if_neg free]
  · constructor
    · simp only [filter_singleton,sleep,Bool.not_true,cond_false,flatMap_nil,append_nil]
      exact .refl _
    · simp only [filter_singleton,sleep,cond_true,flatMap_singleton]
      rfl
end

theorem reset_placed (s : PhlInfo) (key : Nat) (plan : TxPlan) (placed : plan.sortedRing = []) :
    phlResetTxPlan (s.setPlan key plan) key = s.setPlan key .init := by
  have empty : (s.setPlan key plan).sorted key = [] := by rw [PhlInfo.sorted,setPlan_plan,if_pos rfl,placed]
  rw [phlResetTxPlan_eq,empty]
  simp only [append_nil,not_mem_nil,if_false,PhlInfo.setPlan,update_idem,update_self]

theorem flowPlan_awake (flowing : Flowing s tidEntry (key :: rest)) (awake : (s.tring key).txPlan.sleep = false) :
    ∃ out, flowPlan (tidEntry,s) key = some out ∧ Flowing out.2 out.1 rest ∧ Moved s [key] out.2 ∧
      (∀ other, (out.2.tring other).txPlan = if other = key then .init else (s.tring other).txPlan) ∧ out.2.tRingList = s.tRingList := by
  have flags := flowing.flags key
  obtain ⟨one,first,oneLeft,onePerm,oneSub⟩ := takeFirst_perm (s.tring key).txPlan.hasHiq (s.sorted key,s.tFctrlResult) (by dsimp only; omega)
  obtain ⟨two,second,_,twoPerm,twoSub⟩ := takeFirst_perm (s.tring key).txPlan.hasMgnt one (by dsimp only at oneLeft; omega)
  have perm : (two.2 ++ two.1).Perm (s.tFctrlResult ++ s.sorted key) := twoPerm.trans onePerm
  have held : ∀ id ∈ s.tFctrlResult ++ s.sorted key, (s.ringSts id).ringPtr ≠ none := by
    intro id member
    rcases mem_append.mp member with result | mine
    · exact flowing.taken id result
    · exact flowing.held key id mine
  obtain ⟨out,placed,whole,inside⟩ := placeRings_perm s.tid two.1 two.2 tidEntry
    (fun id there => tid_known (held id (perm.mem_iff.mp (mem_append_right _ there))))
    (fun t pos last => twoSub (oneSub (flowing.entries t pos last)))
  have result := whole.trans perm
  have once := flowing.once
  rw [flatMap_cons,← append_assoc] at once
  refine ⟨(out.2,{s with tFctrlResult:=out.1}.setPlan key .init),?_,?_,?_,fun other => setPlan_plan _ key other _,rfl⟩
  · simp only [flowPlan,awake,Bool.false_eq_true,if_false,first,second,placed,bind_eq_bind,bind_some]
    rw [reset_placed]
    rfl
  · refine flowing.next out.2 (fun other => setPlan_plan _ key other _) ?_ inside (fun id _ => rfl) ?_
    · exact ((result.append_right _).nodup_iff).mpr once
    · intro id member
      exact held id (result.mem_iff.mp member)
  · constructor
    · simp only [filter_singleton,awake,Bool.not_false,cond_true,flatMap_singleton]
      exact result
    · simp only [filter_singleton,awake,cond_false,flatMap_nil,append_nil]
      rfl

theorem flowPlans (flowing : Flowing s tidEntry keys) :
    ∃ out, keys.foldlM flowPlan (tidEntry,s) = some out ∧ Flowing out.2 out.1 [] ∧ Moved s keys out.2 ∧ out.2.tRingList = s.tRingList := by
  induction keys generalizing s tidEntry with
  | nil => exact ⟨(tidEntry,s),rfl,flowing,⟨by simp,by simp⟩,rfl⟩
  | cons key rest ih =>
    have outside := (nodup_cons.mp flowing.distinct).1
    have differs : ∀ other ∈ rest, other ≠ key := by
      rintro other member rfl
      exact outside member
    have step : ∃ out, flowPlan (tidEntry,s) key = some out ∧ Flowing out.2 out.1 rest ∧ Moved s [key] out.2 ∧
        (∀ other, (out.2.tring other).txPlan = if other = key then .init else (s.tring other).txPlan) ∧
        out.2.tRingList = s.tRingList := by
      cases sleep : (s.tring key).txPlan.sleep with
      | false => exact flowPlan_awake flowing sleep
      | true =>
        obtain ⟨next,moved⟩ := flowPlan_asleep flowing sleep
        refine ⟨(tidEntry,phlResetTxPlan s key),?_,next,moved,?_,?_⟩
        · simp only [flowPlan,sleep,if_true]
        · intro other
          rw [phlResetTxPlan_eq]
          exact setPlan_plan _ key other _
        · rw [phlResetTxPlan_eq]
          rfl
    obtain ⟨one,first,next,moved,plans,list⟩ := step
    obtain ⟨out,done,last,more,same⟩ := ih next
    refine ⟨out,?_,last,moved.cons more ?_,same.trans list⟩
    · rw [foldlM_cons,first]
      exact done
    · intro other member
      rw [plans,if_neg (differs other member)]

theorem Gathered.flowing (gathered : Gathered s keys) (empty : s.tFctrlResult = []) : Flowing s (fun _ => none) keys where
  once := by
    have nodup := gathered.whole.nodup_iff.mpr (nodup_finRange _)
    rw [empty]
    exact (nodup_append.mp nodup).2.1
  entries _ _ none := by cases none
  others := gathered.others
  flags := gathered.flags
  held := gathered.held
  taken id member := by
    rw [empty] at member
    cases member
  distinct := gathered.distinct

theorem filter_parts (some : Nat → Bool) (f : Nat → List StsId) (keys : List Nat) :
    ((keys.filter some).flatMap f ++ (keys.filter (fun key => !some key)).flatMap f).Perm (keys.flatMap f) := by
  rw [← flatMap_append]
  exact (filter_append_perm some keys).flatMap_right f

theorem phlTxFlowCtrl_moved (gathered : Gathered s keys) (empty : s.tFctrlResult = []) (distinct : s.tRingList.Nodup) :
    ∃ t, phlTxFlowCtrl s keys = some t ∧ Moved s keys t ∧ Kept t := by
  obtain ⟨out,done,flowed,moved,list⟩ := flowPlans (gathered.flowing empty)
  refine ⟨out.2,by rw [phlTxFlowCtrl,done]; rfl,moved,?_,?_,flowed.taken,list ▸ distinct⟩
  · have result := moved.result
    rw [empty,nil_append] at result
    rw [moved.idle,append_assoc]
    exact ((result.append_left _).trans (filter_parts _ _ _)).append_left _ |>.trans gathered.whole
  · intro key
    exact flowed.others key (by simp)
end plan
section run
variable {s : PhlInfo} {id : StsId} {rest : List StsId}

theorem txCallbackCollect_kept (kept : Kept s) (empty : s.tFctrlResult = []) : ∃ t, txCallbackCollect s = some t ∧ Kept t := by
  obtain ⟨staList,t,checked,gathered,none,list,_⟩ := phlCheckXmitRingResource_gathered kept empty
  have distinct : t.tRingList.Nodup := list ▸ kept.distinct
  simp only [txCallbackCollect,checked,bind_eq_bind,bind_some]
  split
  · rename_i nothing
    subst nothing
    refine ⟨t,rfl,?_,fun key => gathered.others key (by simp),?_,distinct⟩
    · rw [none]
      exact gathered.whole
    · intro id member
      rw [none] at member
      cases member
  · obtain ⟨u,done,_,after⟩ := phlTxFlowCtrl_moved gathered none distinct
    exact ⟨u,done,after⟩

theorem release_kept (kept : Kept s) (result : s.tFctrlResult = id :: rest) {t : PhlInfo} (idle : t.idle = s.idle)
    (entries : t.ringSts = s.ringSts) (plans : ∀ key, (t.tring key).txPlan = (s.tring key).txPlan) (left : t.tFctrlResult = rest)
    (list : t.tRingList = s.tRingList) : Kept (phlReleaseRingSts t id) := by
  have whole := kept.whole
  rw [result] at whole
  refine ⟨?_,?_,?_,list ▸ kept.distinct⟩
  · simp only [phlReleaseRingSts,idle,left,append_assoc,singleton_append]
    exact whole
  · intro key
    simp only [phlReleaseRingSts,plans]
    exact kept.plans key
  · intro other member
    simp only [phlReleaseRingSts,left,entries] at member ⊢
    have nodup := (nodup_append.mp (whole.nodup_iff.mpr (nodup_finRange _))).2.1
    have differs : other ≠ id := by
      rintro rfl
      exact (nodup_cons.mp nodup).1 member
    rw [update_of_ne differs]
    exact kept.held other (result ▸ mem_cons_of_mem id member)

theorem txCallbackHandle_kept (bus : Bus) (answers : Answers) (kept : Kept s) (result : s.tFctrlResult = id :: rest) :
    ∃ t, txCallbackHandle bus answers s id rest = some t ∧ Kept t := by
  obtain ⟨⟨key,cat⟩,found⟩ := ne_none_iff_exists'.mp (kept.held id (result ▸ mem_cons_self ..))
  simp only [txCallbackHandle,found,bind_eq_bind,bind_some]
  split
  · exact ⟨_,rfl,release_kept kept result rfl rfl (fun _ => rfl) rfl rfl⟩
  · exact ⟨_,rfl,release_kept kept result rfl rfl (fun other => setRing_plan _ key other cat _) rfl rfl⟩

theorem step_kept (bus : Bus) (kept : Kept s) (event : Event) : ∃ t, s.step bus event = some t ∧ Kept t := by
  cases event with
  | collect =>
    simp only [PhlInfo.step]
    split
    · rename_i empty
      exact txCallbackCollect_kept kept empty
    · exact ⟨s,rfl,kept⟩
  | handle answers =>
    simp only [PhlInfo.step]
    split
    · exact ⟨_,rfl,kept.whole,kept.plans,kept.held,kept.distinct⟩
    · rename_i id rest result
      exact txCallbackHandle_kept bus answers kept result
  | fill key cat ring =>
    refine ⟨_,rfl,kept.whole,fun other => ?_,kept.held,kept.distinct⟩
    rw [setRing_plan]
    exact kept.plans other
  | sleep key sleep =>
    refine ⟨_,rfl,kept.whole,fun other => ?_,kept.held,kept.distinct⟩
    rw [setPlan_plan]
    split
    · exact kept.plans key
    · exact kept.plans other
  | register key list =>
    simp only [PhlInfo.step]
    split
    · exact ⟨s,rfl,kept⟩
    · rename_i fresh
      refine ⟨_,rfl,kept.whole,fun other => ?_,kept.held,?_⟩
      · dsimp only
        by_cases same : other = key
        · subst same
          rw [update_self]
          exact ⟨rfl,rfl,rfl⟩
        · rw [update_of_ne same]
          exact kept.plans other
      · exact nodup_append.mpr ⟨kept.distinct,nodup_singleton key,by
          rintro other member _ last rfl
          exact fresh (.inl (mem_singleton.mp last ▸ member))⟩
  | deregister key =>
    simp only [PhlInfo.step]
    split
    · exact ⟨_,rfl,kept.whole,kept.plans,kept.held,kept.distinct.erase key⟩
    · exact ⟨s,rfl,kept⟩
  | recycle bufs => exact ⟨_,rfl,kept.whole,kept.plans,kept.held,kept.distinct⟩

theorem run_kept (bus : Bus) (events : List Event) (kept : Kept s) : ∃ t, s.run bus events = some t ∧ Kept t := by
  induction events generalizing s with
  | nil => exact ⟨s,rfl,kept⟩
  | cons event rest ih =>
    obtain ⟨t,stepped,next⟩ := step_kept bus kept event
    obtain ⟨u,done,last⟩ := ih next
    refine ⟨u,?_,last⟩
    rw [PhlInfo.run,foldlM_cons,stepped]
    exact done

theorem init_kept (list : TringList) (bufs : TxBufs) : Kept (.init list bufs) where
  whole := by
    simp only [PhlInfo.init,append_nil]
    exact .refl _
  plans _ := ⟨rfl,rfl,rfl⟩
  held _ none := by cases none
  distinct := nodup_nil
end run

structure Conserved (s : PhlInfo) (inUse : List StsId) : Prop where
  count : s.idle.length + inUse.length = maxPhlRingStatusNumber
  once : (s.idle ++ inUse).Nodup
  every : ∀ id, id ∈ s.idle ++ inUse

structure Collects (s : PhlInfo) (staList : List Nat) (collected flowed : PhlInfo) : Prop where
  check : phlCheckXmitRingResource s = some (staList,collected)
  flow : phlTxFlowCtrl collected staList = some flowed
  gathered : Conserved collected (staList.flatMap collected.sorted)
  collects : ∀ key ∈ s.tRingList, ∀ cat, ((s.tring key).phlRing cat).avail.val ≠ 0 → collected.idle ≠ [] → Got collected key cat
  moved : Moved collected staList flowed
  conserved : Conserved flowed flowed.tFctrlResult

theorem conserved_of_perm {s : PhlInfo} {inUse : List StsId} (whole : (s.idle ++ inUse).Perm (List.finRange maxPhlRingStatusNumber)) :
    Conserved s inUse where
  count := by rw [← length_append,whole.length_eq,length_finRange]
  once := whole.nodup_iff.mpr (nodup_finRange _)
  every id := whole.mem_iff.mpr (mem_finRange id)

theorem ring_status_conserved (bus : Bus) (list : TringList) (bufs : TxBufs) (events : List Event) :
    ∃ s, (PhlInfo.init list bufs).run bus events = some s ∧ Conserved s s.tFctrlResult ∧
      (s.tFctrlResult = [] → ∃ staList collected flowed, Collects s staList collected flowed) := by
  obtain ⟨s,done,kept⟩ := run_kept bus events (init_kept list bufs)
  refine ⟨s,done,conserved_of_perm kept.whole,?_⟩
  intro empty
  obtain ⟨staList,t,checked,gathered,none,same,looked,served⟩ := phlCheckXmitRingResource_gathered kept empty
  obtain ⟨u,flow,moved,after⟩ := phlTxFlowCtrl_moved gathered none (same ▸ kept.distinct)
  refine ⟨staList,t,u,checked,flow,conserved_of_perm gathered.whole,?_,moved,conserved_of_perm after.whole⟩
  intro key member cat some left
  exact served key member cat (looked.avail key cat ▸ some) left

end Rtl8852au.TxFlow
