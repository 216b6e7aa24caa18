import Rtl8852au.TwtTable

namespace Rtl8852au.Twt
open Function
variable {σ : Type u} {ρ : Type v} {r t : Ring σ ρ} {a : Agreements σ ρ} {id : UInt8}

structure Deleted (r : Ring σ ρ) (del : Nat → Bool) (names : Nat → Bool) (deleteId : UInt8) (seen : List Nat)
    (d : Deleting σ ρ) : Prop where
  emptied : ∀ i ∈ seen, names i → del i → d.ring i = {r i with twtStaQueue:=[]}
  same : ∀ i, ¬(i ∈ seen ∧ names i ∧ del i) → d.ring i = r i
  bitmap : ∀ i, d.bitmap.testBit i ↔ i ∈ seen ∧ names i ∧ del i
  failed : d.deleteError ↔ ∃ i ∈ seen, names i ∧ del i = false
  early : d.done → deleteId ≠ deleteAll ∧ ∃ i ∈ seen, names i

theorem byte_mark (small : i < 8) (below : ∀ j, map.testBit j → j < 8) (j : Nat) :
    (Bitmap.mark map i % 256).testBit j ↔ map.testBit j ∨ i = j := by
  rw [show 256 = 2 ^ 8 from rfl,Nat.testBit_mod_two_pow,Bitmap.testBit_mark]
  simp only [Bool.and_eq_true,Bool.or_eq_true,decide_eq_true_eq]
  constructor
  · exact fun marked => marked.2
  · rintro (there | same)
    · exact ⟨below j there,.inl there⟩
    · exact ⟨same ▸ small,.inr same⟩

theorem Deleted.pass (before : Deleted r del names id seen d) (passed : names i = false) :
    Deleted r del names id (seen ++ [i]) d := by
  have still : ∀ j, names j → (j ∈ seen ++ [i] ↔ j ∈ seen) := by
    intro j concerned
    have other : j ≠ i := by
      intro same
      subst same
      cases passed.symm.trans concerned
    simp [other]
  constructor
  · intro j visited concerned
    exact before.emptied j ((still j concerned).mp visited) concerned
  · intro j apart
    exact before.same j fun now => apart ⟨(still j now.2.1).mpr now.1,now.2⟩
  · intro j
    rw [before.bitmap j]
    exact ⟨fun now => ⟨(still j now.2.1).mpr now.1,now.2⟩,fun now => ⟨(still j now.2.1).mp now.1,now.2⟩⟩
  · rw [before.failed]
    exact ⟨fun ⟨j,now⟩ => ⟨j,(still j now.2.1).mpr now.1,now.2⟩,fun ⟨j,now⟩ => ⟨j,(still j now.2.1).mp now.1,now.2⟩⟩
  · intro done
    obtain ⟨one,j,visited,concerned⟩ := before.early done
    exact ⟨one,j,(still j concerned).mpr visited,concerned⟩

theorem Deleted.refuse (before : Deleted r del names id seen d) (concerned : names i) (refused : del i = false)
    (going : d.done = false) : Deleted r del names id (seen ++ [i]) {d with deleteError:=true} := by
  have still : ∀ j, del j → (j ∈ seen ++ [i] ↔ j ∈ seen) := by
    intro j granted
    have other : j ≠ i := by
      intro same
      subst same
      cases refused.symm.trans granted
    simp [other]
  constructor
  · intro j visited named granted
    exact before.emptied j ((still j granted).mp visited) named granted
  · intro j apart
    exact before.same j fun now => apart ⟨(still j now.2.2).mpr now.1,now.2⟩
  · intro j
    exact (before.bitmap j).trans ⟨fun now => ⟨(still j now.2.2).mpr now.1,now.2⟩,fun now => ⟨(still j now.2.2).mp now.1,now.2⟩⟩
  · exact ⟨fun _ => ⟨i,by simp,concerned,refused⟩,fun _ => rfl⟩
  · exact fun done => nomatch going.symm.trans done

theorem Deleted.empty (before : Deleted r del names id seen d) (concerned : names i) (granted : del i)
    (fresh : i ∉ seen) (small : ∀ j, j ∈ seen ++ [i] → j < 8) :
    Deleted r del names id (seen ++ [i]) {d with
      ring := update d.ring i {r i with twtStaQueue:=[]},
      bitmap := Bitmap.mark d.bitmap i % 256,
      done := id ≠ deleteAll} := by
  have below : ∀ j, d.bitmap.testBit j → j < 8 := by
    intro j marked
    exact small j (List.mem_append_left _ ((before.bitmap j).mp marked).1)
  have last : i ∈ seen ++ [i] := by simp
  constructor
  · intro j visited named given
    by_cases same : j = i
    · subst same
      exact update_self ..
    · have earlier : j ∈ seen := by simpa [same] using visited
      exact (update_of_ne same ..).trans (before.emptied j earlier named given)
  · intro j apart
    by_cases same : j = i
    · subst same
      exact absurd ⟨last,concerned,granted⟩ apart
    · refine (update_of_ne same ..).trans (before.same j fun now => apart ⟨?_,now.2⟩)
      exact List.mem_append_left _ now.1
  · intro j
    rw [byte_mark (small i last) below j,before.bitmap j]
    constructor
    · rintro (now | rfl)
      · exact ⟨List.mem_append_left _ now.1,now.2⟩
      · exact ⟨last,concerned,granted⟩
    · rintro ⟨visited,now⟩
      rcases List.mem_append.mp visited with earlier | here
      · exact .inl ⟨earlier,now⟩
      · exact .inr (List.mem_singleton.mp here).symm
  · rw [before.failed]
    constructor
    · rintro ⟨j,visited,now⟩
      exact ⟨j,List.mem_append_left _ visited,now⟩
    · rintro ⟨j,visited,named,refused⟩
      rcases List.mem_append.mp visited with earlier | here
      · exact ⟨j,earlier,named,refused⟩
      · rw [List.mem_singleton.mp here] at refused
        cases granted.symm.trans refused
  · intro done
    exact ⟨of_decide_eq_true done,i,last,concerned⟩

structure Freeing (r : Ring σ ρ) (disable : Nat → Bool) (bitmap : Nat) (seen : List Nat) (acc : Status × Ring σ ρ) : Prop where
  status : acc.1 = .success
  gone : ∀ i ∈ seen, bitmap.testBit i → acc.2 i = freed (disable i) (r i)
  same : ∀ i, ¬(i ∈ seen ∧ bitmap.testBit i) → acc.2 i = r i

theorem freeEmptied_visits (disable : Nat → Bool) (bounded : i < maxNumHwTwtConfig ∨ bitmap.testBit i = false)
    (busy : bitmap.testBit i → (r i).state ≠ .free) (fresh : i ∉ seen) (before : Freeing r disable bitmap seen acc) :
    Freeing r disable bitmap (seen ++ [i]) (freeEmptied disable bitmap acc i) := by
  cases marked : bitmap.testBit i with
  | false =>
      have passed : freeEmptied disable bitmap acc i = acc := by
        unfold freeEmptied
        rw [marked]
        rfl
      have still : ∀ j, bitmap.testBit j → (j ∈ seen ++ [i] ↔ j ∈ seen) := by
        intro j other
        have apart : j ≠ i := by
          intro same
          subst same
          cases marked.symm.trans other
        simp [apart]
      rw [passed]
      constructor
      · exact before.status
      · intro j visited other
        exact before.gone j ((still j other).mp visited) other
      · intro j apart
        exact before.same j fun now => apart ⟨(still j now.2).mpr now.1,now.2⟩
  | true =>
      have here : acc.2 i = r i := before.same i fun now => fresh now.1
      have inside : i < maxNumHwTwtConfig := bounded.resolve_right fun unmarked => nomatch marked.symm.trans unmarked
      have held : (acc.2 i).state ≠ .free := by
        rw [here]
        exact busy marked
      have result : freeEmptied disable bitmap acc i =
          (.success,update acc.2 i (freed (disable i) (r i))) := by
        unfold freeEmptied
        rw [if_pos marked,freeTwtConfig_busy inside held,here]
      rw [result]
      constructor
      · rfl
      · intro j visited other
        by_cases same : j = i
        · subst same
          exact update_self ..
        · have earlier : j ∈ seen := by simpa [same] using visited
          exact (update_of_ne same ..).trans (before.gone j earlier other)
      · intro j apart
        by_cases same : j = i
        · subst same
          exact absurd ⟨by simp,marked⟩ apart
        · refine (update_of_ne same ..).trans (before.same j fun now => apart ⟨?_,now.2⟩)
          exact List.mem_append_left _ now.1

theorem freeEmptied_all (disable : Nat → Bool)
    (emptied : ∀ i, bitmap.testBit i → i < maxNumHwTwtConfig ∧ (r i).state ≠ .free) :
    ∃ t, (List.range 8).foldl (freeEmptied disable bitmap) (.success,r) = (.success,t) ∧
      Freeing r disable bitmap (List.range 8) (.success,t) := by
  have visits : Freeing r disable bitmap (List.range 8) ((List.range 8).foldl (freeEmptied disable bitmap) (.success,r)) := by
    apply Slots.foldl_visits List.nodup_range (Freeing r disable bitmap)
    · exact ⟨rfl,fun _ none => (nomatch none),fun _ _ => rfl⟩
    · intro seen i acc _ fresh before
      apply freeEmptied_visits disable ?_ (fun marked => (emptied i marked).2) fresh before
      cases marked : bitmap.testBit i with
      | false => exact .inr rfl
      | true => exact .inl (emptied i marked).1
  generalize (List.range 8).foldl (freeEmptied disable bitmap) (.success,r) = acc at visits ⊢
  obtain ⟨st,t⟩ := acc
  have fine : st = .success := visits.status
  subst fine
  exact ⟨t,rfl,visits⟩

variable [DecidableEq σ] [DecidableEq ρ] {sta : σ} {wrole : ρ} {type : NegoType}

def named (r : Ring σ ρ) (sta : σ) (wrole : ρ) (type : NegoType) (id : UInt8) (i : Nat) : Bool :=
  (r i).state ≠ .free && (r i).role = some wrole && (r i).twtInfo.negoType = type && twtStaExist sta id (r i).twtStaQueue

def Selects (sta : σ) (id : UInt8) (x : TwtSta σ) : Prop := sta = x.phlSta ∧ (deleteAll = id ∨ id = x.id)

theorem staHit_iff (x : TwtSta σ) : twtStaHit sta id x ↔ Selects sta id x := by simp [twtStaHit,Selects]

theorem Kept.named_iff (kept : Kept r a) (bounded : i < maxNumHwTwtConfig) :
    named r sta wrole type id i ↔ type = .indivTwt ∧ ∃ x, a i = some (wrole,x) ∧ Selects sta id x := by
  cases here : a i with
  | none =>
      have free := (kept.blank bounded here).state
      simp [named,free]
  | some y =>
      obtain ⟨role,x⟩ := y
      have entry := kept.entry bounded here
      have exist : twtStaExist sta id (r i).twtStaQueue ↔ Selects sta id x := by
        rw [entry.queue]
        simp [twtStaExist,staHit_iff]
      constructor
      · intro names
        simp only [named,Bool.and_eq_true,decide_eq_true_eq,exist,entry.role,entry.nego] at names
        obtain ⟨⟨⟨_,same⟩,type⟩,selects⟩ := names
        cases same
        exact ⟨type.symm,x,rfl,selects⟩
      · rintro ⟨rfl,_,same,selects⟩
        cases same
        simp only [named,Bool.and_eq_true,decide_eq_true_eq]
        exact ⟨⟨⟨entry.busy,entry.role⟩,entry.nego⟩,exist.mpr selects⟩

theorem Kept.named_once (kept : Kept r a) (one : id ≠ deleteAll) (left : i < maxNumHwTwtConfig) (right : j < maxNumHwTwtConfig)
    (namesI : named r sta wrole type id i) (namesJ : named r sta wrole type id j) : i = j := by
  obtain ⟨_,x,atI,stationX,idX⟩ := (kept.named_iff left).mp namesI
  obtain ⟨_,y,atJ,stationY,idY⟩ := (kept.named_iff right).mp namesJ
  have sameId : x.id = y.id := (idX.resolve_left one.symm).symm.trans (idY.resolve_left one.symm)
  have same : x = y := by
    cases x
    cases y
    simp_all
  exact kept.once i j _ left right atI (same ▸ atJ)

theorem deleteAt_passed (del : Nat → Bool) (d : Deleting σ ρ) (here : d.ring i = r i)
    (passed : named r sta wrole type id i = false) : deleteAt del sta wrole false type id d i = d := by
  unfold deleteAt
  rw [here]
  split
  · rfl
  · split
    · rfl
    · split
      · rfl
      · split
        · rfl
        · rename_i busy role nego
          have unmatched : twtStaExist sta id (r i).twtStaQueue = false := by
            simp only [named] at passed
            simp_all
          rw [if_pos unmatched]

theorem deleteSta_single (hit : twtStaHit sta id x) : twtDeleteSta sta id [x] = (.success,[],0) := by
  simp [twtDeleteSta,twtDeleteStaLoop,hit]

theorem deleteAt_named (kept : Kept r a) (bounded : i < maxNumHwTwtConfig) (del : Nat → Bool) (d : Deleting σ ρ)
    (here : d.ring i = r i) (going : d.done = false) (names : named r sta wrole type id i) :
    deleteAt del sta wrole false type id d i =
      if del i = false then {d with deleteError:=true}
      else {d with
        ring := update d.ring i {r i with twtStaQueue:=[]},
        bitmap := Bitmap.mark d.bitmap i % 256,
        done := id ≠ deleteAll} := by
  obtain ⟨rfl,x,held,selects⟩ := (kept.named_iff bounded).mp names
  have entry := kept.entry bounded held
  have hit := (staHit_iff x).mpr selects
  have exist : twtStaExist sta id (r i).twtStaQueue := by
    rw [entry.queue]
    simp [twtStaExist,hit]
  unfold deleteAt
  simp only [here,going,entry.busy,entry.role,entry.nego,exist,Bool.false_eq_true,if_false,ne_eq,not_true_eq_false,and_false,
    Bool.true_eq_false]
  split
  · rfl
  · simp only [entry.queue,deleteSta_single hit,entry.twtId,if_true]
theorem deleteAt_visits (kept : Kept r a) (bounded : ∀ j, j ∈ seen ++ [i] → j < maxNumHwTwtConfig) (fresh : i ∉ seen)
    (before : Deleted r del (named r sta wrole type id) id seen d) :
    Deleted r del (named r sta wrole type id) id (seen ++ [i]) (deleteAt del sta wrole false type id d i) := by
  have here : d.ring i = r i := before.same i fun now => fresh now.1
  have inside := bounded i (by simp)
  cases concerned : named r sta wrole type id i with
  | false =>
      rw [deleteAt_passed del d here concerned]
      exact before.pass concerned
  | true =>
      have going : d.done = false := by
        cases done : d.done with
        | false => rfl
        | true =>
            -- The one entry a flow id names has been visited already.
            obtain ⟨one,j,visited,other⟩ := before.early done
            have same := kept.named_once one (bounded j (List.mem_append_left _ visited)) inside other concerned
            exact absurd (same ▸ visited) fresh
      rw [deleteAt_named kept inside del d here going concerned]
      split
      · rename_i refused
        exact before.refuse concerned refused going
      · rename_i granted
        have small : ∀ j, j ∈ seen ++ [i] → j < 8 := fun j visited => Nat.lt_trans (bounded j visited) (by decide)
        exact before.empty concerned (by simpa using granted) fresh small

theorem twtDeleteStaInfo_spec (kept : Kept r a) (del : Nat → Bool) (sta : σ) (wrole : ρ) (type : NegoType) (id : UInt8) :
    ∃ d, Deleted r del (named r sta wrole (storedType type) id) id configs d ∧
      twtDeleteStaInfo del r sta wrole false type id = (if d.deleteError then .failure else .success,d.ring,d.bitmap) := by
  refine ⟨_,?_,rfl⟩
  have visits := Slots.foldl_visits (b := (⟨r,0,false,false⟩ : Deleting σ ρ))
    (f := deleteAt del sta wrole false (storedType type) id) (l := configs) List.nodup_range
    (fun seen d => (∀ j ∈ seen, j < maxNumHwTwtConfig) ∧ Deleted r del (named r sta wrole (storedType type) id) id seen d)
    ?_ ?_
  · exact visits.2
  · refine ⟨fun _ none => (nomatch none),?_,fun _ _ => rfl,?_,?_,fun done => (nomatch done)⟩
    · exact fun _ none => nomatch none
    · intro i
      simp
    · simp
  · intro seen i d member fresh before
    have bounded : ∀ j, j ∈ seen ++ [i] → j < maxNumHwTwtConfig := by
      intro j visited
      rcases List.mem_append.mp visited with earlier | here
      · exact before.1 j earlier
      · rw [List.mem_singleton.mp here]
        exact mem_configs.mp member
    exact ⟨bounded,deleteAt_visits kept bounded fresh before.2⟩

def flowId (flow : TwtFlowField) : UInt8 := if flow.teardownAll then deleteAll else flow.id

abbrev flowNames (r : Ring σ ρ) (sta : σ) (wrole : ρ) (flow : TwtFlowField) (i : Nat) : Bool :=
  named r sta wrole (storedType flow.negoType) (flowId flow) i

theorem teardown_parts (kept : Kept r a) (del disable : Nat → Bool) (sta : σ) (wrole : ρ)
    (stored : flow.negoType ≠ .bcastTwt) :
    ∃ d, Deleted r del (flowNames r sta wrole flow) (flowId flow) configs d ∧
      twtTeardownForStaMode del disable r sta wrole flow =
        if d.deleteError then (.failure,d.ring)
        else (List.range 8).foldl (freeEmptied disable d.bitmap) (.success,d.ring) := by
  obtain ⟨d,deleted,result⟩ := twtDeleteStaInfo_spec kept del sta wrole flow.negoType (flowId flow)
  refine ⟨d,deleted,?_⟩
  have inner : twtTeardownSta del r sta wrole flow = (if d.deleteError then .failure else .success,d.ring,d.bitmap) := by
    rw [← result]
    unfold twtTeardownSta
    split
    · exact absurd ‹_› stored
    · rfl
  unfold twtTeardownForStaMode
  rw [inner]
  cases d.deleteError with
  | true => rfl
  | false => rfl

theorem Kept.busy_of_named (kept : Kept r a) (bounded : i < maxNumHwTwtConfig) (names : named r sta wrole type id i) :
    (r i).state ≠ .free := by
  obtain ⟨_,x,held,_⟩ := (kept.named_iff bounded).mp names
  exact (kept.entry bounded held).busy

theorem teardown_granted (kept : Kept r a) (del disable : Nat → Bool) (stored : flow.negoType ≠ .bcastTwt)
    (granted : ∀ i ∈ configs, flowNames r sta wrole flow i → del i) :
    ∃ t, twtTeardownForStaMode del disable r sta wrole flow = (.success,t) ∧
      (∀ i ∈ configs, flowNames r sta wrole flow i → Blank (t i)) ∧
      ∀ i, ¬(i ∈ configs ∧ flowNames r sta wrole flow i) → t i = r i := by
  obtain ⟨d,deleted,result⟩ := teardown_parts kept del disable sta wrole stored
  have fine : d.deleteError = false := by
    cases failed : d.deleteError with
    | false => rfl
    | true =>
        obtain ⟨i,member,names,refused⟩ := deleted.failed.mp failed
        cases refused.symm.trans (granted i member names)
  have emptied : ∀ i, d.bitmap.testBit i → i < maxNumHwTwtConfig ∧ (d.ring i).state ≠ .free := by
    intro i marked
    obtain ⟨member,names,given⟩ := (deleted.bitmap i).mp marked
    have bounded := mem_configs.mp member
    rw [deleted.emptied i member names given]
    exact ⟨bounded,kept.busy_of_named bounded names⟩
  obtain ⟨t,freedAll,freeing⟩ := freeEmptied_all disable emptied
  rw [fine,if_neg Bool.false_ne_true,freedAll] at result
  refine ⟨t,result,?_,?_⟩
  · intro i member names
    have marked := (deleted.bitmap i).mpr ⟨member,names,granted i member names⟩
    have inside := List.mem_range.mpr (Nat.lt_trans (mem_configs.mp member) (by decide : maxNumHwTwtConfig < 8))
    have gone : t i = freed (disable i) (d.ring i) := freeing.gone i inside marked
    rw [gone]
    exact freed_blank ..
  · intro i apart
    have unmarked : ¬(i ∈ List.range 8 ∧ d.bitmap.testBit i) := by
      rintro ⟨_,marked⟩
      obtain ⟨member,names,_⟩ := (deleted.bitmap i).mp marked
      exact apart ⟨member,names⟩
    exact (freeing.same i unmarked).trans (deleted.same i fun now => apart ⟨now.1,now.2.1⟩)

theorem teardown_refused (kept : Kept r a) (del disable : Nat → Bool)
    (refused : ∀ i ∈ configs, flowNames r sta wrole flow i → del i = false) :
    (twtTeardownForStaMode del disable r sta wrole flow).2 = r ∧
      ((twtTeardownForStaMode del disable r sta wrole flow).1 = .success → flow.negoType ≠ .bcastTwt ∧
        ∀ i ∈ configs, flowNames r sta wrole flow i = false) := by
  by_cases stored : flow.negoType = .bcastTwt
  · have result : twtTeardownForStaMode del disable r sta wrole flow = (.failure,r) := by
      simp only [twtTeardownForStaMode,twtTeardownSta,stored]
    rw [result]
    exact ⟨rfl,fun success => nomatch success⟩
  · obtain ⟨d,deleted,result⟩ := teardown_parts kept del disable sta wrole stored
    have still : d.ring = r := by
      funext i
      exact deleted.same i fun now => nomatch (refused i now.1 now.2.1).symm.trans now.2.2
    have unmarked : ∀ i, d.bitmap.testBit i = false := by
      intro i
      cases marked : d.bitmap.testBit i with
      | false => rfl
      | true =>
          obtain ⟨member,names,given⟩ := (deleted.bitmap i).mp marked
          cases given.symm.trans (refused i member names)
    rw [result]
    cases failed : d.deleteError with
    | true => exact ⟨still,fun success => nomatch success⟩
    | false =>
        obtain ⟨t,freedAll,freeing⟩ := freeEmptied_all (r := d.ring) disable
          fun i marked => nomatch (unmarked i).symm.trans marked
        rw [if_neg Bool.false_ne_true,freedAll]
        refine ⟨?_,fun _ => ⟨stored,?_⟩⟩
        · funext i
          have same := freeing.same i fun now => nomatch (unmarked i).symm.trans now.2
          exact same.trans (congrFun still i)
        · intro i member
          cases names : flowNames r sta wrole flow i with
          | false => rfl
          | true =>
              have error := deleted.failed.mpr ⟨i,member,names,refused i member names⟩
              cases failed.symm.trans error
end Rtl8852au.Twt
