import Rtl8852au.TwtCalls

namespace Rtl8852au.Twt
open Function Bool
variable {σ : Type u} {ρ : Type v} {r t : Ring σ ρ} {a : Agreements σ ρ} {sta : σ} {wrole : ρ} {id : UInt8}
  {setup : TwtSetupInfo} {env : AcceptEnv}

theorem allocTwtConfig_opens (found : getNewConfig r = some (i,t)) (empty : (r i).twtStaQueue = [])
    (indiv : setup.negoType = .indivTwt) (wrole : ρ) :
    ∃ c, allocTwtConfig true r wrole setup true = (.success,update r i c,some i) ∧ Held i c wrole [] := by
  obtain ⟨_,_,rfl⟩ := getNewConfig_some found
  have nego : (fillConfigInfo (renewed (r i) i).twtInfo setup).negoType = .indivTwt := by
    simp only [fillConfigInfo,indiv,if_true,fillConfigInfoIndiv]
  have twtId : (fillConfigInfo (renewed (r i) i).twtInfo setup).twtId = i := by
    simp only [fillConfigInfo,indiv,if_true,fillConfigInfoIndiv]
    rfl
  refine ⟨{renewed (r i) i with role:=some wrole,twtInfo:=fillConfigInfo (renewed (r i) i).twtInfo setup,state:=.enable},?_,
    fun state => (nomatch state),rfl,nego,twtId,empty⟩
  simp only [allocTwtConfig,found,twtInfoUpdate,if_true,update_self,update_idem]
  rfl

def NoneNew (r t : Ring σ ρ) : Prop := ∀ i < maxNumHwTwtConfig, (t i).state ≠ .free → (r i).state ≠ .free

theorem NoneNew.put (blank : Blank c) : NoneNew r (update r i c) := by
  intro j inside busy
  by_cases same : j = i
  · subst same
    rw [update_self] at busy
    exact absurd blank.state busy
  · rwa [update_of_ne same] at busy

variable [DecidableEq σ]

section
variable (bounded : i < maxNumHwTwtConfig) (opened : Held i (r i) wrole []) (sta : σ) (id : UInt8)
include bounded opened

theorem addStaInfo_joins :
    addStaInfo true true r sta i id = (.success,update r i {r i with twtStaQueue:=[⟨sta,id⟩]}) := by
  simp only [addStaInfo,getConfigById_busy bounded opened.busy,twtAddSta,if_true,opened.queue,List.nil_append]

theorem addStaInfo_fails
    (failing : ¬(node = true ∧ add = true)) : addStaInfo node add r sta i id = (.failure,r) := by
  have entry : {r i with twtStaQueue:=[]} = r i := by rw [← opened.queue]
  cases node with
  | false => simp only [addStaInfo,getConfigById_busy bounded opened.busy,twtAddSta,false_eq_true,if_false]
  | true =>
      cases add with
      | true => exact absurd ⟨rfl,rfl⟩ failing
      | false =>
          have hit : twtStaHit sta id (⟨sta,id⟩ : TwtSta σ) := by simp [twtStaHit]
          have left : (twtDeleteSta sta id [(⟨sta,id⟩ : TwtSta σ)]).2.1 = [] := by rw [deleteSta_single hit]
          simp only [addStaInfo,getConfigById_busy bounded opened.busy,twtAddSta,if_true,opened.queue,List.nil_append,
            false_eq_true,if_false,left,entry,update_eq_self]
end

theorem acceptNew_none (none : getNewConfig r = none) (sta : σ) (wrole : ρ) (setup : TwtSetupInfo) (env : AcceptEnv) :
    acceptNew env r sta wrole setup = (.resource,r,Option.none) := by
  simp only [acceptNew,allocTwtConfig,none]

section
variable (found : getNewConfig r = some (i,t)) (empty : (r i).twtStaQueue = []) (indiv : setup.negoType = .indivTwt) (enabled : env.enable)
include found empty indiv enabled

theorem acceptNew_joins (joined : env.node ∧ env.add)
    (sta : σ) (wrole : ρ) : ∃ c, acceptNew env r sta wrole setup = (.success,update r i c,some i) ∧
      Held i c wrole [⟨sta,setup.para.reqType.twtFlowId⟩] := by
  obtain ⟨bounded,_,_⟩ := getNewConfig_some found
  obtain ⟨c,alloc,opened⟩ := allocTwtConfig_opens found empty indiv wrole
  have here : Held i (update r i c i) wrole [] := by rwa [update_self]
  have joins := addStaInfo_joins bounded here sta setup.para.reqType.twtFlowId
  refine ⟨{c with twtStaQueue:=[⟨sta,setup.para.reqType.twtFlowId⟩]},?_,
    opened.busy,opened.role,opened.nego,opened.twtId,rfl⟩
  rw [update_self,update_idem] at joins
  simp only [acceptNew,enabled,joined.1,joined.2,alloc,joins]

theorem acceptNew_fails (failing : ¬(env.node = true ∧ env.add = true))
    (sta : σ) (wrole : ρ) : ∃ c, acceptNew env r sta wrole setup = (.failure,update r i c,none) ∧ Blank c := by
  obtain ⟨bounded,_,_⟩ := getNewConfig_some found
  obtain ⟨c,alloc,opened⟩ := allocTwtConfig_opens found empty indiv wrole
  have here : Held i (update r i c i) wrole [] := by rwa [update_self]
  have fails := addStaInfo_fails bounded here sta setup.para.reqType.twtFlowId failing
  have undone := freeTwtConfig_busy bounded here.busy env.undo
  rw [update_self,update_idem] at undone
  refine ⟨_,?_,freed_blank env.undo c⟩
  simp only [acceptNew,enabled,alloc,fails,undone]
end

theorem acceptNew_kept (kept : Kept r a) (indiv : setup.negoType = .indivTwt)
    (enabled : (∃ i ∈ configs, (r i).state = .free) → env.enable)
    (fresh : (∃ i ∈ configs, (r i).state = .free) → env.node ∧ env.add →
      ∀ j < maxNumHwTwtConfig, a j ≠ some (wrole,⟨sta,setup.para.reqType.twtFlowId⟩)) :
    (∃ b, Kept (acceptNew env r sta wrole setup).2.1 b) ∧
      ((acceptNew env r sta wrole setup).1 ≠ .success → NoneNew r (acceptNew env r sta wrole setup).2.1) := by
  cases search : getNewConfig r with
  | none =>
      rw [acceptNew_none search]
      exact ⟨⟨a,kept⟩,fun _ _ _ busy => busy⟩
  | some found =>
      obtain ⟨i,t⟩ := found
      obtain ⟨bounded,free,_⟩ := getNewConfig_some search
      have vacant : ∃ i ∈ configs, (r i).state = .free := ⟨i,mem_configs.mpr bounded,free⟩
      have empty := (kept.blank bounded ((kept.free_iff bounded).mp free)).queue
      by_cases joined : env.node ∧ env.add
      · obtain ⟨c,result,held⟩ := acceptNew_joins search empty indiv (enabled vacant) joined sta wrole
        rw [result]
        refine ⟨⟨_,kept.put (b := some (wrole,⟨sta,setup.para.reqType.twtFlowId⟩)) held ?_⟩,fun failed => absurd rfl failed⟩
        intro x same j inside _
        cases same
        exact fresh vacant joined j inside
      · obtain ⟨c,result,blank⟩ := acceptNew_fails search empty indiv (enabled vacant) joined sta wrole
        rw [result]
        exact ⟨⟨_,kept.put (b := none) blank fun _ none => nomatch none⟩,fun _ => NoneNew.put blank⟩

variable [DecidableEq ρ]

theorem flowIdExist_iff (kept : Kept r a) :
    twtFlowIdExist r sta wrole id ↔ ∃ i < maxNumHwTwtConfig, a i = some (wrole,⟨sta,id⟩) := by
  unfold twtFlowIdExist
  rw [List.any_eq_true]
  constructor
  · rintro ⟨i,member,here⟩
    have bounded := mem_configs.mp member
    refine ⟨i,bounded,?_⟩
    cases held : a i with
    | none => simp [(kept.blank bounded held).state] at here
    | some y =>
        obtain ⟨role,x⟩ := y
        have entry := kept.entry bounded held
        simp only [entry.queue,entry.role,twtGetStaInfo,List.find?_singleton,and_eq_true,decide_eq_true_eq] at here
        obtain ⟨⟨⟨_,own⟩,_⟩,matching⟩ := here
        cases own
        by_cases station : sta = x.phlSta
        · rw [if_pos station] at matching
          have same : id = x.id := by simpa using matching
          rw [station,same]
        · rw [if_neg station] at matching
          cases matching
  · rintro ⟨i,bounded,held⟩
    have entry := kept.entry bounded held
    refine ⟨i,mem_configs.mpr bounded,?_⟩
    simp [entry.busy,entry.role,entry.nego,entry.queue,twtGetStaInfo]

theorem lowestBit_only (small : i < 8) (only : ∀ j, map.testBit j ↔ j = i) : lowestBit map = some i := by
  unfold lowestBit
  cases found : (List.range 8).find? map.testBit with
  | none =>
      have unmarked := List.find?_eq_none.mp found i (List.mem_range.mpr small)
      exact absurd ((only i).mpr rfl) unmarked
  | some j => rw [(only j).mp (List.find?_some found)]

theorem giveUp_granted (kept : Kept r a) (exist : twtFlowIdExist r sta wrole id)
    (granted : ∀ i ∈ configs, named r sta wrole .indivTwt id i → env.del i)
    (only : ∀ i ∈ configs, ∀ j ∈ configs, named r sta wrole .indivTwt id i →
      named r sta wrole .indivTwt id j → i = j) :
    ∃ i c, i < maxNumHwTwtConfig ∧ a i = some (wrole,⟨sta,id⟩) ∧ Blank c ∧
      giveUp env r sta wrole .indivTwt id = update r i c := by
  obtain ⟨i,bounded,held⟩ := (flowIdExist_iff kept).mp exist
  have names : named r sta wrole .indivTwt id i := (kept.named_iff bounded).mpr ⟨rfl,_,held,rfl,.inr rfl⟩
  have member := mem_configs.mpr bounded
  have given := granted i member names
  obtain ⟨d,deleted,result⟩ := twtDeleteStaInfo_spec kept env.del sta wrole .indivTwt id
  have fine : d.deleteError = false := by
    cases failed : d.deleteError with
    | false => rfl
    | true =>
        obtain ⟨j,inside,concerned,refused⟩ := deleted.failed.mp failed
        cases refused.symm.trans (granted j inside concerned)
  have marks : ∀ j, d.bitmap.testBit j ↔ j = i := by
    intro j
    rw [deleted.bitmap j]
    constructor
    · exact fun now => only j now.1 i member now.2.1 names
    · rintro rfl
      exact ⟨member,names,given⟩
  have lowest := lowestBit_only (Nat.lt_trans bounded (by decide)) marks
  have ring : d.ring = update r i {r i with twtStaQueue:=[]} := by
    funext j
    by_cases same : j = i
    · subst same
      rw [update_self]
      exact deleted.emptied j member names given
    · rw [update_of_ne same]
      exact deleted.same j fun now => same (only j now.1 i member now.2.1 names)
  have busy : (d.ring i).state ≠ .free := by
    rw [ring,update_self]
    exact kept.busy_of_named bounded names
  refine ⟨i,freed env.disable (d.ring i),bounded,held,freed_blank ..,?_⟩
  rw [fine] at result
  simp only [giveUp,exist,if_true,result,false_eq_true,if_false,lowest,freeTwtConfig_busy bounded busy]
  rw [ring,update_idem]

theorem giveUp_refused (kept : Kept r a) (exist : twtFlowIdExist r sta wrole id)
    (refused : ∀ i ∈ configs, named r sta wrole .indivTwt id i → env.del i = false) :
    giveUp env r sta wrole .indivTwt id = r := by
  obtain ⟨i,bounded,held⟩ := (flowIdExist_iff kept).mp exist
  have names : named r sta wrole .indivTwt id i := (kept.named_iff bounded).mpr ⟨rfl,_,held,rfl,.inr rfl⟩
  have member := mem_configs.mpr bounded
  obtain ⟨d,deleted,result⟩ := twtDeleteStaInfo_spec kept env.del sta wrole .indivTwt id
  have failed : d.deleteError := deleted.failed.mpr ⟨i,member,names,refused i member names⟩
  have ring : d.ring = r := by
    funext j
    exact deleted.same j fun now => nomatch (refused j now.1 now.2.1).symm.trans now.2.2
  rw [failed] at result
  simp only [giveUp,exist,if_true,result,ring]
end Rtl8852au.Twt
