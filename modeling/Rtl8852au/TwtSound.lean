import Rtl8852au.TwtAccept

namespace Rtl8852au.Twt
open Bool Machine
variable {σ : Type u} {ρ : Type v} {r t : Ring σ ρ} {a : Agreements σ ρ}

structure TableSound (r : Ring σ ρ) : Prop where
  freeEmpty : ∀ i < maxNumHwTwtConfig, (r i).state = .free → (r i).twtStaQueue = []
  usedFilled : ∀ i < maxNumHwTwtConfig, (r i).state ≠ .free → (r i).twtStaQueue ≠ []
  heldOnce : ∀ role x i j, Holds r role x i → Holds r role x j → i = j

theorem Kept.sound (kept : Kept r a) : TableSound r where
  freeEmpty := fun _ bounded free => (kept.blank bounded ((kept.free_iff bounded).mp free)).queue
  usedFilled := by
    intro i bounded busy
    cases here : a i with
    | none => exact absurd (kept.blank bounded here).state busy
    | some y =>
        rw [(kept.entry bounded here).queue]
        exact fun none => nomatch none
  heldOnce := by
    intro role x i j one two
    obtain ⟨left,atLeft⟩ := kept.holds_iff.mp one
    obtain ⟨right,atRight⟩ := kept.holds_iff.mp two
    exact kept.once i j _ left right atLeft atRight

theorem init_kept (twtSup twtInit : Bool) : Kept (phlTwtInit twtSup twtInit : PhlTwt σ ρ).ring fun _ => none where
  shape := fun _ _ => ⟨rfl,rfl⟩
  once := fun _ _ _ _ _ held => nomatch held

variable [DecidableEq σ] [DecidableEq ρ] {sta : σ} {wrole : ρ}

-- What a teardown is to remove: the nodes of the station in the entries of its role of that
-- type, all of them or those of the flow id.
def toRemove (r : Ring σ ρ) (sta : σ) (wrole : ρ) (flow : TwtFlowField) (i : Nat) (x : TwtSta σ) : Bool :=
  (r i).state ≠ .free && (r i).role = some wrole && (r i).twtInfo.negoType = storedType flow.negoType &&
    x.phlSta = sta && (flow.teardownAll || x.id = flow.id)

structure TornDown (r t : Ring σ ρ) (sta : σ) (wrole : ρ) (flow : TwtFlowField) : Prop where
  removed : ∀ i < maxNumHwTwtConfig, 
    (t i).twtStaQueue = (r i).twtStaQueue.filter fun x => !toRemove r sta wrole flow i x
  emptied : ∀ i < maxNumHwTwtConfig, 
    ((t i).state = .free ↔ (r i).state = .free ∨ ((r i).twtStaQueue ≠ [] ∧ (t i).twtStaQueue = []))

def CallSound (s : PhlTwt σ ρ) (call : Call σ ρ) : Prop :=
  match call with
  | .accept .. => (exec s call).1.status ≠ .success → NoneNew s.ring (exec s call).2.ring
  | .getNewFlowId sta wrole =>
    ∀ k, (exec s call).1.id = some k → ∀ x i, Holds s.ring wrole x i → x.phlSta = sta → x.id.toNat ≠ k
  | .teardown sta wrole flow _ _ => (exec s call).1.status = .success → TornDown s.ring (exec s call).2.ring sta wrole flow
  | _ => True

-- An accept. Without an agreement under the flow id the firmware takes the new entry if there is a
-- free one. With one, either it is taken out of the firmware, it is the only one the id selects and
-- the firmware takes the new entry, or nothing is taken out and no new agreement is made.
def AcceptFits (r : Ring σ ρ) (sta : σ) (wrole : ρ) (id : UInt8) (env : AcceptEnv) : Prop :=
  (twtFlowIdExist r sta wrole id = false → (∃ i ∈ configs, (r i).state = .free) → env.enable) ∧
  (twtFlowIdExist r sta wrole id →
    ((∀ i ∈ configs, named r sta wrole .indivTwt id i → env.del i) ∧
      (∀ i ∈ configs, ∀ j ∈ configs, named r sta wrole .indivTwt id i → named r sta wrole .indivTwt id j → i = j) ∧
      env.enable) ∨
    ((∀ i ∈ configs, named r sta wrole .indivTwt id i → env.del i = false) ∧
      ((∃ i ∈ configs, (r i).state = .free) → env.enable ∧ ¬(env.node ∧ env.add))))

instance (r : Ring σ ρ) (sta : σ) (wrole : ρ) (id : UInt8) (env : AcceptEnv) : Decidable (AcceptFits r sta wrole id env) :=
  inferInstanceAs (Decidable (_ ∧ _))

-- A teardown. The firmware takes the station out of all entries concerned or of none, and the flow
-- id is the one for all agreements only if the station has no other.
def TeardownFits (r : Ring σ ρ) (sta : σ) (wrole : ρ) (flow : TwtFlowField) (del : Nat → Bool) : Prop :=
  (∀ i ∈ configs, flowNames r sta wrole flow i → del i ∧
    (flow.teardownAll = false → flow.id = deleteAll → ∀ x ∈ (r i).twtStaQueue, x.id = deleteAll)) ∨
  ∀ i ∈ configs, flowNames r sta wrole flow i → del i = false

instance (r : Ring σ ρ) (sta : σ) (wrole : ρ) (flow : TwtFlowField) (del : Nat → Bool) :
    Decidable (TeardownFits r sta wrole flow del) :=
  inferInstanceAs (Decidable (_ ∨ _))

def Fits (s : PhlTwt σ ρ) : Call σ ρ → Prop
  | .accept sta wrole setup env =>
    s.twtSup → s.twtInit → setup.negoType = .indivTwt →
      AcceptFits s.ring sta wrole setup.para.reqType.twtFlowId env
  | .teardown sta wrole flow del _ => s.twtSup → s.twtInit → TeardownFits s.ring sta wrole flow del
  | _ => True

instance decidableFits (s : PhlTwt σ ρ) : (call : Call σ ρ) → Decidable (Fits s call)
  | .accept _ _ setup _ => inferInstanceAs (Decidable (_ → _ → setup.negoType = .indivTwt → _))
  | .teardown .. => inferInstanceAs (Decidable (_ → _ → TeardownFits ..))
  | .getNewFlowId .. | .freeAll .. | .disableAll .. | .enableAll .. => isTrue trivial

section
variable (kept : Kept r a)
include kept

theorem accept_kept (setup : TwtSetupInfo) (env : AcceptEnv)
    (fits : setup.negoType = .indivTwt → AcceptFits r sta wrole setup.para.reqType.twtFlowId env) :
    (∃ b, Kept (twtAcceptForStaMode env r sta wrole setup).2.1 b) ∧
      ((twtAcceptForStaMode env r sta wrole setup).1 ≠ .success → NoneNew r (twtAcceptForStaMode env r sta wrole setup).2.1) := by
  unfold twtAcceptForStaMode
  split
  · rename_i indiv
    obtain ⟨opening,renewing⟩ := fits indiv
    unfold twtAcceptIndivBySta
    rw [indiv]
    cases exist : twtFlowIdExist r sta wrole setup.para.reqType.twtFlowId with
    | true =>
      rcases renewing exist with ⟨granted,only,enabled⟩ | ⟨refused,rest⟩
      · obtain ⟨i,c,bounded,held,blank,given⟩ := giveUp_granted kept exist granted only
        have after := kept.put (i := i) (b := none) blank fun _ none => nomatch none
        rw [given]
        obtain ⟨table,failed⟩ := acceptNew_kept after indiv (fun _ => enabled) (by
          intro _ _ j inside again
          by_cases same : j = i
          · subst same
            rw [Function.update_self] at again
            cases again
          · rw [Function.update_of_ne same] at again
            exact same (kept.once j i _ inside bounded again held))
        exact ⟨table,fun failing j inside busy => NoneNew.put blank j inside (failed failing j inside busy)⟩
      · rw [giveUp_refused kept exist refused]
        exact acceptNew_kept kept indiv (fun free => (rest free).1) fun free joined => absurd joined (rest free).2
    | false =>
      have same : giveUp env r sta wrole .indivTwt setup.para.reqType.twtFlowId = r := by
        unfold giveUp
        rw [exist,if_neg Bool.false_ne_true]
      rw [same]
      apply acceptNew_kept kept indiv (opening exist)
      intro _ _ j inside held
      cases exist.symm.trans ((flowIdExist_iff kept).mpr ⟨j,inside,held⟩)
  · exact ⟨⟨a,kept⟩,fun _ _ _ busy => busy⟩

theorem toRemove_iff (bounded : i < maxNumHwTwtConfig) (held : a i = some (role,x)) :
    toRemove r sta wrole flow i x ↔
      role = wrole ∧ storedType flow.negoType = .indivTwt ∧ sta = x.phlSta ∧ (flow.teardownAll ∨ flow.id = x.id) := by
  have entry := kept.entry bounded held
  simp only [toRemove,entry.role,entry.nego,and_eq_true,or_eq_true,decide_eq_true_eq,Option.some.injEq]
  constructor
  · rintro ⟨⟨⟨⟨_,own⟩,type⟩,station⟩,selected⟩
    exact ⟨own,type.symm,station.symm,selected.imp_right Eq.symm⟩
  · rintro ⟨own,type,station,selected⟩
    exact ⟨⟨⟨⟨entry.busy,own⟩,type.symm⟩,station.symm⟩,selected.imp_right Eq.symm⟩

theorem toRemove_named (bounded : i < maxNumHwTwtConfig) (held : a i = some (role,x))
    (fits : flowNames r sta wrole flow i →
      flow.teardownAll = false → flow.id = deleteAll → ∀ x ∈ (r i).twtStaQueue, x.id = deleteAll) :
    toRemove r sta wrole flow i x ↔ flowNames r sta wrole flow i := by
  have entry := kept.entry bounded held
  rw [toRemove_iff kept bounded held]
  constructor
  · rintro ⟨rfl,type,station,selected⟩
    refine (kept.named_iff bounded).mpr ⟨type,x,held,station,?_⟩
    cases all : flow.teardownAll with
    | true => exact .inl (by simp [flowId,all])
    | false => exact .inr (by simpa [flowId,all] using selected)
  · intro names
    obtain ⟨type,y,same,station,selected⟩ := (kept.named_iff bounded).mp names
    cases held.symm.trans same
    refine ⟨rfl,type,station,?_⟩
    cases all : flow.teardownAll with
    | true => exact .inl rfl
    | false =>
        simp only [flowId,all,false_eq_true,if_false] at selected
        rcases selected with every | one
        · have last := fits names all every.symm x (entry.queue ▸ List.mem_singleton_self x)
          exact .inr (every.symm.trans last.symm)
        · exact .inr one

theorem tornDown
    (fits : ∀ i ∈ configs, flowNames r sta wrole flow i →
      flow.teardownAll = false → flow.id = deleteAll → ∀ x ∈ (r i).twtStaQueue, x.id = deleteAll)
    (gone : ∀ i ∈ configs, flowNames r sta wrole flow i → Blank (t i))
    (same : ∀ i, ¬(i ∈ configs ∧ flowNames r sta wrole flow i) → t i = r i) : TornDown r t sta wrole flow := by
  have blank : ∀ i < maxNumHwTwtConfig, a i = none → t i = r i ∧ (r i).twtStaQueue = [] ∧ (r i).state = .free := by
    intro i bounded none
    have empty := kept.blank bounded none
    refine ⟨same i fun now => kept.busy_of_named bounded now.2 empty.state,empty.queue,empty.state⟩
  constructor
  · intro i bounded
    have member := mem_configs.mpr bounded
    cases here : a i with
    | none =>
        obtain ⟨still,queue,_⟩ := blank i bounded here
        rw [still,queue]
        rfl
    | some y =>
        obtain ⟨role,x⟩ := y
        have named := toRemove_named kept bounded here (fits i member)
        have entry := kept.entry bounded here
        cases names : flowNames r sta wrole flow i with
        | true =>
            have remove := named.mpr names
            rw [entry.queue,(gone i member names).queue]
            simp [remove]
        | false =>
            have keep : toRemove r sta wrole flow i x = false := by
              cases remove : toRemove r sta wrole flow i x with
              | false => rfl
              | true => cases names.symm.trans (named.mp remove)
            have still := same i fun now => nomatch names.symm.trans now.2
            rw [still,entry.queue]
            simp [keep]
  · intro i bounded
    have member := mem_configs.mpr bounded
    cases here : a i with
    | none =>
        obtain ⟨still,_,free⟩ := blank i bounded here
        rw [still]
        exact ⟨fun _ => .inl free,fun _ => free⟩
    | some y =>
        have entry := kept.entry bounded here
        have filled : (r i).twtStaQueue ≠ [] := by
          rw [entry.queue]
          exact fun none => nomatch none
        cases names : flowNames r sta wrole flow i with
        | true =>
            have empty := gone i member names
            exact ⟨fun _ => .inr ⟨filled,empty.queue⟩,fun _ => empty.state⟩
        | false =>
            rw [same i fun now => nomatch names.symm.trans now.2]
            exact ⟨.inl,fun free => free.resolve_right fun now => now.1 now.2⟩

theorem teardown_kept (del disable : Nat → Bool) (fits : TeardownFits r sta wrole flow del) :
    (∃ b, Kept (twtTeardownForStaMode del disable r sta wrole flow).2 b) ∧
      ((twtTeardownForStaMode del disable r sta wrole flow).1 = .success →
        TornDown r (twtTeardownForStaMode del disable r sta wrole flow).2 sta wrole flow) := by
  by_cases refused : ∀ i ∈ configs, flowNames r sta wrole flow i → del i = false
  · obtain ⟨still,success⟩ := teardown_refused kept del disable refused
    rw [still]
    refine ⟨⟨a,kept⟩,fun done => ?_⟩
    obtain ⟨_,none⟩ := success done
    exact tornDown kept (fun i member names => nomatch (none i member).symm.trans names)
      (fun i member names => nomatch (none i member).symm.trans names) fun _ _ => rfl
  · have all := fits.resolve_right refused
    have stored : flow.negoType ≠ .bcastTwt := by
      intro bcast
      apply refused
      intro i member names
      obtain ⟨type,_⟩ := (kept.named_iff (mem_configs.mp member)).mp names
      rw [bcast] at type
      cases type
    obtain ⟨t,result,gone,same⟩ := teardown_granted kept del disable stored fun i member names => (all i member names).1
    rw [result]
    refine ⟨⟨_,kept.thin (fun i => flowNames r sta wrole flow i) ?_⟩,fun _ => ?_⟩
    · intro i bounded
      have member := mem_configs.mpr bounded
      split
      · rename_i names
        exact gone i member names
      · rename_i apart
        exact same i fun now => apart now.2
    · exact tornDown kept (fun i member names => (all i member names).2) gone same
end

theorem exec_idle (idle : (s.twtSup && s.twtInit) = false) (call : Call σ ρ) :
    (exec s call).2 = s ∧ (exec s call).1.status ≠ .success ∧ (exec s call).1.id = none := by
  unfold exec
  rw [idle,if_neg Bool.false_ne_true]
  cases call <;> exact ⟨rfl,fun success => (nomatch success),rfl⟩

theorem exec_kept (kept : Kept s.ring a) (call : Call σ ρ) (fits : Fits s call) :
    (∃ b, Kept (exec s call).2.ring b) ∧ CallSound s call := by
  cases ready : s.twtSup && s.twtInit with
  | false =>
      obtain ⟨same,failed,none⟩ := exec_idle ready call
      rw [same]
      refine ⟨⟨a,kept⟩,?_⟩
      cases call with
      | accept sta wrole setup env =>
          intro _ i _ busy
          rwa [same] at busy
      | getNewFlowId sta wrole => exact fun k given => nomatch none.symm.trans given
      | teardown sta wrole flow del disable => exact fun success => absurd success failed
      | freeAll role disable => trivial
      | disableAll role disable => trivial
      | enableAll role enable add => trivial
  | true =>
      obtain ⟨sup,init⟩ := and_eq_true_iff.mp ready
      unfold CallSound exec
      rw [ready,if_pos rfl]
      cases call with
      | accept sta wrole setup env => exact accept_kept kept setup env (fits sup init)
      | getNewFlowId sta wrole =>
          exact ⟨⟨a,newFlowId_kept kept sta wrole⟩,fun k given x i holds station => newFlowId_fresh kept given holds station⟩
      | teardown sta wrole flow del disable => exact teardown_kept kept del disable (fits sup init)
      | freeAll role disable => exact ⟨freeAll_kept kept disable role,trivial⟩
      | disableAll role disable => exact ⟨⟨a,disableAll_kept kept disable role⟩,trivial⟩
      | enableAll role enable add => exact ⟨⟨a,enableAll_kept kept enable add role⟩,trivial⟩

theorem twt_table_sound {s : PhlTwt σ ρ} (path : Machine.Reached step Fits (phlTwtInit twtSup twtInit) s) :
    TableSound s.ring ∧ (∀ call, Fits s call → CallSound s call) ∧
      ∀ disable role, getConfigByRole (twtFreeAllTwtByRole disable s.ring role).2 role = none := by
  have reached := path.invariant (fun s => ∃ a, Kept s.ring a) ⟨_,init_kept twtSup twtInit⟩ fun s call before fits => by
    obtain ⟨a,kept⟩ := before
    exact (exec_kept kept call fits).1
  obtain ⟨a,kept⟩ := reached
  exact ⟨kept.sound,fun call fits => (exec_kept kept call fits).2,freeAll_ends kept⟩

def setupOf (flowId : UInt8) : TwtSetupInfo := ⟨.indivTwt,.wake256us,0,⟨⟨.announcedTwt,1,1,flowId,10,0⟩,0,0,512,255⟩⟩
def allAccepted : AcceptEnv := ⟨fun _ => true,true,true,true,true,true⟩

def renewedRun : List (Call Nat Nat) :=
  [.accept 7 1 (setupOf 0) allAccepted,.accept 7 1 (setupOf 1) allAccepted,.getNewFlowId 7 1,
    .accept 7 1 (setupOf 0) allAccepted,.disableAll 1 fun _ => true,.enableAll 1 (fun _ => true) fun _ _ => true,
    .teardown 7 1 ⟨.indivTwt,1,false⟩ (fun _ => true) fun _ => true]

theorem twt_table_sound_renewed : TableSound (Machine.run step (phlTwtInit true true) renewedRun).ring ∧
    CallSound (Machine.run step (phlTwtInit true true) renewedRun)
      (.teardown 7 1 ⟨.indivTwt,0,true⟩ (fun _ => true) fun _ => true) := by
  have path : Machine.Reached step Fits (phlTwtInit true true) (run step (phlTwtInit true true) renewedRun) :=
    Machine.Reached.start.run (by decide)
  obtain ⟨table,calls,_⟩ := twt_table_sound path
  exact ⟨table,calls _ (by decide)⟩

def entryRefused : List (Call Nat Nat) := [.accept 7 1 (setupOf 0) {allAccepted with enable:=false}]

def removalRefused : List (Call Nat Nat) :=
  [.accept 7 1 (setupOf 0) allAccepted,.accept 7 1 (setupOf 0) {allAccepted with del:=fun _ => false}]

def partlyRemoved : List (Call Nat Nat) :=
  [.accept 7 1 (setupOf 0) allAccepted,.accept 7 1 (setupOf 1) allAccepted,
    .teardown 7 1 ⟨.indivTwt,0,true⟩ (· = 0) fun _ => true]

theorem twt_table_broken : ∃ s t u : PhlTwt Nat Nat,
    Machine.Reached step (fun _ _ => True) (phlTwtInit true true) s ∧ ¬TableSound s.ring ∧
    Machine.Reached step (fun _ _ => True) (phlTwtInit true true) t ∧ ¬TableSound t.ring ∧
    Machine.Reached step (fun _ _ => True) (phlTwtInit true true) u ∧ ¬TableSound u.ring := by
  refine ⟨run step (phlTwtInit true true) entryRefused,run step (phlTwtInit true true) removalRefused,
    run step (phlTwtInit true true) partlyRemoved,Machine.Reached.start.run ⟨trivial,trivial⟩,?_,
    Machine.Reached.start.run ⟨trivial,trivial,trivial⟩,?_,Machine.Reached.start.run ⟨trivial,trivial,trivial,trivial⟩,?_⟩
  · intro sound
    exact sound.usedFilled 0 (by decide) (by decide) rfl
  · intro sound
    have left : Holds (run step (phlTwtInit true true) removalRefused).ring 1 ⟨7,0⟩ 0 :=
      ⟨by decide,by decide,rfl,rfl,List.mem_singleton_self _⟩
    have right : Holds (run step (phlTwtInit true true) removalRefused).ring 1 ⟨7,0⟩ 1 :=
      ⟨by decide,by decide,rfl,rfl,List.mem_singleton_self _⟩
    cases sound.heldOnce 1 ⟨7,0⟩ 0 1 left right
  · intro sound
    exact sound.usedFilled 0 (by decide) (by decide) rfl
end Rtl8852au.Twt
