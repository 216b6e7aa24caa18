import Rtl8852au.TwtDelete

namespace Rtl8852au.Twt
open Function Option Nat
variable {σ : Type u} {ρ : Type v} {r t : Ring σ ρ} {a : Agreements σ ρ} {id : UInt8}

theorem Kept.thin (kept : Kept r a) (gone : Nat → Bool)
    (each : ∀ i < maxNumHwTwtConfig, if gone i then Blank (t i) else t i = r i) :
    Kept t (fun i => if gone i then none else a i) := by
  constructor
  · intro i bounded
    have here := each i bounded
    cases out : gone i with
    | true => rwa [out] at here
    | false =>
        have shape := kept.shape i bounded
        rw [out] at here
        rwa [← (here : t i = r i)] at shape
  · apply kept.once.sub
    intro i x _ held
    split at held
    · cases held
    · exact held

theorem Kept.loop {β : Type w} {f : β → Nat → β} {b : β} (ring : β → Ring σ ρ) (kept : Kept (ring b) a)
    (each : ∀ b i, i < maxNumHwTwtConfig → Kept (ring b) a → Kept (ring (f b i)) a) : Kept (ring (configs.foldl f b)) a := by
  apply Slots.foldl_visits List.nodup_range (fun _ b => Kept (ring b) a) kept
  intro _ i b member _ before
  exact each b i (mem_configs.mp member) before

theorem Kept.updated (kept : Kept r a) (bounded : i < maxNumHwTwtConfig) (busy : (r i).state ≠ .free) (ok : Bool)
    (action : TwtAction) (other : action ≠ .free) : Kept (update r i (twtInfoUpdate ok (r i) action).2) a := by
  obtain ⟨s,state,same⟩ := infoUpdate_state ok (r i) action other
  rw [same]
  exact kept.restate bounded busy state

theorem available_kept (kept : Kept r a) : Kept (twtNewConfigIsAvailable r).2 a := by
  unfold twtNewConfigIsAvailable
  split
  · exact kept
  · rename_i i t found
    obtain ⟨bounded,free,rfl⟩ := getNewConfig_some found
    have id : (update r i (renewed (r i) i) i).twtInfo.twtId = i := by
      rw [update_self]
      rfl
    have busy : (update r i (renewed (r i) i) i).state ≠ .free := by
      rw [update_self]
      exact fun state => nomatch state
    have none := (kept.free_iff bounded).mp free
    rw [id,freeConfig_busy bounded busy,update_self,update_idem]
    have blank : Shape i {renewed (r i) i with state:=.free} (a i) := by
      rw [none]
      exact ⟨rfl,(kept.blank bounded none).queue⟩
    have put := kept.put blank fun x held => nomatch none.symm.trans held
    rwa [update_eq_self] at put

def Holds (r : Ring σ ρ) (role : ρ) (x : TwtSta σ) (i : Nat) : Prop :=
  i < maxNumHwTwtConfig ∧ (r i).state ≠ .free ∧ (r i).role = some role ∧ (r i).twtInfo.negoType = .indivTwt ∧
    x ∈ (r i).twtStaQueue

theorem Kept.holds_iff (kept : Kept r a) : Holds r role x i ↔ i < maxNumHwTwtConfig ∧ a i = some (role,x) := by
  constructor
  · rintro ⟨bounded,busy,own,_,member⟩
    refine ⟨bounded,?_⟩
    cases here : a i with
    | none => exact absurd (kept.blank bounded here).state busy
    | some y =>
        have entry := kept.entry bounded here
        rw [entry.queue,List.mem_singleton] at member
        have same : y.1 = role := some.inj (entry.role.symm.trans own)
        rw [← same,member]
  · rintro ⟨bounded,held⟩
    have entry := kept.entry bounded held
    exact ⟨bounded,entry.busy,entry.role,entry.nego,entry.queue ▸ List.mem_singleton_self x⟩

section
variable [DecidableEq σ] [DecidableEq ρ] {sta : σ} {wrole : ρ}

theorem useMark_grows (r : Ring σ ρ) (sta : σ) (wrole : ρ) (small : k < 8) (marked : map.testBit k) :
    (useMark r sta wrole map i).testBit k := by
  unfold useMark
  split
  · exact marked
  · split
    · exact marked
    · split
      · exact marked
      · rw [show 256 = 2 ^ 8 from rfl,testBit_mod_two_pow,Bitmap.testBit_mark,marked]
        simp [small]

theorem useMark_marks (kept : Kept r a) (holds : Holds r wrole x i) (station : x.phlSta = sta) (small : x.id.toNat < 8) :
    (useMark r sta wrole map i).testBit x.id.toNat := by
  obtain ⟨bounded,held⟩ := kept.holds_iff.mp holds
  have entry := kept.entry bounded held
  have found : twtGetStaInfo sta (r i).twtStaQueue = some x := by
    rw [entry.queue]
    simp [twtGetStaInfo,station]
  unfold useMark
  rw [if_neg entry.busy,if_neg (by simp [entry.role,entry.nego]),found]
  dsimp only
  rw [show 256 = 2 ^ 8 from rfl,testBit_mod_two_pow,Bitmap.testBit_mark]
  simp [small]

theorem useMap_marks (kept : Kept r a) (holds : Holds r wrole x i) (station : x.phlSta = sta) (small : x.id.toNat < 8) :
    (configs.foldl (useMark r sta wrole) 0).testBit x.id.toNat := by
  have visits := Slots.foldl_visits (b := 0) (f := useMark r sta wrole) (l := configs) List.nodup_range
    (fun seen map => i ∈ seen → map.testBit x.id.toNat) (fun none => nomatch none) (by
      intro seen j map _ _ before visited
      rcases List.mem_append.mp visited with earlier | here
      · exact useMark_grows r sta wrole small (before earlier)
      · rw [← List.mem_singleton.mp here]
        exact useMark_marks kept holds station small)
  exact visits (mem_configs.mpr holds.1)

theorem newFlowId_kept (kept : Kept r a) (sta : σ) (wrole : ρ) : Kept (twtGetNewFlowId r sta wrole).2 a := by
  have available := available_kept kept
  unfold twtGetNewFlowId
  split
  · rename_i search
    rwa [search] at available
  · rename_i search
    rwa [search] at available

theorem newFlowId_fresh (kept : Kept r a) (given : (twtGetNewFlowId r sta wrole).1 = some k) (holds : Holds r wrole x i)
    (station : x.phlSta = sta) : x.id.toNat ≠ k := by
  have available := available_kept kept
  intro same
  unfold twtGetNewFlowId at given
  split at given
  · cases given
  · rename_i t search
    rw [search] at available
    obtain ⟨small,clear⟩ := Bitmap.firstFree_some given
    have still : Holds t wrole x i := available.holds_iff.mpr (kept.holds_iff.mp holds)
    have marked := useMap_marks available still station (same ▸ small)
    rw [same] at marked
    cases clear.symm.trans marked
end

def inUse (r : Ring σ ρ) : Nat := (configs.filter fun i => (r i).state ≠ .free).length

theorem inUse_drop (bounded : i < maxNumHwTwtConfig) (busy : (r i).state ≠ .free) (free : c.state = .free) :
    inUse (update r i c) < inUse r := by
  have fewer : (configs.filter fun j => (update r i c j).state ≠ .free) =
      (configs.filter fun j => (r j).state ≠ .free).filter fun j => j ≠ i := by
    rw [List.filter_filter]
    apply List.filter_congr
    intro j _
    by_cases same : j = i
    · subst same
      simp [free]
    · simp [same]
  unfold inUse
  rw [fewer,List.length_filter_lt_length_iff_exists]
  exact ⟨i,List.mem_filter.mpr ⟨mem_configs.mpr bounded,by simpa using busy⟩,by simp⟩

variable [DecidableEq ρ]

theorem getConfigByRole_some (found : getConfigByRole r role = some i) :
    i < maxNumHwTwtConfig ∧ (r i).state ≠ .free ∧ (r i).role = some role := by
  have member := List.mem_of_find?_eq_some found
  have matching := List.find?_some found
  exact ⟨mem_configs.mp member,of_decide_eq_true matching⟩

theorem freeByRole_found (kept : Kept r a) (found : getConfigByRole r role = some i) (disable : Nat → Bool) :
    freeByRole disable role r = update r i (freed (disable i) (r i)) := by
  obtain ⟨bounded,busy,_⟩ := getConfigByRole_some found
  cases here : a i with
  | none => exact absurd (kept.blank bounded here).state busy
  | some y =>
      have entry := kept.entry bounded here
      simp only [freeByRole,found,entry.twtId,dismissed_freed bounded]

section
variable (disable : Nat → Bool) (role : ρ) (before : ∃ a, Kept r a) (more : (getConfigByRole r role).isSome)
include before more

theorem freeByRole_kept : ∃ a, Kept (freeByRole disable role r) a := by
  obtain ⟨a,kept⟩ := before
  obtain ⟨i,found⟩ := isSome_iff_exists.mp more
  rw [freeByRole_found kept found]
  exact ⟨_,kept.drop (disable i) i⟩

theorem freeByRole_drop : inUse (freeByRole disable role r) < inUse r := by
  obtain ⟨a,kept⟩ := before
  obtain ⟨i,found⟩ := isSome_iff_exists.mp more
  obtain ⟨bounded,busy,_⟩ := getConfigByRole_some found
  rw [freeByRole_found kept found]
  exact inUse_drop bounded busy rfl
end

theorem freeAll_kept (kept : Kept r a) (disable : Nat → Bool) (role : ρ) :
    ∃ b, Kept (twtFreeAllTwtByRole disable r role).2 b :=
  Machine.iterate_keeps (fun r => ∃ a, Kept r a) (fun _ => freeByRole_kept disable role) ⟨a,kept⟩

theorem freeAll_ends (kept : Kept r a) (disable : Nat → Bool) (role : ρ) :
    getConfigByRole (twtFreeAllTwtByRole disable r role).2 role = none := by
  have enough : inUse r ≤ maxNumHwTwtConfig := le_trans (List.length_filter_le ..) (le_of_eq (List.length_range ..))
  have stopped := Machine.iterate_exits (fun r => ∃ a, Kept r a) inUse (fun _ => freeByRole_kept disable role)
    (fun _ => freeByRole_drop disable role) ⟨a,kept⟩ enough
  exact not_isSome_iff_eq_none.mp fun more => nomatch stopped.symm.trans more

theorem disableAt_kept (before : Kept r a) (bounded : i < maxNumHwTwtConfig) (disable : Nat → Bool) (role : ρ) :
    Kept (disableAt disable role r i) a := by
  unfold disableAt
  split
  · exact before
  · rename_i busy
    split
    · exact before.updated bounded busy (disable i) .disable (by decide)
    · exact before

theorem disableAll_kept (kept : Kept r a) (disable : Nat → Bool) (role : ρ) : Kept (twtDisableAllTwtByRole disable r role).2 a := by
  have loop : Kept (configs.foldl (disableAt disable role) r) a :=
    Kept.loop (fun r => r) kept fun _ _ bounded before => disableAt_kept before bounded disable role
  exact loop

theorem enableAt_kept (before : Kept acc.2.2 a) (bounded : i < maxNumHwTwtConfig)
    (enable : Nat → Bool) (add : Nat → σ → Bool) (role : ρ) : Kept (enableAt enable add role acc i).2.2 a := by
  obtain ⟨st,error,r⟩ := acc
  unfold enableAt
  dsimp only
  split
  · exact before
  · rename_i busy
    have updated := before.updated bounded busy (enable i) .enable (by decide)
    split
    · exact before
    · cases answer : twtInfoUpdate (enable i) (r i) .enable with
      | mk st c =>
          rw [answer] at updated
          cases st <;> exact updated

theorem enableAll_kept (kept : Kept r a) (enable : Nat → Bool) (add : Nat → σ → Bool) (role : ρ) :
    Kept (twtEnableAllTwtByRole enable add r role).2 a := by
  have loop : Kept (configs.foldl (enableAt enable add role) (.failure,false,r)).2.2 a :=
    Kept.loop (fun acc : Status × Bool × Ring σ ρ => acc.2.2) kept
      fun _ _ bounded before => enableAt_kept before bounded enable add role
  exact loop
end Rtl8852au.Twt
