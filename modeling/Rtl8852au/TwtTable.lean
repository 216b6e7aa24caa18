import Rtl8852au.Slots
import Rtl8852au.Twt

namespace Rtl8852au.Twt
open Function List
variable {σ : Type u} {ρ : Type v} {r t : Ring σ ρ}

abbrev Agreements (σ : Type u) (ρ : Type v) := Nat → Option (ρ × TwtSta σ)

structure Blank (c : TwtConfig σ ρ) : Prop where
  state : c.state = .free
  queue : c.twtStaQueue = []

structure Held (i : Nat) (c : TwtConfig σ ρ) (role : ρ) (q : List (TwtSta σ)) : Prop where
  busy : c.state ≠ .free
  role : c.role = some role
  nego : c.twtInfo.negoType = .indivTwt
  twtId : c.twtInfo.twtId = i
  queue : c.twtStaQueue = q

def Shape (i : Nat) (c : TwtConfig σ ρ) : Option (ρ × TwtSta σ) → Prop
  | none => Blank c
  | some (role,x) => Held i c role [x]

structure Kept (r : Ring σ ρ) (a : Agreements σ ρ) : Prop where
  shape : ∀ i < maxNumHwTwtConfig, Shape i (r i) (a i)
  once : Slots.Distinct maxNumHwTwtConfig a

variable {a : Agreements σ ρ}

theorem mem_configs : i ∈ configs ↔ i < maxNumHwTwtConfig := mem_range

section
variable (kept : Kept r a) (bounded : i < maxNumHwTwtConfig)
include kept bounded

theorem Kept.blank (none : a i = none) : Blank (r i) := by
  have shape := kept.shape i bounded
  rwa [none] at shape

theorem Kept.entry (held : a i = some (role,x)) :
    Held i (r i) role [x] := by
  have shape := kept.shape i bounded
  rwa [held] at shape

theorem Kept.free_iff : (r i).state = .free ↔ a i = none := by
  constructor
  · intro free
    cases here : a i with
    | none => rfl
    | some y => exact absurd free (kept.entry bounded here).busy
  · exact fun none => (kept.blank bounded none).state
end

theorem Kept.put (kept : Kept r a) (shape : Shape i c b)
    (fresh : ∀ x, b = some x → ∀ j < maxNumHwTwtConfig, j ≠ i → a j ≠ some x) :
    Kept (update r i c) (update a i b) := by
  constructor
  · intro j bounded
    by_cases same : j = i
    · subst same
      rw [update_self,update_self]
      exact shape
    · rw [update_of_ne same,update_of_ne same]
      exact kept.shape j bounded
  · cases b with
    | none =>
        apply kept.once.sub
        intro j x bounded held
        by_cases same : j = i
        · subst same
          rw [update_self] at held
          cases held
        · rwa [update_of_ne same] at held
    | some x => exact kept.once.fill (fresh x rfl)

theorem Kept.restate (kept : Kept r a) (bounded : i < maxNumHwTwtConfig) (busy : (r i).state ≠ .free)
    (state : s ≠ .free) : Kept (update r i {r i with state:=s}) a := by
  have still : Shape i {r i with state:=s} (a i) := by
    cases here : a i with
    | none => exact absurd ((kept.free_iff bounded).mpr here) busy
    | some y =>
        have held := kept.entry bounded here
        exact {held with busy:=state}
  have put := kept.put still fun x held j inside apart other => apart (kept.once j i x inside bounded other held)
  rwa [update_eq_self] at put

theorem getNewConfig_some (found : getNewConfig r = some (i,t)) :
    i < maxNumHwTwtConfig ∧ (r i).state = .free ∧ t = update r i (renewed (r i) i) := by
  unfold getNewConfig at found
  obtain ⟨j,searched,same⟩ := Option.map_eq_some_iff.mp found
  cases same
  have member := mem_of_find?_eq_some searched
  have free := find?_some searched
  exact ⟨mem_configs.mp member,of_decide_eq_true free,rfl⟩

theorem getConfigById_busy (bounded : i < maxNumHwTwtConfig) (busy : (r i).state ≠ .free) : getConfigById r i = some i := by
  unfold getConfigById
  rw [if_neg (Nat.not_le.mpr bounded),if_neg busy]

theorem freeConfig_busy (bounded : i < maxNumHwTwtConfig) (busy : (r i).state ≠ .free) :
    freeConfig r i = update r i {r i with state:=.free} := by
  unfold freeConfig
  rw [if_neg (Nat.not_le.mpr bounded),if_neg busy]
  rfl

theorem deleteAllSta_nil (q : List (TwtSta σ)) : twtDeleteAllSta q = [] := by
  induction q with
  | nil => rfl
  | cons _ rest ih => exact ih

theorem infoUpdate_state (ok : Bool) (c : TwtConfig σ ρ) (action : TwtAction) (other : action ≠ .free) :
    ∃ s, s ≠ TwtConfigState.free ∧ (twtInfoUpdate ok c action).2 = {c with state:=s} := by
  cases ok with
  | false => exact ⟨.error,by decide,rfl⟩
  | true =>
      cases action with
      | free => exact absurd rfl other
      | alloc => exact ⟨.idle,by decide,rfl⟩
      | enable => exact ⟨.enable,by decide,rfl⟩
      | disable => exact ⟨.idle,by decide,rfl⟩
      | upError => exact ⟨.error,by decide,rfl⟩

section
variable (disable : Bool) (c : TwtConfig σ ρ)

theorem dismissed_busy :
    (dismissed disable c).state ≠ .free ∧ (dismissed disable c).twtStaQueue = [] := by
  obtain ⟨s,state,same⟩ := infoUpdate_state disable c .disable (by decide)
  unfold dismissed
  rw [same]
  exact ⟨state,deleteAllSta_nil _⟩

def freed : TwtConfig σ ρ := {dismissed disable c with state:=.free}

theorem freed_blank : Blank (freed disable c) := ⟨rfl,(dismissed_busy disable c).2⟩
end

theorem dismissed_freed (bounded : i < maxNumHwTwtConfig) (disable : Bool) :
    freeConfig (update r i (dismissed disable (r i))) i = update r i (freed disable (r i)) := by
  have busy : (update r i (dismissed disable (r i)) i).state ≠ .free := by
    rw [update_self]
    exact (dismissed_busy disable (r i)).1
  rw [freeConfig_busy bounded busy,update_self,update_idem]
  rfl

theorem freeTwtConfig_busy (bounded : i < maxNumHwTwtConfig) (busy : (r i).state ≠ .free) (disable : Bool) :
    freeTwtConfig disable r i = (.success,update r i (freed disable (r i))) := by
  simp only [freeTwtConfig,getConfigById_busy bounded busy,dismissed_freed bounded]

theorem Kept.drop (kept : Kept r a) (disable : Bool) (i : Nat) :
    Kept (update r i (freed disable (r i))) (update a i none) :=
  kept.put (freed_blank disable (r i)) fun _ none => nomatch none
end Rtl8852au.Twt
