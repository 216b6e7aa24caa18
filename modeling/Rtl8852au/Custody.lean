namespace Rtl8852au.Custody

-- Items of a pool that are lent out, put down somewhere, and given back. While
-- an item is out a token can be tied to it, which goes back with it.
inductive Place (π : Type) where
  | home
  | hand
  | at (p : π)
  deriving DecidableEq

structure Holding (π τ : Type) where
  place : Place π
  token : Option τ

abbrev Book (ι π τ : Type) := ι → Holding π τ

inductive Move (ι π τ : Type) where
  | take (i : ι)
  | attach (i : ι) (t : τ)
  | put (i : ι) (p : π)
  | lift (i : ι)
  | give (i : ι) (t : Option τ)

variable {ι π τ : Type}

-- Each move takes the item from where it is.
def Allowed (book : Book ι π τ) : Move ι π τ → Prop
  | .take i => (book i).place = .home
  | .attach i _ => (book i).place = .hand ∧ (book i).token = none
  | .put i _ => (book i).place = .hand
  | .lift i => ∃ p, (book i).place = .at p
  | .give i t => (book i).place ≠ .home ∧ (book i).token = t

section moves
variable [DecidableEq ι]

def enter (book : Book ι π τ) (i : ι) (holding : Holding π τ) : Book ι π τ := fun j => if j = i then holding else book j

def move (book : Book ι π τ) : Move ι π τ → Book ι π τ
  | .take i => enter book i ⟨.hand,none⟩
  | .attach i t => enter book i ⟨.hand,some t⟩
  | .put i p => enter book i ⟨.at p,(book i).token⟩
  | .lift i => enter book i ⟨.hand,(book i).token⟩
  | .give i _ => enter book i ⟨.home,none⟩

def idle : Book ι π τ := fun _ => ⟨.home,none⟩

inductive Legal : List (Move ι π τ) → Book ι π τ → Prop where
  | start : Legal [] idle
  | step : Legal moves book → Allowed book m → Legal (moves ++ [m]) (move book m)

@[simp] theorem enter_same (book : Book ι π τ) (i : ι) (holding : Holding π τ) : enter book i holding i = holding := by
  simp [enter]

theorem enter_other (book : Book ι π τ) (holding : Holding π τ) (other : j ≠ i) : enter book i holding j = book j := by
  simp [enter,other]

theorem Legal.balance {inflow outflow : Move ι π τ → Bool} (level : Book ι π τ → Nat) (empty : level idle = 0)
    (kept : ∀ moves book m, Legal moves book → Allowed book m →
      (inflow m).toNat + level book = (outflow m).toNat + level (move book m))
    (legal : Legal moves book) : moves.countP inflow = moves.countP outflow + level book := by
  induction legal with
  | start => simpa using empty.symm
  | @step moves book m legal allowed ih =>
    have now := kept moves book m legal allowed
    have count (p : Move ι π τ → Bool) : [m].countP p = (p m).toNat := by cases h : p m <;> simp [h]
    rw [List.countP_append,List.countP_append,count,count,ih]
    omega

theorem Legal.untied {moves : List (Move ι π τ)} (legal : Legal moves book) (i : ι) (home : (book i).place = .home) :
    (book i).token = none := by
  induction legal with
  | start => rfl
  | @step moves book m legal allowed ih =>
    have kept (j : ι) (holding : Holding π τ) (fresh : holding.place = .home → holding.token = none)
        (now : (enter book j holding i).place = .home) : (enter book j holding i).token = none := by
      unfold enter at now ⊢
      split at now
      · rename_i same
        rw [if_pos same]
        exact fresh now
      · rename_i other
        rw [if_neg other]
        exact ih now
    cases m with
    | take j => exact kept j ⟨.hand,none⟩ (by simp) home
    | attach j t => exact kept j ⟨.hand,some t⟩ (by simp) home
    | put j p => exact kept j ⟨.at p,(book j).token⟩ (by simp) home
    | lift j => exact kept j ⟨.hand,(book j).token⟩ (by simp) home
    | give j t => exact kept j ⟨.home,none⟩ (by simp) home
end moves
section counting
variable [DecidableEq ι]

def isTake (i : ι) : Move ι π τ → Bool
  | .take j => decide (j = i)
  | _ => false

def isGive (i : ι) : Move ι π τ → Bool
  | .give j _ => decide (j = i)
  | _ => false

def Place.out : Place π → Nat
  | .home => 0
  | _ => 1

theorem Place.out_of_ne {p : Place π} (gone : p ≠ .home) : p.out = 1 := by
  cases p with
  | home => exact absurd rfl gone
  | hand => rfl
  | «at» p => rfl

theorem Legal.given {moves : List (Move ι π τ)} (legal : Legal moves book) (i : ι) :
    moves.countP (isTake i) = moves.countP (isGive i) + (book i).place.out := by
  refine Legal.balance (fun book => (book i).place.out) rfl ?_ legal
  intro moves book m _ allowed
  cases m with
  | take j =>
    by_cases same : i = j
    · subst same
      simp [isTake,isGive,move,show (book i).place = .home from allowed,Place.out]
    · simp [isTake,isGive,move,enter_other _ _ same,Ne.symm same]
  | attach j t =>
    by_cases same : i = j
    · subst same
      simp [isTake,isGive,move,allowed.1]
    · simp [isTake,isGive,move,enter_other _ _ same]
  | put j p =>
    by_cases same : i = j
    · subst same
      simp [isTake,isGive,move,show (book i).place = .hand from allowed,Place.out]
    · simp [isTake,isGive,move,enter_other _ _ same]
  | lift j =>
    by_cases same : i = j
    · subst same
      obtain ⟨p,there⟩ := allowed
      simp [isTake,isGive,move,there,Place.out]
    · simp [isTake,isGive,move,enter_other _ _ same]
  | give j t =>
    by_cases same : i = j
    · subst same
      have before := Place.out_of_ne allowed.1
      have after : (move book (.give i t) i).place.out = 0 := by simp [move,Place.out]
      rw [before,after]
      simp [isTake,isGive]
    · simp [isTake,isGive,move,enter_other _ _ same,Ne.symm same]

variable [DecidableEq τ]

def isAttach (i : ι) (t : τ) : Move ι π τ → Bool
  | .attach j u => decide (j = i ∧ u = t)
  | _ => false

def isReturn (i : ι) (t : τ) : Move ι π τ → Bool
  | .give j u => decide (j = i ∧ u = some t)
  | _ => false

theorem Legal.returned {moves : List (Move ι π τ)} (legal : Legal moves book) (i : ι) (t : τ) :
    moves.countP (isAttach i t) = moves.countP (isReturn i t) + (if (book i).token = some t then 1 else 0) := by
  refine Legal.balance (fun book => if (book i).token = some t then 1 else 0) rfl ?_ legal
  intro moves book m legal allowed
  cases m with
  | take j =>
    by_cases same : i = j
    · subst same
      simp [isAttach,isReturn,move,legal.untied i allowed]
    · simp [isAttach,isReturn,move,enter_other _ _ same]
  | attach j u =>
    by_cases same : i = j
    · subst same
      by_cases token : u = t <;> simp [isAttach,isReturn,move,allowed.2,token]
    · simp [isAttach,isReturn,move,enter_other _ _ same,Ne.symm same]
  | put j p =>
    by_cases same : i = j
    · subst same
      simp [isAttach,isReturn,move]
    · simp [isAttach,isReturn,move,enter_other _ _ same]
  | lift j =>
    by_cases same : i = j
    · subst same
      simp [isAttach,isReturn,move]
    · simp [isAttach,isReturn,move,enter_other _ _ same]
  | give j u =>
    by_cases same : i = j
    · subst same
      have token : (book i).token = u := allowed.2
      by_cases here : u = some t <;> simp [isAttach,isReturn,move,token,here]
    · simp [isAttach,isReturn,move,enter_other _ _ same,Ne.symm same]
end counting
end Rtl8852au.Custody
