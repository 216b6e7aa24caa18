
namespace Rtl8852au

structure PhlQueue (α : Type) where
  queue : List α
  cnt : Int

namespace PhlQueue
variable {α : Type}

inductive Pos where
  | first
  | tail

def init : PhlQueue α := ⟨[],0⟩
def pqReset (_ : PhlQueue α) : PhlQueue α := ⟨[],0⟩

section
variable (q : PhlQueue α)

def pqPush (obj : α) : Pos → PhlQueue α
  | .first => ⟨obj :: q.queue,q.cnt+1⟩
  | .tail => ⟨q.queue ++ [obj],q.cnt+1⟩

def pqPop (pos : Pos) : Option (α × PhlQueue α) :=
  if 0 < q.cnt then
    match pos with
    | .first => q.queue.head?.map fun obj => (obj,⟨q.queue.tail,q.cnt-1⟩)
    | .tail => q.queue.getLast?.map fun obj => (obj,⟨q.queue.dropLast,q.cnt-1⟩)
  else none

def pqGetFront : Option α := if 0 < q.cnt then q.queue.head? else none
def pqDelNode [DecidableEq α] (q : PhlQueue α) (obj : α) : PhlQueue α := ⟨q.queue.erase obj,q.cnt-1⟩

def Counted : Prop := q.cnt = q.queue.length
end

theorem init_counted : (init : PhlQueue α).Counted := rfl

variable {q : PhlQueue α}

theorem Counted.push (counted : q.Counted) (obj : α) (pos : Pos) : (q.pqPush obj pos).Counted := by
  unfold Counted at counted ⊢
  cases pos <;> simp [pqPush,counted]

theorem Counted.empty (counted : q.Counted) : q.cnt = 0 ↔ q.queue = [] := by
  rw [counted]
  simp

theorem Counted.init (counted : q.Counted) (none_left : q.queue = []) : q = .init := by
  cases q with
  | mk queue cnt =>
    unfold Counted at counted
    dsimp only at counted none_left
    rw [counted,none_left]
    rfl

theorem Counted.popCons {obj : α} {rest : List α} (counted : q.Counted) (list : q.queue = obj :: rest) :
    q.pqPop .first = some (obj,⟨rest,q.cnt-1⟩) ∧ (⟨rest,q.cnt-1⟩ : PhlQueue α).Counted := by
  unfold Counted at counted ⊢
  rw [list,List.length_cons] at counted
  refine ⟨?_,by simp [counted]⟩
  unfold pqPop
  rw [if_pos (by omega),list]
  rfl

theorem Counted.front (counted : q.Counted) : q.pqGetFront = q.queue.head? := by
  unfold pqGetFront
  split
  · rfl
  · rename_i none_left
    have empty : q.queue = [] := by
      rw [counted] at none_left
      cases state : q.queue with
      | nil => rfl
      | cons obj rest =>
        rw [state,List.length_cons] at none_left
        omega
    rw [empty]
    rfl
end PhlQueue
end Rtl8852au
