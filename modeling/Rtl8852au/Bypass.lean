
namespace Rtl8852au.Bypass
open List

inductive Move (α : Type) where
  | park (a : α)
  | pass (a : α)
  | flush

structure Lane (α : Type) where
  done : List (α × Bool)
  parked : List α

variable {α β : Type}

def empty : Lane α := ⟨[],[]⟩

def move (l : Lane α) : Move α → Lane α
  | .park a => {l with parked:=l.parked ++ [a]}
  | .pass a => {l with done:=l.done ++ [(a,false)]}
  | .flush => ⟨l.done ++ l.parked.map (·,true),[]⟩

def moves (l : Lane α) (list : List (Move α)) : Lane α := list.foldl move l

def parks : Move α → List α
  | .park a => [a]
  | _ => []

def line (l : Lane α) : List (α × Bool) := l.done ++ l.parked.map (·,true)
def late (l : Lane α) : List α := (line l).filterMap fun out => if out.2 then some out.1 else none

def Ordered (rank : α → Nat) (l : Lane α) : Prop := (line l).Pairwise fun early out => out.2 → rank early.1 ≤ rank out.1

def Recent (rank : α → Nat) (l : Lane α) (a : α) : Prop := ∀ out ∈ line l, rank out.1 ≤ rank a

section
variable (l : Lane α)

@[simp] theorem moves_nil : moves l [] = l := rfl
@[simp] theorem moves_cons (m : Move α) (rest : List (Move α)) : moves l (m :: rest) = moves (move l m) rest := rfl

theorem moves_append (one two : List (Move α)) : moves l (one ++ two) = moves (moves l one) two := foldl_append

theorem line_park (a : α) : line (move l (.park a)) = line l ++ [(a,true)] := by simp [line,move]

theorem line_pass (a : α) : line (move l (.pass a)) = l.done ++ (a,false) :: l.parked.map (·,true) := by simp [line,move]

theorem line_flush : line (move l .flush) = line l := by simp [line,move]

theorem late_move (m : Move α) : late (move l m) = late l ++ parks m := by
  cases m with
  | park a => simp [late,line_park,parks]
  | pass a =>
    unfold late
    rw [line_pass]
    simp [line,parks]
  | flush => simp [late,line_flush,parks]

theorem late_moves (list : List (Move α)) : late (moves l list) = late l ++ list.flatMap parks := by
  induction list generalizing l with
  | nil => simp
  | cons m rest ih =>
    rw [moves_cons,ih,late_move]
    simp

theorem ordered_park {rank : α → Nat} {l : Lane α} {a : α} (recent : Recent rank l a) :
    Ordered rank (move l (.park a)) ↔ Ordered rank l := by
  unfold Ordered
  rw [line_park,pairwise_append]
  constructor
  · intro sorted
    exact sorted.1
  · intro sorted
    refine ⟨sorted,pairwise_singleton _ _,?_⟩
    intro early member out last _
    rw [mem_singleton.mp last]
    exact recent early member

theorem ordered_pass {rank : α → Nat} {l : Lane α} {a : α} :
    Ordered rank (move l (.pass a)) ↔ Ordered rank l ∧ ∀ b ∈ l.parked, rank a ≤ rank b := by
  unfold Ordered
  rw [line_pass,line,pairwise_append,pairwise_append,pairwise_cons]
  constructor
  · intro ⟨done,⟨first,parked⟩,across⟩
    refine ⟨⟨done,parked,?_⟩,?_⟩
    · intro early member out later
      exact across early member out (mem_cons_of_mem _ later)
    · intro b member
      exact first (b,true) (mem_map_of_mem member) rfl
  · intro ⟨⟨done,parked,across⟩,behind⟩
    refine ⟨done,⟨?_,parked⟩,?_⟩
    · intro out member _
      obtain ⟨b,inside,rfl⟩ := mem_map.mp member
      exact behind b inside
    · intro early member out later marked
      rcases mem_cons.mp later with rfl | later
      · cases marked
      · exact across early member out later marked

theorem ordered_flush {rank : α → Nat} {l : Lane α} : Ordered rank (move l .flush) ↔ Ordered rank l := by
  unfold Ordered
  rw [line_flush]

theorem line_grows (m : Move α) {out : α × Bool} (member : out ∈ line (move l m)) :
    out ∈ line l ∨ m = .park out.1 ∨ m = .pass out.1 := by
  cases m with
  | park a =>
    rw [line_park] at member
    rcases mem_append.mp member with old | new
    · exact .inl old
    · rw [mem_singleton.mp new]
      exact .inr (.inl rfl)
  | pass a =>
    rw [line_pass] at member
    rcases mem_append.mp member with old | rest
    · exact .inl (mem_append_left _ old)
    · rcases mem_cons.mp rest with new | old
      · rw [new]
        exact .inr (.inr rfl)
      · exact .inl (mem_append_right _ old)
  | flush =>
    rw [line_flush] at member
    exact .inl member

theorem line_moves (list : List (Move α)) {out : α × Bool} (member : out ∈ line (moves l list)) :
    out ∈ line l ∨ .park out.1 ∈ list ∨ .pass out.1 ∈ list := by
  induction list generalizing l with
  | nil => exact .inl member
  | cons m rest ih =>
    rcases ih (move l m) member with here | later | later
    · rcases line_grows l m here with old | rfl | rfl
      · exact .inl old
      · exact .inr (.inl mem_cons_self)
      · exact .inr (.inr mem_cons_self)
    · exact .inr (.inl (mem_cons_of_mem _ later))
    · exact .inr (.inr (mem_cons_of_mem _ later))
end

end Rtl8852au.Bypass
