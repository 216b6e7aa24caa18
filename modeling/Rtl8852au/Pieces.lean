
namespace Rtl8852au.Pieces
open List

variable {B : Type}

def cut : List (List B) → Nat → Nat → List (List B)
  | [],_,_ => []
  | piece :: rest,offset,size =>
    let here := (piece.drop offset).take size
    let behind := cut rest (offset-piece.length) (size-here.length)
    if here.isEmpty then behind else here :: behind

theorem cut_none (pieces : List (List B)) (offset : Nat) : cut pieces offset 0 = [] := by
  induction pieces generalizing offset with
  | nil => rfl
  | cons piece rest ih => simp [cut,ih]

theorem cut_flatten (pieces : List (List B)) (offset size : Nat) :
    (cut pieces offset size).flatten = (pieces.flatten.drop offset).take size := by
  induction pieces generalizing offset size with
  | nil => simp [cut]
  | cons piece rest ih =>
    have whole : (((piece :: rest).flatten).drop offset).take size =
        (piece.drop offset).take size ++ (cut rest (offset-piece.length) (size - ((piece.drop offset).take size).length)).flatten := by
      rw [ih,flatten_cons,drop_append,take_append,length_take]
      congr 2
      omega
    rw [whole,cut]
    by_cases empty : (piece.drop offset).take size = []
    · rw [empty]
      rfl
    · have filled : ((piece.drop offset).take size).isEmpty = false := by
        rw [isEmpty_eq_false_iff]
        exact empty
      simp only [filled]
      rfl

theorem cut_length (pieces : List (List B)) (offset size : Nat) : (cut pieces offset size).length ≤ pieces.length := by
  induction pieces generalizing offset size with
  | nil => exact Nat.le_refl 0
  | cons piece rest ih =>
    have behind := ih (offset-piece.length) (size - ((piece.drop offset).take size).length)
    rw [cut]
    split
    · exact Nat.le_succ_of_le behind
    · exact Nat.succ_le_succ behind

theorem cut_append (front back : List (List B)) (offset size : Nat) :
    cut (front ++ back) offset size = cut front offset size ++
      cut back (offset-front.flatten.length) (size - (cut front offset size).flatten.length) := by
  induction front generalizing offset size with
  | nil => simp [cut]
  | cons piece rest ih =>
    have step := ih (offset-piece.length) (size - ((piece.drop offset).take size).length)
    rw [Nat.sub_sub,Nat.sub_sub] at step
    rw [cons_append,cut,cut,step,flatten_cons,length_append]
    by_cases empty : (piece.drop offset).take size = []
    · simp [empty]
    · have filled : ((piece.drop offset).take size).isEmpty = false := by
        rw [isEmpty_eq_false_iff]
        exact empty
      simp only [filled]
      rw [if_neg Bool.false_ne_true,if_neg Bool.false_ne_true,flatten_cons,length_append]
      rfl

end Rtl8852au.Pieces
