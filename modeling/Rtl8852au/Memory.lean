import Mathlib.Data.List.Basic

namespace Rtl8852au.Memory
open List

variable {α : Type}

def bytesAt (buf : Nat → α) (pos count : Nat) : List α := (List.range' pos count).map buf

def put (buf : Nat → α) (pos : Nat) (bytes : List α) : Nat → α := fun i =>
  if pos ≤ i then (bytes[i-pos]?).getD (buf i) else buf i

section
variable (buf : Nat → α)

@[simp] theorem bytesAt_length (pos count : Nat) : (bytesAt buf pos count).length = count := by simp [bytesAt]

section
variable (pos : Nat)

@[simp] theorem bytesAt_zero : bytesAt buf pos 0 = [] := rfl

theorem bytesAt_cons (pos count : Nat) : bytesAt buf pos (count+1) = buf pos :: bytesAt buf (pos+1) count := by
  simp [bytesAt,range'_succ]

theorem bytesAt_drop (pos count k : Nat) : (bytesAt buf pos count).drop k = bytesAt buf (pos+k) (count-k) := by
  simp [bytesAt,←map_drop,drop_range']

theorem bytesAt_append (pos m n : Nat) :
    bytesAt buf pos (m+n) = bytesAt buf pos m ++ bytesAt buf (pos+m) n := by
  simp [bytesAt,←map_append]

theorem bytesAt_two {count : Nat} (two : 2 ≤ count) :
    bytesAt buf pos count = buf pos :: buf (pos+1) :: bytesAt buf (pos+2) (count-2) := by
  obtain ⟨rest,rfl⟩ := Nat.exists_eq_add_of_le' two
  rw [bytesAt_cons,bytesAt_cons]
  rfl

theorem bytesAt_congr {buf buf' : Nat → α} {pos pos' count : Nat} (same : ∀ i < count, buf (pos+i) = buf' (pos'+i)) :
    bytesAt buf pos count = bytesAt buf' pos' count := by
  induction count generalizing pos pos' with
  | zero => rfl
  | succ count ih =>
    rw [bytesAt_cons,bytesAt_cons]
    refine congrArg₂ cons (same 0 (Nat.succ_pos _)) (ih ?_)
    intro i small
    have there := same (i+1) (by omega)
    rwa [show pos + (i+1) = pos + 1 + i by omega,show pos' + (i+1) = pos' + 1 + i by omega] at there

theorem bytesAt_get {count i : Nat} (inside : i < count) :
    (bytesAt buf pos count)[i]? = some (buf (pos+i)) := by
  simp [bytesAt,inside]

theorem put_before (bytes : List α) {pos i : Nat} (before : i < pos) : put buf pos bytes i = buf i := if_neg (by omega)

theorem put_after (bytes : List α) {pos i : Nat} (after : pos + bytes.length ≤ i) :
    put buf pos bytes i = buf i := by
  have none_ : bytes[i-pos]? = none := getElem?_eq_none (by omega)
  unfold put
  rw [none_]
  simp

theorem put_inside (bytes : List α) (pos : Nat) {i : Nat} (inside : i < bytes.length) :
    put buf pos bytes (pos+i) = bytes[i] := by
  simp [put,inside]

theorem put_nil : put buf pos [] = buf := by
  funext i
  simp [put]

theorem put_append (front back : List α) :
    put (put buf pos front) (pos+front.length) back = put buf pos (front ++ back) := by
  funext i
  by_cases before : i < pos
  · rw [put_before _ _ (by omega),put_before _ _ before,put_before _ _ before]
  obtain ⟨k,rfl⟩ := Nat.exists_eq_add_of_le (Nat.not_lt.mp before)
  by_cases first : k < front.length
  · rw [put_before _ _ (by omega),put_inside buf front pos first,put_inside buf (front ++ back) pos (by simp; omega),
      getElem_append_left first]
  obtain ⟨j,rfl⟩ := Nat.exists_eq_add_of_le (Nat.not_lt.mp first)
  by_cases second : j < back.length
  · rw [←Nat.add_assoc,put_inside _ back (pos+front.length) second,Nat.add_assoc,
      put_inside buf (front ++ back) pos (by simp; omega),getElem_append_right (by omega)]
    simp
  · rw [put_after _ _ (by omega),put_after _ _ (by omega),put_after _ _ (by simp; omega)]

theorem put_comm {pos pos' : Nat} {bytes bytes' : List α} (apart : pos + bytes.length ≤ pos') :
    put (put buf pos bytes) pos' bytes' = put (put buf pos' bytes') pos bytes := by
  funext i
  by_cases low : i < pos + bytes.length
  · rw [put_before _ _ (by omega)]
    by_cases before : i < pos
    · rw [put_before _ _ before,put_before _ _ before,put_before _ _ (by omega)]
    · obtain ⟨k,rfl⟩ := Nat.exists_eq_add_of_le (Nat.not_lt.mp before)
      rw [put_inside buf bytes pos (by omega),put_inside _ bytes pos (by omega)]
  · rw [put_after _ bytes (by omega : pos + bytes.length ≤ i)]
    by_cases before : i < pos'
    · rw [put_before _ _ before,put_before _ _ before,put_after _ _ (by omega)]
    by_cases inside : i < pos' + bytes'.length
    · obtain ⟨k,rfl⟩ := Nat.exists_eq_add_of_le (Nat.not_lt.mp before)
      rw [put_inside _ bytes' pos' (by omega),put_inside _ bytes' pos' (by omega)]
    · rw [put_after _ _ (by omega),put_after _ _ (by omega),put_after _ _ (by omega)]

theorem bytesAt_put (bytes : List α) : bytesAt (put buf pos bytes) pos bytes.length = bytes := by
  apply ext_getElem?
  intro i
  by_cases inside : i < bytes.length
  · rw [bytesAt_get _ _ inside,put_inside buf bytes pos inside,getElem?_eq_getElem inside]
  · rw [getElem?_eq_none (by simp; omega),getElem?_eq_none (by omega)]
end

theorem bytesAt_put_after (bytes : List α) {pos at_ count : Nat} (after : pos + bytes.length ≤ at_) :
    bytesAt (put buf pos bytes) at_ count = bytesAt buf at_ count :=
  bytesAt_congr fun i _ => put_after buf bytes (by omega)
end

end Rtl8852au.Memory
