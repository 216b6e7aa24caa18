
namespace Rtl8852au.StreamCipher
open List

variable {State : Type} {w : Nat}

def crypt (next : State → BitVec w × State) (state : State) : List (BitVec w) → List (BitVec w) × State
  | [] => ([],state)
  | word :: rest =>
    let (key,later) := next state
    let (words,last) := crypt next later rest
    ((word ^^^ key) :: words,last)

variable (next : State → BitVec w × State)

@[simp] theorem crypt_cons (state : State) (word : BitVec w) (rest : List (BitVec w)) :
    crypt next state (word :: rest) =
      ((word ^^^ (next state).1) :: (crypt next (next state).2 rest).1,(crypt next (next state).2 rest).2) := rfl

section
variable (state : State) (words : List (BitVec w))

@[simp] theorem crypt_length :
    (crypt next state words).1.length = words.length := by
  induction words generalizing state with
  | nil => rfl
  | cons word rest ih => simp [ih]

theorem crypt_append (state : State) (first second : List (BitVec w)) :
    (crypt next state (first ++ second)).1 =
      (crypt next state first).1 ++ (crypt next (crypt next state first).2 second).1 := by
  induction first generalizing state with
  | nil => rfl
  | cons word rest ih => simp [ih]

theorem crypt_crypt :
    (crypt next state (crypt next state words).1).1 = words := by
  induction words generalizing state with
  | nil => rfl
  | cons word rest ih => simp only [crypt,ih,BitVec.xor_assoc,BitVec.xor_self,BitVec.xor_zero]

theorem crypt_modify (k : Nat) (mask : BitVec w) :
    (crypt next state (words.modify k (· ^^^ mask))).1 = (crypt next state words).1.modify k (· ^^^ mask) := by
  induction words generalizing state k with
  | nil => cases k <;> rfl
  | cons word rest ih =>
    cases k with
    | zero =>
      have swapped : word ^^^ mask ^^^ (next state).1 = word ^^^ (next state).1 ^^^ mask := by
        rw [BitVec.xor_assoc,BitVec.xor_comm mask,← BitVec.xor_assoc]
      simp [swapped]
    | succ k => simp [ih]
end

theorem modify_before {W : Type} {front back : List W} {k : Nat} (inside : k < front.length) (alter : W → W) :
    (front ++ back).modify k alter = front.modify k alter ++ back := by
  induction front generalizing k with
  | nil => cases inside
  | cons word rest ih =>
    cases k with
    | zero => rfl
    | succ k => simp [ih (Nat.lt_of_succ_lt_succ inside)]

theorem modify_after {W : Type} {front back : List W} {k : Nat} (behind : front.length ≤ k) (alter : W → W) :
    (front ++ back).modify k alter = front ++ back.modify (k-front.length) alter := by
  obtain ⟨i,rfl⟩ := Nat.exists_eq_add_of_le behind
  rw [Nat.add_sub_cancel_left]
  exact modifyTailIdx_add _ i front back

theorem foldl_modify {W : Type} (work : W → W) (items : List W) :
    (List.range items.length).foldl (fun items i => items.modify i work) items = items.map work := by
  have upto : ∀ count ≤ items.length, (range count).foldl (fun items i => items.modify i work) items =
      (items.take count).map work ++ items.drop count := by
    intro count
    induction count with
    | zero => simp
    | succ count ih =>
      intro within
      have here : count < items.length := within
      rw [range_succ,foldl_append,ih (Nat.le_of_lt here)]
      have front : ((items.take count).map work).length = count := by
        rw [length_map,length_take,Nat.min_eq_left (Nat.le_of_lt here)]
      rw [foldl_cons,foldl_nil,modify_after (Nat.le_of_eq front),front,Nat.sub_self,
        drop_eq_getElem_cons here,modify_zero_cons,take_succ_eq_append_getElem here,
        map_append,append_assoc]
      rfl
  have done := upto items.length (Nat.le_refl _)
  simpa using done

end Rtl8852au.StreamCipher
