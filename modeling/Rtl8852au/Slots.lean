import Mathlib.Algebra.Order.BigOperators.Group.Finset

namespace Rtl8852au.Slots
open Function List Nat
variable {α : Type _} {size : Nat}

def contents (size : Nat) (cells : Nat → Option α) : List α := (range size).filterMap cells

theorem contents_length_le (size : Nat) (cells : Nat → Option α) : (contents size cells).length ≤ size := by
  simpa [contents] using length_filterMap_le cells (range size)

theorem mem_contents : x ∈ contents size cells ↔ ∃ i < size, cells i = some (x : α) := by simp [contents]

theorem contents_congr {cells cells' : Nat → Option α} (same : ∀ i < size, cells i = cells' i) :
    contents size cells = contents size cells' :=
  filterMap_congr fun i member => same i (mem_range.mp member)

theorem contents_injective (once : (contents size cells).Nodup) (left : i < size) (right : j < size)
    (one : cells i = some (x : α)) (two : cells j = some x) : i = j := by
  unfold contents at once
  rw [List.Nodup,pairwise_filterMap] at once
  have apart : ∀ i j, i < j → j < size → cells i = some x → cells j = some x → False := by
    intro i j before bound one two
    have pair := pairwise_iff_getElem.mp once i j (by simp; omega) (by simpa using bound) before
    exact pair x (by simpa using one) x (by simpa using two) rfl
  rcases Nat.lt_trichotomy i j with less | same | more
  · exact (apart i j less right one two).elim
  · exact same
  · exact (apart j i more left two one).elim

private theorem filterMap_update_absent (cells : Nat → Option α) (absent : i ∉ indices) :
    filterMap (update cells i value) indices = filterMap cells indices := by
  apply filterMap_congr
  intro x present
  rw [update_of_ne]
  rintro rfl
  exact absent present

theorem contents_fill (bounded : i < size) (empty : cells i = none) (x : α) :
    (contents size (update cells i (some x))).Perm (x :: contents size cells) := by
  obtain ⟨before,after,split⟩ := append_of_mem (mem_range.mpr bounded)
  have distinct : (before ++ i :: after).Nodup := split ▸ nodup_range
  rw [nodup_middle,nodup_cons,mem_append,not_or] at distinct
  obtain ⟨⟨inBefore,inAfter⟩,_⟩ := distinct
  simp only [contents,split,filterMap_append,filterMap_cons,update_self,empty,
    filterMap_update_absent cells inBefore,filterMap_update_absent cells inAfter]
  exact perm_middle

theorem contents_clear (bounded : i < size) (full : cells i = some (x : α)) :
    (contents size cells).Perm (x :: contents size (update cells i none)) := by
  have filled := contents_fill bounded (update_self i none cells) x
  rwa [update_idem,← full,update_eq_self] at filled

theorem contents_foldl (size : Nat) (cells : Nat → Option α) (found : List α) :
    (range size).foldl (fun found i => match cells i with
      | none => found
      | some x => found ++ [x]) found = found ++ contents size cells := by
  unfold contents
  induction range size generalizing found with
  | nil => simp
  | cons i rest ih =>
    rw [foldl_cons,ih]
    cases held : cells i with
    | none => simp [held]
    | some x => simp [held]

theorem contents_eq_nil (empty : contents size cells = ([] : List α)) (bounded : i < size) : cells i = none := by
  cases held : cells i with
  | none => rfl
  | some x =>
    have member : x ∈ contents size cells := mem_contents.mpr ⟨i,bounded,held⟩
    rw [empty] at member
    cases member

theorem ring_next (index t size : Nat) : ((index+t) % size + 1) % size = (index+(t+1)) % size := by
  rw [Nat.mod_add_mod,Nat.add_assoc]

theorem ring_round {index t size : Nat} (bounded : index < size) (inside : t ≤ size) (started : 0 < t) :
    (index+t) % size = index ↔ t = size := by
  by_cases full : t = size
  · simp [full,mod_eq_of_lt bounded]
  · have short : t < size := by omega
    rcases Nat.lt_or_ge (index+t) size with low | high
    · rw [mod_eq_of_lt low]; omega
    · rw [mod_eq_sub_mod high,mod_eq_of_lt (by omega)]; omega

theorem ring_injective {index s t size : Nat} (bounded : index < size) (left : s < size) (right : t < size)
    (same : (index+s) % size = (index+t) % size) : s = t := by
  rcases Nat.lt_or_ge (index+s) size with sLow | sHigh <;> rcases Nat.lt_or_ge (index+t) size with tLow | tHigh
  · rw [mod_eq_of_lt sLow,mod_eq_of_lt tLow] at same; omega
  · rw [mod_eq_of_lt sLow,mod_eq_sub_mod tHigh,mod_eq_of_lt (by omega)] at same; omega
  · rw [mod_eq_sub_mod sHigh,mod_eq_of_lt (by omega),mod_eq_of_lt tLow] at same; omega
  · rw [mod_eq_sub_mod sHigh,mod_eq_of_lt (by omega),mod_eq_sub_mod tHigh,
      mod_eq_of_lt (by omega)] at same
    omega

def Distinct (size : Nat) (cells : Nat → Option α) : Prop :=
  ∀ i j x, i < size → j < size → cells i = some x → cells j = some x → i = j

theorem Distinct.sub {cells cells' : Nat → Option α} (distinct : Distinct size cells)
    (left : ∀ i x, i < size → cells' i = some x → cells i = some x) : Distinct size cells' := by
  intro i j x one two atOne atTwo
  exact distinct i j x one two (left i x one atOne) (left j x two atTwo)

theorem Distinct.fill {cells : Nat → Option α} (distinct : Distinct size cells)
    (fresh : ∀ j < size, j ≠ i → cells j ≠ some x) : Distinct size (update cells i (some x)) := by
  intro j k y one two atOne atTwo
  by_cases first : j = i
  · subst first
    rw [update_self] at atOne
    cases atOne
    by_cases second : k = j
    · exact second.symm
    · rw [update_of_ne second] at atTwo
      exact absurd atTwo (fresh k two second)
  · rw [update_of_ne first] at atOne
    by_cases second : k = i
    · subst second
      rw [update_self] at atTwo
      cases atTwo
      exact absurd atOne (fresh j one first)
    · rw [update_of_ne second] at atTwo
      exact distinct j k y one two atOne atTwo

theorem foldl_visits {ι : Type _} {β : Type _} {f : β → ι → β} {l : List ι} {b : β} (once : l.Nodup)
    (inv : List ι → β → Prop) (start : inv [] b)
    (visit : ∀ seen i b, i ∈ l → i ∉ seen → inv seen b → inv (seen ++ [i]) (f b i)) : inv l (l.foldl f b) := by
  have rest : ∀ left seen b, seen ++ left = l → inv seen b → inv l (left.foldl f b) := by
    intro left
    induction left with
    | nil =>
      intro seen b split before
      rw [append_nil] at split
      exact split ▸ before
    | cons i left ih =>
      intro seen b split before
      have apart : i ∉ seen := by
        intro earlier
        rw [← split] at once
        exact (nodup_append.mp once).2.2 i earlier i (mem_cons_self ..) rfl
      have member : i ∈ l := split ▸ mem_append_right seen (mem_cons_self ..)
      apply ih (seen ++ [i])
      · rw [append_assoc,singleton_append,split]
      · exact visit seen i b member apart before
  exact rest l [] b (nil_append l) start

theorem sum_update {n : Nat} {β : Type _} (f : Fin n → β) (g : β → Nat) (i : Fin n) (b : β) :
    ∑ j, g (update f i b j) + g (f i) = ∑ j, g (f j) + g b := by
  have split : ∀ h : Fin n → Nat, ∑ j, h j = h i + ∑ j ∈ .erase .univ i, h j :=
    fun h => (Finset.add_sum_erase .univ h (Finset.mem_univ i)).symm
  have rest : ∑ j ∈ .erase .univ i, g (update f i b j) = ∑ j ∈ .erase .univ i, g (f j) := by
    apply Finset.sum_congr rfl
    intro j other
    rw [update_of_ne (Finset.ne_of_mem_erase other)]
  rw [split,split (fun j => g (f j)),rest,update_self]
  omega
end Rtl8852au.Slots
