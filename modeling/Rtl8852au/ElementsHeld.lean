import Rtl8852au.Elements
import Rtl8852au.Memory

namespace Rtl8852au.Elements
open Words Memory List Option Bool

def Element.size (e : Element) : Nat := e.body.length+2
theorem size_pos (e : Element) : 2 ≤ e.size := by unfold Element.size; omega
def Holds (buf : Nat → U8) (pos : Nat) (es : List Element) : Prop := bytesAt buf pos (encode es).length = encode es

theorem encode_size (e : Element) (es : List Element) : (encode (e :: es)).length = e.size + (encode es).length := by
  simp [Element.size]

theorem holds_append : Holds buf pos (front ++ back) ↔ Holds buf pos front ∧ Holds buf (pos + (encode front).length) back := by
  unfold Holds
  rw [encode_append,length_append,bytesAt_append]
  constructor
  · intro same
    exact append_inj same (bytesAt_length _ _ _)
  · intro ⟨one,two⟩
    rw [one,two]

theorem holds_nil : Holds buf pos [] := rfl

theorem holds_single : Holds buf pos [e] ↔ buf pos = e.id ∧ buf (pos+1) = BitVec.ofNat 8 e.body.length ∧
    bytesAt buf (pos+2) e.body.length = e.body := by
  simp [Holds,Element.bytes,bytesAt_cons]

theorem holds_cons : Holds buf pos (e :: es) ↔ Holds buf pos [e] ∧ Holds buf (pos+e.size) es := by
  have size : (encode [e]).length = e.size := by simp [Element.size]
  rw [←singleton_append,holds_append,size]

section
variable (holds : Holds buf pos (e :: es))
include holds

theorem Holds.id : buf pos = e.id := (holds_single.mp (holds_cons.mp holds).1).1

theorem Holds.length : (buf (pos+1)).toNat = e.body.length := by
  rw [(holds_single.mp (holds_cons.mp holds).1).2.1,length_byte]

theorem Holds.body :
    bytesAt buf (pos+2) e.body.length = e.body := (holds_single.mp (holds_cons.mp holds).1).2.2

theorem Holds.tail : Holds buf (pos+e.size) es := (holds_cons.mp holds).2

theorem Holds.behind :
    bytesAt buf (pos+2) (e.body ++ encode es).length = e.body ++ encode es := by
  rw [length_append,bytesAt_append,holds.body]
  congr 1
  have next : pos + 2 + e.body.length = pos + e.size := by unfold Element.size; omega
  rw [next]
  exact holds.tail
end

theorem Holds.congr (holds : Holds buf pos es)
    (same : bytesAt buf' pos (encode es).length = bytesAt buf pos (encode es).length) : Holds buf' pos es :=
  same.trans holds

theorem Holds.same (first : Holds buf pos one) (second : Holds buf pos two)
    (sizes : (encode one).length = (encode two).length) : one = two := by
  apply encode_injective
  rw [←first,←second,sizes]

def locate (hit : Nat → Element → Bool) : Nat → List Element → Option (Nat × Element)
  | _,[] => none
  | pos,e :: es => if hit pos e then some (pos,e) else locate hit (pos+e.size) es

section Locate
variable {hit hit' : Nat → Element → Bool}

theorem locate_none :
    locate hit pos es = none ↔ ∀ pre e post, es = pre ++ e :: post → hit (pos + (encode pre).length) e = false := by
  induction es generalizing pos with
  | nil => simp [locate]
  | cons x es ih =>
    cases taken : hit pos x with
    | true =>
      simp only [locate,taken,if_true,reduceCtorEq,false_iff]
      intro all
      have first := all [] x es rfl
      rw [encode_nil,length_nil,Nat.add_zero,taken] at first
      cases first
    | false =>
      simp only [locate,taken,false_eq_true,if_false,ih]
      constructor
      · intro all pre e post split
        cases pre with
        | nil =>
          cases split
          exact taken
        | cons y pre =>
          cases split
          rw [encode_size,←Nat.add_assoc]
          exact all pre e post rfl
      · intro all pre e post split
        have there := all (x :: pre) e post (by rw [split]; rfl)
        rwa [encode_size,←Nat.add_assoc] at there

theorem locate_some (found : locate hit pos es = some (at_,e)) :
    ∃ pre post, es = pre ++ e :: post ∧ at_ = pos + (encode pre).length ∧ hit at_ e ∧ locate hit pos pre = none := by
  induction es generalizing pos with
  | nil => cases found
  | cons x es ih =>
    cases taken : hit pos x with
    | true =>
      simp only [locate,taken,if_true,some.injEq,Prod.mk.injEq] at found
      obtain ⟨rfl,rfl⟩ := found
      exact ⟨[],es,rfl,rfl,taken,rfl⟩
    | false =>
      simp only [locate,taken,false_eq_true,if_false] at found
      obtain ⟨pre,post,split,placed,here,before⟩ := ih found
      refine ⟨x :: pre,post,by rw [split]; rfl,?_,here,?_⟩
      · rw [placed,encode_size,Nat.add_assoc]
      · simp only [locate,taken,false_eq_true,if_false,before]

theorem locate_shift (hit hit' : Nat → Element → Bool) (start pos : Nat) (es : List Element)
    (agree : ∀ pre e post, es = pre ++ e :: post → hit (start + (pos + (encode pre).length)) e = hit' (pos + (encode pre).length) e) :
    locate hit (start+pos) es = (locate hit' pos es).map fun f => (start+f.1,f.2) := by
  induction es generalizing pos with
  | nil => rfl
  | cons x es ih =>
    have first : hit (start+pos) x = hit' pos x := agree [] x es rfl
    cases taken : hit' pos x with
    | true => simp only [locate,first,taken,if_true,map_some]
    | false =>
      simp only [locate,first,taken,false_eq_true,if_false,Nat.add_assoc]
      apply ih
      intro pre e post split
      have there := agree (x :: pre) e post (by rw [split]; rfl)
      rwa [encode_size,←Nat.add_assoc pos] at there

theorem locate_same
    (more : ∀ pre e post, es = pre ++ e :: post → hit (pos + (encode pre).length) e → hit' (pos + (encode pre).length) e) :
    locate hit' pos es = locate hit pos es ↔
      ∀ pre e post, es = pre ++ e :: post → locate hit pos pre = none → hit (pos + (encode pre).length) e = false →
        hit' (pos + (encode pre).length) e = false := by
  induction es generalizing pos with
  | nil => simp [locate]
  | cons x es ih =>
    cases taken : hit pos x with
    | true =>
      have also : hit' pos x := more [] x es rfl taken
      simp only [locate,taken,also,if_true,true_iff]
      intro pre e post split before miss
      cases pre with
      | nil =>
        cases split
        rw [encode_nil,length_nil,Nat.add_zero,taken] at miss
        cases miss
      | cons y pre =>
        cases split
        simp [locate,taken] at before
    | false =>
      cases wrong : hit' pos x with
      | true =>
        simp only [locate,taken,wrong,if_true,false_eq_true,if_false]
        constructor
        · intro same
          obtain ⟨pre,post,_,placed,_⟩ := locate_some same.symm
          unfold Element.size at placed
          omega
        · intro all
          have first := all [] x es rfl rfl taken
          rw [encode_nil,length_nil,Nat.add_zero,wrong] at first
          cases first
      | false =>
        have later : ∀ pre e post, es = pre ++ e :: post →
            hit (pos + x.size + (encode pre).length) e → hit' (pos + x.size + (encode pre).length) e := by
          intro pre e post split here
          have there := more (x :: pre) e post (by rw [split]; rfl)
          rw [encode_size,←Nat.add_assoc] at there
          exact there here
        simp only [locate,taken,wrong,false_eq_true,if_false,ih later]
        constructor
        · intro all pre e post split before miss
          cases pre with
          | nil =>
            cases split
            exact wrong
          | cons y pre =>
            cases split
            simp only [locate,taken,false_eq_true,if_false] at before
            rw [encode_size,←Nat.add_assoc] at miss ⊢
            exact all pre e post rfl before miss
        · intro all pre e post split before miss
          have there := all (x :: pre) e post (by rw [split]; rfl) (by simp only [locate,taken,false_eq_true,if_false,before])
            (by rw [encode_size,←Nat.add_assoc]; exact miss)
          rwa [encode_size,←Nat.add_assoc] at there

theorem split_unique (same : pre ++ e :: post = pre' ++ e' :: post')
    (sizes : (encode pre).length = (encode pre').length) : e = e' := by
  induction pre generalizing pre' with
  | nil =>
    cases pre' with
    | nil => exact (cons.inj same).1
    | cons y pre' =>
      have some_ := size_pos y
      rw [encode_size,encode_nil,length_nil] at sizes
      omega
  | cons x pre ih =>
    cases pre' with
    | nil =>
      have some_ := size_pos x
      rw [encode_size,encode_nil,length_nil] at sizes
      omega
    | cons y pre' =>
      obtain ⟨rfl,rest⟩ := cons.inj same
      rw [encode_size,encode_size] at sizes
      exact ih rest (by omega)

theorem first_unique (kind : Element → Prop)
    (same : pre ++ e :: post = pre' ++ e' :: post') (before : ∀ x ∈ pre, ¬ kind x) (here : kind e)
    (before' : ∀ x ∈ pre', ¬ kind x) (here' : kind e') : pre = pre' ∧ e = e' ∧ post = post' := by
  induction pre generalizing pre' with
  | nil =>
    cases pre' with
    | nil => exact ⟨rfl,cons.inj same⟩
    | cons y pre' =>
      obtain ⟨rfl,_⟩ := cons.inj same
      exact absurd here (before' e (mem_cons_self ..))
  | cons x pre ih =>
    cases pre' with
    | nil =>
      obtain ⟨rfl,_⟩ := cons.inj same
      exact absurd here' (before x (mem_cons_self ..))
    | cons y pre' =>
      obtain ⟨rfl,rest⟩ := cons.inj same
      obtain ⟨rfl,others⟩ := ih rest (fun z member => before z (mem_cons_of_mem _ member))
        (fun z member => before' z (mem_cons_of_mem _ member))
      exact ⟨rfl,others⟩

theorem locate_place {β : Type} (seen : Nat × Element → Nat × β) (places : ∀ f, (seen f).1 = f.1) :
    (locate hit pos es).map seen = (locate hit' pos es).map seen ↔ locate hit pos es = locate hit' pos es := by
  constructor
  · intro same
    cases one : locate hit pos es with
    | none =>
      rw [one] at same
      exact (map_eq_none_iff.mp same.symm).symm
    | some f =>
      cases two : locate hit' pos es with
      | none =>
        rw [one,two] at same
        cases same
      | some f' =>
        rw [one,two,map_some,map_some,some.injEq] at same
        have place := congrArg Prod.fst same
        rw [places,places] at place
        obtain ⟨pre,post,split,placed,_⟩ := locate_some one
        obtain ⟨pre',post',split',placed',_⟩ := locate_some two
        have element := split_unique (split.symm.trans split') (by omega)
        exact congrArg some (Prod.ext place element)
  · intro same
    rw [same]
end Locate

end Rtl8852au.Elements
