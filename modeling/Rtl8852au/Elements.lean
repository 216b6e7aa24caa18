import Rtl8852au.Words

namespace Rtl8852au.Elements
open Words List

@[ext] structure Element where
  id : U8
  body : List U8
  short : body.length < 256
  deriving DecidableEq

def Element.bytes (e : Element) : List U8 := e.id :: BitVec.ofNat 8 e.body.length :: e.body
def encode (es : List Element) : List U8 := es.flatMap Element.bytes

-- Complete elements and then `tail`.
def Ends (tail bytes : List U8) : Prop := ∃ es, bytes = encode es ++ tail
def Complete (bytes : List U8) : Prop := Ends [] bytes
@[simp] theorem encode_nil : encode [] = [] := rfl
@[simp] theorem encode_cons (e : Element) (es : List Element) : encode (e :: es) = e.bytes ++ encode es := rfl
@[simp] theorem bytes_length (e : Element) : e.bytes.length = e.body.length + 2 := rfl

theorem length_byte (e : Element) : (BitVec.ofNat 8 e.body.length).toNat = e.body.length := by
  have bound := e.short
  simp only [BitVec.toNat_ofNat]
  omega

theorem ends_cons (tail : List U8) (id len : U8) (rest : List U8) :
    Ends tail (id :: len :: rest) ↔ id :: len :: rest = tail ∨ len.toNat ≤ rest.length ∧ Ends tail (rest.drop len.toNat) := by
  constructor
  · intro ⟨es,same⟩
    cases es with
    | nil => exact .inl same
    | cons e es =>
      right
      simp only [encode_cons,Element.bytes,cons_append,append_assoc,cons.injEq] at same
      obtain ⟨_,rfl,rfl⟩ := same
      rw [length_byte]
      refine ⟨?_,es,?_⟩
      · simp only [length_append]
        omega
      · rw [drop_left]
  · rintro (same | ⟨fits,es,same⟩)
    · exact ⟨[],same⟩
    · have bound := len.isLt
      have size : (rest.take len.toNat).length = len.toNat := by
        rw [length_take]
        omega
      refine ⟨⟨id,rest.take len.toNat,by omega⟩ :: es,?_⟩
      simp only [encode_cons,Element.bytes,cons_append,append_assoc,size,BitVec.ofNat_toNat,BitVec.setWidth_eq,←same,
        take_append_drop]

theorem complete_nil : Complete [] := ⟨[],rfl⟩

theorem complete_single (b : U8) : ¬ Complete [b] := by
  intro ⟨es,same⟩
  cases es with
  | nil => cases same
  | cons e es =>
    have sizes := congrArg length same
    simp at sizes
    omega

theorem complete_cons (id len : U8) (rest : List U8) :
    Complete (id :: len :: rest) ↔ len.toNat ≤ rest.length ∧ Complete (rest.drop len.toNat) := by
  unfold Complete
  rw [ends_cons]
  simp

theorem encode_append (front back : List Element) : encode (front ++ back) = encode front ++ encode back := by simp [encode]

theorem encode_injective {one two : List Element} (same : encode one = encode two) : one = two := by
  induction one generalizing two with
  | nil =>
    cases two with
    | nil => rfl
    | cons e es => cases same
  | cons e one ih =>
    cases two with
    | nil => cases same
    | cons e' two =>
      simp only [encode_cons,Element.bytes,cons_append,cons.injEq] at same
      obtain ⟨sameId,sameLen,rest⟩ := same
      have sizes := congrArg BitVec.toNat sameLen
      rw [length_byte,length_byte] at sizes
      obtain ⟨sameBody,others⟩ := append_inj rest sizes
      rw [ih others,Element.ext sameId sameBody]

end Rtl8852au.Elements
