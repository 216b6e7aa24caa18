import Rtl8852au.ElemEdit

namespace Rtl8852au.Ie
open Words Scan Attr Elements Memory Option Nat Prod

theorem memcmp_iff (ie : Bytes) (pos : Nat) (oui : List U8) : memcmp ie pos oui ↔ bytesAt ie pos oui.length = oui :=
  decide_eq_true_iff

section Held
variable {ie : Bytes} {pos : Nat} {e : Element} {es : List Element}

theorem held_size (holds : Holds ie pos (e :: es)) : size ie pos = e.body.length := holds.length

theorem held_next (holds : Holds ie pos (e :: es)) : size ie pos + 2 = e.size := by
  rw [held_size holds]
  rfl
end Held

def hasIndex (index : Int) (_ : Nat) (e : Element) : Bool := e.id.toNat = index
def ieFound (f : Nat × Element) : Nat × Nat := (f.1,f.2.body.length)

section GetIe
variable {buf : Bytes} {start i : Nat} {index limit : Int} {e : Element} {es : List Element}

theorem ieTurn_hit (holds : Holds buf (start+i) (e :: es)) (hit : hasIndex index (start+i) e) :
    (ieTurn buf start index limit i).next = .done (some (ieFound (start+i,e))) := by
  unfold hasIndex at hit
  unfold ieTurn
  dsimp only
  rw [holds.id,if_pos (of_decide_eq_true hit),held_size holds]
  rfl

theorem ieTurn_miss (limit : Int) (holds : Holds buf (start+i) (e :: es)) (miss : hasIndex index (start+i) e = false) :
    (ieTurn buf start index limit i).next = if limit ≤ (i + e.size : Nat) then .done none else .again (i+e.size) := by
  unfold hasIndex at miss
  unfold ieTurn
  dsimp only
  rw [holds.id,if_neg (of_decide_eq_false miss),held_next holds]
  split <;> rfl

theorem ieTurn_walk (holds : Holds buf (start+i) (e :: es)) (ends : limit = (i + (encode (e :: es)).length : Nat))
    (enough : es.length ≤ fuel) : (follow (ieTurn buf start index limit) fuel (ieTurn buf start index limit i)).map snd =
      some ((locate (hasIndex index) (start+i) (e :: es)).map ieFound) := by
  induction es generalizing i e fuel with
  | nil =>
    cases hit : hasIndex index (start+i) e with
    | true =>
      rw [result_done (ieTurn_hit holds hit)]
      simp only [locate,hit,if_true,map_some]
    | false =>
      have next := ieTurn_miss limit holds hit
      rw [if_pos (by rw [ends,encode_size]; simp)] at next
      rw [result_done next]
      simp only [locate,hit,Bool.false_eq_true,if_false,map_none]
  | cons e' es ih =>
    cases hit : hasIndex index (start+i) e with
    | true =>
      rw [result_done (ieTurn_hit holds hit)]
      simp only [locate,hit,if_true,map_some]
    | false =>
      have more := size_pos e'
      have next := ieTurn_miss limit holds hit
      rw [encode_size,encode_size] at ends
      rw [if_neg (by omega)] at next
      cases fuel with
      | zero => simp at enough
      | succ fuel =>
        have rest := holds.tail
        rw [add_assoc] at rest
        rw [result_again next,ih rest (by rw [ends,encode_size]; omega) (by simpa using enough)]
        simp only [locate,hit,Bool.false_eq_true,if_false,add_assoc]

theorem rtwGetIeFrom_locates (index : Int) (holds : Holds buf start es) (enough : es.length ≤ fuel) :
    (rtwGetIeFrom buf start index ((encode es).length : Nat) fuel).map snd =
      some ((locate (hasIndex index) start es).map ieFound) := by
  unfold rtwGetIeFrom ieEntry
  cases es with
  | nil =>
    simp only [encode_nil,List.length_nil,locate,map_none]
    exact result_done rfl fuel
  | cons e es =>
    have size := size_pos e
    rw [if_neg (by rw [encode_size]; omega)]
    refine ieTurn_walk (i := 0) holds ?_ (by simp at enough; omega)
    rw [zero_add]
end GetIe

def atOffset (pos : Nat) : U32 := BitVec.ofNat 32 pos
def exHit (q : Query) (ie : Bytes) (pos : Nat) (_ : Element) : Bool := q.matches ie (atOffset pos)
def wholeFound (f : Nat × Element) : Nat × Nat := (f.1,f.2.size)

section GetIeEx
variable {q : Query} {ie : Bytes} {limit pos : Nat} {e : Element} {es : List Element}

theorem atOffset_toNat (small : pos < 2 ^ 32) : (atOffset pos).toNat = pos := mod_eq_of_lt small

theorem atOffset_succ (small : pos + 1 < 2 ^ 32) : (atOffset pos + 1).toNat = pos + 1 := by
  have one : BitVec.toNat (1 : U32) = 1 := rfl
  rw [BitVec.toNat_add,one,atOffset_toNat (by omega)]
  omega

theorem held_whole (holds : Holds ie pos (e :: es)) (fits : pos + (encode (e :: es)).length < 2 ^ 32) :
    whole ie (atOffset pos) = e.size ∧ goNext ie (atOffset pos) = atOffset (pos+e.size) := by
  have size := size_pos e
  have length := holds.length
  rw [encode_size] at fits
  have here : sizeAt ie (atOffset pos) = ie (pos+1) := by unfold sizeAt; rw [atOffset_succ (by omega)]
  refine ⟨?_,?_⟩
  · unfold whole Element.size
    rw [here,length]
  · apply BitVec.eq_of_toNat_eq
    have two : BitVec.toNat (2 : U32) = 2 := rfl
    have bound := e.short
    unfold goNext
    rw [here,BitVec.toNat_add,BitVec.toNat_add,BitVec.toNat_setWidth,length,two,atOffset_toNat (by omega),atOffset_toNat (by omega)]
    unfold Element.size at fits ⊢
    omega

theorem exTurn_walk (holds : Holds ie pos es) (ends : limit = pos + (encode es).length) (fits : limit < 2 ^ 32)
    (enough : es.length ≤ fuel) :
    (follow (exTurn q ie (atOffset limit)) fuel (exTurn q ie (atOffset limit) (atOffset pos))).map snd =
      some ((locate (exHit q ie) pos es).map wholeFound) := by
  induction es generalizing pos fuel with
  | nil =>
    have past : ¬ atOffset pos < atOffset limit := by
      rw [ends]
      exact BitVec.lt_irrefl _
    rw [exTurn_past past]
    exact result_done rfl fuel
  | cons e es ih =>
    have size := size_pos e
    have more : atOffset pos < atOffset limit := by
      rw [BitVec.lt_def,atOffset_toNat fits,atOffset_toNat (by omega)]
      rw [encode_size] at ends
      omega
    obtain ⟨length,next⟩ := held_whole holds (by omega)
    unfold exTurn
    rw [if_pos more]
    cases hit : exHit q ie pos e with
    | true =>
      have matched : q.matches ie (atOffset pos) := hit
      rw [if_pos matched,result_done rfl]
      simp only [locate,hit,if_true,map_some,length,wholeFound]
      rw [atOffset_toNat (by omega)]
    | false =>
      have other : ¬ q.matches ie (atOffset pos) := by rw [show q.matches ie (atOffset pos) = false from hit]; simp
      rw [if_neg other]
      cases fuel with
      | zero => simp at enough
      | succ fuel =>
        rw [result_again rfl,next]
        rw [encode_size] at ends
        refine (ih holds.tail (by omega) (by simpa using enough)).trans ?_
        simp only [locate,hit,Bool.false_eq_true,if_false]

theorem rtwGetIeEx_locates (holds : Holds ie 0 es) (fits : (encode es).length < 2 ^ 32) (enough : es.length ≤ fuel) :
    (rtwGetIeEx q ie (atOffset (encode es).length) fuel).map snd = some ((locate (exHit q ie) 0 es).map wholeFound) := by
  unfold rtwGetIeEx
  rw [exEntry_first]
  exact exTurn_walk holds (zero_add _).symm fits enough
end GetIeEx

def vendorHit (oui : List U8) (ie : Bytes) (limit pos : Nat) (_ : Element) : Bool :=
  decide (pos+5 < limit) && decide (pos+5 < maxIeSz) && decide (ie pos = vendorSpecific) && memcmp ie (pos+2) oui

section GetVendor
variable {oui : List U8} {ie : Bytes} {limit pos : Nat} {e : Element} {es : List Element}

theorem vendorHit_iff : vendorHit oui ie limit pos e ↔ pos+5 < limit ∧ pos+5 < maxIeSz ∧ IsVendor oui ie pos := by
  simp only [vendorHit,IsVendor,Bool.and_eq_true,decide_eq_true_eq,and_assoc]

theorem locate_far (far : limit ≤ pos+5 ∨ maxIeSz ≤ pos+5) : locate (vendorHit oui ie limit) pos es = none := by
  induction es generalizing pos with
  | nil => rfl
  | cons e es ih =>
    have miss : vendorHit oui ie limit pos e = false := by
      cases hit : vendorHit oui ie limit pos e with
      | false => rfl
      | true =>
        obtain ⟨within,near,_⟩ := vendorHit_iff.mp hit
        omega
    simp only [locate,miss,Bool.false_eq_true,if_false]
    exact ih (by omega)

theorem vendorTurn_walk (short : oui.length = 4) (copies : Bool) (holds : Holds ie pos es) (ends : limit = pos + (encode es).length) (enough : es.length ≤ fuel) :
    (follow (vendorTurn oui copies ie limit) fuel (vendorTurn oui copies ie limit pos)).map snd =
      some ((locate (vendorHit oui ie limit) pos es).map wholeFound) := by
  induction es generalizing pos fuel with
  | nil =>
    rw [encode_nil,List.length_nil] at ends
    rw [vendorTurn_past (by omega),result_done rfl]
    rfl
  | cons e es ih =>
    by_cases within : pos + 5 < limit
    · by_cases near : pos + 5 < maxIeSz
      · have next := held_next holds
        by_cases found : IsVendor oui ie pos
        · have hit : vendorHit oui ie limit pos e := vendorHit_iff.mpr ⟨within,near,found⟩
          rw [vendorTurn_found within near found,result_done rfl,next]
          simp only [locate,hit,if_true,map_some,wholeFound]
        · have miss : vendorHit oui ie limit pos e = false := by
            cases hit : vendorHit oui ie limit pos e with
            | false => rfl
            | true => exact absurd (vendorHit_iff.mp hit).2.2 found
          obtain ⟨reads,turn,_⟩ := vendorTurn_other copies short within near found
          cases fuel with
          | zero => simp at enough
          | succ fuel =>
            rw [encode_size] at ends
            rw [turn,result_again rfl,next,ih holds.tail (by omega) (by simpa using enough)]
            simp only [locate,miss,Bool.false_eq_true,if_false]
      · rw [vendorTurn_far within (by omega),result_done rfl,locate_far (.inr (by omega))]
        rfl
    · rw [vendorTurn_past (by omega),result_done rfl,locate_far (.inl (by omega))]
      rfl

theorem vendor_locates (short : oui.length = 4) (copies : Bool) (holds : Holds ie 0 es) (enough : es.length ≤ fuel) :
    (follow (vendorTurn oui copies ie (encode es).length) fuel (vendorEntry oui copies ie (encode es).length)).map snd =
      some ((locate (vendorHit oui ie (encode es).length) 0 es).map wholeFound) := by
  rw [vendorEntry_first]
  exact vendorTurn_walk short copies holds (zero_add _).symm enough
end GetVendor

end Rtl8852au.Ie
