import Rtl8852au.ElemSearch
import Mathlib.Data.BitVec

namespace Rtl8852au.Ie
open Words Scan Attr Relation Nat

instance finite_word (w : Nat) : Finite (BitVec w) := Finite.of_injective _ BitVec.toFin_injective

def Within (extra limit : Nat) (found : Found) : Prop := ∀ pos len, found = some (pos,len) → pos + extra + len ≤ limit

theorem within_none : Within extra limit none := by
  intro pos len same
  cases same

theorem within_some : Within extra limit (some (pos,len)) ↔ pos + extra + len ≤ limit := by
  constructor
  · intro within
    exact within pos len rfl
  · intro small pos' len' same
    cases same
    exact small

theorem sound_none {step : σ → Turn σ Found} :
    Sound step limit (Within extra limit) ⟨reads,.done none⟩ ↔ Inside limit reads := by
  constructor
  · intro sound
    exact sound.inside
  · intro inside
    refine ⟨inside,?_⟩
    intro r last
    cases last
    exact within_none

theorem sound_some {step : σ → Turn σ Found} :
    Sound step limit (Within extra limit) ⟨reads,.done (some (pos,len))⟩ ↔ Inside limit reads ∧ pos + extra + len ≤ limit := by
  constructor
  · intro sound
    exact ⟨sound.inside,within_some.mp (sound.fine _ rfl)⟩
  · intro ⟨inside,small⟩
    refine ⟨inside,?_⟩
    intro r last
    cases last
    exact within_some.mpr small

theorem sound_again {step : σ → Turn σ ρ} : Sound step limit good ⟨reads,.again s⟩ ↔ Inside limit reads := by
  constructor
  · intro sound
    exact sound.inside
  · intro inside
    exact ⟨inside,fun r last => nomatch last⟩

section GetIe
variable {ie : Bytes} {index limit : Int}

def IeGoes (ie : Bytes) (index limit : Int) (pos pos' : Nat) : Prop :=
  (ie pos).toNat ≠ index ∧ pos' = pos + (size ie pos + 2) ∧ pos' < limit

def IeFine (ie : Bytes) (index limit : Int) : Prop :=
  1 ≤ limit → ∀ pos, ReflTransGen (IeGoes ie index limit) 0 pos →
    pos+1 < limit ∧ ((ie pos).toNat = index → pos + 2 + size ie pos ≤ limit)

theorem ieTurn_goes (pos pos' : Nat) : Goes (ieTurn ie 0 index limit) pos pos' ↔ IeGoes ie index limit pos pos' := by
  unfold Goes ieTurn IeGoes
  simp only [zero_add]
  split
  · simp_all
  · split
    · simp only [reduceCtorEq,false_iff]
      omega
    · simp only [Next.again.injEq]
      omega

theorem ieTurn_sound {pos : Nat} (more : pos < limit) :
    Sound (ieTurn ie 0 index limit) limit.toNat (Within 2 limit.toNat) (ieTurn ie 0 index limit pos) ↔
      pos+1 < limit ∧ ((ie pos).toNat = index → pos + 2 + size ie pos ≤ limit) := by
  unfold ieTurn
  simp only [zero_add]
  split
  · rw [sound_some,inside_span]
    omega
  · split
    · rw [sound_none,inside_span]
      omega
    · rw [sound_again,inside_span]
      omega

theorem ieGoes_below (some_ : 1 ≤ limit) (path : ReflTransGen (IeGoes ie index limit) 0 pos) : pos < limit := by
  cases path with
  | refl => omega
  | tail _ goes => exact goes.2.2

theorem rtwGetIe_bounded (ie : Bytes) (index limit : Int) :
    Bounded 2 limit.toNat (rtwGetIe ie index limit) ↔ IeFine ie index limit := by
  change Safe (ieTurn ie 0 index limit) limit.toNat (Within 2 limit.toNat) (ieEntry ie 0 index limit) ↔ _
  unfold ieEntry IeFine
  by_cases empty : limit < 1
  · rw [if_pos empty,safe_stop]
    exact ⟨fun _ some_ => by omega,fun _ => ⟨inside_nil,within_none⟩⟩
  · have some_ : 1 ≤ limit := by omega
    have nearer : ∀ pos pos', IeGoes ie index limit pos pos' → limit.toNat - pos' < limit.toNat - pos := by
      intro pos pos' ⟨_,_,_⟩
      omega
    rw [if_neg empty,safe_iff_sound (IeGoes ie index limit) ieTurn_goes (fun pos => limit.toNat - pos) nearer]
    constructor
    · intro sound _ pos path
      exact (ieTurn_sound (ieGoes_below some_ path)).mp (sound pos path)
    · intro fine pos path
      exact (ieTurn_sound (ieGoes_below some_ path)).mpr (fine some_ pos path)
end GetIe
section GetIeEx
variable {q : Query} {ie : Bytes} {inLen : U32}

def ExGoes (q : Query) (ie : Bytes) (inLen cnt cnt' : U32) : Prop := cnt < inLen ∧ q.matches ie cnt = false ∧ cnt' = goNext ie cnt

-- The OUI is compared inside the length, an element that matches lies inside,
-- the length byte of another one does, and no offset is come to twice (the
-- counter only wraps where the length is nearly 2^32).
def ExFine (q : Query) (ie : Bytes) (inLen : U32) : Prop :=
  ∀ cnt, ReflTransGen (ExGoes q ie inLen) 0 cnt → cnt < inLen →
    (q.eid = ie cnt.toNat → ∀ oui, q.oui = some oui → oui = [] ∨ (cnt+2).toNat + oui.length ≤ inLen.toNat) ∧
    (q.matches ie cnt = true → cnt.toNat + whole ie cnt ≤ inLen.toNat) ∧
    (q.matches ie cnt = false → cnt.toNat+1 < inLen.toNat ∧ ¬ TransGen (ExGoes q ie inLen) cnt cnt)

theorem exTurn_goes (cnt cnt' : U32) : Goes (exTurn q ie inLen) cnt cnt' ↔ ExGoes q ie inLen cnt cnt' := by
  unfold Goes exTurn ExGoes
  by_cases more : cnt < inLen
  · cases matched : q.matches ie cnt with
    | true => simp [more]
    | false => simp [more,eq_comm]
  · simp [more]

theorem below_succ (more : cnt < inLen) : (cnt+1).toNat = cnt.toNat + 1 := by
  have bound := inLen.isLt
  rw [BitVec.lt_def] at more
  have one : BitVec.toNat (1 : U32) = 1 := rfl
  rw [BitVec.toNat_add,one]
  omega

theorem ouiReads_inside :
    Inside inLen.toNat (q.ouiReads cnt) ↔ ∀ oui, q.oui = some oui → oui = [] ∨ (cnt+2).toNat + oui.length ≤ inLen.toNat := by
  unfold Query.ouiReads
  cases q.oui with
  | none => simp [inside_nil]
  | some oui => simp [inside_span]

theorem testReads_inside (q : Query) (ie : Bytes) (more : cnt < inLen) : Inside inLen.toNat (q.testReads ie cnt) ↔
      (q.eid = ie cnt.toNat → ∀ oui, q.oui = some oui → oui = [] ∨ (cnt+2).toNat + oui.length ≤ inLen.toNat) := by
  have first : Inside inLen.toNat (span cnt.toNat 1) := inside_span.mpr (.inr more)
  unfold Query.testReads
  rw [inside_append]
  split
  · rename_i same
    rw [ouiReads_inside]
    exact ⟨fun both _ => both.2,fun compared => ⟨first,compared same⟩⟩
  · rename_i other
    exact ⟨fun _ same => absurd same other,fun _ => ⟨first,inside_nil⟩⟩

theorem takeReads_inside (more : cnt < inLen) (within : cnt.toNat + whole ie cnt ≤ inLen.toNat) :
    Inside inLen.toNat (q.takeReads ie cnt) := by
  have next := below_succ more
  unfold Query.takeReads copied
  rw [inside_append]
  constructor
  · split
    · exact inside_span.mpr (.inr (by unfold whole at within; omega))
    · exact inside_nil
  · split
    · exact inside_span.mpr (.inr within)
    · exact inside_nil

theorem exTurn_sound (more : cnt < inLen) :
    Sound (exTurn q ie inLen) inLen.toNat (Within 0 inLen.toNat) (exTurn q ie inLen cnt) ↔
      (q.eid = ie cnt.toNat → ∀ oui, q.oui = some oui → oui = [] ∨ (cnt+2).toNat + oui.length ≤ inLen.toNat) ∧
      (q.matches ie cnt → cnt.toNat + whole ie cnt ≤ inLen.toNat) ∧
      (q.matches ie cnt = false → cnt.toNat+1 < inLen.toNat) := by
  have compared := testReads_inside q ie more
  unfold exTurn
  rw [if_pos more]
  cases matched : q.matches ie cnt with
  | true =>
    rw [if_pos rfl,sound_some,inside_append,compared,add_zero]
    constructor
    · intro ⟨⟨test,_⟩,within⟩
      exact ⟨test,fun _ => within,nofun⟩
    · intro ⟨test,within,_⟩
      exact ⟨⟨test,takeReads_inside more (within rfl)⟩,within rfl⟩
  | false =>
    rw [if_neg (by simp),sound_again,inside_append,compared,inside_span,below_succ more]
    constructor
    · intro ⟨test,length⟩
      exact ⟨test,nofun,fun _ => by omega⟩
    · intro ⟨test,_,length⟩
      exact ⟨test,.inr (length rfl)⟩

theorem exTurn_past (past : ¬ cnt < inLen) : exTurn q ie inLen cnt = ⟨[],.done none⟩ := if_neg past

theorem exEntry_first : exEntry q ie inLen = exTurn q ie inLen 0 := by
  unfold exEntry
  split
  · rename_i empty
    exact (exTurn_past (BitVec.not_lt.mpr empty)).symm
  · rfl

theorem exGoes_below (returns : TransGen (ExGoes q ie inLen) cnt cnt') : cnt < inLen ∧ q.matches ie cnt = false := by
  obtain ⟨next,goes,_⟩ := TransGen.head'_iff.mp returns
  exact ⟨goes.1,goes.2.1⟩

theorem rtwGetIeEx_bounded (q : Query) (ie : Bytes) (inLen : U32) :
    Bounded 0 inLen.toNat (rtwGetIeEx q ie inLen) ↔ ExFine q ie inLen := by
  change Safe (exTurn q ie inLen) inLen.toNat (Within 0 inLen.toNat) (exEntry q ie inLen) ↔ _
  rw [exEntry_first,safe_iff_fresh (ExGoes q ie inLen) exTurn_goes]
  constructor
  · intro all cnt path more
    obtain ⟨sound,fresh⟩ := all cnt path
    obtain ⟨test,within,length⟩ := (exTurn_sound more).mp sound
    exact ⟨test,within,fun other => ⟨length other,fresh⟩⟩
  · intro fine cnt path
    by_cases more : cnt < inLen
    · obtain ⟨test,within,length⟩ := fine cnt path more
      refine ⟨(exTurn_sound more).mpr ⟨test,within,fun other => (length other).1⟩,?_⟩
      intro returns
      exact (length (exGoes_below returns).2).2 returns
    · refine ⟨?_,fun returns => more (exGoes_below returns).1⟩
      rw [exTurn_past more]
      exact sound_none.mpr inside_nil
end GetIeEx
section Wpa
variable {ie : Bytes} {limit : Int}

def IsWpa (ie : Bytes) (pos : Nat) : Prop := (ie pos).toNat = wpaIeId ∧ memcmp ie (pos+2) wpaOui = true ∧ getLe16 ie (pos+6) = 1

instance (ie : Bytes) (pos : Nat) : Decidable (IsWpa ie pos) := inferInstanceAs (Decidable (_ ∧ _ ∧ _))

section
variable (ie : Bytes) (limit : Int)

def WpaGoes (pos pos' : Nat) : Prop := ¬ IsWpa ie pos ∧ pos' = pos + (size ie pos + 2) ∧ pos' < limit

def WpaFine : Prop :=
  1 ≤ limit → ∀ pos, ReflTransGen (WpaGoes ie limit) 0 pos → pos+1 < limit ∧
    ((ie pos).toNat = wpaIeId → pos+6 ≤ limit ∧ (memcmp ie (pos+2) wpaOui = true → pos+8 ≤ limit)) ∧
    (IsWpa ie pos → pos + 2 + size ie pos ≤ limit)

def WpaAt.at_ (s : WpaAt) : Nat := s.pbuf + s.i

-- The two loops as one over the offset.
def wpaNext (pos : Nat) (reads : List Nat) : Turn Nat Found :=
  if limit ≤ (pos + (size ie pos + 2) : Nat) then ⟨reads,.done none⟩ else ⟨reads,.again (pos + (size ie pos + 2))⟩

def wpaFlat (pos : Nat) : Turn Nat Found :=
  if (ie pos).toNat = wpaIeId then
    let reads := span pos 2 ++ span (pos+2) 4
    if memcmp ie (pos+2) wpaOui then
      if getLe16 ie (pos+6) = 1 then ⟨reads ++ span (pos+6) 2 ++ span (pos+1) 1,.done (some (pos,size ie pos))⟩
      else wpaNext ie limit pos (reads ++ span (pos+6) 2)
    else wpaNext ie limit pos reads
  else wpaNext ie limit pos (span pos 2)
end

theorem checkNextIe_flat (reads : List Nat) (pos : Nat) :
    (checkNextIe limit pos (size ie pos) reads).map WpaAt.at_ id = wpaNext ie limit pos reads := by
  unfold checkNextIe wpaNext
  split
  · rw [if_pos (by omega)]
    rfl
  · rw [if_neg (by omega)]
    simp only [Turn.map,Next.map,WpaAt.at_,Turn.mk.injEq,Next.again.injEq,true_and]
    omega

theorem wpaTurn_at (pbuf i : Nat) : wpaFlat ie limit (pbuf+i) = (wpaTurn ie limit ⟨pbuf,i⟩).map WpaAt.at_ id := by
  unfold wpaTurn ieTurn wpaFlat
  dsimp only
  by_cases vendor : ((ie (pbuf+i)).toNat : Int) = wpaIeId
  · simp only [vendor,if_true]
    by_cases oui : memcmp ie (pbuf + i + 2) wpaOui
    · by_cases version : getLe16 ie (pbuf + i + 6) = 1
      · simp only [oui,version,if_true]
        rfl
      · simp only [oui,version,if_true,if_false]
        exact (checkNextIe_flat _ _).symm
    · rw [if_neg oui,if_neg oui]
      exact (checkNextIe_flat _ _).symm
  · simp only [vendor,if_false,wpaNext]
    split
    · rename_i last
      simp only [show limit - pbuf ≤ (i + (size ie (pbuf+i) + 2) : Nat) by omega,if_true]
      rfl
    · rename_i last
      simp only [show ¬ limit - pbuf ≤ (i + (size ie (pbuf+i) + 2) : Nat) by omega,if_false]
      simp only [Turn.map,Next.map,WpaAt.at_,Turn.mk.injEq,Next.again.injEq,true_and]
      omega

theorem wpaTurn_flat (s : WpaAt) : wpaFlat ie limit s.at_ = (wpaTurn ie limit s).map WpaAt.at_ id := wpaTurn_at s.pbuf s.i

theorem wpaNext_goes (pos pos' : Nat) (reads : List Nat) (other : ¬ IsWpa ie pos) :
    (wpaNext ie limit pos reads).next = .again pos' ↔ WpaGoes ie limit pos pos' := by
  unfold wpaNext WpaGoes
  split
  · simp only [reduceCtorEq,false_iff]
    omega
  · simp only [Next.again.injEq,other,not_false_eq_true,true_and]
    omega

theorem wpaFlat_goes (pos pos' : Nat) : Goes (wpaFlat ie limit) pos pos' ↔ WpaGoes ie limit pos pos' := by
  unfold Goes wpaFlat
  split
  · rename_i vendor
    dsimp only
    split
    · rename_i oui
      split
      · rename_i version
        have here : IsWpa ie pos := ⟨vendor,oui,version⟩
        simp [WpaGoes,here]
      · rename_i version
        exact wpaNext_goes pos pos' _ (fun here => version here.2.2)
    · rename_i oui
      exact wpaNext_goes pos pos' _ (fun here => oui here.2.1)
  · rename_i vendor
    exact wpaNext_goes pos pos' _ (fun here => vendor here.1)

theorem wpaNext_sound {step : Nat → Turn Nat Found} (pos : Nat) (reads : List Nat) :
    Sound step limit.toNat (Within 2 limit.toNat) (wpaNext ie limit pos reads) ↔ Inside limit.toNat reads := by
  unfold wpaNext
  split
  · exact sound_none
  · exact sound_again

theorem wpaFlat_sound {pos : Nat} (more : pos < limit) :
    Sound (wpaFlat ie limit) limit.toNat (Within 2 limit.toNat) (wpaFlat ie limit pos) ↔
      pos+1 < limit ∧
      ((ie pos).toNat = wpaIeId → pos+6 ≤ limit ∧ (memcmp ie (pos+2) wpaOui → pos+8 ≤ limit)) ∧
      (IsWpa ie pos → pos + 2 + size ie pos ≤ limit) := by
  unfold wpaFlat IsWpa
  split
  · rename_i vendor
    dsimp only
    split
    · rename_i oui
      split
      · rename_i version
        simp only [vendor,oui,version,sound_some,inside_append,inside_span,true_implies,and_self]
        omega
      · rename_i version
        simp only [vendor,oui,version,wpaNext_sound,inside_append,inside_span,true_implies,and_false,false_implies,and_true]
        omega
    · rename_i oui
      simp only [vendor,oui,wpaNext_sound,inside_append,inside_span,true_implies,and_false,false_and,false_implies,
        Bool.false_eq_true,and_true]
      omega
  · rename_i vendor
    simp only [vendor,wpaNext_sound,inside_span,false_and,false_implies,and_true]
    omega

theorem wpaGoes_below (some_ : 1 ≤ limit) (path : ReflTransGen (WpaGoes ie limit) 0 pos) : pos < limit := by
  cases path with
  | refl => omega
  | tail _ goes => exact goes.2.2

theorem rtwGetWpaIe_bounded (ie : Bytes) (limit : Int) : Bounded 2 limit.toNat (rtwGetWpaIe ie limit) ↔ WpaFine ie limit := by
  change Safe (wpaTurn ie limit) limit.toNat (Within 2 limit.toNat) (wpaEntry ie limit) ↔ _
  unfold wpaEntry WpaFine
  by_cases empty : limit < 1
  · rw [if_pos empty,safe_stop]
    exact ⟨fun _ some_ => by omega,fun _ => ⟨inside_nil,within_none⟩⟩
  · have some_ : 1 ≤ limit := by omega
    have nearer : ∀ pos pos', WpaGoes ie limit pos pos' → limit.toNat - pos' < limit.toNat - pos := by
      intro pos pos' ⟨_,_,_⟩
      omega
    have flat : Safe (wpaFlat ie limit) limit.toNat (Within 2 limit.toNat) (wpaFlat ie limit 0) ↔
        Safe (wpaTurn ie limit) limit.toNat (Within 2 limit.toNat) (wpaTurn ie limit ⟨0,0⟩) := by
      have first : wpaFlat ie limit 0 = (wpaTurn ie limit ⟨0,0⟩).map WpaAt.at_ id := wpaTurn_at 0 0
      rw [first]
      exact safe_map WpaAt.at_ id wpaTurn_flat
    rw [if_neg empty,←flat]
    rw [safe_iff_sound (WpaGoes ie limit) wpaFlat_goes (fun pos => limit.toNat - pos) nearer]
    constructor
    · intro sound _ pos path
      exact (wpaFlat_sound (wpaGoes_below some_ path)).mp (sound pos path)
    · intro fine pos path
      exact (wpaFlat_sound (wpaGoes_below some_ path)).mpr (fine some_ pos path)
end Wpa
section Vendor
variable {oui : List U8} {copies : Bool} {ie : Bytes} {inLen : Nat}

def IsVendor (oui : List U8) (ie : Bytes) (cnt : Nat) : Prop := ie cnt = vendorSpecific ∧ memcmp ie (cnt+2) oui = true

def VendorGoes (oui : List U8) (ie : Bytes) (inLen cnt cnt' : Nat) : Prop :=
  cnt+5 < inLen ∧ cnt+5 < maxIeSz ∧ ¬ IsVendor oui ie cnt ∧ cnt' = cnt + (size ie cnt + 2)

def VendorFine (oui : List U8) (ie : Bytes) (inLen : Nat) : Prop :=
  ∀ cnt, ReflTransGen (VendorGoes oui ie inLen) 0 cnt → cnt+5 < inLen → cnt+5 < maxIeSz → IsVendor oui ie cnt →
    cnt + (size ie cnt + 2) ≤ inLen

theorem vendorTurn_past (past : inLen ≤ cnt+5) : vendorTurn oui copies ie inLen cnt = ⟨[],.done none⟩ := if_neg (by omega)

theorem vendorTurn_far (more : cnt + 5 < inLen) (far : maxIeSz ≤ cnt+5) :
    vendorTurn oui copies ie inLen cnt = ⟨span cnt 1,.done none⟩ := by
  unfold vendorTurn
  rw [if_pos (by omega),if_pos (by omega)]

theorem vendorTurn_found (more : cnt + 5 < inLen) (near : cnt + 5 < maxIeSz) (found : IsVendor oui ie cnt) :
    vendorTurn oui copies ie inLen cnt =
      ⟨span cnt 1 ++ span (cnt+2) oui.length ++ span (cnt+1) 1 ++ copied copies cnt (size ie cnt + 2),
        .done (some (cnt,size ie cnt + 2))⟩ := by
  obtain ⟨vendor,matched⟩ := found
  unfold vendorTurn
  rw [if_pos (by omega),if_neg (by omega),if_neg (by simp [vendor])]
  simp only [if_pos matched]

theorem vendorTurn_other (copies : Bool) (short : oui.length = 4) (more : cnt + 5 < inLen) (near : cnt + 5 < maxIeSz)
    (other : ¬ IsVendor oui ie cnt) :
    ∃ reads, vendorTurn oui copies ie inLen cnt = ⟨reads,.again (cnt + (size ie cnt + 2))⟩ ∧ Inside inLen reads := by
  have first : Inside inLen (span cnt 1) := inside_span.mpr (.inr (by omega))
  have length : Inside inLen (span (cnt+1) 1) := inside_span.mpr (.inr (by omega))
  have compared : Inside inLen (span (cnt+2) oui.length) := inside_span.mpr (.inr (by omega))
  unfold vendorTurn
  rw [if_pos (by omega),if_neg (by omega)]
  by_cases vendor : ie cnt = vendorSpecific
  · have mismatch : ¬ memcmp ie (cnt+2) oui := fun matched => other ⟨vendor,matched⟩
    rw [if_neg (by simp [vendor])]
    simp only [if_neg mismatch]
    exact ⟨_,rfl,inside_append.mpr ⟨inside_append.mpr ⟨first,compared⟩,length⟩⟩
  · rw [if_pos vendor]
    exact ⟨_,rfl,inside_append.mpr ⟨first,length⟩⟩

theorem vendorTurn_goes (short : oui.length = 4) (cnt cnt' : Nat) :
    Goes (vendorTurn oui copies ie inLen) cnt cnt' ↔ VendorGoes oui ie inLen cnt cnt' := by
  unfold Goes VendorGoes
  by_cases more : cnt + 5 < inLen
  · by_cases near : cnt + 5 < maxIeSz
    · by_cases found : IsVendor oui ie cnt
      · rw [vendorTurn_found more near found]
        simp [found]
      · obtain ⟨reads,turn,_⟩ := vendorTurn_other copies short more near found
        rw [turn]
        simp [more,near,found,eq_comm]
    · rw [vendorTurn_far more (by omega)]
      simp [near]
  · rw [vendorTurn_past (by omega)]
    simp [more]

theorem vendorTurn_sound (short : oui.length = 4) (cnt : Nat) :
    Sound (vendorTurn oui copies ie inLen) inLen (Within 0 inLen) (vendorTurn oui copies ie inLen cnt) ↔
      (cnt+5 < inLen → cnt+5 < maxIeSz → IsVendor oui ie cnt → cnt + (size ie cnt + 2) ≤ inLen) := by
  by_cases more : cnt + 5 < inLen
  · have first : Inside inLen (span cnt 1) := inside_span.mpr (.inr (by omega))
    by_cases near : cnt + 5 < maxIeSz
    · by_cases found : IsVendor oui ie cnt
      · have length : Inside inLen (span (cnt+1) 1) := inside_span.mpr (.inr (by omega))
        have compared : Inside inLen (span (cnt+2) oui.length) := inside_span.mpr (.inr (by omega))
        rw [vendorTurn_found more near found,sound_some,add_zero]
        constructor
        · intro ⟨_,within⟩ _ _ _
          exact within
        · intro within
          have small := within more near found
          exact ⟨inside_append.mpr ⟨inside_append.mpr ⟨inside_append.mpr ⟨first,compared⟩,length⟩,copied_inside small⟩,small⟩
      · obtain ⟨reads,turn,inside⟩ := vendorTurn_other copies short more near found
        rw [turn,sound_again]
        exact ⟨fun _ _ _ here => absurd here found,fun _ => inside⟩
    · rw [vendorTurn_far more (by omega),sound_none]
      exact ⟨fun _ _ here => absurd here near,fun _ => first⟩
  · rw [vendorTurn_past (by omega),sound_none]
    exact ⟨fun _ here => absurd here more,fun _ => inside_nil⟩

theorem vendorEntry_first : vendorEntry oui copies ie inLen = vendorTurn oui copies ie inLen 0 := by
  unfold vendorEntry
  split
  · exact (vendorTurn_past (by omega)).symm
  · rfl

theorem vendor_bounded (short : oui.length = 4) :
    Safe (vendorTurn oui copies ie inLen) inLen (Within 0 inLen) (vendorEntry oui copies ie inLen) ↔ VendorFine oui ie inLen := by
  have nearer : ∀ cnt cnt', VendorGoes oui ie inLen cnt cnt' → inLen - cnt' < inLen - cnt := by
    intro cnt cnt' ⟨_,_,_,_⟩
    omega
  rw [vendorEntry_first,safe_iff_sound (VendorGoes oui ie inLen) (vendorTurn_goes short) (fun cnt => inLen - cnt) nearer]
  constructor
  · intro all cnt path
    exact (vendorTurn_sound short cnt).mp (all cnt path)
  · intro fine cnt path
    exact (vendorTurn_sound short cnt).mpr (fine cnt path)
end Vendor

theorem rtwGetWpsIe_bounded (ie : Bytes) (inLen : Nat) (copies : Bool) :
    Bounded 0 inLen (rtwGetWpsIe ie inLen copies) ↔ VendorFine wps.oui ie inLen := vendor_bounded rfl

theorem rtwGetP2pIe_bounded (ie : Bytes) (inLen : Int) (copies : Bool) :
    Bounded 0 inLen.toNat (rtwGetP2pIe ie inLen copies) ↔ VendorFine p2p.oui ie inLen.toNat := by
  by_cases negative : inLen < 0
  · have empty : inLen.toNat = 0 := by omega
    rw [empty]
    constructor
    · intro _ cnt _ more
      omega
    · intro _
      exact ⟨0,[],none,if_pos negative,inside_nil,within_none⟩
  · have call : rtwGetP2pIe ie inLen copies =
        fun fuel => follow (vendorTurn p2p.oui copies ie inLen.toNat) fuel (vendorEntry p2p.oui copies ie inLen.toNat) := by
      funext fuel
      exact if_neg negative
    rw [call]
    exact vendor_bounded rfl

section Sec
variable {ie : Bytes} {inLen : U32}

def SecGoes (ie : Bytes) (inLen cnt cnt' : U32) : Prop := cnt < inLen ∧ cnt' = goNext ie cnt

def SecTurnFine (ie : Bytes) (inLen cnt : U32) : Prop :=
  cnt.toNat+1 < inLen.toNat ∧
  (ie cnt.toNat = vendorSpecific → (cnt+2).toNat + 4 ≤ inLen.toNat ∧
    (memcmp ie (cnt+2).toNat wpaOui = true → cnt.toNat + whole ie cnt ≤ inLen.toNat)) ∧
  (ie cnt.toNat = rsnId → cnt.toNat + whole ie cnt ≤ inLen.toNat)

def SecFine (ie : Bytes) (inLen : U32) : Prop :=
  ∀ cnt, ReflTransGen (SecGoes ie inLen) secStart cnt → cnt < inLen →
    SecTurnFine ie inLen cnt ∧ ¬ TransGen (SecGoes ie inLen) cnt cnt

def secFlat (ie : Bytes) (inLen cnt : U32) : Turn U32 Unit := (secTurn ie inLen ⟨cnt,0,0⟩).map SecAt.cnt (fun _ => ())

theorem secTurn_flat (s : SecAt) : secFlat ie inLen s.cnt = (secTurn ie inLen s).map SecAt.cnt (fun _ => ()) := by
  unfold secFlat secTurn
  dsimp only
  split
  · split
    · split <;> rfl
    · split <;> rfl
  · rfl

theorem secFlat_goes (cnt cnt' : U32) : Goes (secFlat ie inLen) cnt cnt' ↔ SecGoes ie inLen cnt cnt' := by
  unfold Goes secFlat secTurn SecGoes
  by_cases more : cnt < inLen
  · have onward : ∀ next : U32, (Next.again next : Next U32 Unit) = .again cnt' ↔ cnt < inLen ∧ cnt' = next := by
      intro next
      simp [more,eq_comm]
    dsimp only
    rw [if_pos more]
    split
    · split <;> exact onward _
    · split <;> exact onward _
  · simp [more,Turn.map,Next.map]

theorem secFlat_sound (more : cnt < inLen) :
    Sound (secFlat ie inLen) inLen.toNat (fun _ => True) (secFlat ie inLen cnt) ↔ SecTurnFine ie inLen cnt := by
  have first : cnt.toNat < inLen.toNat := more
  have next := below_succ more
  have apart : vendorSpecific ≠ rsnId := by decide
  have tag : Inside inLen.toNat (span cnt.toNat 1 ++ span (cnt+1).toNat 1) ↔ cnt.toNat+1 < inLen.toNat := by
    rw [inside_append,inside_span,inside_span]
    omega
  have element : Inside inLen.toNat (span cnt.toNat (whole ie cnt)) ↔ cnt.toNat + whole ie cnt ≤ inLen.toNat := by
    have held : whole ie cnt ≠ 0 := succ_ne_zero _
    rw [inside_span]
    omega
  have oui : Inside inLen.toNat (span (cnt+2).toNat 4) ↔ (cnt+2).toNat + 4 ≤ inLen.toNat := by
    rw [inside_span]
    omega
  unfold secFlat secTurn SecTurnFine
  dsimp only
  rw [if_pos more]
  by_cases vendor : ie cnt.toNat = vendorSpecific
  · rw [if_pos vendor]
    split
    · rename_i matched
      refine sound_again.trans ?_
      rw [inside_append,inside_append,tag,oui,element]
      simp only [vendor,apart,matched,true_implies,false_implies,and_true]
      exact and_assoc
    · rename_i matched
      refine sound_again.trans ?_
      rw [inside_append,tag,oui]
      simp only [vendor,apart,matched,true_implies,false_implies,and_true,Bool.false_eq_true]
  · rw [if_neg vendor]
    split
    · rename_i rsn
      refine sound_again.trans ?_
      rw [inside_append,tag,element]
      simp only [apart.symm,rsn,true_implies,false_implies,true_and]
    · rename_i rsn
      refine sound_again.trans ?_
      rw [tag]
      simp only [vendor,rsn,false_implies,and_true]

theorem secFlat_past (past : ¬ cnt < inLen) : secFlat ie inLen cnt = ⟨[],.done ()⟩ := by
  unfold secFlat secTurn
  dsimp only
  rw [if_neg past]
  rfl

theorem secGoes_below (returns : TransGen (SecGoes ie inLen) cnt cnt') : cnt < inLen := by
  obtain ⟨next,goes,_⟩ := TransGen.head'_iff.mp returns
  exact goes.1

theorem rtwGetSecIe_safe (ie : Bytes) (inLen : U32) (rsnLen wpaLen : U16) :
    (∃ fuel reads r, rtwGetSecIe ie inLen rsnLen wpaLen fuel = some (reads,r) ∧ Inside inLen.toNat reads) ↔ SecFine ie inLen := by
  have flat : Safe (secFlat ie inLen) inLen.toNat (fun _ => True) (secFlat ie inLen secStart) ↔
      Safe (secTurn ie inLen) inLen.toNat (fun _ => True) (secTurn ie inLen ⟨secStart,rsnLen,wpaLen⟩) := by
    have first : secFlat ie inLen secStart = (secTurn ie inLen ⟨secStart,rsnLen,wpaLen⟩).map SecAt.cnt (fun _ => ()) := secTurn_flat ⟨secStart,rsnLen,wpaLen⟩
    rw [first]
    exact safe_map SecAt.cnt (fun _ => ()) secTurn_flat
  have call : (∃ fuel reads r, rtwGetSecIe ie inLen rsnLen wpaLen fuel = some (reads,r) ∧ Inside inLen.toNat reads) ↔
      Safe (secTurn ie inLen) inLen.toNat (fun _ => True) (secTurn ie inLen ⟨secStart,rsnLen,wpaLen⟩) := by
    simp only [Safe,and_true]
    rfl
  rw [call,←flat,safe_iff_fresh (SecGoes ie inLen) secFlat_goes]
  constructor
  · intro all cnt path more
    obtain ⟨sound,fresh⟩ := all cnt path
    exact ⟨(secFlat_sound more).mp sound,fresh⟩
  · intro fine cnt path
    by_cases more : cnt < inLen
    · obtain ⟨turn,fresh⟩ := fine cnt path more
      exact ⟨(secFlat_sound more).mpr turn,fresh⟩
    · refine ⟨?_,fun returns => more (secGoes_below returns)⟩
      rw [secFlat_past more]
      exact ⟨inside_nil,fun _ _ => trivial⟩
end Sec

end Rtl8852au.Ie
