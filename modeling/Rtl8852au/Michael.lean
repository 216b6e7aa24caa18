import Rtl8852au.Machine
import Rtl8852au.Words
import Mathlib.Data.BitVec

namespace Rtl8852au.Michael
open Words BitVec List Nat Machine Prod

structure MicData where
  k0 : U32
  k1 : U32
  l : U32
  r : U32
  m : U32
  nBytesInM : Nat
  deriving DecidableEq,Repr

def rol32 (a : U32) (n : Nat) : U32 := (a <<< n) ||| ((a >>> (32 - n)) &&& ((1 <<< n) - 1))
def ror32 (a : U32) (n : Nat) : U32 := rol32 a (32 - n)

def secmicgetuint32 (p : List U8) : U32 := (range 4).foldl (fun res i => res ||| ((p.getD i 0).setWidth 32 <<< (8*i))) 0

section
variable (micdata : MicData)

def secmicclear : MicData := {micdata with l:=micdata.k0, r:=micdata.k1, nBytesInM:=0, m:=0}

def rtwSecmicsetkey (key : List U8) : MicData :=
  secmicclear {k0:=secmicgetuint32 key, k1:=secmicgetuint32 (key.drop 4), l:=0, r:=0, m:=0, nBytesInM:=0}

def addL (lr : U32 × U32) : U32 × U32 := (lr.1+lr.2,lr.2)
def xorR (f : U32 → U32) (lr : U32 × U32) : U32 × U32 := (lr.1,lr.2 ^^^ f lr.1)
def swapBytes (l : U32) : U32 := ((l &&& 0xff00ff00) >>> 8) ||| ((l &&& 0x00ff00ff) <<< 8)

def michaelBlock (lr : U32 × U32) : U32 × U32 :=
  let lr := xorR (rol32 · 17) lr
  let lr := addL lr
  let lr := xorR swapBytes lr
  let lr := addL lr
  let lr := xorR (rol32 · 3) lr
  let lr := addL lr
  let lr := xorR (ror32 · 2) lr
  addL lr

def rtwSecmicappendbyte (b : U8) : MicData :=
  let m := micdata.m ||| (b.setWidth 32 <<< (8*micdata.nBytesInM))
  let nBytesInM := micdata.nBytesInM+1
  if nBytesInM ≥ 4 then
    let (l,r) := michaelBlock (micdata.l ^^^ m,micdata.r)
    {micdata with l, r, m:=0, nBytesInM:=0}
  else {micdata with m, nBytesInM}

def rtwSecmicappend (src : List U8) : MicData := src.foldl rtwSecmicappendbyte micdata

def wordOpen : Bool := micdata.nBytesInM != 0
def appendZero : MicData := rtwSecmicappendbyte micdata 0

-- The loop that fills the last word, cut off after four rounds.
def padWord : MicData := iterate wordOpen appendZero 4 micdata

def rtwSecgetmic : List U8 :=
  let micdata := rtwSecmicappend micdata [0x5a,0,0,0,0]
  let micdata := padWord micdata
  leBytes micdata.l ++ leBytes micdata.r

theorem append_append (one two : List U8) :
    rtwSecmicappend micdata (one ++ two) = rtwSecmicappend (rtwSecmicappend micdata one) two := foldl_append

theorem append_pieces (pieces : List (List U8)) :
    pieces.foldl rtwSecmicappend micdata = rtwSecmicappend micdata pieces.flatten := by
  induction pieces generalizing micdata with
  | nil => rfl
  | cons piece rest ih => rw [foldl_cons,ih,flatten_cons,append_append]
end

theorem addL_injective : Function.Injective addL := by
  intro one two same
  obtain ⟨left,right⟩ := mk.inj (same : (one.1+one.2,one.2) = (two.1+two.2,two.2))
  rw [right] at left
  exact Prod.ext (add_right_cancel left) right

theorem xorR_injective (f : U32 → U32) : Function.Injective (xorR f) := by
  intro one two same
  obtain ⟨left,right⟩ := mk.inj (same : (one.1,one.2 ^^^ f one.1) = (two.1,two.2 ^^^ f two.1))
  rw [left] at right
  exact Prod.ext left ((xor_left_inj _).mp right)

theorem michaelBlock_injective : Function.Injective michaelBlock := by
  have first := addL_injective.comp (xorR_injective (rol32 · 17))
  have second := addL_injective.comp (xorR_injective swapBytes)
  have third := addL_injective.comp (xorR_injective (rol32 · 3))
  have fourth := addL_injective.comp (xorR_injective (ror32 · 2))
  exact ((fourth.comp third).comp second).comp first

structure Aligned (micdata : MicData) : Prop where
  room : micdata.nBytesInM < 4
  clear : ∀ i, 8*micdata.nBytesInM ≤ i → micdata.m.getLsbD i = false

theorem rtwSecmicsetkey_aligned (key : List U8) : Aligned (rtwSecmicsetkey key) where
  room := zero_lt_succ 3
  clear := by
    intro i _
    show (0 : U32).getLsbD i = false
    simp

theorem Aligned.appendbyte (aligned : Aligned micdata) (b : U8) : Aligned (rtwSecmicappendbyte micdata b) := by
  have room := aligned.room
  rw [rtwSecmicappendbyte]
  split
  · constructor
    · exact zero_lt_succ 3
    · intro i _
      show (0 : U32).getLsbD i = false
      simp
  · rename_i open_
    constructor
    · exact Nat.lt_of_not_le open_
    · intro i behind
      have behind : 8 * (micdata.nBytesInM+1) ≤ i := behind
      have old := aligned.clear i (by omega)
      have high : b.getLsbD (i - 8*micdata.nBytesInM) = false := getLsbD_of_ge b _ (by omega)
      show (micdata.m ||| (b.setWidth 32 <<< (8*micdata.nBytesInM))).getLsbD i = false
      simp [old,high]

theorem Aligned.append (aligned : Aligned micdata) (src : List U8) : Aligned (rtwSecmicappend micdata src) := by
  induction src generalizing micdata with
  | nil => exact aligned
  | cons b rest ih => exact ih (aligned.appendbyte b)

inductive Apart : MicData → MicData → Prop where
  | word {one two : MicData} (count : one.nBytesInM = two.nBytesInM) (some_ : 0 < one.nBytesInM)
      (halves : (one.l,one.r) = (two.l,two.r)) (differ : one.m ≠ two.m) : Apart one two
  | halves {one two : MicData} (count : one.nBytesInM = two.nBytesInM) (same : one.m = two.m)
      (differ : (one.l,one.r) ≠ (two.l,two.r)) : Apart one two

theorem or_differs {m m' high : U32} {n : Nat} (clear : ∀ i, n ≤ i → m.getLsbD i = false)
    (clear' : ∀ i, n ≤ i → m'.getLsbD i = false) (low : ∀ i < n, high.getLsbD i = false) (differ : m ≠ m') :
    m ||| high ≠ m' ||| high := by
  intro same
  apply differ
  apply eq_of_getLsbD_eq
  intro i _
  by_cases below : i < n
  · have bit := congrArg (fun word => word.getLsbD i) same
    simpa [low i below] using bit
  · rw [clear i (Nat.le_of_not_lt below),clear' i (Nat.le_of_not_lt below)]

theorem shifted_low (b : U8) (n i : Nat) (below : i < n) : (b.setWidth 32 <<< n).getLsbD i = false := by simp [below]

theorem block_differs (differ : (l ^^^ word,r) ≠ (l' ^^^ word',r')) :
    michaelBlock (l ^^^ word,r) ≠ michaelBlock (l' ^^^ word',r') := fun same => differ (michaelBlock_injective same)

theorem Apart.appendbyte (apart : Apart one two) (first : Aligned one) (second : Aligned two) (b : U8) :
    Apart (rtwSecmicappendbyte one b) (rtwSecmicappendbyte two b) := by
  cases apart with
  | word count some_ halves differ =>
    obtain ⟨left,right⟩ := mk.inj halves
    have words : one.m ||| (b.setWidth 32 <<< (8*one.nBytesInM)) ≠ two.m ||| (b.setWidth 32 <<< (8*one.nBytesInM)) := by
      have clear := second.clear
      rw [← count] at clear
      exact or_differs first.clear clear (shifted_low b _) differ
    rw [rtwSecmicappendbyte,rtwSecmicappendbyte,← count]
    split
    · refine .halves rfl rfl ?_
      apply block_differs
      rw [left,right]
      intro same
      exact words ((xor_right_inj _).mp (mk.inj same).1)
    · exact .word rfl (succ_pos _) halves words
  | halves count same differ =>
    rw [rtwSecmicappendbyte,rtwSecmicappendbyte,← count,← same]
    split
    · refine .halves rfl rfl ?_
      apply block_differs
      intro equal
      obtain ⟨left,right⟩ := mk.inj equal
      exact differ (Prod.ext ((xor_left_inj _).mp left) right)
    · exact .halves rfl rfl differ

theorem Apart.append (apart : Apart one two) (first : Aligned one) (second : Aligned two) (src : List U8) :
    Apart (rtwSecmicappend one src) (rtwSecmicappend two src) := by
  induction src generalizing one two with
  | nil => exact apart
  | cons b rest ih => exact ih (apart.appendbyte first second b) (first.appendbyte b) (second.appendbyte b)

theorem apart_bytes (aligned : Aligned micdata) (differ : b ≠ b') :
    Apart (rtwSecmicappendbyte micdata b) (rtwSecmicappendbyte micdata b') := by
  have words : micdata.m ||| (b.setWidth 32 <<< (8*micdata.nBytesInM)) ≠
      micdata.m ||| (b'.setWidth 32 <<< (8*micdata.nBytesInM)) := by
    intro same
    apply differ
    apply eq_of_getLsbD_eq
    intro i inside
    have room := aligned.room
    have within : 8*micdata.nBytesInM + i < 32 := by omega
    have small : i < 32 := by omega
    have behind : ¬8*micdata.nBytesInM + i < 8*micdata.nBytesInM := by omega
    have clear := aligned.clear (8*micdata.nBytesInM + i) (le_add_right _ _)
    have bit := congrArg (fun word => word.getLsbD (8*micdata.nBytesInM + i)) same
    rw [getLsbD_or,getLsbD_or,clear,getLsbD_shiftLeft,getLsbD_shiftLeft] at bit
    simpa [within,small,behind] using bit
  rw [rtwSecmicappendbyte,rtwSecmicappendbyte]
  split
  · refine .halves rfl rfl ?_
    apply block_differs
    intro same
    exact words ((xor_right_inj _).mp (mk.inj same).1)
  · exact .word rfl (succ_pos _) rfl words

theorem appendbyte_count (micdata : MicData) (b : U8) :
    (rtwSecmicappendbyte micdata b).nBytesInM = if micdata.nBytesInM + 1 ≥ 4 then 0 else micdata.nBytesInM + 1 := by
  rw [rtwSecmicappendbyte]
  split
  · rfl
  · rfl

theorem padWord_closed (aligned : Aligned micdata) : (padWord micdata).nBytesInM = 0 := by
  have kept : ∀ state, Aligned state → wordOpen state → Aligned (appendZero state) := fun _ aligned _ => aligned.appendbyte 0
  have drop : ∀ state, Aligned state → wordOpen state →
      (4 - (appendZero state).nBytesInM) % 4 < (4 - state.nBytesInM) % 4 := by
    intro state aligned again
    have room := aligned.room
    have some_ : state.nBytesInM ≠ 0 := by simpa [wordOpen] using again
    rw [appendZero,appendbyte_count]
    split
    · omega
    · omega
  have enough : (4 - micdata.nBytesInM) % 4 ≤ 4 := by omega
  have closed : wordOpen (padWord micdata) = false :=
    iterate_exits Aligned (fun micdata => (4 - micdata.nBytesInM) % 4) kept drop aligned enough
  simpa [wordOpen] using closed

theorem padWord_apart (apart : Apart one two) (first : Aligned one) (second : Aligned two) :
    Apart (padWord one) (padWord two) := by
  have both : ∀ fuel one two, Apart one two → Aligned one → Aligned two →
      Apart (iterate wordOpen appendZero fuel one) (iterate wordOpen appendZero fuel two) := by
    intro fuel
    induction fuel with
    | zero => exact fun _ _ apart _ _ => apart
    | succ fuel ih =>
      intro one two apart first second
      have count : one.nBytesInM = two.nBytesInM := by
        cases apart with
        | word count _ _ _ => exact count
        | halves count _ _ => exact count
      have both : wordOpen one = wordOpen two := by rw [wordOpen,wordOpen,count]
      rw [Machine.iterate,Machine.iterate,both]
      split
      · exact ih _ _ (apart.appendbyte first second 0) (first.appendbyte 0) (second.appendbyte 0)
      · exact apart
  exact both 4 one two apart first second

theorem rtwSecgetmic_halves (micdata : MicData) :
    rtwSecgetmic micdata = leBytes (padWord (rtwSecmicappend micdata [0x5a,0,0,0,0])).l ++
      leBytes (padWord (rtwSecmicappend micdata [0x5a,0,0,0,0])).r := rfl

theorem halves_injective (same : leBytes l ++ leBytes r = leBytes l' ++ leBytes r') : l = l' ∧ r = r' := by
  have parts := append_inj same ((leBytes_length _).trans (leBytes_length _).symm)
  exact ⟨leBytes_injective parts.1,leBytes_injective parts.2⟩

theorem Apart.getmic (apart : Apart one two) (first : Aligned one) (second : Aligned two) :
    rtwSecgetmic one ≠ rtwSecgetmic two := by
  have padded := padWord_apart (apart.append first second [0x5a,0,0,0,0]) (first.append _) (second.append _)
  have closed := padWord_closed (first.append [0x5a,0,0,0,0])
  intro same
  rw [rtwSecgetmic_halves,rtwSecgetmic_halves] at same
  obtain ⟨left,right⟩ := halves_injective same
  cases padded with
  | word _ some_ _ _ =>
    rw [closed] at some_
    cases some_
  | halves _ _ halves => exact halves (congrArg₂ mk left right)

theorem rtwSecgetmic_last (aligned : Aligned micdata) (differ : b ≠ b') :
    rtwSecgetmic (rtwSecmicappend micdata [b]) ≠ rtwSecgetmic (rtwSecmicappend micdata [b']) :=
  (apart_bytes aligned differ).getmic (aligned.appendbyte b) (aligned.appendbyte b')

theorem secmicgetuint32_bytes (p : List U8) : leBytes (secmicgetuint32 p) = [p.getD 0 0,p.getD 1 0,p.getD 2 0,p.getD 3 0] := by
  rw [leBytes,cons.injEq,cons.injEq,cons.injEq,cons.injEq]
  refine ⟨?_,?_,?_,?_,rfl⟩ <;> ext i inside <;> simp [secmicgetuint32,range,range.loop,inside] <;> grind

-- The bytes of a key that the hash takes.
def keyBytes (key : List U8) : List U8 := (range 8).map (key.getD · 0)

theorem setkey_bytes (key : List U8) : leBytes (secmicgetuint32 key) ++ leBytes (secmicgetuint32 (key.drop 4)) = keyBytes key := by
  rw [secmicgetuint32_bytes,secmicgetuint32_bytes]
  simp [keyBytes,range,range.loop]

theorem mic_keys (key key' message : List U8) :
    rtwSecgetmic (rtwSecmicappend (rtwSecmicsetkey key) message) = rtwSecgetmic (rtwSecmicappend (rtwSecmicsetkey key') message) ↔
      keyBytes key = keyBytes key' := by
  rw [← setkey_bytes,← setkey_bytes]
  constructor
  · intro same
    by_contra differ
    have first := rtwSecmicsetkey_aligned key
    have second := rtwSecmicsetkey_aligned key'
    have apart : Apart (rtwSecmicsetkey key) (rtwSecmicsetkey key') := by
      refine .halves rfl rfl fun halves => differ ?_
      obtain ⟨left,right⟩ := mk.inj halves
      exact congrArg₂ (leBytes · ++ leBytes ·) left right
    exact (apart.append first second message).getmic (first.append message) (second.append message) same
  · intro same
    obtain ⟨left,right⟩ := halves_injective same
    rw [rtwSecmicsetkey,rtwSecmicsetkey,left,right]

end Rtl8852au.Michael
