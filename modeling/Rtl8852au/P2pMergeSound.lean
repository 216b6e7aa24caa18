import Rtl8852au.P2pMerge
import Rtl8852au.AttrSearchSound
import Rtl8852au.ElemDelete

namespace Rtl8852au.P2pMerge
open Words Attr Memory Elements Scan List Option Nat

section Loops
variable {inIe : Bytes} {inLen pos : Nat} {e : Element} {es : List Element} {m : Merge}

def TornFrom (inIe : Bytes) (pos : Nat) (es : List Element) : Prop :=
  ∃ front last, es = front ++ [last] ∧ last.body.length < 4 ∧ bytesAt inIe (pos + (encode front).length + 2) 4 = oui

theorem torn_cons : TornFrom inIe pos (e :: e' :: es) ↔ TornFrom inIe (pos+e.size) (e' :: es) := by
  constructor
  · intro ⟨front,last,split,short,there⟩
    cases front with
    | nil => cases split
    | cons x front =>
      rw [cons_append,cons.injEq] at split
      obtain ⟨rfl,rest⟩ := split
      refine ⟨front,last,rest,short,?_⟩
      rwa [encode_size,←add_assoc] at there
  · intro ⟨front,last,split,short,there⟩
    refine ⟨e :: front,last,by rw [split]; rfl,short,?_⟩
    rwa [encode_size,←add_assoc]

theorem torn_single : TornFrom inIe pos [e] ↔ e.body.length < 4 ∧ bytesAt inIe (pos+2) 4 = oui := by
  constructor
  · intro ⟨front,last,split,short,there⟩
    cases front with
    | nil =>
      cases split
      exact ⟨short,there⟩
    | cons x front =>
      have sizes := congrArg length split
      simp at sizes
  · intro ⟨short,there⟩
    exact ⟨[],e,rfl,short,there⟩

theorem isP2p_iff (holds : Holds inIe pos (e :: es)) (vendor : ∀ e' ∈ e :: es, e'.id = vendorSpecific)
    (whole : ¬ TornFrom inIe pos (e :: es)) : isP2p inIe pos ↔ oui <+: e.body := by
  by_cases long : 4 ≤ e.body.length
  · exact isP2p_long holds (vendor e mem_cons_self) long
  have other : ¬ oui <+: e.body := fun before => long before.length_le
  refine iff_of_false ?_ other
  cases es with
  | nil =>
    intro hit
    apply whole
    unfold isP2p at hit
    rw [Bool.and_eq_true,Ie.memcmp_iff] at hit
    exact torn_single.mpr ⟨by omega,hit.2⟩
  | cons e' es =>
    rw [isP2p_short holds (vendor e' (by simp)) (by omega)]
    decide

theorem whole_tail (whole : ¬ TornFrom inIe pos (e :: es)) : ¬ TornFrom inIe (pos+e.size) es := by
  cases es with
  | nil =>
    intro ⟨front,last,split,_⟩
    cases front <;> cases split
  | cons e' es => exact fun torn => whole (torn_cons.mpr torn)

theorem payloads_cons : payloads (e :: es) = (payload e).getD [] ++ payloads es := by
  unfold payloads
  cases taken : payload e <;> simp [taken]

theorem next_at (holds : Holds inIe pos (e :: es)) : pos + Ie.size inIe pos + 2 = pos + e.size := by
  rw [add_assoc,Ie.held_next holds]

theorem mergedLen_runs (len : Int) (holds : Holds inIe pos es) (vendor : ∀ e ∈ es, e.id = vendorSpecific)
    (whole : ¬ TornFrom inIe pos es) (all : inLen = pos + (encode es).length) (enough : es.length < fuel) :
    mergedLenLoop inIe inLen fuel pos len = some (len + (payloads es).length) := by
  induction es generalizing pos fuel len with
  | nil =>
    cases fuel with
    | zero => cases enough
    | succ fuel =>
      rw [encode_nil,length_nil,add_zero] at all
      unfold mergedLenLoop
      rw [if_neg (by omega)]
      simp [payloads]
  | cons e es ih =>
    cases fuel with
    | zero => cases enough
    | succ fuel =>
      have size := size_pos e
      rw [encode_size] at all
      have hit := isP2p_iff holds vendor whole
      have step : ∀ len, mergedLenLoop inIe inLen fuel (pos+e.size) len = some (len + (payloads es).length) := fun len =>
        ih len holds.tail (fun e' member => vendor e' (mem_cons_of_mem e member)) (whole_tail whole) (by omega)
          (lt_of_succ_lt_succ enough)
      unfold mergedLenLoop
      rw [if_pos (by omega),next_at holds,step,payloads_cons]
      by_cases body : oui <+: e.body
      · obtain ⟨some_,long⟩ := payload_some body
        rw [if_pos (hit.mpr body),some_,Ie.held_size holds]
        simp only [getD_some,length_append,length_drop]
        congr 1
        omega
      · rw [if_neg (fun taken => body (hit.mp taken)),payload_none body]
        rfl

theorem copy_nil : m.copy [] = m := by
  unfold Merge.copy
  rw [put_nil]
  simp

theorem copy_append (front back : List U8) : (m.copy front).copy back = m.copy (front ++ back) := by
  unfold Merge.copy
  simp only [put_append,length_append,Merge.mk.injEq,true_and]
  refine ⟨add_assoc ..,?_,?_⟩
  · rw [append_assoc]
    simp
  · rw [BitVec.add_assoc,←BitVec.ofNat_add]

section
variable (holds : Holds inIe pos es) (vendor : ∀ e ∈ es, e.id = vendorSpecific)
include holds vendor

theorem merge_runs
    (whole : ¬ TornFrom inIe pos es) (all : inLen = pos + (encode es).length) (enough : es.length < fuel) :
    mergeLoop inIe inLen fuel pos m = some (some (m.copy (payloads es))) := by
  induction es generalizing pos fuel m with
  | nil =>
    cases fuel with
    | zero => cases enough
    | succ fuel =>
      rw [encode_nil,length_nil,add_zero] at all
      unfold mergeLoop
      rw [if_neg (by omega),show payloads [] = [] from rfl,copy_nil]
  | cons e es ih =>
    cases fuel with
    | zero => cases enough
    | succ fuel =>
      have size := size_pos e
      rw [encode_size] at all
      have hit := isP2p_iff holds vendor whole
      have step : ∀ m, mergeLoop inIe inLen fuel (pos+e.size) m = some (some (m.copy (payloads es))) := fun m =>
        ih holds.tail (fun e' member => vendor e' (mem_cons_of_mem e member)) (whole_tail whole) (by omega)
          (lt_of_succ_lt_succ enough)
      unfold mergeLoop
      rw [if_pos (by omega),next_at holds,step,step,payloads_cons]
      by_cases body : oui <+: e.body
      · obtain ⟨some_,long⟩ := payload_some body
        have copied : bytesAt inIe (pos+6) (e.body.length-4) = e.body.drop 4 := by
          rw [show pos + 6 = pos + 2 + 4 from rfl,←bytesAt_drop,holds.body]
        rw [if_pos (hit.mpr body),Ie.held_size holds,if_neg (by omega),some_,copied,copy_append]
        rfl
      · rw [if_neg (fun taken => body (hit.mp taken)),payload_none body]
        rfl

theorem merge_torn
    (torn : TornFrom inIe pos es) (all : inLen = pos + (encode es).length) : mergeLoop inIe inLen fuel pos m ≠ some (some out) := by
  induction es generalizing pos fuel m with
  | nil =>
    obtain ⟨front,last,split,_⟩ := torn
    cases front <;> cases split
  | cons e es ih =>
    cases fuel with
    | zero => exact nofun
    | succ fuel =>
      have size := size_pos e
      rw [encode_size] at all
      unfold mergeLoop
      rw [if_pos (by omega),next_at holds]
      cases es with
      | nil =>
        obtain ⟨short,there⟩ := torn_single.mp torn
        have hit : isP2p inIe pos := by
          unfold isP2p
          rw [holds.id,vendor e mem_cons_self,beq_self_eq_true,Bool.true_and,Ie.memcmp_iff]
          exact there
        rw [if_pos hit,Ie.held_size holds,if_pos short]
        exact nofun
      | cons e' es =>
        have later : ∀ m, mergeLoop inIe inLen fuel (pos+e.size) m ≠ some (some out) := fun m =>
          ih holds.tail (fun e' member => vendor e' (mem_cons_of_mem e member)) (torn_cons.mp torn) (by omega)
        split
        · split
          · exact nofun
          · exact later _
        · exact later _
end

theorem merge_agree (one : mergeLoop inIe inLen fuel i m = some out)
    (two : mergeLoop inIe inLen fuel' i m = some out') : out = out' := by
  induction fuel generalizing fuel' i m with
  | zero => cases one
  | succ fuel ih =>
    cases fuel' with
    | zero => cases two
    | succ fuel' =>
      unfold mergeLoop at one two
      split at one
      · rename_i more
        rw [if_pos more] at two
        split at one
        · rename_i hit
          rw [if_pos hit] at two
          split at one
          · rename_i short
            rw [if_pos short] at two
            cases one
            exact some.inj two
          · rename_i long
            rw [if_neg long] at two
            exact ih one two
        · rename_i miss
          rw [if_neg miss] at two
          exact ih one two
      · rename_i last
        rw [if_neg last] at two
        cases one
        exact some.inj two

theorem mergedLen_agree (one : mergedLenLoop inIe inLen fuel i len = some out)
    (two : mergedLenLoop inIe inLen fuel' i len = some out') : out = out' := by
  induction fuel generalizing fuel' i len with
  | zero => cases one
  | succ fuel ih =>
    cases fuel' with
    | zero => cases two
    | succ fuel' =>
      unfold mergedLenLoop at one two
      split at one
      · rename_i more
        rw [if_pos more] at two
        exact ih one two
      · rename_i last
        rw [if_neg last] at two
        cases one
        exact some.inj two
end Loops
section Attributes
variable {out : Bytes} {pos len : Nat} {a : Attribute}

@[simp] theorem attribute_length (a : Attribute) : a.bytes.length = a.data.length + 3 := rfl

theorem attribute_at (held : bytesAt out pos (a.bytes ++ rest).length = a.bytes ++ rest) (small : a.data.length + 3 < 65536) :
    p2p.attrId out pos = a.id ∧ (p2p.attrLen out pos).toNat = a.bytes.length ∧ bytesAt out pos a.bytes.length = a.bytes ∧
      bytesAt out (pos+a.bytes.length) rest.length = rest := by
  rw [length_append,bytesAt_append] at held
  obtain ⟨first,behind⟩ := append_inj held (bytesAt_length ..)
  have heads := first
  rw [attribute_length,bytesAt_cons,bytesAt_cons,bytesAt_cons] at heads
  simp only [Attribute.bytes,cons.injEq] at heads
  obtain ⟨id,low,high,_⟩ := heads
  have word : getLe16 out (pos+1) = BitVec.ofNat 16 a.data.length := by
    unfold getLe16
    rw [low,high]
    exact word_bytes (lo8_mk16 ..) (hi8_mk16 ..)
  refine ⟨id,?_,first,behind⟩
  show (getLe16 out (pos+1) + BitVec.ofNat 16 3).toNat = _
  rw [word,←BitVec.ofNat_add,BitVec.toNat_ofNat,attribute_length]
  omega

theorem attrs_found {front : List Attribute} {rest : List U8} (copies : Bool)
    (held : bytesAt out pos (front.flatMap Attribute.bytes ++ (a.bytes ++ rest)).length = front.flatMap Attribute.bytes ++ (a.bytes ++ rest))
    (ends : len = pos + (front.flatMap Attribute.bytes ++ (a.bytes ++ rest)).length)
    (small : (front.flatMap Attribute.bytes ++ (a.bytes ++ rest)).length < 65536) (others : ∀ b ∈ front, b.id ≠ a.id) :
    ∃ fuel reads count, follow (guardedTurn p2p out len a.id copies) fuel (guardedTurn p2p out len a.id copies pos) =
        some (reads,some (pos + (front.flatMap Attribute.bytes).length,count)) ∧ count.toNat = a.bytes.length ∧
      bytesAt out (pos + (front.flatMap Attribute.bytes).length) a.bytes.length = a.bytes := by
  induction front generalizing pos with
  | nil =>
    rw [flatMap_nil,nil_append] at held ends small
    rw [length_append,attribute_length] at ends small
    obtain ⟨id,length,first,_⟩ := attribute_at held (by omega)
    rw [attribute_length] at length
    refine ⟨0,span pos 3 ++ copied copies pos (p2p.attrLen out pos).toNat,p2p.attrLen out pos,?_,length,first⟩
    rw [guardedTurn_found (by omega) (by omega) id]
    exact follow_done rfl 0
  | cons b front ih =>
    rw [flatMap_cons,append_assoc] at held ends small
    rw [length_append,attribute_length] at ends small
    obtain ⟨id,length,_,behind⟩ := attribute_at held (by omega)
    rw [attribute_length] at length
    obtain ⟨fuel,reads,count,found,size,there⟩ := ih behind (by rw [ends,attribute_length]; omega) (by omega)
      (fun b' member => others b' (mem_cons_of_mem b member))
    rw [attribute_length] at found there
    have other : p2p.attrId out pos ≠ a.id := by
      rw [id]
      exact others b mem_cons_self
    have past : (front.flatMap Attribute.bytes ++ (a.bytes ++ rest)).length ≥ 3 := by simp; omega
    have turn : guardedTurn p2p out len a.id copies pos = ⟨span pos 3,.again (pos + (p2p.attrLen out pos).toNat)⟩ :=
      guardedTurn_other (by omega) (by omega) other
    rw [length] at turn
    refine ⟨fuel+1,span pos 3 ++ reads,count,?_,size,?_⟩
    · rw [follow_again (by rw [turn]),found,turn,flatMap_cons,length_append,attribute_length]
      simp only [map_some,add_assoc]
    · rwa [flatMap_cons,length_append,attribute_length,←add_assoc]

theorem finds_held {held : List U8} (id : out 0 = vendorSpecific) (ouiHere : ouiAt out = oui)
    (there : bytesAt out 6 held.length = held) (small : held.length < 65536) : Finds out (6 + held.length) held := by
  intro front a rest same others copies
  rw [same] at there small ⊢
  obtain ⟨fuel,reads,count,found,size,here⟩ := attrs_found copies there rfl small others
  have long : ¬ 6 + (front.flatMap Attribute.bytes ++ (a.bytes ++ rest)).length ≤ 6 := by simp
  refine ⟨fuel+1,span 0 1 ++ span 2 4 ++ reads,_,count,?_,rfl,size,here⟩
  unfold rtwGetP2pAttr guardedEntry
  rw [if_neg long,if_neg (by simp [id]),if_neg (by rw [ouiHere]; decide),follow_again rfl,found]
  rfl
end Attributes
section Lists
variable (l : VendorList) (mergeIe : Bytes)

theorem payloads_le (es : List Element) : (payloads es).length ≤ (encode es).length := by
  induction es with
  | nil => exact le_refl _
  | cons e es ih =>
    rw [payloads_cons,length_append,encode_size]
    unfold payload Element.size
    split
    · simp only [getD_some,length_drop]
      omega
    · simp only [getD_none,length_nil]
      omega

theorem torn_from : l.Torn ↔ TornFrom l.buf 0 l.elems := by
  unfold VendorList.Torn TornFrom VendorList.len
  apply exists_congr
  intro front
  apply exists_congr
  intro last
  refine and_congr_right fun split => and_congr_right fun _ => ?_
  rw [split,encode_append,length_append,encode_size,encode_nil,length_nil]
  rw [show (encode front).length + (last.size+0) - last.body.length = 0 + (encode front).length + 2 by unfold Element.size; omega]

theorem merged_len (whole : ¬ l.Torn) : ∃ fuel len, rtwGetP2pMergedIesLen l.buf l.len fuel = some len ∧
    len.toNat = (payloads l.elems).length + 4 := by
  have fits := l.fits
  have less := payloads_le l.elems
  have run := mergedLen_runs 0 l.holds l.vendor (fun torn => whole ((torn_from l).mpr torn)) (zero_add _).symm
    (lt_succ_self _)
  refine ⟨l.elems.length+1,BitVec.ofInt 32 ((payloads l.elems).length + 4),?_,?_⟩
  · unfold rtwGetP2pMergedIesLen VendorList.len
    rw [run,map_some,Int.zero_add]
  · rw [BitVec.toNat_ofInt]
    omega

def mergedMemory : Bytes := put (put mergeIe 0 elOui) 6 (payloads l.elems)

theorem merged (whole : ¬ l.Torn) : ∃ fuel, rtwP2pMergeIes l.buf l.len mergeIe fuel =
    some (some ⟨mergedMemory l mergeIe,range ((payloads l.elems).length + 6),((payloads l.elems).length % 256 : Nat) + 4⟩) := by
  have run := merge_runs (m := ⟨put mergeIe 0 elOui,6,range' 0 6,0⟩) l.holds l.vendor
    (fun torn => whole ((torn_from l).mpr torn)) (zero_add _).symm (lt_succ_self _)
  refine ⟨l.elems.length+1,?_⟩
  unfold rtwP2pMergeIes VendorList.len
  rw [run]
  have wrote : range' 0 6 ++ range' 6 (payloads l.elems).length = range ((payloads l.elems).length + 6) := by
    rw [range_eq_range',add_comm,←range'_append]
  have count : (0 + BitVec.ofNat 8 (payloads l.elems).length).toNat = (payloads l.elems).length % 256 := by
    rw [show (0 : U8) + BitVec.ofNat 8 (payloads l.elems).length = BitVec.ofNat 8 (payloads l.elems).length from BitVec.zero_add _,
      BitVec.toNat_ofNat]
  simp only [map_some,Merge.copy,wrote,count]
  rfl

theorem merged_header : mergedMemory l mergeIe 0 = vendorSpecific ∧ ouiAt (mergedMemory l mergeIe) = oui := by
  have before : ∀ i < 6, mergedMemory l mergeIe i = put mergeIe 0 elOui i := fun i small => put_before _ _ small
  refine ⟨before 0 (by decide),?_⟩
  unfold ouiAt
  rw [before 2 (by decide),before 3 (by decide),before 4 (by decide),before 5 (by decide)]
  rfl

theorem fine_small (fine : MergeFine l mergeIe) : ¬ l.Torn ∧ (payloads l.elems).length < 256 := by
  obtain ⟨len,out,⟨fuel,lengthRun⟩,⟨fuel',mergeRun⟩,_,ret,_⟩ := fine
  have whole : ¬ l.Torn := by
    intro torn
    unfold rtwP2pMergeIes at mergeRun
    obtain ⟨end_,looped,same⟩ := map_eq_some_iff.mp mergeRun
    obtain ⟨m,rfl,_⟩ := map_eq_some_iff.mp same
    exact merge_torn l.holds l.vendor ((torn_from l).mp torn) (zero_add _).symm looped
  refine ⟨whole,?_⟩
  obtain ⟨most,len',lengthRun',size⟩ := merged_len l whole
  obtain ⟨most',mergeRun'⟩ := merged l mergeIe whole
  have sameLen : len = len' := by
    unfold rtwGetP2pMergedIesLen at lengthRun lengthRun'
    obtain ⟨one,loop,rfl⟩ := map_eq_some_iff.mp lengthRun
    obtain ⟨two,loop',rfl⟩ := map_eq_some_iff.mp lengthRun'
    rw [mergedLen_agree loop loop']
  have sameOut : out.ret = ((payloads l.elems).length % 256 : Nat) + 4 := by
    unfold rtwP2pMergeIes at mergeRun mergeRun'
    obtain ⟨one,loop,here⟩ := map_eq_some_iff.mp mergeRun
    obtain ⟨two,loop',here'⟩ := map_eq_some_iff.mp mergeRun'
    rw [merge_agree loop loop',here'] at here
    cases here
    rfl
  rw [sameOut,sameLen,size] at ret
  omega

theorem p2p_merge_exact : MergeFine l mergeIe ↔ ¬ l.Torn ∧ (payloads l.elems).length < 256 := by
  constructor
  · exact fine_small l mergeIe
  · intro ⟨whole,small⟩
    obtain ⟨fuel,len,lengthRun,size⟩ := merged_len l whole
    obtain ⟨fuel',mergeRun⟩ := merged l mergeIe whole
    obtain ⟨id,ouiHere⟩ := merged_header l mergeIe
    have there : bytesAt (mergedMemory l mergeIe) 6 (payloads l.elems).length = payloads l.elems := bytesAt_put ..
    refine ⟨len,_,⟨fuel,lengthRun⟩,⟨fuel',mergeRun⟩,?_,?_,id,ouiHere,?_,?_⟩
    · rw [size]
    · rw [size,mod_eq_of_lt small]
      rfl
    · rwa [size,Nat.add_sub_cancel]
    · have finds := finds_held id ouiHere there (by omega)
      rwa [size,show (payloads l.elems).length + 4 + 2 = 6 + (payloads l.elems).length by omega]
end Lists

def vendorList (es : List Element) (vendor : ∀ e ∈ es, e.id = vendorSpecific) (fits : (encode es).length < 2 ^ 31) : VendorList :=
  ⟨Ie.memory (encode es),es,vendor,Ie.memory_holds es,fits⟩

def half : Element := ⟨vendorSpecific,oui ++ replicate 128 0,by simp [oui]⟩

def wrapping : VendorList :=
  vendorList (replicate 2 half) (fun e member => by rw [eq_of_mem_replicate member]; rfl) (by simp [half,oui])

def torn : VendorList where
  buf := Ie.memory [0xDD,3,0x50,0x6F,0x9A,0x09]
  elems := [⟨vendorSpecific,[0x50,0x6F,0x9A],by decide⟩]
  vendor := by
    intro e member
    cases mem_singleton.mp member
    rfl
  holds := by unfold Holds; decide
  fits := by decide

theorem p2p_merge_fails : (∀ mergeIe, ¬ MergeFine wrapping mergeIe) ∧ ∀ mergeIe, ¬ MergeFine torn mergeIe := by
  refine ⟨?_,?_⟩
  · intro mergeIe fine
    obtain ⟨_,small⟩ := fine_small wrapping mergeIe fine
    have all : payloads wrapping.elems = replicate 128 0 ++ (replicate 128 0 ++ []) := rfl
    simp only [all,length_append,length_replicate,length_nil] at small
    omega
  · intro mergeIe fine
    obtain ⟨whole,_⟩ := fine_small torn mergeIe fine
    exact whole ⟨[],_,rfl,by decide,by decide⟩

end Rtl8852au.P2pMerge
