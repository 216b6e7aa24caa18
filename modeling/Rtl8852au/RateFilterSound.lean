import Rtl8852au.RateFilter
import Rtl8852au.ElemDelete

namespace Rtl8852au.RateFilter
open Words Attr Memory Elements Scan List Nat

theorem keepRates_eq (keep : RateSection) (rates newRate : List U8) (room : newRate.length ≤ ndis80211LengthRatesEx) :
    keepRates keep rates newRate =
      if newRate.length + (rates.filter (keeps keep)).length ≤ ndis80211LengthRatesEx then some (newRate ++ kept keep rates) else none := by
  induction rates generalizing newRate with
  | nil => simp [keepRates,kept,room]
  | cons rate rates ih =>
    unfold keepRates
    cases taken : keeps keep rate with
    | false =>
      rw [if_neg (by simp),ih newRate room]
      simp [kept,taken]
    | true =>
      rw [if_pos rfl]
      split
      · rename_i more
        rw [ih _ (by simp; omega)]
        simp only [length_append,length_cons,length_nil,filter_cons,taken,if_true,kept,map_cons]
        simp only [append_assoc,singleton_append,add_assoc,add_comm 1,zero_add]
      · rename_i full
        rw [if_neg]
        simp only [filter_cons,taken,if_true,length_cons]
        omega

theorem reduceFirst_none (absent : ∀ x ∈ es, x.id ≠ supportedRatesIe) : reduceFirst keep es = es := by
  induction es with
  | nil => rfl
  | cons e es ih => rw [reduceFirst,if_neg (absent e mem_cons_self),ih fun x member => absent x (mem_cons_of_mem e member)]

theorem reduceFirst_split (before : ∀ x ∈ pre, x.id ≠ supportedRatesIe)
    (here : e.id = supportedRatesIe) : reduceFirst keep (pre ++ e :: post) = pre ++ reduced keep e :: post := by
  induction pre with
  | nil =>
    rw [nil_append,reduceFirst,if_pos here]
    rfl
  | cons x pre ih =>
    rw [cons_append,reduceFirst,if_neg (before x mem_cons_self),ih fun y member => before y (mem_cons_of_mem x member)]
    rfl

theorem reduceFirst_ids (keep : RateSection) (es : List Element) : (reduceFirst keep es).map Element.id = es.map Element.id := by
  induction es with
  | nil => rfl
  | cons e es ih =>
    unfold reduceFirst
    split
    · rfl
    · rw [map_cons,ih,map_cons]

section Search
variable {n : Network} {es : List Element} {id : U8}

theorem getIe_locates (id : U8) (holds : Holds n.ies beaconIeOffset es)
    (length : n.ieLength = beaconIeOffset + (encode es).length) (enough : es.length ≤ fuel) :
    (getIe n id fuel).map Prod.snd = some ((locate (Ie.hasIndex id.toNat) beaconIeOffset es).map Ie.ieFound) := by
  have room : (n.ieLength : Int) - beaconIeOffset = ((encode es).length : Nat) := by omega
  unfold getIe
  rw [room]
  exact Ie.rtwGetIeFrom_locates id.toNat holds enough

theorem getIe_found (holds : Holds n.ies beaconIeOffset es) (length : n.ieLength = beaconIeOffset + (encode es).length) (call : getIe n id fuel = some (reads,found)) :
    found = (locate (Ie.hasIndex id.toNat) beaconIeOffset es).map Ie.ieFound := by
  obtain ⟨out,there,same⟩ := Option.map_eq_some_iff.mp (getIe_locates id holds length (le_refl _))
  rw [←same,follow_agree there call]

theorem absent_iff : locate (Ie.hasIndex id.toNat) beaconIeOffset es = none ↔ ∀ x ∈ es, x.id ≠ id := by
  rw [locate_none]
  constructor
  · intro all x member
    obtain ⟨pre,post,split⟩ := append_of_mem member
    exact (Ie.hasIndex_miss _ _ _).mp (all pre x post split)
  · intro all pre e post split
    exact (Ie.hasIndex_miss _ _ _).mpr (all e (by rw [split]; simp))
end Search
section Written
variable {b : Beacon} {pre post : List Element} {e : Element}

theorem keeps_same (b : Beacon) : Keeps b b.elems ⟨b.net,[]⟩ := ⟨b.holds,b.length,fun _ _ => rfl,inside_nil⟩

theorem rateieWritten_keeps (keep : RateSection) (split : b.elems = pre ++ e :: post) :
    Keeps b (pre ++ reduced keep e :: post)
      (rateieWritten ⟨b.net,[]⟩ (beaconIeOffset + (encode pre).length) e.body.length (kept keep e.body)) := by
  have shorter := kept_length_le keep e.body
  have holds := b.holds
  have length := b.length
  have fits := b.fits
  rw [split] at holds
  rw [split,Ie.encode_three] at length
  have sizeE : e.size = e.body.length + 2 := rfl
  have sizeR : (reduced keep e).size = (kept keep e.body).length + 2 := rfl
  have remain : b.net.ieLength - (beaconIeOffset + (encode pre).length + 2 + e.body.length) = (encode post).length := by omega
  have rewrite : put (put b.net.ies (beaconIeOffset + (encode pre).length + 1) [BitVec.ofNat 8 (kept keep e.body).length])
      (beaconIeOffset + (encode pre).length + 2) (kept keep e.body) =
      Ie.rewritten b.net.ies (beaconIeOffset + (encode pre).length) (reduced keep e) := put_comm _ (by simp)
  have moved : bytesAt (Ie.rewritten b.net.ies (beaconIeOffset + (encode pre).length) (reduced keep e))
      (beaconIeOffset + (encode pre).length + 2 + e.body.length) (encode post).length =
      bytesAt b.net.ies (beaconIeOffset + (encode pre).length + 2 + e.body.length) (encode post).length :=
    bytesAt_congr fun i _ => Ie.rewritten_after (by omega)
  constructor
  · unfold rateieWritten Run.write
    dsimp only
    rw [remain,rewrite,moved]
    exact Ie.rewritten_moved holds rfl
  · unfold rateieWritten
    dsimp only
    rw [Ie.encode_three]
    omega
  · intro i small
    unfold rateieWritten Run.write
    dsimp only
    rw [rewrite,put_before _ _ (by omega),Ie.rewritten_before (by omega)]
  · unfold rateieWritten Run.write
    dsimp only
    rw [remain,bytesAt_length]
    refine inside_append.mpr ⟨inside_append.mpr ⟨inside_append.mpr ⟨inside_nil,?_⟩,?_⟩,?_⟩
    · exact inside_span.mpr (.inr (by simp; omega))
    · exact inside_span.mpr (.inr (by omega))
    · exact inside_span.mpr (.inr (by omega))
end Written
section Filter
variable {b : Beacon} {keep : RateSection} {fuel : Nat}

def filterFound (r : Run) (keep : RateSection) : Ie.Found → Option Run
  | none => some r
  | some (p,ieOrilen) => (keepRates keep (bytesAt r.net.ies (p+2) ieOrilen) []).map (rateieWritten r p ieOrilen)

theorem filter_eq (r : Run) : rtwFilterSuppportRateie r keep fuel =
    ((getIe r.net supportedRatesIe fuel).map Prod.snd).map (filterFound r keep) := by
  unfold rtwFilterSuppportRateie
  cases getIe r.net supportedRatesIe fuel with
  | none => rfl
  | some out =>
    obtain ⟨reads,found⟩ := out
    cases found <;> rfl

theorem filter_outcome (b : Beacon) (keep : RateSection) :
    let out := filterFound ⟨b.net,[]⟩ keep ((locate (Ie.hasIndex supportedRatesIe.toNat) beaconIeOffset b.elems).map Ie.ieFound)
    (RatesFit keep b.elems ∧ ∃ r, out = some r ∧ Keeps b (reduceFirst keep b.elems) r) ∨ (¬ RatesFit keep b.elems ∧ out = none) := by
  dsimp only
  cases found : locate (Ie.hasIndex supportedRatesIe.toNat) beaconIeOffset b.elems with
  | none =>
    have absent := absent_iff.mp found
    left
    refine ⟨fun pre e post split _ here => absurd here (absent e (by rw [split]; simp)),⟨b.net,[]⟩,rfl,?_⟩
    rw [reduceFirst_none absent]
    exact keeps_same b
  | some f =>
    obtain ⟨p,e⟩ := f
    obtain ⟨pre,post,split,placed,hit,before⟩ := locate_some found
    have here := (Ie.hasIndex_id _ _ _).mp hit
    have first := absent_iff.mp before
    have rates : bytesAt b.net.ies (p+2) e.body.length = e.body := by
      rw [placed]
      exact (Ie.holds_at b.holds split).body
    have room : RatesFit keep b.elems ↔ (e.body.filter (keeps keep)).length ≤ ndis80211LengthRatesEx := by
      constructor
      · intro fit
        exact fit pre e post split first here
      · intro few pre' e' post' split' first' here'
        obtain ⟨rfl,rfl,rfl⟩ := first_unique (fun x => x.id = supportedRatesIe) (split.symm.trans split') first here first' here'
        exact few
    simp only [Option.map_some,Ie.ieFound,filterFound]
    rw [rates,keepRates_eq keep e.body [] (zero_le _),length_nil,zero_add,nil_append]
    by_cases few : (e.body.filter (keeps keep)).length ≤ ndis80211LengthRatesEx
    · left
      rw [if_pos few,Option.map_some,placed,split,reduceFirst_split first here,←split]
      exact ⟨room.mpr few,_,rfl,rateieWritten_keeps keep split⟩
    · right
      rw [if_neg few]
      exact ⟨fun fit => few (room.mp fit),rfl⟩

theorem filter_runs (fit : RatesFit keep b.elems) (enough : b.elems.length ≤ fuel) :
    ∃ r, rtwFilterSuppportRateie ⟨b.net,[]⟩ keep fuel = some (some r) ∧ Keeps b (reduceFirst keep b.elems) r := by
  obtain ⟨_,r,found,keeps⟩ | ⟨over_,_⟩ := filter_outcome b keep
  · refine ⟨r,?_,keeps⟩
    rw [filter_eq,getIe_locates supportedRatesIe b.holds b.length enough,Option.map_some,found]
  · exact absurd fit over_

theorem filter_ran (ran : rtwFilterSuppportRateie ⟨b.net,[]⟩ keep fuel = some (some r)) :
    RatesFit keep b.elems ∧ Keeps b (reduceFirst keep b.elems) r := by
  rw [filter_eq] at ran
  obtain ⟨found,searched,reached⟩ := Option.map_eq_some_iff.mp ran
  obtain ⟨⟨reads,found'⟩,call,same⟩ := Option.map_eq_some_iff.mp searched
  cases same
  rw [getIe_found b.holds b.length call] at reached
  obtain ⟨fit,r',there,keeps⟩ | ⟨_,none_⟩ := filter_outcome b keep
  · rw [there] at reached
    cases reached
    exact ⟨fit,keeps⟩
  · rw [none_] at reached
    cases reached
end Filter

theorem finish_keeps (networkType : U32) (keeps : Keeps b es r) : Keeps b es (finish networkType r).1 := {keeps with}

theorem filter_shorter (stays : Element → Bool) (member : e ∈ es) (drops : stays e = false) :
    (encode (es.filter stays)).length + e.size ≤ (encode es).length := by
  induction es with
  | nil => cases member
  | cons x es ih =>
    have less : (encode (es.filter stays)).length ≤ (encode es).length := by
      clear ih member
      induction es with
      | nil => exact le_refl _
      | cons y es ih =>
        rw [filter_cons,encode_size]
        split
        · rw [encode_size]
          omega
        · omega
    rw [filter_cons,encode_size]
    rcases mem_cons.mp member with rfl | later
    · rw [if_neg (by simp [drops])]
      omega
    · have rest := ih later
      split
      · rw [encode_size]
        omega
      · omega

theorem filter_absent {es : List Element} (absent : ∀ x ∈ es, x.id ≠ extSupportedRatesIe) :
    (es.filter fun e => e.id ≠ extSupportedRatesIe) = es := by
  rw [filter_eq_self]
  intro e member
  exact decide_eq_true (absent e member)

theorem reduceFirst_absent (keep : RateSection) {id : U8} : (∀ x ∈ reduceFirst keep es, x.id ≠ id) ↔ ∀ x ∈ es, x.id ≠ id := by
  have ids := reduceFirst_ids keep es
  have through : ∀ l : List Element, (∀ x ∈ l, x.id ≠ id) ↔ id ∉ l.map Element.id := by
    intro l
    rw [mem_map]
    constructor
    · intro all ⟨x,member,same⟩
      exact all x member same
    · intro none_ x member same
      exact none_ ⟨x,member,same⟩
  rw [through,through,ids]

theorem rateFine_11b (b : Beacon) : RateFine b wlanMd11B ↔ RatesFit .cck b.elems ∧ ∀ e ∈ b.elems, e.id ≠ extSupportedRatesIe := by
  constructor
  · intro ⟨fuel,r,networkType,ran,keeps⟩
    unfold rtwUpdateRateBymode at ran
    rw [if_pos rfl] at ran
    cases first : rtwFilterSuppportRateie ⟨b.net,[]⟩ .cck fuel with
    | none =>
      rw [first] at ran
      cases ran
    | some out =>
      rw [first] at ran
      cases out with
      | none => cases ran
      | some r1 =>
        dsimp only at ran
        obtain ⟨fit,keeps1⟩ := filter_ran first
        refine ⟨fit,?_⟩
        cases second : getIe r1.net extSupportedRatesIe fuel with
        | none =>
          rw [second] at ran
          cases ran
        | some out =>
          obtain ⟨reads,found⟩ := out
          have searched := getIe_found keeps1.holds keeps1.length second
          cases located : locate (Ie.hasIndex extSupportedRatesIe.toNat) beaconIeOffset (reduceFirst .cck b.elems) with
          | none => exact (reduceFirst_absent .cck).mp (absent_iff.mp located)
          | some f =>
            -- The new length is two or more bytes too long.
            obtain ⟨p,e⟩ := f
            obtain ⟨pre,post,split,_,hit,_⟩ := locate_some located
            rw [located] at searched
            rw [second,searched] at ran
            obtain ⟨r2,removed,same⟩ := Option.map_eq_some_iff.mp ran
            cases same
            obtain ⟨out,_,rfl⟩ := Option.map_eq_some_iff.mp removed
            have member : e ∈ reduceFirst .cck b.elems := by rw [split]; simp
            have here := (Ie.hasIndex_id _ _ _).mp hit
            have shorter := filter_shorter (fun e => decide (e.id ≠ extSupportedRatesIe)) member (by simp [here])
            have length := keeps.length
            have length1 := keeps1.length
            have size : e.size = e.body.length + 2 := rfl
            unfold filtered at length
            rw [if_pos rfl] at length
            change r1.net.ieLength - e.body.length = _ at length
            omega
  · intro ⟨fit,absent⟩
    obtain ⟨r,ran,keeps⟩ := filter_runs fit (le_refl _)
    have absent' := (reduceFirst_absent .cck).mpr absent
    have enough : (reduceFirst .cck b.elems).length ≤ b.elems.length := by
      have ids := congrArg length (reduceFirst_ids .cck b.elems)
      simp only [length_map] at ids
      omega
    have searched := getIe_locates extSupportedRatesIe keeps.holds keeps.length enough
    rw [absent_iff.mpr absent'] at searched
    obtain ⟨⟨reads,found⟩,call,none_⟩ := Option.map_eq_some_iff.mp searched
    cases none_
    refine ⟨b.elems.length,(finish wlanMd11B r).1,wlanMd11B,?_,?_⟩
    · unfold rtwUpdateRateBymode
      rw [if_pos rfl,ran]
      dsimp only
      rw [call]
      rfl
    · unfold filtered
      rw [if_pos rfl,filter_absent absent']
      exact finish_keeps wlanMd11B keeps

theorem rateFine_ofdm (b : Beacon) (other : mode ≠ wlanMd11B) (without : mode &&& wlanMd11B = 0) :
    RateFine b mode ↔ RatesFit .ofdm b.elems := by
  have goal : filtered mode b.elems = reduceFirst .ofdm b.elems := by
    unfold filtered
    rw [if_neg other,if_pos without]
  unfold RateFine rtwUpdateRateBymode
  simp only [if_neg other,if_pos without,goal]
  constructor
  · intro ⟨fuel,r,networkType,ran,_⟩
    obtain ⟨out,first,same⟩ := Option.map_eq_some_iff.mp ran
    obtain ⟨r1,rfl,_⟩ := Option.map_eq_some_iff.mp same
    exact (filter_ran first).1
  · intro fit
    obtain ⟨r,ran,keeps⟩ := filter_runs fit (le_refl _)
    let networkType := if 14 < b.net.dsConfig.toNat then wlanMd11A else wlanMd11G
    refine ⟨b.elems.length,(finish networkType r).1,networkType,?_,finish_keeps networkType keeps⟩
    rw [ran]
    rfl

theorem rateFine_other (b : Beacon) (other : mode ≠ wlanMd11B) (with_ : mode &&& wlanMd11B ≠ 0) : RateFine b mode := by
  have searched := getIe_locates extSupportedRatesIe b.holds b.length (le_refl _)
  obtain ⟨out,call,_⟩ := Option.map_eq_some_iff.mp searched
  let networkType := if out.2.isSome then wlanMd11Bg else wlanMd11B
  refine ⟨b.elems.length,(finish networkType ⟨b.net,[]⟩).1,networkType,?_,?_⟩
  · unfold rtwUpdateRateBymode
    rw [if_neg other,if_neg with_,call]
    rfl
  · unfold filtered
    rw [if_neg other,if_neg with_]
    exact finish_keeps networkType (keeps_same b)

theorem rate_update_exact (b : Beacon) (mode : U32) : RateFine b mode ↔
    (mode = wlanMd11B → RatesFit .cck b.elems ∧ ∀ e ∈ b.elems, e.id ≠ extSupportedRatesIe) ∧
      (mode &&& wlanMd11B = 0 → RatesFit .ofdm b.elems) := by
  by_cases only : mode = wlanMd11B
  · rw [only,rateFine_11b]
    exact ⟨fun fine => ⟨fun _ => fine,fun none_ => absurd none_ (by decide)⟩,fun fine => fine.1 rfl⟩
  by_cases without : mode &&& wlanMd11B = 0
  · rw [rateFine_ofdm b only without]
    exact ⟨fun fit => ⟨fun same => absurd same only,fun _ => fit⟩,fun fine => fine.2 without⟩
  · exact ⟨fun _ => ⟨fun same => absurd same only,fun none_ => absurd none_ without⟩,fun _ => rateFine_other b only without⟩

def beacon (es : List Element) (fits : (encode es).length ≤ 756) : Beacon where
  net :=
    { ies := fun i => Ie.memory (encode es) (i-beaconIeOffset)
      ieLength := beaconIeOffset + (encode es).length
      dsConfig := 1
      supportedRates := replicate ndis80211LengthRatesEx 0 }
  elems := es
  holds := by
    have there := Ie.memory_holds es
    refine Eq.trans (bytesAt_congr fun i _ => ?_) there
    show Ie.memory (encode es) (beaconIeOffset + i - beaconIeOffset) = _
    rw [Nat.zero_add,Nat.add_sub_cancel_left]
  length := rfl
  fits := by
    show beaconIeOffset + (encode es).length ≤ Ie.maxIeSz
    unfold beaconIeOffset Ie.maxIeSz
    omega

def manyRates : Beacon := beacon [⟨supportedRatesIe,replicate 17 0x82,by decide⟩] (by decide)
def extRates : Beacon := beacon [⟨extSupportedRatesIe,[0x30],by decide⟩] (by decide)

theorem rate_update_fails : ¬ RateFine manyRates wlanMd11B ∧ ¬ RateFine extRates wlanMd11B := by
  refine ⟨?_,?_⟩
  · intro fine
    obtain ⟨fit,_⟩ := (rateFine_11b manyRates).mp fine
    exact absurd (fit [] _ [] rfl nofun rfl) (by decide)
  · intro fine
    obtain ⟨_,absent⟩ := (rateFine_11b extRates).mp fine
    exact absent _ mem_cons_self rfl

end Rtl8852au.RateFilter
