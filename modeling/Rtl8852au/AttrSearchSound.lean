import Rtl8852au.AttrSearch

namespace Rtl8852au.Attr
open Words Scan

theorem length_zero (len : U16) : len = 0 ↔ len.toNat = 0 := by
  constructor
  · intro zero
    rw [zero]; rfl
  · intro zero
    exact BitVec.eq_of_toNat_eq zero

theorem good_none : Good f ielen none := by
  intro pos len same
  cases same

theorem good_some {len : U16} : Good f ielen (some (pos,len)) ↔ pos + len.toNat ≤ ielen ∧ (len = 0 ∨ f.hdr ≤ len.toNat) := by
  constructor
  · intro good
    exact good pos len rfl
  · intro fine pos' len' same
    cases same
    exact fine

theorem sound_stop {step : Nat → Turn Nat Found} {reads : List Nat} (inside : Inside ielen reads) :
    Sound step ielen (Good f ielen) ⟨reads,.done none⟩ := by
  refine ⟨inside,?_⟩
  intro r last
  cases last
  exact good_none

section Layouts
variable {ι : Type} [DecidableEq ι] {f : Layout ι} {ie : Bytes} {ielen pos : Nat} {target : ι} {copies : Bool}

theorem unwrapped_iff (held : 0 < f.hdr) (short : f.hdr < 65536) :
    Unwrapped f ie target pos ↔
      if f.attrId ie pos = target then f.attrLen ie pos = 0 ∨ f.hdr ≤ (f.attrLen ie pos).toNat else f.attrLen ie pos ≠ 0 := by
  have size := attrLen_toNat f ie pos
  have bound := (f.attrDataLen ie pos).isLt
  have zero := length_zero (f.attrLen ie pos)
  unfold Unwrapped
  split
  · rw [zero]; omega
  · refine Iff.trans ?_ (not_congr zero).symm
    omega

theorem guardedTurn_past (past : ielen < pos+3) : guardedTurn f ie ielen target copies pos = ⟨[],.done none⟩ := if_neg (by omega)

theorem guardedTurn_long (more : pos + 3 ≤ ielen) (long : ielen < pos + (f.attrLen ie pos).toNat) :
    guardedTurn f ie ielen target copies pos = ⟨span pos 3,.done none⟩ := by
  simp only [guardedTurn,if_pos more,if_pos long]

section
variable (more : pos + 3 ≤ ielen) (within : pos + (f.attrLen ie pos).toNat ≤ ielen)
include more within

theorem guardedTurn_found
    (here : f.attrId ie pos = target) :
    guardedTurn f ie ielen target copies pos =
      ⟨span pos 3 ++ copied copies pos (f.attrLen ie pos).toNat,.done (some (pos,f.attrLen ie pos))⟩ := by
  simp only [guardedTurn,if_pos more,if_neg (Nat.not_lt.mpr within),if_pos here]

theorem guardedTurn_other
    (other : f.attrId ie pos ≠ target) :
    guardedTurn f ie ielen target copies pos = ⟨span pos 3,.again (pos + (f.attrLen ie pos).toNat)⟩ := by
  simp only [guardedTurn,if_pos more,if_neg (Nat.not_lt.mpr within),if_neg other]
end
section
variable (held : f.hdr = 3)
include held

theorem guarded_unwrapped
    (safe : Safe (guardedTurn f ie ielen target copies) ielen (Good f ielen) (guardedTurn f ie ielen target copies pos))
    (more : pos + 3 ≤ ielen) : Unwrapped f ie target pos := by
  have zero := length_zero (f.attrLen ie pos)
  rw [unwrapped_iff (by omega) (by omega)]
  by_cases within : pos + (f.attrLen ie pos).toNat ≤ ielen
  · split
    · rename_i here
      rw [guardedTurn_found more within here] at safe
      exact (good_some.mp ((safe_done rfl).mp safe).2).2
    · rename_i other
      intro stays
      apply safe.moves
      rw [guardedTurn_other more within other,zero.mp stays]
      rfl
  · split
    · exact .inr (by omega)
    · rw [ne_eq,zero]; omega

theorem guarded_begins
    (start : Safe (guardedTurn f ie ielen target copies) ielen (Good f ielen) (guardedTurn f ie ielen target copies 6))
    (begins : Begins f ie ielen target pos) :
    Safe (guardedTurn f ie ielen target copies) ielen (Good f ielen) (guardedTurn f ie ielen target copies pos) := by
  induction begins with
  | first => exact start
  | next _ header other within ih =>
    rw [guardedTurn_other (by omega) within other] at ih
    exact ((safe_again rfl).mp ih).2

theorem guarded_walk
    (fine : ∀ pos, Begins f ie ielen target pos → pos+3 ≤ ielen → Unwrapped f ie target pos) :
    Safe (guardedTurn f ie ielen target copies) ielen (Good f ielen) (guardedTurn f ie ielen target copies 6) := by
  refine safe_begun (Begins f ie ielen target) (fun pos => ielen - pos) ?_ ?_ .first
  · intro pos begins
    by_cases more : pos + 3 ≤ ielen
    · by_cases within : pos + (f.attrLen ie pos).toNat ≤ ielen
      · have kept := (unwrapped_iff (by omega) (by omega)).mp (fine pos begins more)
        by_cases here : f.attrId ie pos = target
        · rw [guardedTurn_found more within here]
          rw [if_pos here] at kept
          refine ⟨inside_append.mpr ⟨inside_span.mpr (.inr more),copied_inside within⟩,?_⟩
          intro r last
          cases last
          exact good_some.mpr ⟨within,kept⟩
        · rw [guardedTurn_other more within here]
          exact ⟨inside_span.mpr (.inr more),fun r last => nomatch last⟩
      · rw [guardedTurn_long more (by omega)]
        exact sound_stop (inside_span.mpr (.inr more))
    · rw [guardedTurn_past (by omega)]
      exact sound_stop (by simp [Inside])
  · intro pos pos' begins next
    by_cases more : pos + 3 ≤ ielen
    · by_cases within : pos + (f.attrLen ie pos).toNat ≤ ielen
      · have kept := (unwrapped_iff (by omega) (by omega)).mp (fine pos begins more)
        by_cases here : f.attrId ie pos = target
        · rw [guardedTurn_found more within here] at next
          cases next
        · rw [guardedTurn_other more within here] at next
          rw [if_neg here,ne_eq,length_zero] at kept
          cases next
          exact ⟨.next begins (by omega) here within,by omega⟩
      · rw [guardedTurn_long more (by omega)] at next
        cases next
    · rw [guardedTurn_past (by omega)] at next
      cases next

theorem guarded_fine
    (safe : Safe (guardedTurn f ie ielen target copies) ielen (Good f ielen) (guardedEntry f ie ielen)) : GuardedFine f ie ielen target := by
  intro long vendor oui pos begins more
  simp only [guardedEntry,if_neg (Nat.not_le.mpr long),vendor,oui,ne_eq,not_true_eq_false,if_false] at safe
  have start := ((safe_again rfl).mp safe).2
  exact guarded_unwrapped held (guarded_begins held start begins) more

theorem guarded_safe (fine : GuardedFine f ie ielen target) (copies : Bool) :
    Safe (guardedTurn f ie ielen target copies) ielen (Good f ielen) (guardedEntry f ie ielen) := by
  unfold guardedEntry
  by_cases short : ielen ≤ 6
  · rw [if_pos short]
    exact (safe_done rfl).mpr ⟨by simp [Inside],good_none⟩
  · rw [if_neg short]
    have first : Inside ielen (span 0 1) := inside_span.mpr (.inr (by omega))
    have both : Inside ielen (span 0 1 ++ span 2 4) := inside_append.mpr ⟨first,inside_span.mpr (.inr (by omega))⟩
    by_cases vendor : ie 0 = vendorSpecific
    · by_cases oui : ouiAt ie = f.oui
      · simp only [vendor,oui,ne_eq,not_true_eq_false,if_false]
        exact (safe_again rfl).mpr ⟨both,guarded_walk held (fine (by omega) vendor oui)⟩
      · simp only [vendor,oui,ne_eq,not_true_eq_false,not_false_eq_true,if_false,if_true]
        exact (safe_done rfl).mpr ⟨both,good_none⟩
    · rw [if_pos vendor]
      exact (safe_done rfl).mpr ⟨first,good_none⟩
end
end Layouts
section Wps
variable {ie : Bytes} {ielen pos : Nat} {target : U16} {copies : Bool}

theorem wpsTurn_past (past : ielen ≤ pos) : wpsTurn ie ielen target copies pos = ⟨[],.done none⟩ := if_neg (by omega)

theorem wpsTurn_found (more : pos < ielen) (here : wps.attrId ie pos = target) :
    wpsTurn ie ielen target copies pos =
      ⟨span pos 4 ++ copied copies pos (wps.attrLen ie pos).toNat,.done (some (pos,wps.attrLen ie pos))⟩ := by
  simp only [wpsTurn,if_pos more,if_pos here]

theorem wpsTurn_other (more : pos < ielen) (other : wps.attrId ie pos ≠ target) :
    wpsTurn ie ielen target copies pos = ⟨span pos 4,.again (pos + (wps.attrLen ie pos).toNat)⟩ := by
  simp only [wpsTurn,if_pos more,if_neg other]

def WpsTurnFine (ie : Bytes) (ielen : Nat) (target : U16) (pos : Nat) : Prop :=
  pos+4 ≤ ielen ∧ Unwrapped wps ie target pos ∧ (wps.attrId ie pos = target → pos + (wps.attrLen ie pos).toNat ≤ ielen)

theorem wps_turn_fine (safe : Safe (wpsTurn ie ielen target copies) ielen (Good wps ielen) (wpsTurn ie ielen target copies pos))
    (more : pos < ielen) : WpsTurnFine ie ielen target pos := by
  unfold WpsTurnFine
  rw [unwrapped_iff (by decide) (by decide)]
  by_cases here : wps.attrId ie pos = target
  · rw [wpsTurn_found more here] at safe
    obtain ⟨inside,good⟩ := (safe_done rfl).mp safe
    obtain ⟨within,whole⟩ := good_some.mp good
    have header := (inside_span.mp (inside_append.mp inside).1).resolve_left (by decide)
    rw [if_pos here]
    exact ⟨header,whole,fun _ => within⟩
  · have moves := safe.moves
    rw [wpsTurn_other more here] at safe moves
    have header := (inside_span.mp safe.inside).resolve_left (by decide)
    rw [if_neg here]
    refine ⟨header,?_,fun same => absurd same here⟩
    intro stays
    rw [stays] at moves
    exact moves rfl

theorem wps_begins (start : Safe (wpsTurn ie ielen target copies) ielen (Good wps ielen) (wpsTurn ie ielen target copies 6))
    (begins : Begins wps ie ielen target pos) :
    Safe (wpsTurn ie ielen target copies) ielen (Good wps ielen) (wpsTurn ie ielen target copies pos) := by
  induction begins with
  | first => exact start
  | next _ header other _ ih =>
    have size : wps.hdr = 4 := rfl
    rw [wpsTurn_other (by omega) other] at ih
    exact ((safe_again rfl).mp ih).2

theorem wps_walk (fine : ∀ pos, Begins wps ie ielen target pos → pos < ielen → WpsTurnFine ie ielen target pos) :
    Safe (wpsTurn ie ielen target copies) ielen (Good wps ielen) (wpsTurn ie ielen target copies 6) := by
  refine safe_begun (fun pos => Begins wps ie ielen target pos ∨ ielen ≤ pos) (fun pos => ielen - pos) ?_ ?_ (.inl .first)
  · intro pos begun
    by_cases more : pos < ielen
    · obtain ⟨header,kept,within⟩ := fine pos (begun.resolve_right (by omega)) more
      rw [unwrapped_iff (by decide) (by decide)] at kept
      by_cases here : wps.attrId ie pos = target
      · rw [wpsTurn_found more here]
        rw [if_pos here] at kept
        refine ⟨inside_append.mpr ⟨inside_span.mpr (.inr header),copied_inside (within here)⟩,?_⟩
        intro r last
        cases last
        exact good_some.mpr ⟨within here,kept⟩
      · rw [wpsTurn_other more here]
        exact ⟨inside_span.mpr (.inr header),fun r last => nomatch last⟩
    · rw [wpsTurn_past (by omega)]
      exact sound_stop (by simp [Inside])
  · intro pos pos' begun next
    by_cases more : pos < ielen
    · have begins := begun.resolve_right (by omega)
      obtain ⟨header,kept,_⟩ := fine pos begins more
      rw [unwrapped_iff (by decide) (by decide)] at kept
      by_cases here : wps.attrId ie pos = target
      · rw [wpsTurn_found more here] at next
        cases next
      · rw [wpsTurn_other more here] at next
        rw [if_neg here,ne_eq,length_zero] at kept
        cases next
        refine ⟨?_,by omega⟩
        by_cases within : pos + (wps.attrLen ie pos).toNat ≤ ielen
        · exact .inl (.next begins header here within)
        · exact .inr (by omega)
    · rw [wpsTurn_past (by omega)] at next
      cases next

theorem wps_fine (safe : Safe (wpsTurn ie ielen target copies) ielen (Good wps ielen) (wpsEntry ie)) : WpsFine ie ielen target := by
  unfold wpsEntry at safe
  by_cases vendor : ie 0 = vendorSpecific
  · by_cases oui : ouiAt ie = wps.oui
    · simp only [vendor,oui,ne_eq,not_true_eq_false,if_false] at safe
      obtain ⟨inside,start⟩ := (safe_again rfl).mp safe
      have six := (inside_span.mp (inside_append.mp inside).2).resolve_left (by decide)
      refine ⟨by omega,fun _ => ⟨by omega,?_⟩⟩
      intro _ pos begins more
      exact wps_turn_fine (wps_begins start begins) more
    · simp only [vendor,oui,ne_eq,not_true_eq_false,not_false_eq_true,if_false,if_true] at safe
      have six := (inside_span.mp (inside_append.mp safe.inside).2).resolve_left (by decide)
      exact ⟨by omega,fun _ => ⟨by omega,fun same => absurd same oui⟩⟩
  · rw [if_pos vendor] at safe
    have one := (inside_span.mp safe.inside).resolve_left (by decide)
    exact ⟨by omega,fun same => absurd same vendor⟩

theorem wps_safe (fine : WpsFine ie ielen target) (copies : Bool) :
    Safe (wpsTurn ie ielen target copies) ielen (Good wps ielen) (wpsEntry ie) := by
  obtain ⟨some_,rest⟩ := fine
  have first : Inside ielen (span 0 1) := inside_span.mpr (.inr (by omega))
  unfold wpsEntry
  by_cases vendor : ie 0 = vendorSpecific
  · obtain ⟨six,turns⟩ := rest vendor
    have both : Inside ielen (span 0 1 ++ span 2 4) := inside_append.mpr ⟨first,inside_span.mpr (.inr (by omega))⟩
    by_cases oui : ouiAt ie = wps.oui
    · simp only [vendor,oui,ne_eq,not_true_eq_false,if_false]
      exact (safe_again rfl).mpr ⟨both,wps_walk (turns oui)⟩
    · simp only [vendor,oui,ne_eq,not_true_eq_false,not_false_eq_true,if_false,if_true]
      exact (safe_done rfl).mpr ⟨both,good_none⟩
  · rw [if_pos vendor]
    exact (safe_done rfl).mpr ⟨first,good_none⟩
end Wps

theorem attr_searches_in_bounds (ie : Bytes) (ielen : Nat) (attrId : U16) (target : U8) :
    (InBounds wps ielen (rtwGetWpsAttr ie ielen attrId) (rtwGetWpsAttrContent ie ielen attrId) ↔ WpsFine ie ielen attrId) ∧
    (InBounds p2p ielen (rtwGetP2pAttr ie ielen target) (rtwGetP2pAttrContent ie ielen target) ↔ GuardedFine p2p ie ielen target) ∧
    (InBounds wfd ielen (rtwGetWfdAttr ie ielen target) (rtwGetWfdAttrContent ie ielen target) ↔ GuardedFine wfd ie ielen target) := by
  refine ⟨⟨?_,?_⟩,⟨?_,?_⟩,⟨?_,?_⟩⟩
  · intro fine
    exact wps_fine (fine.good (fun _ => rfl) (fun _ _ => rfl))
  · intro fine
    exact inBounds_good (fun _ _ => rfl) (fun _ _ => rfl) (wps_safe fine)
  · intro fine
    exact guarded_fine rfl (fine.good (fun _ => rfl) (fun _ _ => rfl))
  · intro fine
    exact inBounds_good (fun _ _ => rfl) (fun _ _ => rfl) (guarded_safe rfl fine)
  · intro fine
    exact guarded_fine rfl (fine.good (fun _ => rfl) (fun _ _ => rfl))
  · intro fine
    exact inBounds_good (fun _ _ => rfl) (fun _ _ => rfl) (guarded_safe rfl fine)

def wpsLong : Bytes := fun i => [0xDD,0x08,0x00,0x50,0xF2,0x04,0x10,0x4A,0x00,0x10].getD i 0
def p2pStalled : Bytes := fun i => [0xDD,0x07,0x50,0x6F,0x9A,0x09,0x05,0xFD,0xFF].getD i 0
def wfdStalled : Bytes := fun i => [0xDD,0x07,0x50,0x6F,0x9A,0x0A,0x05,0xFF,0xFD].getD i 0

theorem attr_searches_leave : ¬ InBounds wps 10 (rtwGetWpsAttr wpsLong 10 0x104A) (rtwGetWpsAttrContent wpsLong 10 0x104A) ∧
    ¬ InBounds p2p 9 (rtwGetP2pAttr p2pStalled 9 2) (rtwGetP2pAttrContent p2pStalled 9 2) ∧
    ¬ InBounds wfd 9 (rtwGetWfdAttr wfdStalled 9 2) (rtwGetWfdAttrContent wfdStalled 9 2) := by
  refine ⟨?_,?_,?_⟩
  · intro fine
    have kept := wps_fine (fine.good (fun _ => rfl) (fun _ _ => rfl))
    obtain ⟨_,_,within⟩ := (kept.2 (by decide)).2 (by decide) 6 .first (by decide)
    exact absurd (within (by decide)) (by decide)
  · intro fine
    have kept := guarded_fine rfl (fine.good (fun _ => rfl) (fun _ _ => rfl))
    have whole := kept (by decide) (by decide) (by decide) 6 .first (by decide)
    unfold Unwrapped at whole
    exact absurd whole (by decide)
  · intro fine
    have kept := guarded_fine rfl (fine.good (fun _ => rfl) (fun _ _ => rfl))
    have whole := kept (by decide) (by decide) (by decide) 6 .first (by decide)
    unfold Unwrapped at whole
    exact absurd whole (by decide)

end Rtl8852au.Attr
