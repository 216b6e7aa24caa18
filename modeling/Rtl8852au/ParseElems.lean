import Rtl8852au.ElemSearchSound
import Rtl8852au.Elements
import Rtl8852au.Memory

namespace Rtl8852au.Ie
open Words Scan Attr Elements Memory Function List Nat

inductive Field where
  | ssid | suppRates | fhParams | dsParams | cfParams | tim | ibssParams | challenge | erpInfo | extSuppRates
  | wpaIe | rsnIe | wme | wmeTspec | wpsIe | powerCap | suppChannels | mdie | ftie | timeoutInt
  | htCapabilities | htOperation | vendorHtCap | vhtCapabilities | vhtOperation | vhtOpModeNotify
  | heCapabilities | heOperation | rmEnCap
  deriving DecidableEq

-- The body of each element, or NULL.
abbrev Elems := Field → Option (Nat × U8)
def Elems.record (elems : Elems) (field : Field) (pos : Nat) (elen : U8) : Elems := update elems field (some (pos,elen))

inductive ParseRes where
  | ok | unknown | failed
  deriving DecidableEq

def fieldOf (id : U8) : Option Field :=
  match id.toNat with
  | 0 => some .ssid
  | 1 => some .suppRates
  | 2 => some .fhParams
  | 3 => some .dsParams
  | 4 => some .cfParams
  | 5 => some .tim
  | 6 => some .ibssParams
  | 16 => some .challenge
  | 42 => some .erpInfo
  | 50 => some .extSuppRates
  | 48 => some .rsnIe
  | 33 => some .powerCap
  | 36 => some .suppChannels
  | 54 => some .mdie
  | 55 => some .ftie
  | 56 => some .timeoutInt
  | 45 => some .htCapabilities
  | 61 => some .htOperation
  | 191 => some .vhtCapabilities
  | 192 => some .vhtOperation
  | 199 => some .vhtOpModeNotify
  | 70 => some .rmEnCap
  | _ => none

def ouiMicrosoft : List U8 := [0x00,0x50,0xf2]
def ouiBroadcom : List U8 := [0x00,0x90,0x4c]

-- The field a vendor element is for; `none` is the return value -1.
def vendorField (ie : Bytes) (pos : Nat) (elen : U8) : Option Field :=
  if elen.toNat < 4 then none
  else if memcmp ie pos ouiMicrosoft then
    match (ie (pos+3)).toNat with
    | 1 => some .wpaIe
    | 2 =>
      if elen.toNat < 5 then none
      else
        match (ie (pos+4)).toNat with
        | 0 => some .wme
        | 1 => some .wme
        | 2 => some .wmeTspec
        | _ => none
    | 4 => some .wpsIe
    | _ => none
  else if memcmp ie pos ouiBroadcom then if ie (pos+3) = 0x33 then some .vendorHtCap else none
  else none

def vendorReads (ie : Bytes) (pos : Nat) (elen : U8) : List Nat :=
  if elen.toNat < 4 then []
  else if memcmp ie pos ouiMicrosoft then
    span pos 3 ++ span (pos+3) 1 ++ if ie (pos+3) = 2 ∧ 5 ≤ elen.toNat then span (pos+4) 1 else []
  else if memcmp ie pos ouiBroadcom then span pos 3 ++ span (pos+3) 1
  else span pos 3

-- The id of an extension element is the first byte of its body, if it has one
-- or not.
def extField (ie : Bytes) (pos : Nat) : Option Field :=
  match (ie pos).toNat with
  | 35 => some .heCapabilities
  | 36 => some .heOperation
  | _ => none

def extension : U8 := 255

structure ParseAt where
  pos : Nat
  left : Nat
  elems : Elems
  unknown : Nat

def ParseAt.skip (s : ParseAt) (elen : U8) (elems : Elems) (unknown : Nat) : ParseAt :=
  ⟨s.pos + 2 + elen.toNat,s.left - 2 - elen.toNat,elems,unknown⟩

def parseTurn (ie : Bytes) (s : ParseAt) : Turn ParseAt (ParseRes × Elems) :=
  if 2 ≤ s.left then
    let id := ie s.pos
    let elen := ie (s.pos+1)
    let pos := s.pos+2
    if s.left - 2 < elen.toNat then ⟨span s.pos 2,.done (.failed,s.elems)⟩
    else if id = vendorSpecific then
      match vendorField ie pos elen with
      | some field => ⟨span s.pos 2 ++ vendorReads ie pos elen,.again (s.skip elen (s.elems.record field pos elen) s.unknown)⟩
      | none => ⟨span s.pos 2 ++ vendorReads ie pos elen,.again (s.skip elen s.elems (s.unknown+1))⟩
    else if id = extension then
      match extField ie pos with
      | some field => ⟨span s.pos 2 ++ span pos 1,.again (s.skip elen (s.elems.record field pos elen) s.unknown)⟩
      | none => ⟨span s.pos 2 ++ span pos 1,.again (s.skip elen s.elems s.unknown)⟩
    else
      match fieldOf id with
      | some field => ⟨span s.pos 2,.again (s.skip elen (s.elems.record field pos elen) s.unknown)⟩
      | none => ⟨span s.pos 2,.again (s.skip elen s.elems (s.unknown+1))⟩
  else if s.left ≠ 0 then ⟨[],.done (.failed,s.elems)⟩
  else if s.unknown ≠ 0 then ⟨[],.done (.unknown,s.elems)⟩
  else ⟨[],.done (.ok,s.elems)⟩

def parseStart (len : Nat) : ParseAt where
  pos := 0
  left := len
  elems _ := none
  unknown := 0

def rtwIeee80211ParseElems (ie : Bytes) (len : Nat) (fuel : Nat) : Option (List Nat × ParseRes × Elems) :=
  follow (parseTurn ie) fuel (parseTurn ie (parseStart len))

def bareExtension : List U8 := [extension,0]
def Recorded (len : Nat) (elems : Elems) : Prop := ∀ field pos elen, elems field = some (pos,elen) → pos + elen.toNat ≤ len

theorem record_recorded (field : Field) (recorded : Recorded len elems)
    (within : pos + elen.toNat ≤ len) : Recorded len (elems.record field pos elen) := by
  intro field' pos' elen' here
  unfold Elems.record at here
  by_cases same : field' = field
  · subst same
    rw [update_self] at here
    cases here
    exact within
  · rw [update_of_ne same] at here
    exact recorded field' pos' elen' here

section Turns
variable {ie : Bytes} {len : Nat} {s : ParseAt}

theorem vendorReads_inside (ie : Bytes) (within : pos + elen.toNat ≤ len) : Inside len (vendorReads ie pos elen) := by
  unfold vendorReads
  split
  · exact inside_nil
  · have three : Inside len (span pos 3) := inside_span.mpr (.inr (by omega))
    have fourth : Inside len (span (pos+3) 1) := inside_span.mpr (.inr (by omega))
    split
    · refine inside_append.mpr ⟨inside_append.mpr ⟨three,fourth⟩,?_⟩
      split
      · exact inside_span.mpr (.inr (by omega))
      · exact inside_nil
    · split
      · exact inside_append.mpr ⟨three,fourth⟩
      · exact three

theorem inside_more (inside : Inside len reads) : Inside (len+1) reads := by
  intro a member
  exact lt_succ_of_lt (inside a member)

theorem parseTurn_element (two : 2 ≤ s.left) (fits : (ie (s.pos+1)).toNat ≤ s.left - 2) (placed : s.pos + s.left = len)
    (recorded : Recorded len s.elems) :
    ∃ reads elems unknown, parseTurn ie s = ⟨reads,.again (s.skip (ie (s.pos+1)) elems unknown)⟩ ∧ Recorded len elems ∧
      Inside (len+1) reads ∧ (Inside len reads ↔ ¬ (s.left = 2 ∧ ie s.pos = extension)) := by
  have within : s.pos + 2 + (ie (s.pos+1)).toNat ≤ len := by omega
  have tag : Inside len (span s.pos 2) := inside_span.mpr (.inr (by omega))
  unfold parseTurn
  rw [if_pos two]
  simp only [if_neg (not_lt.mpr fits)]
  by_cases vendor : ie s.pos = vendorSpecific
  · have other : ¬ (s.left = 2 ∧ ie s.pos = extension) := by rw [vendor]; exact fun both => absurd both.2 (by decide)
    have inside := inside_append.mpr ⟨tag,vendorReads_inside ie within⟩
    rw [if_pos vendor]
    cases vendorField ie (s.pos+2) (ie (s.pos+1)) with
    | none => exact ⟨_,_,_,rfl,recorded,inside_more inside,fun _ => other,fun _ => inside⟩
    | some field => exact ⟨_,_,_,rfl,record_recorded field recorded within,inside_more inside,fun _ => other,fun _ => inside⟩
  · rw [if_neg vendor]
    by_cases ext : ie s.pos = extension
    · have more : Inside (len+1) (span s.pos 2 ++ span (s.pos+2) 1) :=
        inside_append.mpr ⟨inside_more tag,inside_span.mpr (.inr (by omega))⟩
      have exactly : Inside len (span s.pos 2 ++ span (s.pos+2) 1) ↔ ¬ (s.left = 2 ∧ ie s.pos = extension) := by
        rw [inside_append,inside_span,inside_span]
        simp only [ext,and_true]
        omega
      rw [if_pos ext]
      cases extField ie (s.pos+2) with
      | none => exact ⟨_,_,_,rfl,recorded,more,exactly⟩
      | some field => exact ⟨_,_,_,rfl,record_recorded field recorded within,more,exactly⟩
    · have other : ¬ (s.left = 2 ∧ ie s.pos = extension) := fun both => ext both.2
      rw [if_neg ext]
      cases fieldOf (ie s.pos) with
      | none => exact ⟨_,_,_,rfl,recorded,inside_more tag,fun _ => other,fun _ => tag⟩
      | some field => exact ⟨_,_,_,rfl,record_recorded field recorded within,inside_more tag,fun _ => other,fun _ => tag⟩

theorem parseTurn_broken (two : 2 ≤ s.left) (long : s.left - 2 < (ie (s.pos+1)).toNat) :
    parseTurn ie s = ⟨span s.pos 2,.done (.failed,s.elems)⟩ := by
  simp only [parseTurn,if_pos two,if_pos long]

theorem parseTurn_last (ie : Bytes) (few : ¬ 2 ≤ s.left) :
    ∃ res, parseTurn ie s = ⟨[],.done (res,s.elems)⟩ ∧ (res = .failed ↔ s.left ≠ 0) := by
  unfold parseTurn
  rw [if_neg few]
  split
  · exact ⟨.failed,rfl,by simp [*]⟩
  · split
    · exact ⟨.unknown,rfl,by simp_all⟩
    · exact ⟨.ok,rfl,by simp_all⟩
end Turns

def Parsed (len : Nat) (left : List U8) (out : ParseRes × Elems) : Prop := Recorded len out.2 ∧ (out.1 = .failed ↔ ¬ Complete left)

theorem skip_left (ie : Bytes) {s : ParseAt} (elen : U8) (elems : Elems) (unknown : Nat) :
    bytesAt ie (s.skip elen elems unknown).pos (s.skip elen elems unknown).left =
    (bytesAt ie (s.pos+2) (s.left-2)).drop elen.toNat :=
  (bytesAt_drop ie _ _ _).symm

theorem broken_incomplete (two : 2 ≤ left) (long : left - 2 < (ie (pos+1)).toNat) : ¬ Complete (bytesAt ie pos left) := by
  rw [bytesAt_two ie pos two,complete_cons,bytesAt_length]
  omega

theorem last_complete (few : ¬ 2 ≤ left) : left ≠ 0 ↔ ¬ Complete (bytesAt ie pos left) := by
  obtain rfl | rfl : left = 0 ∨ left = 1 := by omega
  · simp [complete_nil]
  · simp [bytesAt_cons,complete_single]

theorem parse_ends (s : ParseAt) (placed : s.pos + s.left = len) (recorded : Recorded len s.elems) :
    Safe (parseTurn ie) (len+1) (Parsed len (bytesAt ie s.pos s.left)) (parseTurn ie s) := by
  induction size : s.left using Nat.strongRecOn generalizing s with
  | ind n ih =>
    subst size
    by_cases two : 2 ≤ s.left
    · by_cases long : s.left - 2 < (ie (s.pos+1)).toNat
      · rw [parseTurn_broken two long,safe_stop]
        exact ⟨inside_span.mpr (.inr (by omega)),recorded,fun _ => broken_incomplete two long,fun _ => rfl⟩
      · obtain ⟨reads,elems,unknown,turn,kept,inside,_⟩ := parseTurn_element two (not_lt.mp long) placed recorded
        have rest := ih _ (by simp only [ParseAt.skip]; omega) (s.skip (ie (s.pos+1)) elems unknown)
          (by simp only [ParseAt.skip]; omega) kept rfl
        rw [turn]
        refine (safe_again rfl).mpr ⟨inside,?_⟩
        rw [skip_left] at rest
        unfold Parsed at rest ⊢
        rw [bytesAt_two ie s.pos two,complete_cons,bytesAt_length]
        simpa only [not_lt.mp long,true_and] using rest
    · obtain ⟨res,turn,failed⟩ := parseTurn_last ie two
      rw [turn,safe_stop]
      exact ⟨inside_nil,recorded,failed.trans (last_complete two)⟩

theorem bare_iff :
    ie pos :: ie (pos+1) :: bytesAt ie (pos+2) left = bareExtension ↔ ie pos = extension ∧ (ie (pos+1)).toNat = 0 ∧
    left = 0 := by
  have zero : ie (pos+1) = 0 ↔ (ie (pos+1)).toNat = 0 := BitVec.toNat_inj.symm
  have nothing : bytesAt ie (pos+2) left = [] ↔ left = 0 := by rw [←length_eq_zero_iff,bytesAt_length]
  simp only [bareExtension,cons.injEq,zero,nothing]

theorem few_bare (few : ¬ 2 ≤ left) : ¬ Ends bareExtension (bytesAt ie pos left) := by
  intro ⟨es,same⟩
  have sizes := congrArg length same
  rw [bytesAt_length,length_append] at sizes
  simp only [bareExtension,length_cons,length_nil] at sizes
  omega

theorem parse_inside (s : ParseAt) (placed : s.pos + s.left = len) (recorded : Recorded len s.elems) :
    Safe (parseTurn ie) len (fun out => Recorded len out.2) (parseTurn ie s) ↔ ¬ Ends bareExtension (bytesAt ie s.pos s.left) := by
  induction size : s.left using Nat.strongRecOn generalizing s with
  | ind n ih =>
    subst size
    by_cases two : 2 ≤ s.left
    · have listed := bytesAt_two ie s.pos two
      by_cases long : s.left - 2 < (ie (s.pos+1)).toNat
      · rw [parseTurn_broken two long,safe_stop,listed,ends_cons,bytesAt_length]
        rw [bare_iff]
        constructor
        · rintro _ (⟨_,empty,_⟩ | ⟨fits,_⟩) <;> omega
        · intro _
          exact ⟨inside_span.mpr (.inr (by omega)),recorded⟩
      · obtain ⟨reads,elems,unknown,turn,kept,_,inside⟩ := parseTurn_element two (not_lt.mp long) placed recorded
        have rest := ih _ (by simp only [ParseAt.skip]; omega) (s.skip (ie (s.pos+1)) elems unknown)
          (by simp only [ParseAt.skip]; omega) kept rfl
        rw [turn]
        refine (safe_again rfl).trans ?_
        rw [skip_left] at rest
        rw [inside,rest,listed,ends_cons,bytesAt_length,bare_iff,not_or]
        have fits := not_lt.mp long
        simp only [fits,true_and]
        refine and_congr_left' ?_
        constructor
        · intro apart bare
          exact apart ⟨by omega,bare.1⟩
        · intro apart bare
          exact apart ⟨bare.2,by omega,by omega⟩
    · obtain ⟨res,turn,_⟩ := parseTurn_last ie two
      rw [turn,safe_stop]
      exact ⟨fun _ => few_bare two,fun _ => ⟨inside_nil,recorded⟩⟩

theorem start_recorded (len : Nat) : Recorded len (parseStart len).elems := by
  intro field pos elen here
  cases here

theorem parse_bounded (ie : Bytes) (len : Nat) :
    (∃ fuel reads res elems, rtwIeee80211ParseElems ie len fuel = some (reads,res,elems) ∧ Inside len reads ∧ Recorded len elems) ↔
      ¬ Ends bareExtension (bytesAt ie 0 len) := by
  refine Iff.trans ?_ (parse_inside (parseStart len) (zero_add len) (start_recorded len))
  constructor
  · intro ⟨fuel,reads,res,elems,ended,inside,recorded⟩
    exact ⟨fuel,reads,(res,elems),ended,inside,recorded⟩
  · intro ⟨fuel,reads,(res,elems),ended,inside,recorded⟩
    exact ⟨fuel,reads,res,elems,ended,inside,recorded⟩

theorem parse_fails (ie : Bytes) (len : Nat) :
    ∃ fuel reads res elems, rtwIeee80211ParseElems ie len fuel = some (reads,res,elems) ∧
      (res = .failed ↔ ¬ Complete (bytesAt ie 0 len)) := by
  obtain ⟨fuel,reads,⟨res,elems⟩,ended,_,_,failed⟩ := parse_ends (parseStart len) (zero_add len) (start_recorded len)
  exact ⟨fuel,reads,res,elems,ended,failed⟩

-- Each search is in bounds exactly for the bytes that its own condition allows;
-- what is parsed as failed is right for all.
theorem elem_searches_in_bounds (ie : Bytes) :
    (∀ index limit, Bounded 2 limit.toNat (rtwGetIe ie index limit) ↔ IeFine ie index limit) ∧
    (∀ q inLen, Bounded 0 inLen.toNat (rtwGetIeEx q ie inLen) ↔ ExFine q ie inLen) ∧
    (∀ limit, Bounded 2 limit.toNat (rtwGetWpaIe ie limit) ↔ WpaFine ie limit) ∧
    (∀ inLen copies, Bounded 0 inLen (rtwGetWpsIe ie inLen copies) ↔ VendorFine wps.oui ie inLen) ∧
    (∀ inLen copies, Bounded 0 inLen.toNat (rtwGetP2pIe ie inLen copies) ↔ VendorFine p2p.oui ie inLen.toNat) ∧
    (∀ inLen rsnLen wpaLen,
      (∃ fuel reads r, rtwGetSecIe ie inLen rsnLen wpaLen fuel = some (reads,r) ∧ Inside inLen.toNat reads) ↔ SecFine ie inLen) ∧
    (∀ len, (∃ fuel reads res elems, rtwIeee80211ParseElems ie len fuel = some (reads,res,elems) ∧
        Inside len reads ∧ Recorded len elems) ↔ ¬ Ends bareExtension (bytesAt ie 0 len)) ∧
    (∀ len, ∃ fuel reads res elems, rtwIeee80211ParseElems ie len fuel = some (reads,res,elems) ∧
        (res = .failed ↔ ¬ Complete (bytesAt ie 0 len))) :=
  ⟨rtwGetIe_bounded ie,fun q => rtwGetIeEx_bounded q ie,rtwGetWpaIe_bounded ie,rtwGetWpsIe_bounded ie,rtwGetP2pIe_bounded ie,
    rtwGetSecIe_safe ie,parse_bounded ie,parse_fails ie⟩

def memory (bytes : List U8) : Bytes := fun i => bytes.getD i 0

def cutRates : Bytes := memory [1,8,0x82]
def cutWpa : Bytes := memory [0xDD,22,0x00,0x50,0xF2,0x01,1,0]
def cutWps : Bytes := memory [0xDD,14,0x00,0x50,0xF2,0x04,0x10]
def cutP2p : Bytes := memory [0xDD,14,0x50,0x6F,0x9A,0x09,2]
def cutRsn : Bytes := memory [0,0,0,0,0,0,0,0,100,0,1,0,0x30,20,1,0]
def bare : Bytes := memory bareExtension

theorem elem_searches_leave :
    ¬ Bounded 2 3 (rtwGetIe cutRates 1 3) ∧ ¬ Bounded 0 3 (rtwGetIeEx ⟨1,none,false,true⟩ cutRates 3) ∧
    ¬ Bounded 2 8 (rtwGetWpaIe cutWpa 8) ∧ (∀ copies, ¬ Bounded 0 7 (rtwGetWpsIe cutWps 7 copies)) ∧
    (∀ copies, ¬ Bounded 0 7 (rtwGetP2pIe cutP2p 7 copies)) ∧
    (∀ rsnLen wpaLen, ¬ ∃ fuel reads r, rtwGetSecIe cutRsn 16 rsnLen wpaLen fuel = some (reads,r) ∧ Inside 16 reads) ∧
    ¬ ∃ fuel reads res elems, rtwIeee80211ParseElems bare 2 fuel = some (reads,res,elems) ∧ Inside 2 reads ∧ Recorded 2 elems := by
  refine ⟨?_,?_,?_,?_,?_,?_,?_⟩
  · intro bounded
    have fine := (rtwGetIe_bounded cutRates 1 3).mp bounded
    exact absurd ((fine (by decide) 0 .refl).2 rfl) (by decide)
  · intro bounded
    have fine := (rtwGetIeEx_bounded ⟨1,none,false,true⟩ cutRates 3).mp bounded
    exact absurd ((fine 0 .refl (by decide)).2.1 rfl) (by decide)
  · intro bounded
    have fine := (rtwGetWpaIe_bounded cutWpa 8).mp bounded
    exact absurd ((fine (by decide) 0 .refl).2.2 ⟨rfl,by decide,by decide⟩) (by decide)
  · intro copies bounded
    have fine := (rtwGetWpsIe_bounded cutWps 7 copies).mp bounded
    exact absurd (fine 0 .refl (by decide) (by decide) ⟨by decide,by decide⟩) (by decide)
  · intro copies bounded
    have fine := (rtwGetP2pIe_bounded cutP2p 7 copies).mp bounded
    exact absurd (fine 0 .refl (by decide) (by decide) ⟨by decide,by decide⟩) (by decide)
  · intro rsnLen wpaLen bounded
    have fine := (rtwGetSecIe_safe cutRsn 16 rsnLen wpaLen).mp bounded
    exact absurd ((fine secStart .refl (by decide)).1.2.2 (by decide)) (by decide)
  · intro bounded
    exact (parse_bounded bare 2).mp bounded ⟨[],by decide⟩

end Rtl8852au.Ie
