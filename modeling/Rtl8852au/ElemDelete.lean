import Rtl8852au.ElemRemove

namespace Rtl8852au.Ie
open Words Scan Attr Elements Memory List Nat

def vendorQuery (oui : List U8) : Query := removal vendorSpecific (some oui)

-- What the search stops at: near enough, and with the OUI in what follows its
-- length byte, whether that is its own body or not.
def Hit (oui : List U8) (pre : List Element) (e : Element) (post : List Element) : Prop :=
  (encode pre).length + 5 < maxIeSz ∧ e.id = vendorSpecific ∧ oui <+: e.body ++ encode post

def Quiet (oui : List U8) (front rest : List Element) : Prop :=
  ∀ pre e post, front = pre ++ e :: post → ¬ Hit oui pre e (post ++ rest)

inductive DelTo (oui : List U8) : List Element → List Element → Prop where
  | stop : Quiet oui cur [] → DelTo oui cur cur
  | step : Hit oui pre e post → Quiet oui pre (e :: post) → DelTo oui (pre ++ post) out → DelTo oui (pre ++ e :: post) out

-- With the elements of `front` kept: each time one is to go, the search passes
-- over what is kept and reaches it, and in the end it passes over all.
def DelFine (oui : List U8) : List Element → List Element → Prop
  | front,[] => Quiet oui front []
  | front,e :: es =>
    if (vendorQuery oui).takes e then Quiet oui front (e :: es) ∧ (encode front).length + 5 < maxIeSz ∧ DelFine oui front es
    else DelFine oui (front ++ [e]) es

section Lists
variable {oui : List U8} {front pre post es : List Element} {e : Element}

theorem takes_vendor : (vendorQuery oui).takes e ↔ e.id = vendorSpecific ∧ oui <+: e.body := by
  unfold Query.takes vendorQuery removal
  dsimp only
  rw [Bool.and_eq_true,decide_eq_true_iff,decide_eq_true_iff]

theorem takes_hit (takes : (vendorQuery oui).takes e) : Hit oui pre e post ↔ (encode pre).length + 5 < maxIeSz := by
  obtain ⟨id,body⟩ := takes_vendor.mp takes
  exact ⟨And.left,fun near => ⟨near,id,body.trans (prefix_append _ _)⟩⟩

theorem DelTo.sublist (path : DelTo oui es out) : out.Sublist es := by
  induction path with
  | stop _ => exact List.Sublist.refl _
  | step _ _ _ ih => exact ih.trans (List.Sublist.append_left (sublist_cons_self _ _) _)

theorem kept_count (sub : out.Sublist (pre ++ post ++ e :: es))
    (kept : ∀ y ∈ pre ++ x :: post, (vendorQuery oui).spares y) (gone : (vendorQuery oui).spares e = false) :
    out ≠ (pre ++ x :: post) ++ es.filter (vendorQuery oui).spares := by
  intro same
  have fewer := (sub.filter (vendorQuery oui).spares).length_le
  have all : (pre ++ x :: post).filter (vendorQuery oui).spares = pre ++ x :: post := filter_eq_self.mpr kept
  have front : (pre ++ post).filter (vendorQuery oui).spares = pre ++ post := by
    refine filter_eq_self.mpr fun y member => kept y ?_
    obtain before | after := mem_append.mp member
    · exact mem_append_left _ before
    · exact mem_append_right _ (mem_cons_of_mem _ after)
  rw [same,filter_append,all,filter_append,front,filter_cons_of_neg (by simp [gone]),filter_filter] at fewer
  simp at fewer

theorem delTo_right (path : DelTo oui (front ++ es) out) (kept : ∀ x ∈ front, (vendorQuery oui).spares x) :
    out = front ++ es.filter (vendorQuery oui).spares ↔ DelFine oui front es := by
  induction es generalizing front with
  | nil =>
    rw [append_nil] at path
    rw [filter_nil,append_nil,DelFine]
    cases path with
    | stop quiet => exact ⟨fun _ => quiet,fun _ => rfl⟩
    | @step pre e post _ hit _ rest =>
      constructor
      · intro same
        have fewer := rest.sublist.length_le
        rw [same] at fewer
        simp at fewer
      · intro quiet
        exact absurd (by rw [append_nil]; exact hit) (quiet pre e post rfl)
  | cons e es ih =>
    cases takes : (vendorQuery oui).takes e with
    | false =>
      have spared : (vendorQuery oui).spares e := by simp [Query.spares,takes]
      rw [DelFine,if_neg (by simp [takes]),filter_cons_of_pos spared]
      have longer : ∀ x ∈ front ++ [e], (vendorQuery oui).spares x := by
        intro x member
        obtain before | here := mem_append.mp member
        · exact kept x before
        · rw [mem_singleton.mp here]
          exact spared
      have next := ih (show DelTo oui ((front ++ [e]) ++ es) out by simpa using path) longer
      rw [append_assoc] at next
      exact next
    | true =>
      have gone : (vendorQuery oui).spares e = false := by simp [Query.spares,takes]
      rw [DelFine,if_pos takes,filter_cons_of_neg (by simp [gone])]
      generalize whole : front ++ e :: es = cur at path
      cases path with
      | stop quiet =>
        constructor
        · intro same
          rw [←whole,append_cancel_left_eq] at same
          have fewer := length_filter_le (vendorQuery oui).spares es
          rw [←same] at fewer
          simp at fewer
        · rintro ⟨_,near,_⟩
          exact absurd ((takes_hit takes).mpr near) (quiet front e es whole.symm)
      | @step pre x post _ hit quiet rest =>
        obtain ⟨more,behind,tail⟩ | ⟨more,behind,tail⟩ := append_eq_append_iff.mp whole
        · cases more with
          | nil =>
            rw [append_nil] at behind
            cases tail
            subst behind
            rw [ih rest kept]
            exact ⟨fun fine => ⟨quiet,hit.1,fine⟩,fun fine => fine.2.2⟩
          | cons y more =>
            -- The element was passed over, and it is nearer than the hit.
            cases tail
            refine absurd ((takes_hit takes).mpr ?_) (quiet front e more behind)
            have near := hit.1
            rw [behind,encode_append,length_append] at near
            omega
        · cases more with
          | nil =>
            rw [append_nil] at behind
            cases tail
            subst behind
            rw [ih rest kept]
            exact ⟨fun fine => ⟨quiet,hit.1,fine⟩,fun fine => fine.2.2⟩
          | cons y more =>
            -- An element that is to stay was hit.
            rw [cons_append,cons.injEq] at tail
            obtain ⟨rfl,rfl⟩ := tail
            subst behind
            constructor
            · intro same
              have sub := rest.sublist
              rw [←append_assoc] at sub
              exact absurd same (kept_count sub kept gone)
            · rintro ⟨passed,_⟩
              exact absurd hit (passed pre x more rfl)
end Lists

def vendorSearch (oui : List U8) (ie : Bytes) (inLen : Int) (copies : Bool) (fuel : Nat) : Option (List Nat × Found) :=
  if inLen < 0 then some ([],none)
  else follow (vendorTurn oui copies ie inLen.toNat) fuel (vendorEntry oui copies ie inLen.toNat)

section Loop
variable {oui : List U8} {buf : Bytes} {cur : List Element}

theorem vendorHit_list (short : oui.length = 4) (holds : Holds buf pos (e :: post))
    (ends : n = pos + (encode (e :: post)).length) :
    vendorHit oui buf n pos e ↔ pos+5 < maxIeSz ∧ e.id = vendorSpecific ∧ oui <+: e.body ++ encode post := by
  have behind : (e.body ++ encode post).length + (pos+2) = n := by
    rw [ends,encode_size,length_append]
    unfold Element.size
    omega
  rw [vendorHit_iff]
  unfold IsVendor
  rw [holds.id,memcmp_iff]
  constructor
  · intro ⟨within,near,id,bytes⟩
    exact ⟨near,id,(prefix_bytes holds (by omega)).mp bytes⟩
  · intro ⟨near,id,front⟩
    have long := front.length_le
    exact ⟨by omega,near,id,(prefix_bytes holds (by omega)).mpr front⟩

theorem signed_length (fits : n < 2 ^ 31) : (BitVec.ofNat 32 n).toInt = n := by
  have size : (BitVec.ofNat 32 n).toNat = n := mod_eq_of_lt (by omega)
  rw [BitVec.toInt_eq_toNat_of_lt (by omega),size]

theorem vendorSearch_locates {inner : Nat} (short : oui.length = 4) (holds : Holds buf 0 cur) (fits : (encode cur).length < 2 ^ 31)
    (enough : cur.length ≤ inner) :
    (vendorSearch oui buf (BitVec.ofNat 32 (encode cur).length).toInt false inner).map Prod.snd =
      some ((locate (vendorHit oui buf (encode cur).length) 0 cur).map wholeFound) := by
  rw [signed_length fits]
  unfold vendorSearch
  rw [if_neg (by omega),Int.toNat_natCast]
  exact vendor_locates short false holds enough

theorem passed_quiet (short : oui.length = 4) (rest : List Element) (holds : Holds buf 0 (pre ++ rest))
    (passed : locate (vendorHit oui buf (encode (pre ++ rest)).length) 0 pre = none) : Quiet oui pre rest := by
  intro left e right split hit
  have miss := locate_none.mp passed left e right split
  rw [zero_add] at miss
  have whole : pre ++ rest = left ++ e :: (right ++ rest) := by rw [split]; simp
  have there := holds_at holds whole
  rw [zero_add] at there
  have ends := encode_split 0 left e (right ++ rest)
  have taken := (vendorHit_list short there (n := (encode (pre ++ rest)).length) (by rw [whole]; omega)).mpr hit
  rw [miss] at taken
  cases taken

theorem delLoop_deletes (short : oui.length = 4) (inner : Nat) (few : cur.length ≤ inner) (holds : Holds buf 0 cur)
    (fits : (encode cur).length < 2 ^ 31) (enough : cur.length < fuel) :
    ∃ out s, DelTo oui cur out ∧ delLoop (vendorSearch oui) inner fuel ⟨buf,(encode cur).length⟩ = some s ∧
      Holds s.buf 0 out ∧ s.len = (encode out).length := by
  induction size : cur.length using Nat.strongRecOn generalizing cur buf fuel with
  | ind n ih =>
    have walk := vendorSearch_locates short holds fits few
    rw [Option.map_eq_some_iff] at walk
    obtain ⟨⟨reads,found⟩,call,same⟩ := walk
    cases fuel with
    | zero => omega
    | succ fuel =>
      rw [delLoop,call]
      cases located : locate (vendorHit oui buf (encode cur).length) 0 cur with
      | none =>
        rw [located] at same
        dsimp only [Option.map_none] at same
        rw [same]
        have quiet := passed_quiet short [] (by rw [append_nil]; exact holds) (by rw [append_nil]; exact located)
        exact ⟨cur,_,.stop quiet,rfl,holds,rfl⟩
      | some f =>
        obtain ⟨at_,e⟩ := f
        rw [located] at same
        obtain ⟨pre,post,split,placed,taken,before⟩ := locate_some located
        rw [zero_add] at placed
        subst placed split
        have some_ := size_pos e
        have sizes := encode_three pre post e
        have left : (encode (pre ++ e :: post)).length - ((encode pre).length + e.size) = (encode post).length := by omega
        have whole : (encode (pre ++ e :: post)).length - e.size = (encode (pre ++ post)).length := by
          rw [encode_append pre post,length_append]
          omega
        have there := holds_at holds rfl
        rw [zero_add] at there
        have hit := (vendorHit_list short there (by rw [encode_size]; omega)).mp taken
        have quiet := passed_quiet short (e :: post) holds before
        dsimp only [Option.map_some,wholeFound] at same
        rw [same]
        dsimp only
        rw [if_neg (by omega),left,whole]
        obtain ⟨front,_⟩ := holds_append.mp holds
        have moved : Holds (put (closeUp buf (encode pre).length e.size (encode post).length)
            ((encode pre).length + (encode post).length) (replicate e.size 0)) 0 (pre ++ post) := by
          refine holds_append.mpr ⟨?_,?_⟩
          · refine holds_agree front fun i _ small => ?_
            rw [put_before _ _ (by omega),closeUp_before (by omega)]
          · rw [zero_add]
            exact holds_agree (closeUp_holds there) fun i _ small => put_before _ _ (by omega)
        have shorter : (pre ++ post).length + 1 = (pre ++ e :: post).length := by simp; omega
        obtain ⟨out,s,path,ended,held,length⟩ := ih (pre ++ post).length (by omega) (by omega) moved
          (by rw [←whole]; omega) (show (pre ++ post).length < fuel by omega) rfl
        exact ⟨out,s,.step hit quiet path,ended,held,length⟩
end Loop

theorem vendorSearch_agree {oui : List U8} (first : vendorSearch oui ie inLen copies fuel = some one)
    (second : vendorSearch oui ie inLen copies fuel' = some two) : one = two := by
  unfold vendorSearch at first second
  split at first
  · rename_i negative
    rw [if_pos negative] at second
    exact Option.some.inj (first.symm.trans second)
  · rename_i some_
    rw [if_neg some_] at second
    exact follow_agree first second

theorem delLoop_agree {oui : List U8} {inner inner' : Nat}
    (first : delLoop (vendorSearch oui) inner fuel s = some one) (second : delLoop (vendorSearch oui) inner' fuel' s = some two) :
    one = two := by
  induction fuel generalizing fuel' s with
  | zero => cases first
  | succ fuel ih =>
    cases fuel' with
    | zero => cases second
    | succ fuel' =>
      rw [delLoop] at first second
      cases call : vendorSearch oui s.buf (BitVec.ofNat 32 s.len).toInt false inner with
      | none => simp [call] at first
      | some out =>
        cases call' : vendorSearch oui s.buf (BitVec.ofNat 32 s.len).toInt false inner' with
        | none => simp [call'] at second
        | some out' =>
          rw [call] at first
          rw [call',←vendorSearch_agree call call'] at second
          obtain ⟨reads,found⟩ := out
          cases found with
          | none => exact Option.some.inj (first.symm.trans second)
          | some f =>
            obtain ⟨target,targetLen⟩ := f
            dsimp only at first second
            split at first
            · rename_i empty
              rw [if_pos empty] at second
              exact Option.some.inj (first.symm.trans second)
            · rename_i held
              rw [if_neg held] at second
              exact ih first second

def Series.own (s : Series) : Ies := ⟨startAt s.buf s.off,(encode s.elems).length⟩

def Deleted (oui : List U8) (s : Series) (out : Ies) : Prop :=
  Holds out.buf 0 (s.elems.filter (vendorQuery oui).spares) ∧ out.len = (encode (s.elems.filter (vendorQuery oui).spares)).length

theorem del_exact {oui : List U8} (short : oui.length = 4) (s : Series) :
    (∃ fuel out, delLoop (vendorSearch oui) fuel fuel s.own = some out ∧ Deleted oui s out) ↔ DelFine oui [] s.elems := by
  have fits := s.fits
  obtain ⟨out,left,path,ended,held,length⟩ := delLoop_deletes short (s.elems.length+1) (le_succ _)
    (holds_startAt.mpr s.holds) (by omega) (lt_succ_self s.elems.length)
  have right : out = [] ++ s.elems.filter (vendorQuery oui).spares ↔ DelFine oui [] s.elems := delTo_right path (by simp)
  rw [nil_append] at right
  rw [←right]
  constructor
  · intro ⟨fuel,out',ended',list,size⟩
    have same := delLoop_agree ended ended'
    subst same
    exact held.same list (length.symm.trans size)
  · intro same
    refine ⟨s.elems.length+1,left,ended,?_,?_⟩
    · rw [←same]
      exact held
    · rw [←same]
      exact length

-- Each routine edits the list, exactly where its own condition holds.
theorem ie_editing_refines (alloc : Nat → Bool) (s : Series) :
    (∀ index : Int, ∃ fuel reads, rtwGetIeFrom s.buf s.off index ((encode s.elems).length : Nat) fuel =
      some (reads,(locate (hasIndex index) s.off s.elems).map ieFound)) ∧
    (∀ q : Query, (∃ fuel reads found, rtwGetIeExFrom q s.buf s.off (encode s.elems).length fuel = some (reads,found) ∧
      found.map (fun f => (s.off + f.1,f.2)) = (locate (fun _ e => q.takes e) s.off s.elems).map wholeFound) ↔ q.Clear s) ∧
    (∀ new : Element, (∃ fuel out, rtwIesUpdateIe alloc s.ies s.off new fuel = some out ∧
      Became s out.1 (replaceFirst new s.elems)) ↔ UpdateFine alloc s new) ∧
    (∀ eid oui, (∃ fuel out, rtwIesRemoveIe s.ies s.off eid oui fuel = some out ∧
      Became s out.1 (s.elems.filter (removal eid oui).spares)) ↔ Unconfused (removal eid oui) s.buf s.off s.elems) ∧
    ((∃ fuel out, rtwDelP2pIe s.own fuel = some out ∧ Deleted p2p.oui s out) ↔ DelFine p2p.oui [] s.elems) ∧
    ((∃ fuel out, rtwDelWfdIe s.own fuel = some out ∧ Deleted wfd.oui s out) ↔ DelFine wfd.oui [] s.elems) ∧
    (∀ new : Element, (∃ fuel out, rtwUpdateExtCapIe alloc s.ies s.off new fuel = some out ∧ ExtCapRight s new out) ↔
      ExtCapFine alloc s new) :=
  ⟨get_ie_first s,fun q => get_ie_ex_first q s,update_exact alloc s,remove_exact s,del_exact rfl s,del_exact rfl s,ext_cap_exact alloc s⟩

theorem memory_holds (es : List Element) : Holds (memory (encode es)) 0 es := by
  apply ext_getElem?
  intro i
  by_cases inside : i < (encode es).length
  · rw [bytesAt_get _ _ inside,getElem?_eq_getElem inside]
    simp [memory,inside]
  · rw [getElem?_eq_none (by simp; omega),getElem?_eq_none (by omega)]

def seriesOf (es : List Element) (fits : 0 + (encode es).length < 2 ^ 31) : Series where
  buf := memory (encode es)
  off := 0
  elems := es
  holds := memory_holds es
  fits := fits

def shortVendor : Element := ⟨vendorSpecific,[0x50,0x6F],by decide⟩
def completesP2p : Element := ⟨0x9A,replicate 9 0,by decide⟩
def completesWfd : Element := ⟨0x9A,replicate 10 0,by decide⟩
def emptyBody : Element := ⟨0,[],by decide⟩
def oneByte (id : U8) : Element := ⟨id,[1],by decide⟩

def splitP2p : Series := seriesOf [shortVendor,completesP2p] (by decide)
def splitWfd : Series := seriesOf [shortVendor,completesWfd] (by decide)
def bodyless : Series := seriesOf [emptyBody] (by decide)
def twoExtCaps : Series := seriesOf [oneByte extCap,oneByte extCap] (by decide)
def p2pQuery : Query := vendorQuery p2p.oui

theorem split_unfine {oui : List U8} (one : (vendorQuery oui).takes e = false) (two : (vendorQuery oui).takes x = false)
    (hit : Hit oui [] e [x]) : ¬ DelFine oui [] [e,x] := by
  intro fine
  rw [DelFine,if_neg (by simp [one]),DelFine,if_neg (by simp [two]),DelFine] at fine
  exact fine [] e [x] rfl hit

theorem ie_editing_fails :
    (¬ ∃ fuel reads found, rtwGetIeExFrom p2pQuery splitP2p.buf splitP2p.off (encode splitP2p.elems).length fuel = some (reads,found) ∧
      found.map (fun f => (splitP2p.off + f.1,f.2)) =
        (locate (fun _ e => p2pQuery.takes e) splitP2p.off splitP2p.elems).map wholeFound) ∧
    (¬ ∃ fuel out, rtwIesUpdateIe (fun _ => true) bodyless.ies bodyless.off (oneByte 0) fuel = some out ∧
      Became bodyless out.1 (replaceFirst (oneByte 0) bodyless.elems)) ∧
    (¬ ∃ fuel out, rtwIesRemoveIe splitP2p.ies splitP2p.off vendorSpecific (some p2p.oui) fuel = some out ∧
      Became splitP2p out.1 (splitP2p.elems.filter (removal vendorSpecific (some p2p.oui)).spares)) ∧
    (¬ ∃ fuel out, rtwDelP2pIe splitP2p.own fuel = some out ∧ Deleted p2p.oui splitP2p out) ∧
    (¬ ∃ fuel out, rtwDelWfdIe splitWfd.own fuel = some out ∧ Deleted wfd.oui splitWfd out) ∧
    ¬ ∃ fuel out, rtwUpdateExtCapIe (fun _ => true) twoExtCaps.ies twoExtCaps.off (oneByte extCap) fuel = some out ∧
      ExtCapRight twoExtCaps (oneByte extCap) out := by
  have confused : p2pQuery.taken splitP2p.buf 0 shortVendor := by decide
  refine ⟨?_,?_,?_,?_,?_,?_⟩
  · intro right
    have clear := (get_ie_ex_first p2pQuery splitP2p).mp right [] shortVendor [completesP2p] rfl nofun (by decide)
    exact absurd (clear.symm.trans confused) (by decide)
  · intro right
    have fine := (update_exact _ bodyless (oneByte 0)).mp right [] emptyBody [] rfl nofun rfl
    exact absurd fine.1 (by decide)
  · intro right
    have clear := (remove_exact splitP2p vendorSpecific (some p2p.oui)).mp right
    change Unconfused p2pQuery splitP2p.buf 0 [shortVendor,completesP2p] at clear
    rw [Unconfused,if_neg (by decide)] at clear
    exact absurd (clear.1.symm.trans confused) (by decide)
  · intro right
    exact split_unfine (by decide) (by decide) (by unfold Hit; decide) ((del_exact rfl splitP2p).mp right)
  · intro right
    exact split_unfine (by decide) (by decide) (by unfold Hit; decide) ((del_exact rfl splitWfd).mp right)
  · intro right
    have fine := (ext_cap_exact _ twoExtCaps (oneByte extCap)).mp right (by decide) [] (oneByte extCap) [oneByte extCap] rfl rfl
    exact absurd (fine.1 (oneByte extCap) (by decide)) (by decide)

end Rtl8852au.Ie
