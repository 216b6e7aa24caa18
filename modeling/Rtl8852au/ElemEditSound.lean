import Rtl8852au.ElemWalk

namespace Rtl8852au.Ie
open Words Scan Attr Elements Memory List Option Nat

structure Series where
  buf : Bytes
  off : Nat
  elems : List Element
  holds : Holds buf off elems
  fits : off + (encode elems).length < 2 ^ 31

def Series.len (s : Series) : Nat := s.off + (encode s.elems).length
def Series.ies (s : Series) : Ies := ⟨s.buf,s.len⟩

structure Became (s : Series) (out : Ies) (es : List Element) : Prop where
  holds : Holds out.buf s.off es
  length : out.len = s.off + (encode es).length
  front : ∀ i < s.off, out.buf i = s.buf i

def Query.takes (q : Query) (e : Element) : Bool :=
  decide (e.id = q.eid) && match q.oui with
    | none => true
    | some oui => decide (oui <+: e.body)

def Query.taken (q : Query) (buf : Bytes) (pos : Nat) (e : Element) : Bool :=
  decide (e.id = q.eid) && match q.oui with
    | none => true
    | some oui => decide (bytesAt buf (pos+2) oui.length = oui)

section Taken
variable {q : Query} {buf : Bytes} {pos start : Nat} {e : Element} {es : List Element}

theorem prefix_bytes {oui : List U8} (holds : Holds buf pos (e :: es)) (long : oui.length ≤ (e.body ++ encode es).length) :
    bytesAt buf (pos+2) oui.length = oui ↔ oui <+: e.body ++ encode es := by
  have behind := holds.behind
  obtain ⟨rest,whole⟩ := Nat.exists_eq_add_of_le long
  rw [whole,bytesAt_append] at behind
  rw [←behind]
  constructor
  · intro same
    rw [same]
    exact prefix_append _ _
  · intro front
    have sizes := bytesAt_length buf (pos+2) oui.length
    have taken := prefix_append (bytesAt buf (pos+2) oui.length) (bytesAt buf (pos + 2 + oui.length) rest)
    exact (prefix_of_prefix_length_le taken front (le_of_eq sizes)).eq_of_length sizes

theorem takes_taken (holds : Holds buf pos (e :: es)) (takes : q.takes e) : q.taken buf pos e := by
  unfold Query.takes at takes
  unfold Query.taken
  cases oui : q.oui with
  | none => simpa [oui] using takes
  | some oui' =>
    simp only [oui,Bool.and_eq_true,decide_eq_true_eq] at takes ⊢
    refine ⟨takes.1,(prefix_bytes holds ?_).mpr (takes.2.trans (prefix_append _ _))⟩
    have shorter := takes.2.length_le
    rw [length_append]
    omega

theorem exHit_taken (holds : Holds buf (start+pos) (e :: es)) (fits : pos + (encode (e :: es)).length < 2 ^ 32) :
    exHit q (startAt buf start) pos e = q.taken buf (start+pos) e := by
  have size := size_pos e
  rw [encode_size] at fits
  have two : BitVec.toNat (2 : U32) = 2 := rfl
  have first : (atOffset pos).toNat = pos := atOffset_toNat (by omega)
  have body : (atOffset pos + 2).toNat = pos + 2 := by
    rw [BitVec.toNat_add,two,first]
    omega
  unfold exHit Query.matches Query.ouiMatches Query.taken
  rw [first,body]
  have id : startAt buf start pos = e.id := holds.id
  rw [id]
  congr 1
  · simp [eq_comm]
  · cases q.oui with
    | none => rfl
    | some oui =>
      have same : bytesAt (startAt buf start) (pos+2) oui.length = bytesAt buf (start + pos + 2) oui.length :=
        bytesAt_congr fun i _ => by unfold startAt; congr 1; omega
      rw [Bool.eq_iff_iff,memcmp_iff,decide_eq_true_iff,same]

theorem holds_startAt : Holds (startAt buf start) 0 es ↔ Holds buf start es := by
  have same : bytesAt (startAt buf start) 0 (encode es).length = bytesAt buf start (encode es).length :=
    bytesAt_congr fun i _ => by unfold startAt; congr 1; omega
  unfold Holds
  rw [same]

theorem holds_at (holds : Holds buf start es) (split : es = pre ++ e :: post) :
    Holds buf (start + (encode pre).length) (e :: post) := by
  rw [split] at holds
  exact (holds_append.mp holds).2

theorem encode_split (start : Nat) (pre : List Element) (e : Element) (post : List Element) :
    start + (encode pre).length + (encode (e :: post)).length =
    start + (encode (pre ++ e :: post)).length := by
  rw [encode_append,length_append]
  omega

theorem rtwGetIeExFrom_locates (holds : Holds buf start es) (fits : (encode es).length < 2 ^ 32) (enough : es.length ≤ fuel) :
    (rtwGetIeExFrom q buf start (encode es).length fuel).map Prod.snd =
      some ((locate (exHit q (startAt buf start)) 0 es).map wholeFound) ∧
    locate (q.taken buf) start es = (locate (exHit q (startAt buf start)) 0 es).map fun f => (start+f.1,f.2) := by
  refine ⟨rtwGetIeEx_locates (holds_startAt.mpr holds) fits enough,?_⟩
  refine locate_shift (q.taken buf) (exHit q (startAt buf start)) start 0 es ?_
  intro pre e post split
  have sizes := encode_split 0 pre e post
  rw [split] at fits
  rw [zero_add] at sizes ⊢
  exact (exHit_taken (holds_at holds split) (by omega)).symm
end Taken

theorem get_ie_first (s : Series) (index : Int) : ∃ fuel reads,
    rtwGetIeFrom s.buf s.off index ((encode s.elems).length : Nat) fuel =
    some (reads,(locate (hasIndex index) s.off s.elems).map ieFound) := by
  have walk := rtwGetIeFrom_locates index s.holds (le_refl s.elems.length)
  rw [map_eq_some_iff] at walk
  obtain ⟨⟨reads,found⟩,call,same⟩ := walk
  exact ⟨_,reads,by rw [call,←same]⟩

-- `rtw_get_ie_ex` is right where no element before the first match, only with
-- the right id, is followed in memory by bytes that complete the OUI.
def Query.Clear (q : Query) (s : Series) : Prop :=
  ∀ pre e post, s.elems = pre ++ e :: post → (∀ x ∈ pre, q.takes x = false) → q.takes e = false →
    q.taken s.buf (s.off + (encode pre).length) e = false

theorem locate_takes_none {q : Query} {pos : Nat} {es : List Element} :
    locate (fun _ e => q.takes e) pos es = none ↔ ∀ x ∈ es, q.takes x = false := by
  rw [locate_none]
  constructor
  · intro all x member
    obtain ⟨pre,post,split⟩ := append_of_mem member
    exact all pre x post split
  · intro all pre e post split
    exact all e (by rw [split]; simp)

theorem locate_taken (q : Query) (s : Series) :
    locate (q.taken s.buf) s.off s.elems = locate (fun _ e => q.takes e) s.off s.elems ↔ q.Clear s := by
  rw [locate_same (fun pre e post split takes => takes_taken (holds_at s.holds split) takes)]
  unfold Query.Clear
  simp only [locate_takes_none]

theorem get_ie_ex_first (q : Query) (s : Series) :
    (∃ fuel reads found, rtwGetIeExFrom q s.buf s.off (encode s.elems).length fuel = some (reads,found) ∧
      found.map (fun f => (s.off+f.1,f.2)) = (locate (fun _ e => q.takes e) s.off s.elems).map wholeFound) ↔ q.Clear s := by
  have fits := s.fits
  obtain ⟨walk,shifted⟩ := rtwGetIeExFrom_locates (q := q) s.holds (by omega) (le_refl s.elems.length)
  have places : ∀ f, (wholeFound f).1 = f.1 := fun _ => rfl
  have seen : ((locate (exHit q (startAt s.buf s.off)) 0 s.elems).map wholeFound).map (fun f => (s.off+f.1,f.2)) =
      (locate (q.taken s.buf) s.off s.elems).map wholeFound := by
    rw [shifted,Option.map_map,Option.map_map]
    rfl
  rw [←locate_taken,←locate_place wholeFound places,←seen]
  constructor
  · intro ⟨fuel,reads,found,call,right⟩
    rw [map_eq_some_iff] at walk
    obtain ⟨out,there,same⟩ := walk
    rw [←same,←right,follow_agree there call]
  · intro right
    rw [map_eq_some_iff] at walk
    obtain ⟨⟨reads,found⟩,call,same⟩ := walk
    exact ⟨_,reads,found,call,by rw [←right,←same]⟩

def replaceFirst (new : Element) : List Element → List Element
  | [] => []
  | e :: es => if e.id = new.id then new :: es else e :: replaceFirst new es

theorem replaceFirst_none (none_ : ∀ x ∈ es, x.id ≠ new.id) : replaceFirst new es = es := by
  induction es with
  | nil => rfl
  | cons e es ih =>
    rw [replaceFirst,if_neg (none_ e (mem_cons_self ..)),ih (fun x member => none_ x (mem_cons_of_mem _ member))]

theorem replaceFirst_split (before : ∀ x ∈ pre, x.id ≠ new.id) (here : e.id = new.id) :
    replaceFirst new (pre ++ e :: post) = pre ++ new :: post := by
  induction pre with
  | nil => simp [replaceFirst,here]
  | cons x pre ih =>
    rw [cons_append,replaceFirst,if_neg (before x (mem_cons_self ..)),
      ih (fun y member => before y (mem_cons_of_mem _ member))]
    rfl

def rewritten (buf : Bytes) (target : Nat) (new : Element) : Bytes :=
  put (put buf (target+2) new.body) (target+1) [BitVec.ofNat 8 new.body.length]

section Rewritten
variable {buf : Bytes} {target : Nat} {new : Element}

theorem rewritten_before (before : i ≤ target) : rewritten buf target new i = buf i := by
  unfold rewritten
  rw [put_before _ _ (by omega),put_before _ _ (by omega)]

theorem rewritten_after (after : target + new.size ≤ i) : rewritten buf target new i = buf i := by
  unfold Element.size at after
  unfold rewritten
  rw [put_after _ _ (by simp; omega),put_after _ _ (by omega)]

theorem rewritten_holds (id : buf target = new.id) : Holds (rewritten buf target new) target [new] := by
  refine holds_single.mpr ⟨(rewritten_before (le_refl _)).trans id,?_,?_⟩
  · exact put_inside (put buf (target+2) new.body) [BitVec.ofNat 8 new.body.length] (target+1) (i := 0) (by simp)
  · unfold rewritten
    rw [bytesAt_put_after _ _ (by simp)]
    exact bytesAt_put buf (target+2) new.body
end Rewritten

theorem holds_three {start : Nat} : Holds buf start (pre ++ e :: post) ↔
      Holds buf start pre ∧ Holds buf (start + (encode pre).length) [e] ∧ Holds buf (start + (encode pre).length + e.size) post := by
  rw [holds_append,holds_cons]

theorem holds_agree (holds : Holds buf pos es)
    (same : ∀ i, pos ≤ i → i < pos + (encode es).length → buf' i = buf i) : Holds buf' pos es :=
  holds.congr (bytesAt_congr fun i small => same (pos+i) (by omega) (by omega))

theorem single_size (e : Element) : (encode [e]).length = e.size := by simp [Element.size]

theorem encode_three (pre post : List Element) (e : Element) :
    (encode (pre ++ e :: post)).length = (encode pre).length + e.size + (encode post).length := by
  rw [encode_append,length_append,encode_size]
  omega

theorem rewritten_same {start : Nat}
    (holds : Holds buf start (pre ++ e :: post)) (id : e.id = new.id) (sizes : e.body.length = new.body.length) :
    Holds (rewritten buf (start + (encode pre).length) new) start (pre ++ new :: post) := by
  obtain ⟨front,here,back⟩ := holds_three.mp holds
  have size : e.size = new.size := by unfold Element.size; omega
  refine holds_three.mpr ⟨?_,?_,?_⟩
  · exact holds_agree front fun i _ small => rewritten_before (by omega)
  · exact rewritten_holds ((holds_single.mp here).1.trans id)
  · rw [←size]
    exact holds_agree back fun i above _ => rewritten_after (by omega)

theorem rewritten_moved {start : Nat} (holds : Holds buf start (pre ++ e :: post)) (id : e.id = new.id) :
    Holds (put (rewritten buf (start + (encode pre).length) new) (start + (encode pre).length + 2 + new.body.length)
        (bytesAt buf (start + (encode pre).length + 2 + e.body.length) (encode post).length)) start (pre ++ new :: post) := by
  obtain ⟨front,here,back⟩ := holds_three.mp holds
  refine holds_three.mpr ⟨?_,?_,?_⟩
  · refine holds_agree front fun i _ small => ?_
    rw [put_before _ _ (by omega),rewritten_before (by omega)]
  · refine holds_agree (rewritten_holds ((holds_single.mp here).1.trans id)) fun i _ small => ?_
    rw [single_size] at small
    unfold Element.size at small
    rw [put_before _ _ (by omega)]
  · have place : start + (encode pre).length + new.size = start + (encode pre).length + 2 + new.body.length := by
      unfold Element.size; omega
    have behind : start + (encode pre).length + e.size = start + (encode pre).length + 2 + e.body.length := by
      unfold Element.size; omega
    rw [behind] at back
    rw [place]
    have written := bytesAt_put (rewritten buf (start + (encode pre).length) new) (start + (encode pre).length + 2 + new.body.length)
      (bytesAt buf (start + (encode pre).length + 2 + e.body.length) (encode post).length)
    rw [bytesAt_length] at written
    exact written.trans back

section
variable (alloc : Nat → Bool)

-- The first element with the id has a body, or gets none, and where its length
-- changes there is memory for a copy of what is behind it.
def UpdateFine (s : Series) (new : Element) : Prop :=
  ∀ pre e post, s.elems = pre ++ e :: post → (∀ x ∈ pre, x.id ≠ new.id) → e.id = new.id →
    (e.body ≠ [] ∨ new.body = []) ∧ (e.body.length = new.body.length ∨ alloc (encode post).length)

def updateFound (s : Ies) (offset : Nat) (new : Element) : Found → Ies × Bool
  | none => (s,false)
  | some (target,targetLen) =>
    if targetLen = 0 then (s,false) else updateAt alloc s offset (s.len-offset) target targetLen new.body

theorem rtwIesUpdateIe_eq (s : Ies) (offset : Nat) (new : Element) (fuel : Nat) (some_ : offset < s.len) :
    rtwIesUpdateIe alloc s offset new fuel =
      ((rtwGetIeFrom s.buf offset new.id.toNat (s.len - offset : Nat) fuel).map Prod.snd).map (updateFound alloc s offset new) := by
  unfold rtwIesUpdateIe
  rw [if_neg (by omega)]
  cases rtwGetIeFrom s.buf offset new.id.toNat (s.len - offset : Nat) fuel with
  | none => rfl
  | some out =>
    obtain ⟨reads,found⟩ := out
    cases found with
    | none => rfl
    | some found =>
      obtain ⟨target,targetLen⟩ := found
      simp only [map_some,updateFound]
      split <;> rfl

theorem became_same (s : Series) : Became s s.ies s.elems := ⟨s.holds,rfl,fun _ _ => rfl⟩

theorem became_one (first : Became s out one) (second : Became s out two) : one = two := by
  have sizes := first.length.symm.trans second.length
  exact first.holds.same second.holds (by omega)

theorem hasIndex_id (id : U8) (pos : Nat) (e : Element) : hasIndex id.toNat pos e ↔ e.id = id := by
  unfold hasIndex
  rw [decide_eq_true_iff,Int.ofNat_inj]
  exact BitVec.toNat_inj

theorem hasIndex_miss (id : U8) (pos : Nat) (e : Element) : hasIndex id.toNat pos e = false ↔ e.id ≠ id := by
  rw [ne_eq,←hasIndex_id id pos e,Bool.not_eq_true]

theorem updateAt_right (s : Series) (new e : Element) (split : s.elems = pre ++ e :: post)
    (id : e.id = new.id) :
    Became s (updateAt alloc s.ies s.off (s.ies.len-s.off) (s.off + (encode pre).length) e.body.length new.body).1 (pre ++ new :: post) ↔
      e.body.length = new.body.length ∨ alloc (encode post).length := by
  have holds := s.holds
  rw [split] at holds
  have whole : s.len = s.off + ((encode pre).length + e.size + (encode post).length) := by
    unfold Series.len
    rw [split,encode_three]
  have behind : s.ies.len - s.off - (s.off + (encode pre).length + 2 + e.body.length - s.off) = (encode post).length := by
    unfold Series.ies Element.size at *
    dsimp only at *
    omega
  unfold updateAt
  dsimp only
  rw [behind]
  by_cases sizes : e.body.length = new.body.length
  · rw [if_pos sizes]
    refine ⟨fun _ => .inl sizes,fun _ => ⟨rewritten_same holds id sizes,?_,fun i small => rewritten_before (by omega)⟩⟩
    have size : e.size = new.size := by unfold Element.size; omega
    change s.len = _
    rw [encode_three,←size,whole]
  · rw [if_neg sizes]
    cases given : alloc (encode post).length with
    | true =>
      refine ⟨fun _ => .inr rfl,fun _ => ⟨rewritten_moved holds id,?_,?_⟩⟩
      · change s.len + new.body.length - e.body.length = _
        rw [encode_three,whole]
        unfold Element.size
        omega
      · intro i small
        rw [if_pos rfl]
        exact (put_before _ _ (by omega)).trans (rewritten_before (by omega))
    | false =>
      refine ⟨fun became => ?_,fun either => ?_⟩
      · have same := became_one (became_same s) became
        rw [split,append_cancel_left_eq,cons.injEq] at same
        exact absurd (congrArg (·.body.length) same.1) sizes
      · obtain same | there := either
        · exact absurd same sizes
        · cases there

theorem update_exact (s : Series) (new : Element) :
    (∃ fuel out, rtwIesUpdateIe alloc s.ies s.off new fuel = some out ∧ Became s out.1 (replaceFirst new s.elems)) ↔
      UpdateFine alloc s new := by
  by_cases empty : s.elems = []
  · have length : s.ies.len = s.off := by simp [Series.ies,Series.len,empty]
    constructor
    · intro _ pre e post split
      rw [empty] at split
      simp at split
    · intro _
      refine ⟨0,(s.ies,false),if_pos (.inr (le_of_eq length)),?_⟩
      have same := became_same s
      rw [empty] at same ⊢
      exact same
  · have some_ : s.off < s.ies.len := by
      obtain ⟨e,es,split⟩ := exists_cons_of_ne_nil empty
      have size := size_pos e
      simp only [Series.ies,Series.len]
      rw [split,encode_size]
      omega
    have room : s.ies.len - s.off = (encode s.elems).length := by simp [Series.ies,Series.len]
    simp only [rtwIesUpdateIe_eq alloc s.ies s.off new _ some_,room]
    refine (settled (updateFound alloc s.ies s.off new) (fun out => Became s out.1 (replaceFirst new s.elems))
      (rtwGetIeFrom_locates new.id.toNat s.holds (le_refl _))).trans ?_
    cases found : locate (hasIndex new.id.toNat) s.off s.elems with
    | none =>
      have absent : ∀ x ∈ s.elems, x.id ≠ new.id := by
        intro x member
        obtain ⟨pre,post,split⟩ := append_of_mem member
        exact (hasIndex_miss _ _ _).mp (locate_none.mp found pre x post split)
      rw [replaceFirst_none absent]
      refine ⟨fun _ pre e post split _ id => ?_,fun _ => became_same s⟩
      exact absurd id (absent e (by rw [split]; simp))
    | some f =>
      obtain ⟨at_,e⟩ := f
      obtain ⟨pre,post,split,placed,hit,before⟩ := locate_some found
      have id := (hasIndex_id _ _ _).mp hit
      have first : ∀ x ∈ pre, x.id ≠ new.id := by
        intro x member
        obtain ⟨left,right,inner⟩ := append_of_mem member
        exact (hasIndex_miss _ _ _).mp (locate_none.mp before left x right inner)
      have exactly : UpdateFine alloc s new ↔
          (e.body ≠ [] ∨ new.body = []) ∧ (e.body.length = new.body.length ∨ alloc (encode post).length) := by
        constructor
        · intro fine
          exact fine pre e post split first id
        · intro fine pre' e' post' split' first' id'
          obtain ⟨rfl,rfl,rfl⟩ := first_unique (fun x => x.id = new.id) (split.symm.trans split') first id first' id'
          exact fine
      have goal : replaceFirst new s.elems = pre ++ new :: post := by rw [split,replaceFirst_split first id]
      rw [exactly,goal,placed]
      simp only [map_some,ieFound,updateFound]
      by_cases bare : e.body.length = 0
      · have nothing := length_eq_zero_iff.mp bare
        rw [if_pos bare]
        constructor
        · intro became
          have same := became_one (became_same s) became
          rw [split,append_cancel_left_eq,cons.injEq] at same
          have body := congrArg Element.body same.1
          exact ⟨.inr (by rw [←body,nothing]),.inl (by rw [body])⟩
        · intro ⟨some_,_⟩
          have empty' := some_.resolve_left (fun held => held nothing)
          have same : e = new := Element.ext id (by rw [nothing,empty'])
          rw [←same,←split]
          exact became_same s
      · rw [if_neg bare,updateAt_right alloc s new e split id]
        have held : e.body ≠ [] := fun nothing => bare (by rw [nothing]; rfl)
        exact ⟨fun fine => ⟨.inl held,fine⟩,And.right⟩
end

end Rtl8852au.Ie
