import Rtl8852au.ElemEditSound

namespace Rtl8852au.Ie
open Words Scan Attr Elements Memory List Nat

def sweep (q : Query) : Bytes → Nat → List Element → Bytes × List Element
  | buf,_,[] => (buf,[])
  | buf,pos,e :: es =>
    if q.taken buf pos e then sweep q (closeUp buf pos e.size (encode es).length) pos es
    else
      let rest := sweep q buf (pos+e.size) es
      (rest.1,e :: rest.2)

-- No element that is not to go is taken for one, in the memory as the removals
-- before it left it.
def Unconfused (q : Query) : Bytes → Nat → List Element → Prop
  | _,_,[] => True
  | buf,pos,e :: es =>
    if q.takes e then Unconfused q (closeUp buf pos e.size (encode es).length) pos es
    else q.taken buf pos e = false ∧ Unconfused q buf (pos+e.size) es

section Sweep
variable {q : Query} {buf : Bytes} {pos : Nat} {e : Element} {es : List Element}

theorem closeUp_before (before : i < target) : closeUp buf target targetLen remainLen i = buf i := put_before _ _ before

theorem closeUp_holds (holds : Holds buf pos (e :: es)) : Holds (closeUp buf pos e.size (encode es).length) pos es := by
  have moved := bytesAt_put buf pos (bytesAt buf (pos+e.size) (encode es).length)
  rw [bytesAt_length] at moved
  exact moved.trans holds.tail

theorem sweep_taken (taken : q.taken buf pos e) :
    sweep q buf pos (e :: es) = sweep q (closeUp buf pos e.size (encode es).length) pos es := by
  rw [sweep,if_pos taken]

theorem sweep_kept (kept : q.taken buf pos e = false) :
    sweep q buf pos (e :: es) = ((sweep q buf (pos+e.size) es).1,e :: (sweep q buf (pos+e.size) es).2) := by
  rw [sweep,if_neg (by simp [kept])]

theorem sweep_before (before : i < pos) : (sweep q buf pos es).1 i = buf i := by
  induction es generalizing buf pos with
  | nil => rfl
  | cons e es ih =>
    cases taken : q.taken buf pos e with
    | true =>
      rw [sweep_taken taken,ih before]
      exact closeUp_before before
    | false =>
      rw [sweep_kept taken]
      exact ih (by omega)

theorem sweep_holds (holds : Holds buf pos es) : Holds (sweep q buf pos es).1 pos (sweep q buf pos es).2 := by
  induction es generalizing buf pos with
  | nil => exact holds_nil
  | cons e es ih =>
    cases taken : q.taken buf pos e with
    | true =>
      rw [sweep_taken taken]
      exact ih (closeUp_holds holds)
    | false =>
      rw [sweep_kept taken]
      refine holds_cons.mpr ⟨?_,ih holds.tail⟩
      refine holds_agree (holds_cons.mp holds).1 fun i _ small => ?_
      rw [single_size] at small
      exact sweep_before small

theorem sweep_sublist : (sweep q buf pos es).2.Sublist es := by
  induction es generalizing buf pos with
  | nil => exact List.Sublist.refl _
  | cons e es ih =>
    cases taken : q.taken buf pos e with
    | true =>
      rw [sweep_taken taken]
      exact ih.cons e
    | false =>
      rw [sweep_kept taken]
      exact ih.cons_cons e

def Query.spares (q : Query) (e : Element) : Bool := !q.takes e

theorem sublist_misses {α : Type} (keeps : α → Bool) {some_ all : List α} {x : α} (sub : some_.Sublist all)
    (kept : keeps x) :
    some_ ≠ x :: all.filter keeps := by
  intro same
  have shorter := (sub.filter keeps).length_le
  rw [same,filter_cons_of_pos kept,filter_filter] at shorter
  simp at shorter

theorem sweep_right (holds : Holds buf pos es) : (sweep q buf pos es).2 = es.filter q.spares ↔ Unconfused q buf pos es := by
  induction es generalizing buf pos with
  | nil => exact ⟨fun _ => trivial,fun _ => rfl⟩
  | cons e es ih =>
    cases takes : q.takes e with
    | true =>
      have gone : q.spares e = false := by simp [Query.spares,takes]
      rw [sweep_taken (takes_taken holds takes),filter_cons_of_neg (by simp [gone]),Unconfused,if_pos takes]
      exact ih (closeUp_holds holds)
    | false =>
      have stays : q.spares e := by simp [Query.spares,takes]
      rw [filter_cons_of_pos stays,Unconfused,if_neg (by simp [takes])]
      cases taken : q.taken buf pos e with
      | true =>
        rw [sweep_taken taken]
        constructor
        · intro same
          exact absurd same (sublist_misses q.spares sweep_sublist stays)
        · intro ⟨apart,_⟩
          cases apart
      | false =>
        rw [sweep_kept taken]
        simp only [cons.injEq,true_and]
        exact ih holds.tail

theorem sweep_none (none_ : locate (q.taken buf) pos es = none) : sweep q buf pos es = (buf,es) := by
  induction es generalizing pos with
  | nil => rfl
  | cons e es ih =>
    cases taken : q.taken buf pos e with
    | true => simp [locate,taken] at none_
    | false =>
      simp only [locate,taken,Bool.false_eq_true,if_false] at none_
      rw [sweep_kept taken,ih none_]

theorem sweep_some (post : List Element) (before : locate (q.taken buf) pos pre = none)
    (here : q.taken buf (pos + (encode pre).length) e) : (sweep q buf pos (pre ++ e :: post)).1 =
      (sweep q (closeUp buf (pos + (encode pre).length) e.size (encode post).length) (pos + (encode pre).length) post).1 ∧
    (sweep q buf pos (pre ++ e :: post)).2 =
      pre ++ (sweep q (closeUp buf (pos + (encode pre).length) e.size (encode post).length) (pos + (encode pre).length) post).2 := by
  induction pre generalizing pos with
  | nil =>
    rw [encode_nil,length_nil,add_zero] at here ⊢
    rw [nil_append,sweep_taken here]
    exact ⟨rfl,rfl⟩
  | cons x pre ih =>
    cases taken : q.taken buf pos x with
    | true => simp [locate,taken] at before
    | false =>
      simp only [locate,taken,Bool.false_eq_true,if_false] at before
      rw [encode_size,←add_assoc] at here ⊢
      obtain ⟨memory,list⟩ := ih before here
      rw [cons_append,sweep_kept taken]
      exact ⟨memory,by rw [list]; rfl⟩
end Sweep

theorem removeLoop_sweeps (q : Query) (inner : Nat) (few : es.length ≤ inner) (c : Cut)
    (holds : Holds c.buf c.start es) (whole : c.searchLen = (encode es).length) (fits : (encode es).length < 2 ^ 32)
    (held : (encode es).length ≤ c.iesLen) (enough : es.length < fuel) :
    ∃ c', removeLoop q inner fuel c = some c' ∧ c'.buf = (sweep q c.buf c.start es).1 ∧
      c'.iesLen + (encode es).length = c.iesLen + (encode (sweep q c.buf c.start es).2).length := by
  induction size : es.length using Nat.strongRecOn generalizing es c fuel with
  | ind n ih =>
    obtain ⟨walk,shifted⟩ := rtwGetIeExFrom_locates (q := q) holds fits few
    rw [Option.map_eq_some_iff] at walk
    obtain ⟨⟨reads,found⟩,call,same⟩ := walk
    cases fuel with
    | zero => omega
    | succ fuel =>
      rw [removeLoop,whole,call]
      cases located : locate (exHit q (startAt c.buf c.start)) 0 es with
      | none =>
        rw [located] at same shifted
        dsimp only at same
        rw [same]
        refine ⟨c,rfl,?_,?_⟩
        · rw [sweep_none shifted]
        · rw [sweep_none shifted]
      | some f =>
        obtain ⟨at_,e⟩ := f
        rw [located] at same shifted
        obtain ⟨pre,post,split,placed,here,before⟩ := locate_some shifted
        dsimp only at placed here
        obtain rfl : at_ = (encode pre).length := by omega
        have some_ := size_pos e
        have sizes : (encode es).length = (encode pre).length + e.size + (encode post).length := by rw [split,encode_three]
        have left : (encode es).length - ((encode pre).length + e.size) = (encode post).length := by omega
        have shorter : post.length < es.length := by rw [split]; simp; omega
        dsimp only [Option.map_some,wholeFound] at same
        rw [same]
        dsimp only
        rw [if_neg (by omega),left]
        obtain ⟨c',ended,memory,length⟩ := ih post.length (by omega) (show post.length ≤ inner by omega)
          ⟨closeUp c.buf (c.start + (encode pre).length) e.size (encode post).length,c.iesLen-e.size,c.start + (encode pre).length,
            (encode post).length,true⟩ (closeUp_holds (holds_at holds split)) rfl (by omega) (by dsimp only; omega)
          (show post.length < fuel by omega) rfl
        obtain ⟨same_buf,same_list⟩ := sweep_some post before here
        rw [←split] at same_buf same_list
        refine ⟨c',ended,memory.trans same_buf.symm,?_⟩
        rw [same_list,encode_append,length_append]
        dsimp only at length
        omega

theorem removeLoop_agree {inner inner' : Nat} (first : removeLoop q inner fuel c = some one)
    (second : removeLoop q inner' fuel' c = some two) : one = two := by
  induction fuel generalizing fuel' c with
  | zero => cases first
  | succ fuel ih =>
    cases fuel' with
    | zero => cases second
    | succ fuel' =>
      rw [removeLoop] at first second
      cases call : rtwGetIeExFrom q c.buf c.start c.searchLen inner with
      | none => simp [call] at first
      | some out =>
        cases call' : rtwGetIeExFrom q c.buf c.start c.searchLen inner' with
        | none => simp [call'] at second
        | some out' =>
          rw [call] at first
          rw [call',←follow_agree call call'] at second
          obtain ⟨reads,found⟩ := out
          cases found with
          | none => exact Option.some.inj (first.symm.trans second)
          | some f =>
            obtain ⟨at_,targetLen⟩ := f
            dsimp only at first second
            split at first
            · rename_i empty
              rw [if_pos empty] at second
              exact Option.some.inj (first.symm.trans second)
            · rename_i held
              rw [if_neg held] at second
              exact ih first second

theorem remove_agree {offset : Nat} {oui : Option (List U8)} (first : rtwIesRemoveIe s offset eid oui fuel = some one)
    (second : rtwIesRemoveIe s offset eid oui fuel' = some two) : one = two := by
  unfold rtwIesRemoveIe at first second
  split at first
  · rename_i short
    rw [if_pos short] at second
    exact Option.some.inj (first.symm.trans second)
  · rename_i some_
    rw [if_neg some_] at second
    rw [Option.map_eq_some_iff] at first second
    obtain ⟨c,loop,rfl⟩ := first
    obtain ⟨c',loop',rfl⟩ := second
    rw [removeLoop_agree loop loop']

theorem remove_swept (s : Series) (eid : U8) (oui : Option (List U8)) :
    ∃ fuel out, rtwIesRemoveIe s.ies s.off eid oui fuel = some out ∧
    Became s out.1 (sweep (removal eid oui) s.buf s.off s.elems).2 := by
  by_cases empty : s.elems = []
  · have length : s.ies.len = s.off := by simp [Series.ies,Series.len,empty]
    refine ⟨0,(s.ies,false),if_pos (le_of_eq length),?_⟩
    have same := became_same s
    rw [empty] at same ⊢
    exact same
  · have fits := s.fits
    have room : s.ies.len - s.off = (encode s.elems).length := by simp [Series.ies,Series.len]
    have some_ : s.off < s.ies.len := by
      obtain ⟨e,es,split⟩ := exists_cons_of_ne_nil empty
      have size := size_pos e
      rw [split,encode_size] at room
      omega
    obtain ⟨c',ended,memory,length⟩ := removeLoop_sweeps (removal eid oui) (s.elems.length+1) (le_succ _)
      ⟨s.buf,s.ies.len,s.off,s.ies.len-s.off,false⟩ s.holds room (by omega) (by dsimp only; omega) (lt_succ_self s.elems.length)
    refine ⟨s.elems.length+1,(⟨c'.buf,c'.iesLen⟩,c'.ret),?_,?_,?_,?_⟩
    · unfold rtwIesRemoveIe
      rw [if_neg (by omega)]
      exact Option.map_eq_some_iff.mpr ⟨c',ended,rfl⟩
    · dsimp only at memory ⊢
      rw [memory]
      exact sweep_holds s.holds
    · dsimp only at length ⊢
      have total : s.ies.len = s.off + (encode s.elems).length := rfl
      omega
    · intro i small
      dsimp only at memory ⊢
      rw [memory]
      exact sweep_before small

theorem remove_exact (s : Series) (eid : U8) (oui : Option (List U8)) :
    (∃ fuel out, rtwIesRemoveIe s.ies s.off eid oui fuel = some out ∧ Became s out.1 (s.elems.filter (removal eid oui).spares)) ↔
      Unconfused (removal eid oui) s.buf s.off s.elems := by
  rw [←sweep_right s.holds]
  obtain ⟨fuel,out,ended,became⟩ := remove_swept s eid oui
  constructor
  · intro ⟨fuel',out',ended',right⟩
    rw [←remove_agree ended ended'] at right
    exact became_one became right
  · intro same
    rw [same] at became
    exact ⟨fuel,out,ended,became⟩

theorem unconfused_plain (eid : U8) : Unconfused (removal eid none) buf pos es := by
  induction es generalizing buf pos with
  | nil => trivial
  | cons e es ih =>
    rw [Unconfused]
    split
    · exact ih
    · rename_i takes
      refine ⟨?_,ih⟩
      simpa [Query.takes,Query.taken,removal] using takes

def isExtCap (e : Element) : Bool := e.id = extCap

-- What is left: one element with the capabilities, none where there are none,
-- and the others as they were.
def ExtCapRight (s : Series) (new : Element) (out : Ies) : Prop :=
  ∃ es, Became s out es ∧ es.filter isExtCap = (if new.body = [] then [] else [{ new with id:=extCap }]) ∧
    es.filter (!isExtCap ·) = s.elems.filter (!isExtCap ·)

def ExtCapFine (alloc : Nat → Bool) (s : Series) (new : Element) : Prop :=
  new.body ≠ [] → ∀ pre e post, s.elems = pre ++ e :: post → isExtCap e →
    (∀ x ∈ pre ++ post, isExtCap x = false) ∧ e.body ≠ [] ∧
      (e.body.length = new.body.length ∨ alloc (encode post).length)

theorem spares_extCap : (removal extCap none).spares = (!isExtCap ·) := by
  funext e
  unfold Query.spares Query.takes removal isExtCap
  exact congrArg not (Bool.and_true _)

section
variable (alloc : Nat → Bool) (s : Series)

theorem ext_cap_removed (new : Element) (bare : new.body = []) :
    ∃ fuel out, rtwUpdateExtCapIe alloc s.ies s.off new fuel = some out ∧ ExtCapRight s new out := by
  obtain ⟨fuel,out,ended,became⟩ := (remove_exact s extCap none).mpr (unconfused_plain extCap)
  rw [spares_extCap] at became
  refine ⟨fuel,out.1,?_,_,became,?_,?_⟩
  · unfold rtwUpdateExtCapIe
    rw [if_neg (by simp [bare]),ended]
    rfl
  · rw [if_pos bare,filter_filter]
    simp
  · rw [filter_filter]
    simp

theorem set_ie_became (s : Series) (new : Element) : Became s (rtwSetIe s.ies new) (s.elems ++ [new]) := by
  have below : ∀ i < s.len, (rtwSetIe s.ies new).buf i = s.buf i := by
    intro i small
    unfold rtwSetIe Series.ies
    dsimp only
    rw [put_before _ _ (by omega),put_before _ _ (by omega),put_before _ _ small]
  refine ⟨?_,?_,fun i small => below i (by unfold Series.len; omega)⟩
  · refine holds_append.mpr ⟨holds_agree s.holds fun i _ small => below i (by unfold Series.len; omega),?_⟩
    change Holds (rtwSetIe s.ies new).buf s.len [new]
    unfold rtwSetIe Series.ies
    dsimp only
    refine holds_single.mpr ⟨?_,?_,?_⟩
    · rw [put_before _ _ (by omega),put_before _ _ (by omega)]
      exact put_inside s.buf [new.id] s.len (i := 0) (by simp)
    · rw [put_before _ _ (by omega)]
      exact put_inside (put s.buf s.len [new.id]) [BitVec.ofNat 8 new.body.length] (s.len+1) (i := 0) (by simp)
    · exact bytesAt_put _ _ _
  · unfold rtwSetIe Series.ies Series.len
    rw [encode_append,length_append,single_size]
    unfold Element.size
    dsimp only
    omega

theorem updateFound_refused (new e : Element) (split : s.elems = pre ++ e :: post)
    (refused : ¬ (e.body ≠ [] ∧ (e.body.length = new.body.length ∨ alloc (encode post).length))) :
    (updateFound alloc s.ies s.off new (some (s.off + (encode pre).length,e.body.length))).1 = s.ies := by
  have behind : s.ies.len - s.off - (s.off + (encode pre).length + 2 + e.body.length - s.off) = (encode post).length := by
    have whole : (encode s.elems).length = (encode pre).length + e.size + (encode post).length := by rw [split,encode_three]
    unfold Series.ies Series.len Element.size at *
    dsimp only at *
    omega
  unfold updateFound
  dsimp only
  by_cases bare : e.body.length = 0
  · rw [if_pos bare]
  · have held : e.body ≠ [] := fun nothing => bare (by rw [nothing]; rfl)
    have neither := not_or.mp (fun either => refused ⟨held,either⟩)
    rw [if_neg bare]
    unfold updateAt
    dsimp only
    rw [if_neg neither.1,behind,if_neg neither.2]

theorem getIe_some {start fuel : Nat} {index limit : Int}
    (call : rtwGetIeFrom buf start index limit fuel = some (reads,some f)) : 1 ≤ limit := by
  by_cases empty : limit < 1
  · have nothing : ieEntry buf start index limit = ⟨[],.done none⟩ := if_pos empty
    unfold rtwGetIeFrom at call
    rw [nothing,follow_done rfl] at call
    cases call
  · omega

def capElement (new : Element) : Element := { new with id:=extCap }

section
variable (alloc : Nat → Bool) (s : Ies) (offset : Nat) (new : Element)

def extCapFound : Found → Ies
  | none => rtwSetIe s (capElement new)
  | some f => (updateFound alloc s offset (capElement new) (some f)).1

theorem ext_cap_eq (held : new.body ≠ []) (fuel : Nat) :
    rtwUpdateExtCapIe alloc s offset new fuel =
      ((rtwGetIeFrom s.buf offset extCap.toNat (s.len - offset : Nat) fuel).map Prod.snd).map (extCapFound alloc s offset new) := by
  have nonzero : new.body.length ≠ 0 := fun none_ => held (length_eq_zero_iff.mp none_)
  unfold rtwUpdateExtCapIe
  rw [if_pos nonzero]
  cases call : rtwGetIeFrom s.buf offset extCap.toNat (s.len - offset : Nat) fuel with
  | none => rfl
  | some out =>
    obtain ⟨reads,found⟩ := out
    cases found with
    | none => rfl
    | some f =>
      have room := getIe_some call
      have again : rtwGetIeFrom s.buf offset (capElement new).id.toNat (s.len - offset : Nat) fuel = some (reads,some f) := call
      change (rtwIesUpdateIe alloc s offset (capElement new) fuel).map Prod.fst = _
      rw [rtwIesUpdateIe_eq alloc s offset _ fuel (by omega),again]
      rfl
end

theorem ext_cap_absent (new : Element) (held : new.body ≠ [])
    (absent : ∀ x ∈ s.elems, isExtCap x = false) : ExtCapRight s new (extCapFound alloc s.ies s.off new none) := by
  have none_ : s.elems.filter isExtCap = [] := filter_eq_nil_iff.mpr (by simpa using absent)
  refine ⟨_,set_ie_became s (capElement new),?_,?_⟩
  · rw [if_neg held,filter_append,none_]
    simp [isExtCap,capElement]
  · rw [filter_append]
    simp [isExtCap,capElement]

theorem updateFound_right (new e : Element) (split : s.elems = pre ++ e :: post)
    (id : e.id = new.id) (held : e.body ≠ []) (given : e.body.length = new.body.length ∨ alloc (encode post).length) :
    Became s (updateFound alloc s.ies s.off new (some (s.off + (encode pre).length,e.body.length))).1 (pre ++ new :: post) := by
  have nonzero : e.body.length ≠ 0 := fun none_ => held (length_eq_zero_iff.mp none_)
  unfold updateFound
  dsimp only
  rw [if_neg nonzero]
  exact (updateAt_right alloc s new e split id).mpr given

theorem filter_single (single : (pre ++ e :: post).filter kind = [x])
    (here : kind e) : e = x ∧ ∀ y ∈ pre ++ post, kind y = false := by
  rw [filter_append,filter_cons_of_pos here] at single
  cases front : pre.filter kind with
  | nil =>
    rw [front,nil_append,cons.injEq] at single
    refine ⟨single.1,?_⟩
    intro y member
    obtain before | after := mem_append.mp member
    · simpa using filter_eq_nil_iff.mp front y before
    · simpa using filter_eq_nil_iff.mp single.2 y after
  | cons z rest =>
    rw [front] at single
    simp at single

theorem filter_around (here : kind e)
    (others : ∀ y ∈ pre ++ post, kind y = false) : (pre ++ e :: post).filter kind = [e] := by
  have front : pre.filter kind = [] := filter_eq_nil_iff.mpr fun y member => by simp [others y (mem_append_left _ member)]
  have back : post.filter kind = [] := filter_eq_nil_iff.mpr fun y member => by simp [others y (mem_append_right _ member)]
  rw [filter_append,filter_cons_of_pos here,front,back]
  rfl

theorem ext_cap_present (new e : Element) (filled : new.body ≠ [])
    (split : s.elems = pre ++ e :: post) (here : isExtCap e) :
    ExtCapRight s new (extCapFound alloc s.ies s.off new (some (s.off + (encode pre).length,e.body.length))) ↔
      (∀ x ∈ pre ++ post, isExtCap x = false) ∧ e.body ≠ [] ∧
        (e.body.length = new.body.length ∨ alloc (encode post).length) := by
  have id : e.id = (capElement new).id := of_decide_eq_true here
  have cap : isExtCap (capElement new) := decide_eq_true rfl
  unfold extCapFound
  dsimp only
  by_cases fine : e.body ≠ [] ∧ (e.body.length = new.body.length ∨ alloc (encode post).length)
  · have became := updateFound_right alloc s (capElement new) e split id fine.1 fine.2
    constructor
    · intro ⟨es,became',one,_⟩
      rw [if_neg filled,became_one became' became] at one
      exact ⟨(filter_single one cap).2,fine⟩
    · intro ⟨alone,_⟩
      refine ⟨_,became,?_,?_⟩
      · rw [if_neg filled]
        exact filter_around cap alone
      · rw [split]
        simp [filter_append,here,cap]
  · rw [updateFound_refused alloc s (capElement new) e split fine]
    constructor
    · intro ⟨es,became,one,_⟩
      rw [if_neg filled,became_one became (became_same s),split] at one
      have same := (filter_single one here).1
      refine absurd ⟨?_,.inl ?_⟩ fine
      · rw [same]
        exact filled
      · rw [same]
    · intro ⟨_,both⟩
      exact absurd both fine

theorem ext_cap_exact (new : Element) :
    (∃ fuel out, rtwUpdateExtCapIe alloc s.ies s.off new fuel = some out ∧ ExtCapRight s new out) ↔ ExtCapFine alloc s new := by
  by_cases bare : new.body = []
  · exact ⟨fun _ filled => absurd bare filled,fun _ => ext_cap_removed alloc s new bare⟩
  · have room : s.ies.len - s.off = (encode s.elems).length := by simp [Series.ies,Series.len]
    simp only [ext_cap_eq alloc s.ies s.off new bare,room]
    refine (settled (extCapFound alloc s.ies s.off new) (ExtCapRight s new)
      (rtwGetIeFrom_locates extCap.toNat s.holds (le_refl _))).trans ?_
    cases found : locate (hasIndex extCap.toNat) s.off s.elems with
    | none =>
      have absent : ∀ x ∈ s.elems, isExtCap x = false := by
        intro x member
        obtain ⟨pre,post,split⟩ := append_of_mem member
        exact decide_eq_false ((hasIndex_miss _ _ _).mp (locate_none.mp found pre x post split))
      refine ⟨fun _ _ pre e post split here => ?_,fun _ => ext_cap_absent alloc s new bare absent⟩
      rw [absent e (by rw [split]; simp)] at here
      cases here
    | some f =>
      obtain ⟨at_,e⟩ := f
      obtain ⟨pre,post,split,placed,hit,_⟩ := locate_some found
      have here : isExtCap e := decide_eq_true ((hasIndex_id _ _ _).mp hit)
      rw [placed]
      refine (ext_cap_present alloc s new e bare split here).trans ?_
      constructor
      · rintro ⟨alone,fine⟩ _ pre' e' post' split' here'
        have single := filter_around here alone
        rw [←split,split'] at single
        obtain ⟨rfl,alone'⟩ := filter_single single here'
        have before : ∀ x ∈ pre, ¬ isExtCap x := fun x member => by simp [alone x (mem_append_left _ member)]
        have before' : ∀ x ∈ pre', ¬ isExtCap x := fun x member => by simp [alone' x (mem_append_left _ member)]
        obtain ⟨rfl,_,rfl⟩ := first_unique (isExtCap · = true) (split.symm.trans split') before here before' here'
        exact ⟨alone',fine⟩
      · intro fine
        exact fine bare pre e post split here
end

end Rtl8852au.Ie
