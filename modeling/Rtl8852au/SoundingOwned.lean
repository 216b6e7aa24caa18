import Rtl8852au.Sounding

namespace Rtl8852au.Sounding
open IdleBusy Function Option Machine Prod

def Hold.covers (h : Hold) (k : Nat) (b : Fin 4) : Prop :=
  (h.csi.1 = k ∧ b ∈ h.csi.2.parts) ∨ ∃ w, h.swap = some w ∧ w.1 = k ∧ b ∈ w.2.parts

structure Has (s : Hal) (h : Hold) : Prop where
  entry : h.entry ∈ s.bf.busy
  bfee : ∃ i, (s.entry h.entry).bfee = some (h.kind,i) ∧ i ∈ (s.sumu h.kind).busy
  csi : ∀ k b, h.covers k b → s.csi.sub k b

structure Owned (bfNr : Nat) (sumuNr : BfeeType → Nat) (s : Hal) : Prop where
  bf : s.bf.Whole (List.range bfNr)
  sumu : ∀ k, (s.sumu k).Whole (List.range (sumuNr k))
  has : ∀ x h, s.held x = some h → Has s h
  holder : ∀ e ∈ s.bf.busy, ∃ x h, s.held x = some h ∧ h.entry = e
  once : ∀ x y h g, s.held x = some h → s.held y = some g → h.entry = g.entry → x = y
  pair : ∀ e f, e ∈ s.bf.busy → f ∈ s.bf.busy → (s.entry e).bfee = (s.entry f).bfee → e = f

-- A part that is handed out is idle and the index of its buffer fits the record.
def CsiFits (csi : CsiObj) (kind : BfeeType) (bw : ChannelWidth) : Prop :=
  ∀ i sub after, queryIdleCsiBuf csi kind bw = some (i,sub,after) → i < 32 ∧ ∀ b ∈ sub.parts, csi.sub i b = false

-- A record that does not name a buffer of the station and would still be given back.
def stale (s : Hal) (x : Nat) : Bool :=
  match s.held x with
  | none => isCsiBufValid s.csi (s.sta x).bfCsiBuf || isCsiBufValid s.csi (s.sta x).bfCsiBufSwap
  | some h => h.swap.isNone && isCsiBufValid s.csi (s.sta x).bfCsiBufSwap

structure QueryFits (s : Hal) (x : Nat) (kind : BfeeType) (bw : ChannelWidth) (enSwap : Bool) : Prop where
  nothing : s.held x = none
  pair : s.bf.idle ≠ [] → (s.sumu kind).idle ≠ []
  csi : s.bf.idle ≠ [] → CsiFits s.csi kind bw
  swap : s.bf.idle ≠ [] → kind = .mu ∧ enSwap →
    ∀ i sub after, queryIdleCsiBuf s.csi kind bw = some (i,sub,after) → CsiFits after kind bw
  fails : s.bf.idle = [] ∨ queryIdleCsiBuf s.csi kind bw = none → stale s x → ∀ b, s.csi.sub 0 b = false

structure ReleaseFits (s : Hal) (x : Nat) : Prop where
  own : (s.sta x).bfEntry ≠ none → s.held x ≠ none
  csi : stale s x → ∀ y h, y ≠ x → s.held y = some h → ∀ b, ¬h.covers 0 b

def Fits (s : Hal) : Call → Prop
  | .query x kind bw enSwap => QueryFits s x kind bw enSwap
  | .release x => ReleaseFits s x

-- A record that names no buffer of its station is still zero or has been given back.
def Unset (csi : CsiObj) (buf : CsiBuf) : Prop := isCsiBufValid csi buf → buf.idx = 0

structure Named (csi : CsiObj) (w : Nat × SubIdx) (kind : BfeeType) (buf : CsiBuf) : Prop where
  record : buf = csiRecord w.1 w.2 kind
  fits : w.1 < 32
  inside : w.1 < csi.max
  real : w.2 ≠ .non

def SwapNamed (csi : CsiObj) (h : Hold) (buf : CsiBuf) : Prop :=
  match h.swap with
  | some w => Named csi w h.kind buf
  | none => Unset csi buf

structure Records (csi : CsiObj) (hold : Option Hold) (sta : HalSta) : Prop where
  pointer : ∀ h, hold = some h → sta.bfEntry = some h.entry
  named : ∀ h, hold = some h → Named csi h.csi h.kind sta.bfCsiBuf
  swap : ∀ h, hold = some h → SwapNamed csi h sta.bfCsiBufSwap
  spare : hold = none → Unset csi sta.bfCsiBuf ∧ Unset csi sta.bfCsiBufSwap

structure Kept (bfNr : Nat) (sumuNr : BfeeType → Nat) (s : Hal) : Prop where
  owned : Owned bfNr sumuNr s
  apart : ∀ x y h g k b, s.held x = some h → s.held y = some g → x ≠ y → h.covers k b → ¬g.covers k b
  records : ∀ x, Records s.csi (s.held x) (s.sta x)
  sizes : s.csi.maxSu ≤ s.csi.max

structure Returned (s u : Hal) (e : Nat) (k : BfeeType) (i : Nat) : Prop where
  bf : u.bf = ({s.bf with busy:=s.bf.busy.erase e} : Pool Nat).push e
  sumu : u.sumu = update s.sumu k (({s.sumu k with busy:=(s.sumu k).busy.erase i} : Pool Nat).push i)
  entry : ∀ f, f ≠ e → u.entry f = s.entry f
  csi : u.csi = s.csi
  sta : u.sta = s.sta
  held : u.held = s.held

theorem release_returned (bf : s.bf.Whole all) (busy : e ∈ s.bf.busy) (pool : (s.sumu k).Whole listed)
    (bfee : (s.entry e).bfee = some (k,i)) (paired : i ∈ (s.sumu k).busy) :
    ∃ u, releaseTargetBfEntry s e = some u ∧ Returned s u e k i := by
  rw [releaseTargetBfEntry,bfee,releaseBfee,pool.unlink_busy paired]
  simp only [map_some,bind_some]
  have still : ((resetSumuEntry s k i).setPool k (({s.sumu k with busy:=(s.sumu k).busy.erase i} : Pool Nat).push i)).bf = s.bf := rfl
  rw [still,bf.unlink_busy busy]
  refine ⟨_,rfl,rfl,rfl,?_,rfl,rfl,rfl⟩
  intro f apart
  exact update_of_ne apart ..

structure Taken (s u : Hal) (e : Nat) (k : BfeeType) (i : Nat) : Prop where
  bf : ∃ bf, s.bf.pop = some (e,bf) ∧ u.bf = bf.append e
  sumu : ∃ p, (s.sumu k).pop = some (i,p) ∧ u.sumu = update s.sumu k (p.append i)
  bfee : (u.entry e).bfee = some (k,i)
  entry : ∀ f, f ≠ e → u.entry f = s.entry f
  csi : u.csi = s.csi
  held : u.held = s.held

theorem Taken.setSta (taken : Taken s u e k i) (x : Nat) (sta : HalSta) : Taken s (u.setSta x sta) e k i := {taken with}

theorem query_taken (idle : s.bf.idle ≠ []) (paired : (s.sumu k).idle ≠ []) :
    ∃ e i u, queryIdleBfEntry s k = some (some e,u) ∧ Taken s u e k i ∧ u.sta = s.sta := by
  unfold queryIdleBfEntry
  cases one : s.bf.pop with
  | none =>
      unfold Pool.pop at one
      cases list : s.bf.idle with
      | nil => exact absurd list idle
      | cons e rest => rw [list] at one; cases one
  | some first =>
      obtain ⟨e,bf⟩ := first
      cases two : (s.sumu k).pop with
      | none =>
          unfold Pool.pop at two
          cases list : (s.sumu k).idle with
          | nil => exact absurd list paired
          | cons i rest => rw [list] at two; cases two
      | some second =>
          obtain ⟨i,p⟩ := second
          refine ⟨e,i,_,rfl,⟨⟨bf,one,rfl⟩,⟨p,two,rfl⟩,?_,?_,rfl,rfl⟩,rfl⟩
          · simp [Hal.setPool,Hal.setEntry]
          · intro f apart
            exact update_of_ne apart ..

theorem taken_returned (taken : Taken s u e k i) (back : Returned u v e k i) (bf : s.bf.Whole all)
    (pool : (s.sumu k).Whole listed) : v.bf = s.bf ∧ v.sumu = s.sumu := by
  obtain ⟨_,one,first⟩ := taken.bf
  obtain ⟨p,two,second⟩ := taken.sumu
  constructor
  · rw [back.bf,first]
    exact (bf.back one).2
  · have here : u.sumu k = p.append i := by rw [second,update_self]
    rw [back.sumu,here,(pool.back two).2,second,update_idem,update_eq_self]

theorem taken_release (taken : Taken s u e k i) (bf : s.bf.Whole all) (pool : (s.sumu k).Whole listed) :
    ∃ v, releaseTargetBfEntry u e = some v ∧ Returned u v e k i := by
  obtain ⟨bf',one,first⟩ := taken.bf
  obtain ⟨p,two,second⟩ := taken.sumu
  have here : u.sumu k = p.append i := by rw [second,update_self]
  have busy : e ∈ u.bf.busy := by
    rw [first,Pool.taken_busy one]
    exact List.mem_append_right _ (List.mem_singleton_self e)
  have paired : i ∈ (u.sumu k).busy := by
    rw [here,Pool.taken_busy two]
    exact List.mem_append_right _ (List.mem_singleton_self i)
  exact release_returned (first ▸ bf.taken one) busy (here ▸ pool.taken two) taken.bfee paired

section
variable (st : HalStatus) (csi : CsiObj) (buf : CsiBuf)

theorem record_sizes :
    (releaseRecord st csi buf).2.1.max = csi.max ∧ (releaseRecord st csi buf).2.1.maxSu = csi.maxSu := by
  unfold releaseRecord releaseCsiBuf
  split
  · split <;> exact ⟨rfl,rfl⟩
  · exact ⟨rfl,rfl⟩

theorem record_unset (st : HalStatus) (csi after : CsiObj) (buf : CsiBuf) (same : after.max = csi.max) :
    Unset after (releaseRecord st csi buf).2.2 := by
  intro valid
  unfold releaseRecord at valid ⊢
  split at valid
  · rename_i named
    have inside : buf.idx < csi.max := by
      unfold isCsiBufValid at named
      simp only [Bool.and_eq_true,decide_eq_true_eq] at named
      exact named.1
    rw [if_pos named,releaseCsiBuf,if_pos inside]
  · rename_i named
    unfold isCsiBufValid at named valid
    rw [same] at valid
    exact absurd valid named

theorem record_keeps (busy : csi.sub k b)
    (apart : isCsiBufValid csi buf → buf.idx = k → b ∉ buf.subIdx.parts) :
    (releaseRecord st csi buf).2.1.sub k b := by
  unfold releaseRecord
  split
  · rename_i named
    unfold releaseCsiBuf
    split
    · by_cases here : buf.idx = k
      · have out := apart named here
        subst here
        simp [CsiObj.take,clearBusy,busy,out]
      · have other : k ≠ buf.idx := Ne.symm here
        simpa [CsiObj.take,other] using busy
    · exact busy
  · exact busy

theorem record_idle (unset : Unset csi buf)
    (idle : isCsiBufValid csi buf → ∀ b, csi.sub 0 b = false) : (releaseRecord st csi buf).2.1 = csi := by
  unfold releaseRecord
  split
  · rename_i named
    have zero := unset named
    have clear := idle named
    unfold releaseCsiBuf
    split
    · have same : clearBusy (csi.sub buf.idx) buf.subIdx = csi.sub buf.idx := by
        funext b
        simp [clearBusy,zero,clear b]
      simp only [CsiObj.take,same]
      rw [update_eq_self]
    · rfl
  · rfl
end

structure SameLists (s t : Hal) : Prop where
  bf : t.bf = s.bf
  sumu : t.sumu = s.sumu
  csi : t.csi = s.csi

theorem Has.moved (has : Has s h) (bf : ∀ e ∈ s.bf.busy, e ∈ t.bf.busy) (entry : t.entry h.entry = s.entry h.entry)
    (sumu : ∀ k i, i ∈ (s.sumu k).busy → (s.entry h.entry).bfee = some (k,i) → i ∈ (t.sumu k).busy)
    (csi : ∀ k b, h.covers k b → s.csi.sub k b → t.csi.sub k b) : Has t h where
  entry := bf _ has.entry
  bfee := by
    obtain ⟨i,bfee,busy⟩ := has.bfee
    exact ⟨i,(congrArg BfEntry.bfee entry).trans bfee,sumu _ _ busy bfee⟩
  csi := fun k b covers => csi k b covers (has.csi k b covers)

theorem failed_kept (kept : Kept bfNr sumuNr s) (nothing : s.held x = none)
    (idle : stale s x → ∀ b, s.csi.sub 0 b = false) (bf : v.bf = s.bf) (sumu : v.sumu = s.sumu) (csi : v.csi = s.csi)
    (held : v.held = s.held) (entry : ∀ f ∈ s.bf.busy, v.entry f = s.entry f)
    (sta : ∀ y, y ≠ x → v.sta y = s.sta y) (buf : (v.sta x).bfCsiBuf = (s.sta x).bfCsiBuf)
    (swap : (v.sta x).bfCsiBufSwap = (s.sta x).bfCsiBufSwap) (st : HalStatus) :
    Kept bfNr sumuNr (releaseRecords st v x).2 ∧ SameLists s (releaseRecords st v x).2 ∧
      (releaseRecords st v x).2.held = s.held := by
  have clean : stale s x = (isCsiBufValid s.csi (s.sta x).bfCsiBuf || isCsiBufValid s.csi (s.sta x).bfCsiBufSwap) := by
    rw [stale,nothing]
  obtain ⟨unset,unsetSwap⟩ := (kept.records x).spare nothing
  have one : (releaseRecord st s.csi (s.sta x).bfCsiBuf).2.1 = s.csi :=
    record_idle st s.csi _ unset fun valid => idle (by rw [clean,valid]; rfl)
  have two := record_idle (releaseRecord st s.csi (s.sta x).bfCsiBuf).1 s.csi _ unsetSwap fun valid =>
    idle (by rw [clean,valid,Bool.or_true])
  have after : (releaseRecords st v x).2.csi = s.csi := by
    simp only [releaseRecords]
    rw [csi,buf,swap,one,two]
  have heldAfter : (releaseRecords st v x).2.held = s.held := by
    simp only [releaseRecords]
    rw [held,← nothing,update_eq_self]
  have bfAfter : (releaseRecords st v x).2.bf = s.bf := bf
  have sumuAfter : (releaseRecords st v x).2.sumu = s.sumu := sumu
  have entryAfter : ∀ f ∈ s.bf.busy, (releaseRecords st v x).2.entry f = s.entry f := entry
  have owned := kept.owned
  refine ⟨⟨⟨?_,?_,?_,?_,?_,?_⟩,?_,?_,?_⟩,⟨bfAfter,sumuAfter,after⟩,heldAfter⟩
  · rw [bfAfter]; exact owned.bf
  · rw [sumuAfter]; exact owned.sumu
  · intro y h holds
    rw [heldAfter] at holds
    have has := owned.has y h holds
    apply has.moved
    · rw [bfAfter]; exact fun _ listed => listed
    · exact entryAfter _ has.entry
    · rw [sumuAfter]; exact fun _ _ listed _ => listed
    · rw [after]; exact fun _ _ _ busy => busy
  · rw [bfAfter,heldAfter]; exact owned.holder
  · rw [heldAfter]; exact owned.once
  · intro e f first second
    rw [bfAfter] at first second
    rw [entryAfter e first,entryAfter f second]
    exact owned.pair e f first second
  · rw [heldAfter]; exact kept.apart
  · intro y
    rw [after,heldAfter]
    by_cases same : y = x
    · subst same
      rw [nothing]
      refine ⟨fun h none => (nomatch none),fun h none => (nomatch none),fun h none => (nomatch none),fun _ => ?_⟩
      simp only [releaseRecords,update_self]
      rw [csi,buf,swap,one]
      exact ⟨record_unset _ _ _ _ rfl,record_unset _ _ _ _ rfl⟩
    · have other : (releaseRecords st v x).2.sta y = s.sta y := (update_of_ne same ..).trans (sta y same)
      rw [other]
      exact kept.records y
  · rw [after]; exact kept.sizes

theorem query_fails_empty (kept : Kept bfNr sumuNr s) (fits : QueryFits s x kind bw enSwap) (empty : s.bf.idle = []) :
    ∃ t, queryProcStaRes s x kind bw enSwap = some (.failure,t) ∧ Kept bfNr sumuNr t ∧ SameLists s t ∧ t.held = s.held := by
  have popped : s.bf.pop = none := by rw [Pool.pop,empty]
  have pointer : ((s.setSta x {s.sta x with bfEntry:=none}).sta x).bfEntry = none := by simp [Hal.setSta]
  refine ⟨(releaseRecords .failure (s.setSta x {s.sta x with bfEntry:=none}) x).2,?_,?_⟩
  · rw [queryProcStaRes,queryIdleBfEntry,popped]
    simp only [bind_some,queryFailed,releaseProcStaRes,releaseEntry,pointer,map_some]
  · apply failed_kept kept fits.nothing (fits.fails (.inl empty))
    · rfl
    · rfl
    · rfl
    · rfl
    · exact fun _ _ => rfl
    · exact fun y apart => update_of_ne apart ..
    · simp [Hal.setSta]
    · simp [Hal.setSta]

theorem query_fails_csi (kept : Kept bfNr sumuNr s) (fits : QueryFits s x kind bw enSwap) (some : s.bf.idle ≠ [])
    (none : queryIdleCsiBuf s.csi kind bw = none) :
    ∃ t, queryProcStaRes s x kind bw enSwap = Option.some (.resource,t) ∧ Kept bfNr sumuNr t ∧ SameLists s t ∧ t.held = s.held := by
  obtain ⟨e,i,u,found,first,sta⟩ := query_taken some (fits.pair some)
  have taken := first.setSta x {u.sta x with bfEntry:=Option.some e}
  obtain ⟨v,released,back⟩ := taken_release taken kept.owned.bf (kept.owned.sumu kind)
  obtain ⟨bf,sumu⟩ := taken_returned taken back kept.owned.bf (kept.owned.sumu kind)
  have pointer : ((u.setSta x {u.sta x with bfEntry:=Option.some e}).sta x).bfEntry = Option.some e := by simp [Hal.setSta]
  have csi : (u.setSta x {u.sta x with bfEntry:=Option.some e}).csi = s.csi := taken.csi
  obtain ⟨_,popped,_⟩ := first.bf
  refine ⟨(releaseRecords .success v x).2,?_,?_⟩
  · rw [queryProcStaRes,found]
    simp only [bind_some,csi,none,queryFailed,releaseProcStaRes,releaseEntry,pointer,released,map_some]
  · apply failed_kept kept fits.nothing (fits.fails (.inr none))
    · exact bf
    · exact sumu
    · exact back.csi.trans taken.csi
    · exact back.held.trans taken.held
    · intro f busy
      have apart : f ≠ e := fun same => kept.owned.bf.fresh popped (same ▸ busy)
      exact (back.entry f apart).trans (taken.entry f apart)
    · intro y apart
      rw [back.sta]
      exact (update_of_ne apart ..).trans (congrFun sta y)
    · rw [back.sta]
      simp [Hal.setSta,sta]
    · rw [back.sta]
      simp [Hal.setSta,sta]

theorem searchBuf_some (found : searchBuf avl bits l = some (i,r)) : i ∈ l ∧ r = avl (bits i) ∧ r.1 ≠ .non := by
  induction l with
  | nil => cases found
  | cons j rest ih =>
      rw [searchBuf] at found
      split at found
      · obtain ⟨listed,same,real⟩ := ih found
        exact ⟨List.mem_cons_of_mem _ listed,same,real⟩
      · rename_i real
        cases found
        exact ⟨List.mem_cons_self ..,rfl,real⟩

def Marks (b : Bits) (r : SubIdx × Bits) : Prop := r.1 ≠ .non → r.2 = setBusy b r.1
theorem marks_none (b : Bits) : Marks b (.non,b) := fun real => absurd rfl real

theorem marks_if (b : Bits) (c : Prop) [Decidable c] (sub : SubIdx) (later : Marks b r) :
    Marks b (if c then (sub,setBusy b sub) else r) := by
  split
  · exact fun _ => rfl
  · exact later

theorem queryAvl_marks (bw : ChannelWidth) (b : Bits) : Marks b (queryAvl bw b) := by
  cases bw with
  | w20 => exact marks_if b _ _ (marks_if b _ _ (marks_if b _ _ (marks_if b _ _ (marks_none b))))
  | w40 => exact marks_if b _ _ (marks_if b _ _ (marks_none b))
  | w80 => exact marks_if b _ _ (marks_none b)
  | other => exact marks_none b

theorem queryIdle_some (sizes : csi.maxSu ≤ csi.max) (found : queryIdleCsiBuf csi kind bw = some (i,sub,after)) :
    after = csi.take i (setBusy (csi.sub i) sub) ∧ sub ≠ .non ∧ i < csi.max := by
  have search : ∃ l, (∀ j ∈ l, j < csi.max) ∧
      queryCsiBuf csi kind bw = searchBuf (queryAvl bw) csi.sub l := by
    cases kind with
    | su =>
        refine ⟨_,?_,rfl⟩
        intro j listed
        have below := List.mem_range.mp listed
        omega
    | mu =>
        refine ⟨_,?_,rfl⟩
        intro j listed
        have between := List.mem_range'_1.mp listed
        omega
  obtain ⟨l,inside,same⟩ := search
  unfold queryIdleCsiBuf at found
  rw [same] at found
  split at found
  · cases found
  · rename_i j r bits hit
    cases found
    obtain ⟨listed,marked,real⟩ := searchBuf_some hit
    have named : sub = (queryAvl bw (csi.sub i)).1 := congrArg fst marked
    have set : bits = (queryAvl bw (csi.sub i)).2 := congrArg snd marked
    refine ⟨?_,real,inside i listed⟩
    rw [set,queryAvl_marks bw _ (named ▸ real),← named]

theorem take_keeps (csi : CsiObj) (i : Nat) (sub : SubIdx) (busy : csi.sub k b) :
    (csi.take i (setBusy (csi.sub i) sub)).sub k b := by
  by_cases here : k = i
  · subst here
    simp [CsiObj.take,setBusy,busy]
  · simpa [CsiObj.take,here] using busy

theorem take_sets (csi : CsiObj) (i : Nat) (sub : SubIdx) (part : b ∈ sub.parts) :
    (csi.take i (setBusy (csi.sub i) sub)).sub i b := by
  simp [CsiObj.take,setBusy,part]

theorem querySwap_cases (s : Hal) (x : Nat) (kind : BfeeType) (bw : ChannelWidth) (enSwap : Bool) :
    querySwap s x kind bw enSwap = (none,s) ∨
      ∃ i sub after, (kind = .mu ∧ enSwap) ∧ queryIdleCsiBuf s.csi kind bw = some (i,sub,after) ∧
        querySwap s x kind bw enSwap =
          (some (i,sub),({s with csi:=after} : Hal).setSta x {s.sta x with bfCsiBufSwap:=csiRecord i sub kind}) := by
  unfold querySwap
  split
  · rename_i asked
    split
    · exact .inl rfl
    · rename_i i sub after found
      exact .inr ⟨i,sub,after,asked,found,rfl⟩
  · exact .inl rfl

theorem Records.sizes (records : Records csi hold sta) (same : after.max = csi.max) : Records after hold sta := by
  have valid : ∀ buf, isCsiBufValid after buf = isCsiBufValid csi buf := by
    intro buf
    unfold isCsiBufValid
    rw [same]
  have named : ∀ w kind buf, Named csi w kind buf → Named after w kind buf := fun w kind buf named =>
    {named with inside:=same ▸ named.inside}
  have unset : ∀ buf, Unset csi buf → Unset after buf := fun buf unset given => unset ((valid buf).symm.trans given)
  refine ⟨records.pointer,fun h holds => named _ _ _ (records.named h holds),?_,?_⟩
  · intro h holds
    have swap := records.swap h holds
    unfold SwapNamed at swap ⊢
    split
    · rename_i w some
      rw [some] at swap
      exact named _ _ _ swap
    · rename_i none
      rw [none] at swap
      exact unset _ swap
  · intro none
    obtain ⟨first,second⟩ := records.spare none
    exact ⟨unset _ first,unset _ second⟩

structure Filled (s t : Hal) (x : Nat) (h : Hold) (i : Nat) : Prop where
  bf : ∃ bf, s.bf.pop = some (h.entry,bf) ∧ t.bf = bf.append h.entry
  sumu : ∃ p, (s.sumu h.kind).pop = some (i,p) ∧ t.sumu = update s.sumu h.kind (p.append i)
  bfee : (t.entry h.entry).bfee = some (h.kind,i)
  entry : ∀ f, f ≠ h.entry → t.entry f = s.entry f
  idle : ∀ k b, h.covers k b → s.csi.sub k b = false
  covered : ∀ k b, h.covers k b → t.csi.sub k b
  csi : ∀ k b, s.csi.sub k b → t.csi.sub k b
  max : t.csi.max = s.csi.max
  maxSu : t.csi.maxSu = s.csi.maxSu
  sta : ∀ y, y ≠ x → t.sta y = s.sta y
  records : Records t.csi (some h) (t.sta x)
  held : t.held = update s.held x (some h)

theorem filled_kept (kept : Kept bfNr sumuNr s) (nothing : s.held x = none) (filled : Filled s t x h i) : Kept bfNr sumuNr t := by
  obtain ⟨bf,popped,bfAfter⟩ := filled.bf
  obtain ⟨p,paired,sumuAfter⟩ := filled.sumu
  have owned := kept.owned
  have fresh := owned.bf.fresh popped
  have freshPair := (owned.sumu h.kind).fresh paired
  have busy : t.bf.busy = s.bf.busy ++ [h.entry] := by rw [bfAfter]; exact Pool.taken_busy popped
  have here : t.sumu h.kind = p.append i := by rw [sumuAfter,update_self]
  have more : ∀ e ∈ s.bf.busy, e ∈ t.bf.busy := fun e listed => busy ▸ List.mem_append_left _ listed
  have morePairs : ∀ k j, j ∈ (s.sumu k).busy → j ∈ (t.sumu k).busy := by
    intro k j listed
    by_cases same : k = h.kind
    · subst same
      rw [here,Pool.taken_busy paired]
      exact List.mem_append_left _ listed
    · rw [sumuAfter,update_of_ne same]
      exact listed
  have self : t.held x = some h := by rw [filled.held,update_self]
  have others : ∀ y, y ≠ x → t.held y = s.held y := by
    intro y apart
    rw [filled.held]
    exact update_of_ne apart ..
  have older : ∀ y g, t.held y = some g → y ≠ x → s.held y = some g := fun y g holds apart => (others y apart).symm.trans holds
  have oldEntry : ∀ y g, s.held y = some g → g.entry ≠ h.entry := by
    intro y g holds same
    exact fresh (same ▸ (owned.has y g holds).entry)
  have bfeeOld : ∀ f ∈ s.bf.busy, (t.entry f).bfee = (s.entry f).bfee ∧ (s.entry f).bfee ≠ some (h.kind,i) := by
    intro f listed
    obtain ⟨y,g,holds,same⟩ := owned.holder f listed
    subst same
    obtain ⟨j,bfee,paired⟩ := (owned.has y g holds).bfee
    refine ⟨congrArg BfEntry.bfee (filled.entry _ (oldEntry y g holds)),?_⟩
    rw [bfee]
    intro equal
    obtain ⟨kinds,same⟩ := mk.inj (some.inj equal)
    rw [kinds,same] at paired
    exact freshPair paired
  refine ⟨⟨?_,?_,?_,?_,?_,?_⟩,?_,?_,?_⟩
  · rw [bfAfter]
    exact owned.bf.taken popped
  · intro k
    by_cases same : k = h.kind
    · subst same
      rw [here]
      exact (owned.sumu _).taken paired
    · rw [sumuAfter,update_of_ne same]
      exact owned.sumu k
  · intro y g holds
    by_cases same : y = x
    · subst same
      cases self.symm.trans holds
      refine ⟨?_,⟨i,filled.bfee,?_⟩,filled.covered⟩
      · rw [busy]
        exact List.mem_append_right _ (List.mem_singleton_self _)
      · rw [here,Pool.taken_busy paired]
        exact List.mem_append_right _ (List.mem_singleton_self _)
    · have before := older y g holds same
      apply (owned.has y g before).moved more (filled.entry _ (oldEntry y g before))
      · exact fun k j listed _ => morePairs k j listed
      · exact fun k b _ => filled.csi k b
  · intro e listed
    rw [busy,List.mem_append,List.mem_singleton] at listed
    rcases listed with old | rfl
    · obtain ⟨y,g,holds,same⟩ := owned.holder e old
      have apart : y ≠ x := by
        intro equal
        rw [equal,nothing] at holds
        cases holds
      exact ⟨y,g,(others y apart).trans holds,same⟩
    · exact ⟨x,h,self,rfl⟩
  · intro y z g f first second same
    by_cases one : y = x
    · subst one
      cases self.symm.trans first
      by_contra apart
      exact oldEntry z f (older z f second (Ne.symm apart)) same.symm
    · have before := older y g first one
      by_cases two : z = x
      · subst two
        cases self.symm.trans second
        exact absurd same (oldEntry y g before)
      · exact owned.once y z g f before (older z f second two) same
  · intro e f first second same
    rw [busy,List.mem_append,List.mem_singleton] at first second
    rcases first with one | rfl
    · obtain ⟨bfeeE,notE⟩ := bfeeOld e one
      rcases second with two | rfl
      · obtain ⟨bfeeF,_⟩ := bfeeOld f two
        rw [bfeeE,bfeeF] at same
        exact owned.pair e f one two same
      · rw [bfeeE,filled.bfee] at same
        exact absurd same notE
    · rcases second with two | rfl
      · obtain ⟨bfeeF,notF⟩ := bfeeOld f two
        rw [bfeeF,filled.bfee] at same
        exact absurd same.symm notF
      · rfl
  · intro y z g f k b first second apart coversG coversF
    by_cases one : y = x
    · subst one
      cases self.symm.trans first
      have before := older z f second (Ne.symm apart)
      have set := (owned.has z f before).csi k b coversF
      cases (filled.idle k b coversG).symm.trans set
    · have before := older y g first one
      by_cases two : z = x
      · subst two
        cases self.symm.trans second
        have set := (owned.has y g before).csi k b coversG
        cases (filled.idle k b coversF).symm.trans set
      · exact kept.apart y z g f k b before (older z f second two) apart coversG coversF
  · intro y
    by_cases same : y = x
    · subst same
      rw [self]
      exact filled.records
    · rw [filled.sta y same,others y same]
      exact (kept.records y).sizes filled.max
  · rw [filled.max,filled.maxSu]
    exact kept.sizes

theorem cfgSwbf_bfee (s : Hal) (x e : Nat) (swap : Bool) (f : Nat) :
    ((cfgSwbfEntry s x e swap).entry f).bfee = (s.entry f).bfee := by
  unfold cfgSwbfEntry Hal.setEntry
  by_cases same : f = e
  · subst same
    cases swap <;> simp
  · simp [same]

theorem cfgSwbf_other (s : Hal) (x : Nat) (swap : Bool) (apart : f ≠ e) : (cfgSwbfEntry s x e swap).entry f = s.entry f :=
  update_of_ne apart ..

def settled (z : Hal) (x : Nat) (enSwap : Bool) (h : Hold) : Hal :=
  {cfgSwbfEntry z x h.entry enSwap with held:=update (cfgSwbfEntry z x h.entry enSwap).held x (some h)}

theorem settled_filled (first : Taken s u h.entry h.kind i) (bf : z.bf = u.bf) (sumu : z.sumu = u.sumu) (entry : z.entry = u.entry)
    (held : z.held = u.held) (idle : ∀ k b, h.covers k b → s.csi.sub k b = false)
    (covered : ∀ k b, h.covers k b → z.csi.sub k b) (csi : ∀ k b, s.csi.sub k b → z.csi.sub k b)
    (sizes : z.csi.max = s.csi.max ∧ z.csi.maxSu = s.csi.maxSu) (sta : ∀ y, y ≠ x → z.sta y = s.sta y)
    (records : Records z.csi (some h) (z.sta x)) (enSwap : Bool) : Filled s (settled z x enSwap h) x h i where
  bf := by
    obtain ⟨pool,popped,after⟩ := first.bf
    exact ⟨pool,popped,bf.trans after⟩
  sumu := by
    obtain ⟨pool,popped,after⟩ := first.sumu
    exact ⟨pool,popped,sumu.trans after⟩
  bfee := by
    rw [settled,cfgSwbf_bfee,entry]
    exact first.bfee
  entry := by
    intro f apart
    exact (cfgSwbf_other z x enSwap apart).trans ((congrFun entry f).trans (first.entry f apart))
  idle := idle
  covered := covered
  csi := csi
  max := sizes.1
  maxSu := sizes.2
  sta := sta
  records := records
  held := by
    have before : (cfgSwbfEntry z x h.entry enSwap).held = s.held := held.trans first.held
    rw [settled,before]

section
variable (kept : Kept bfNr sumuNr s)
include kept

theorem query_succeeds (fits : QueryFits s x kind bw enSwap) (some : s.bf.idle ≠ [])
    (found : queryIdleCsiBuf s.csi kind bw = Option.some (j,sub,csi)) :
    ∃ t, queryProcStaRes s x kind bw enSwap = Option.some (.success,t) ∧ Kept bfNr sumuNr t ∧
      ∀ y, y ≠ x → t.held y = s.held y := by
  obtain ⟨e,i,u,taken,first,sta⟩ := query_taken some (fits.pair some)
  obtain ⟨after,real,inside⟩ := queryIdle_some kept.sizes found
  obtain ⟨narrow,idle⟩ := fits.csi some j sub csi found
  have same : u.csi = s.csi := first.csi
  obtain ⟨_,unsetSwap⟩ := (kept.records x).spare fits.nothing
  let v := u.setSta x {u.sta x with bfEntry:=Option.some e}
  let w := ({v with csi} : Hal).setSta x {v.sta x with bfCsiBuf:=csiRecord j sub kind}
  have run : ∀ swap z, querySwap w x kind bw enSwap = (swap,z) →
      queryProcStaRes s x kind bw enSwap = Option.some (.success,settled z x enSwap ⟨e,kind,(j,sub),swap⟩) := by
    intro swap z asked
    have search : queryIdleCsiBuf v.csi kind bw = Option.some (j,sub,csi) := by
      rw [← found,← same]
      rfl
    rw [queryProcStaRes,taken]
    simp only [bind_some]
    erw [search]
    dsimp only
    erw [asked]
    rfl
  have finish : ∀ z h, Filled s (settled z x enSwap h) x h i → Kept bfNr sumuNr (settled z x enSwap h) ∧
      ∀ y, y ≠ x → (settled z x enSwap h).held y = s.held y := by
    intro z h filled
    refine ⟨filled_kept kept fits.nothing filled,?_⟩
    intro y apart
    rw [filled.held]
    exact update_of_ne apart ..
  have keeps : ∀ k b, s.csi.sub k b → csi.sub k b := by
    intro k b busy
    rw [after]
    exact take_keeps s.csi j sub busy
  have staV : ∀ y, y ≠ x → w.sta y = s.sta y := by
    intro y apart
    simp only [w,v,Hal.setSta,update_of_ne apart,sta]
  have pointer : (w.sta x).bfEntry = Option.some e := by simp [w,v,Hal.setSta]
  have buf : (w.sta x).bfCsiBuf = csiRecord j sub kind := by simp [w,v,Hal.setSta]
  have swapBuf : (w.sta x).bfCsiBufSwap = (s.sta x).bfCsiBufSwap := by simp [w,v,Hal.setSta,sta]
  have sizes : csi.max = s.csi.max ∧ csi.maxSu = s.csi.maxSu := by
    rw [after]
    exact ⟨rfl,rfl⟩
  rcases querySwap_cases w x kind bw enSwap with plain | ⟨j',sub',csi',asked,found',swapped⟩
  · refine ⟨_,run _ _ plain,finish _ _ ?_⟩
    apply settled_filled (u := u)
    · exact first
    · rfl
    · rfl
    · rfl
    · rfl
    · rintro k b (⟨rfl,part⟩ | ⟨_,none,_⟩)
      · exact idle b part
      · cases none
    · rintro k b (⟨rfl,part⟩ | ⟨_,none,_⟩)
      · change csi.sub j b
        rw [after]
        exact take_sets s.csi j sub part
      · cases none
    · exact keeps
    · exact sizes
    · exact staV
    · refine ⟨?_,?_,?_,fun none => by cases none⟩
      · rintro h ⟨rfl⟩
        exact pointer
      · rintro h ⟨rfl⟩
        exact ⟨buf,narrow,sizes.1 ▸ inside,real⟩
      · rintro h ⟨rfl⟩
        change Unset csi (w.sta x).bfCsiBufSwap
        rw [swapBuf]
        intro valid
        apply unsetSwap
        unfold isCsiBufValid at valid ⊢
        rw [← sizes.1]
        exact valid
  · obtain ⟨after',real',inside'⟩ := queryIdle_some (sizes.1 ▸ sizes.2 ▸ kept.sizes) found'
    obtain ⟨narrow',idle'⟩ := fits.swap some asked j sub csi found j' sub' csi' found'
    refine ⟨_,run _ _ swapped,finish _ _ ?_⟩
    apply settled_filled (u := u)
    · exact first
    · rfl
    · rfl
    · rfl
    · rfl
    · rintro k b (⟨rfl,part⟩ | ⟨_,⟨rfl⟩,rfl,part⟩)
      · exact idle b part
      · cases busy : s.csi.sub j' b with
        | false => rfl
        | true => cases (idle' b part).symm.trans (keeps j' b busy)
    · rintro k b (⟨rfl,part⟩ | ⟨_,⟨rfl⟩,rfl,part⟩)
      · change csi'.sub j b
        rw [after']
        apply take_keeps csi j' sub'
        rw [after]
        exact take_sets s.csi j sub part
      · change csi'.sub j' b
        rw [after']
        exact take_sets csi j' sub' part
    · intro k b busy
      change csi'.sub k b
      rw [after']
      exact take_keeps csi j' sub' (keeps k b busy)
    · change csi'.max = _ ∧ csi'.maxSu = _
      rw [after']
      exact sizes
    · intro y apart
      exact (update_of_ne apart ..).trans (staV y apart)
    · have max' : csi'.max = csi.max := by rw [after']; rfl
      refine ⟨?_,?_,?_,fun none => by cases none⟩
      · rintro h ⟨rfl⟩
        simpa [Hal.setSta] using pointer
      · rintro h ⟨rfl⟩
        refine ⟨?_,narrow,?_,real⟩
        · simpa [Hal.setSta] using buf
        · change j < csi'.max
          rw [max',sizes.1]
          exact inside
      · rintro h ⟨rfl⟩
        refine ⟨?_,narrow',?_,real'⟩
        · simp [Hal.setSta]
        · change j' < csi'.max
          rw [max']
          exact inside'

theorem records_apart (fits : ReleaseFits s x) (other : y ≠ x) (holds : s.held y = some g)
    (covers : g.covers k b) :
    (isCsiBufValid s.csi (s.sta x).bfCsiBuf → (s.sta x).bfCsiBuf.idx = k → b ∉ (s.sta x).bfCsiBuf.subIdx.parts) ∧
      (isCsiBufValid s.csi (s.sta x).bfCsiBufSwap → (s.sta x).bfCsiBufSwap.idx = k →
        b ∉ (s.sta x).bfCsiBufSwap.subIdx.parts) := by
  have records := kept.records x
  have nobody : ∀ buf, Unset s.csi buf → (isCsiBufValid s.csi buf → stale s x) →
      isCsiBufValid s.csi buf → buf.idx = k → b ∉ buf.subIdx.parts := by
    intro buf unset left valid here _
    rw [unset valid] at here
    subst here
    exact fits.csi (left valid) y g other holds b covers
  have owner : ∀ h w buf, s.held x = some h → Named s.csi w h.kind buf → (∀ b ∈ w.2.parts, h.covers w.1 b) →
      isCsiBufValid s.csi buf → buf.idx = k → b ∉ buf.subIdx.parts := by
    intro h w buf held named covered _ here part
    have index : buf.idx = w.1 := by
      rw [named.record]
      exact Nat.mod_eq_of_lt named.fits
    rw [named.record] at part
    rw [index] at here
    subst here
    exact kept.apart x y h g w.1 b held holds (Ne.symm other) (covered b part) covers
  cases held : s.held x with
  | none =>
      obtain ⟨first,second⟩ := records.spare held
      have left : stale s x = (isCsiBufValid s.csi (s.sta x).bfCsiBuf || isCsiBufValid s.csi (s.sta x).bfCsiBufSwap) := by
        rw [stale,held]
      exact ⟨nobody _ first fun valid => by rw [left,valid,Bool.true_or],
        nobody _ second fun valid => by rw [left,valid,Bool.or_true]⟩
  | some h =>
      refine ⟨owner h h.csi _ held (records.named h held) fun b part => .inl ⟨rfl,part⟩,?_⟩
      have swap := records.swap h held
      unfold SwapNamed at swap
      cases second : h.swap with
      | some w =>
          rw [second] at swap
          exact owner h w _ held swap fun b part => .inr ⟨w,second,rfl,part⟩
      | none =>
          rw [second] at swap
          apply nobody _ swap
          intro valid
          rw [stale,held]
          simp only [second,valid]
          rfl

theorem released_kept (fits : ReleaseFits s x) (bf : v.bf.Whole (List.range bfNr))
    (sumu : ∀ k, (v.sumu k).Whole (List.range (sumuNr k)))
    (has : ∀ y g, y ≠ x → s.held y = some g → Has v g)
    (holder : ∀ e ∈ v.bf.busy, ∃ y g, y ≠ x ∧ s.held y = some g ∧ g.entry = e)
    (pair : ∀ e f, e ∈ v.bf.busy → f ∈ v.bf.busy → (v.entry e).bfee = (v.entry f).bfee → e = f)
    (csi : v.csi = s.csi) (sta : v.sta = s.sta) (held : v.held = s.held) (st : HalStatus) :
    Kept bfNr sumuNr (releaseRecords st v x).2 ∧ ∀ y, y ≠ x → (releaseRecords st v x).2.held y = s.held y := by
  have self : (releaseRecords st v x).2.held x = none := update_self ..
  have others : ∀ y, y ≠ x → (releaseRecords st v x).2.held y = s.held y := by
    intro y apart
    exact (update_of_ne apart ..).trans (congrFun held y)
  have older : ∀ y g, (releaseRecords st v x).2.held y = some g → y ≠ x ∧ s.held y = some g := by
    intro y g holds
    have apart : y ≠ x := by
      intro same
      rw [same,self] at holds
      cases holds
    exact ⟨apart,(others y apart).symm.trans holds⟩
  obtain ⟨max,maxSu⟩ := record_sizes st v.csi (v.sta x).bfCsiBuf
  obtain ⟨maxTwo,maxSuTwo⟩ := record_sizes (releaseRecord st v.csi (v.sta x).bfCsiBuf).1
    (releaseRecord st v.csi (v.sta x).bfCsiBuf).2.1 (v.sta x).bfCsiBufSwap
  have sizes : (releaseRecords st v x).2.csi.max = s.csi.max := (maxTwo.trans max).trans (congrArg CsiObj.max csi)
  have sizesSu : (releaseRecords st v x).2.csi.maxSu = s.csi.maxSu := (maxSuTwo.trans maxSu).trans (congrArg CsiObj.maxSu csi)
  refine ⟨⟨⟨bf,sumu,?_,?_,?_,pair⟩,?_,?_,?_⟩,others⟩
  · intro y g holds
    obtain ⟨apart,before⟩ := older y g holds
    have here := has y g apart before
    refine ⟨here.entry,here.bfee,?_⟩
    intro k b covers
    have busy := here.csi k b covers
    obtain ⟨first,second⟩ := records_apart kept fits apart before covers
    rw [← csi,← sta] at first second
    apply record_keeps
    · exact record_keeps _ _ _ busy first
    · intro valid
      apply second
      unfold isCsiBufValid at valid ⊢
      rw [max] at valid
      exact valid
  · intro e listed
    obtain ⟨y,g,apart,holds,same⟩ := holder e listed
    exact ⟨y,g,(others y apart).trans holds,same⟩
  · intro y z g f first second same
    exact kept.owned.once y z g f (older y g first).2 (older z f second).2 same
  · intro y z g f k b first second
    exact kept.apart y z g f k b (older y g first).2 (older z f second).2
  · intro y
    by_cases same : y = x
    · subst same
      rw [self]
      refine ⟨fun h none => (nomatch none),fun h none => (nomatch none),fun h none => (nomatch none),fun _ => ?_⟩
      simp only [releaseRecords,update_self]
      exact ⟨record_unset _ _ _ _ (maxTwo.trans max),record_unset _ _ _ _ maxTwo⟩
    · have other : (releaseRecords st v x).2.sta y = s.sta y := (update_of_ne same ..).trans (congrFun sta y)
      rw [other,others y same]
      exact (kept.records y).sizes sizes
  · rw [sizes,sizesSu]
    exact kept.sizes

theorem release_kept (fits : ReleaseFits s x) :
    ∃ st t, releaseProcStaRes s x = some (st,t) ∧ Kept bfNr sumuNr t ∧ ∀ y, y ≠ x → t.held y = s.held y := by
  have owned := kept.owned
  cases held : s.held x with
  | none =>
      have pointer : (s.sta x).bfEntry = none := by
        by_contra set
        exact fits.own set held
      have result : releaseProcStaRes s x = some (releaseRecords .failure s x) := by
        rw [releaseProcStaRes,releaseEntry,pointer]
        rfl
      refine ⟨_,_,result,?_⟩
      apply released_kept kept fits owned.bf owned.sumu
      · exact fun y g _ holds => owned.has y g holds
      · intro e listed
        obtain ⟨y,g,holds,same⟩ := owned.holder e listed
        refine ⟨y,g,?_,holds,same⟩
        intro equal
        rw [equal,held] at holds
        cases holds
      · exact owned.pair
      · rfl
      · rfl
      · rfl
  | some h =>
      have own := owned.has x h held
      obtain ⟨i,bfee,paired⟩ := own.bfee
      obtain ⟨u,released,back⟩ := release_returned owned.bf own.entry (owned.sumu h.kind) bfee paired
      have pointer : (s.sta x).bfEntry = some h.entry := (kept.records x).pointer h held
      have result : releaseProcStaRes s x = some (releaseRecords .success u x) := by
        rw [releaseProcStaRes,releaseEntry,pointer]
        simp only [released,map_some]
      have bfBusy : ∀ e, e ∈ u.bf.busy ↔ e ∈ s.bf.busy ∧ e ≠ h.entry := by
        intro e
        rw [back.bf]
        exact owned.bf.given_busy h.entry e
      have sumuSelf : u.sumu h.kind = ({s.sumu h.kind with busy:=(s.sumu h.kind).busy.erase i} : Pool Nat).push i := by
        rw [back.sumu,update_self]
      have sumuOther : ∀ k, k ≠ h.kind → u.sumu k = s.sumu k := by
        intro k apart
        rw [back.sumu]
        exact update_of_ne apart ..
      refine ⟨_,_,result,?_⟩
      apply released_kept kept fits
      · rw [back.bf]
        exact owned.bf.given own.entry
      · intro k
        by_cases same : k = h.kind
        · subst same
          rw [sumuSelf]
          exact (owned.sumu _).given paired
        · rw [sumuOther k same]
          exact owned.sumu k
      · intro y g apart holds
        have before := owned.has y g holds
        have different : g.entry ≠ h.entry := fun same => apart (owned.once y x g h holds held same)
        obtain ⟨j,bfeeG,pairedG⟩ := before.bfee
        refine ⟨(bfBusy _).mpr ⟨before.entry,different⟩,⟨j,?_,?_⟩,?_⟩
        · rw [back.entry _ different]
          exact bfeeG
        · by_cases same : g.kind = h.kind
          · rw [same] at pairedG bfeeG
            rw [same,sumuSelf]
            refine ((owned.sumu h.kind).given_busy i j).mpr ⟨pairedG,?_⟩
            intro equal
            apply different
            apply owned.pair _ _ before.entry own.entry
            rw [bfeeG,bfee,equal]
          · rw [sumuOther _ same]
            exact pairedG
        · rw [back.csi]
          exact before.csi
      · intro e listed
        obtain ⟨busy,different⟩ := (bfBusy e).mp listed
        obtain ⟨y,g,holds,same⟩ := owned.holder e busy
        refine ⟨y,g,?_,holds,same⟩
        intro equal
        rw [equal] at holds
        cases held.symm.trans holds
        exact different same.symm
      · intro e f first second same
        obtain ⟨busyE,differentE⟩ := (bfBusy e).mp first
        obtain ⟨busyF,differentF⟩ := (bfBusy f).mp second
        rw [back.entry e differentE,back.entry f differentF] at same
        exact owned.pair e f busyE busyF same
      · exact back.csi
      · exact back.sta
      · exact back.held

theorem query_kept (fits : QueryFits s x kind bw enSwap) :
    ∃ st t, queryProcStaRes s x kind bw enSwap = some (st,t) ∧ Kept bfNr sumuNr t ∧
      (st ≠ .success → SameLists s t ∧ t.held x = none) := by
  by_cases empty : s.bf.idle = []
  · obtain ⟨t,result,after,same,held⟩ := query_fails_empty kept fits empty
    exact ⟨_,t,result,after,fun _ => ⟨same,(congrFun held x).trans fits.nothing⟩⟩
  · cases found : queryIdleCsiBuf s.csi kind bw with
    | none =>
        obtain ⟨t,result,after,same,held⟩ := query_fails_csi kept fits empty found
        exact ⟨_,t,result,after,fun _ => ⟨same,(congrFun held x).trans fits.nothing⟩⟩
    | some r =>
        obtain ⟨j,sub,csi⟩ := r
        obtain ⟨t,result,after,_⟩ := query_succeeds kept fits empty found
        exact ⟨_,t,result,after,fun failed => absurd rfl failed⟩
end

theorem init_kept (bfNr suNr muNr csiSu csiMu : Nat) (counted : csiSu+csiMu < 256) (ident : Nat → Nat × Nat × Nat) :
    Kept bfNr (fun | .su => suNr | .mu => muNr) (init bfNr suNr muNr csiSu csiMu counted ident) := by
  have whole : ∀ n, (idlePool n).Whole (List.range n) := by
    intro n
    refine ⟨?_,List.nodup_range,(List.length_range ..).symm⟩
    rw [idlePool,List.append_nil]
  refine ⟨⟨whole bfNr,?_,?_,?_,?_,?_⟩,?_,?_,Nat.le_add_right ..⟩
  · intro k
    cases k with
    | su => exact whole suNr
    | mu => exact whole muNr
  · exact fun _ _ holds => nomatch holds
  · exact fun _ listed => nomatch listed
  · exact fun _ _ _ _ holds => nomatch holds
  · exact fun _ _ listed => nomatch listed
  · exact fun _ _ _ _ _ _ holds => nomatch holds
  · intro x
    exact ⟨fun _ holds => (nomatch holds),fun _ holds => (nomatch holds),fun _ holds => (nomatch holds),
      fun _ => ⟨fun _ => rfl,fun _ => rfl⟩⟩

def Guard (s : Option Hal) (call : Call) : Prop := ∀ t, s = some t → Fits t call

theorem step_kept (kept : Kept bfNr sumuNr s) (call : Call) (fits : Fits s call) :
    ∃ t, step (some s) call = some t ∧ Kept bfNr sumuNr t := by
  cases call with
  | query x kind bw enSwap =>
      obtain ⟨st,t,result,after,_⟩ := query_kept kept fits
      exact ⟨t,by simp only [step,bind_some,result,map_some],after⟩
  | release x =>
      obtain ⟨st,t,result,after,_⟩ := release_kept kept fits
      exact ⟨t,by simp only [step,bind_some,result,map_some],after⟩

theorem sounding_resources (path : Machine.Reached step Guard (some (init bfNr suNr muNr csiSu csiMu counted ident)) o) :
    ∃ s, o = some s ∧ Owned bfNr (fun | .su => suNr | .mu => muNr) s ∧
      (∀ x kind bw enSwap, QueryFits s x kind bw enSwap → ∃ st t, queryProcStaRes s x kind bw enSwap = some (st,t) ∧
        (st ≠ .success → SameLists s t ∧ t.held x = none)) ∧
      ∀ x, ReleaseFits s x → ∃ st t, releaseProcStaRes s x = some (st,t) ∧
        ∀ y h, y ≠ x → s.held y = some h → t.held y = some h ∧ Has t h := by
  have reached := path.invariant (fun o => ∃ s, o = some s ∧ Kept bfNr (fun | .su => suNr | .mu => muNr) s)
    ⟨_,rfl,init_kept bfNr suNr muNr csiSu csiMu counted ident⟩ fun o call before guard => by
      obtain ⟨s,rfl,kept⟩ := before
      exact step_kept kept call (guard s rfl)
  obtain ⟨s,same,kept⟩ := reached
  refine ⟨s,same,kept.owned,?_,?_⟩
  · intro x kind bw enSwap fits
    obtain ⟨st,t,result,_,failed⟩ := query_kept kept fits
    exact ⟨st,t,result,failed⟩
  · intro x fits
    obtain ⟨st,t,result,after,others⟩ := release_kept kept fits
    refine ⟨st,t,result,?_⟩
    intro y h apart holds
    have still := (others y apart).trans holds
    exact ⟨still,after.owned.has y h still⟩

def someIdent : Nat → Nat × Nat × Nat := fun x => (x,x,0)
def exchanged : List Call := [.query 0 .su .w80 false,.query 1 .mu .w20 true,.release 0,.query 0 .su .w40 false]

theorem sounding_resources_exchanged : ∃ s, Machine.run step (some (init 2 1 1 2 1 (by decide) someIdent)) exchanged = some s ∧
    Owned 2 (fun | .su => 1 | .mu => 1) s := by
  have path : Machine.Reached step Guard (some (init 2 1 1 2 1 (by decide) someIdent))
      (run step (some (init 2 1 1 2 1 (by decide) someIdent)) exchanged) := by
    apply Machine.Reached.start.run
    refine ⟨?_,?_,?_,?_,trivial⟩
    · rintro s ⟨rfl⟩
      refine ⟨rfl,by decide,?_,?_,?_⟩
      · rintro _ i sub after ⟨rfl⟩
        exact ⟨by decide,fun b _ => rfl⟩
      · rintro _ ⟨none,_⟩
        cases none
      · rintro (none | none) <;> cases none
    · rintro s ⟨rfl⟩
      refine ⟨rfl,by decide,?_,?_,?_⟩
      · rintro _ i sub after ⟨rfl⟩
        exact ⟨by decide,fun b _ => rfl⟩
      · rintro _ _ i sub after ⟨rfl⟩ j sub' after' ⟨rfl⟩
        exact ⟨by decide,by decide⟩
      · rintro (none | none) <;> cases none
    · rintro s ⟨rfl⟩
      refine ⟨fun _ none => (nomatch none),?_⟩
      intro _ y h apart holds b covers
      by_cases one : y = 1
      · subst one
        cases holds
        rcases covers with ⟨index,_⟩ | ⟨w,⟨rfl⟩,index,_⟩ <;> cases index
      · have none : (init 2 1 1 2 1 (by decide) someIdent).held y = some h := by
          have first := (update_of_ne one ..).symm.trans holds
          exact (update_of_ne apart ..).symm.trans first
        cases none
    · rintro s ⟨rfl⟩
      refine ⟨rfl,by decide,?_,?_,?_⟩
      · rintro _ i sub after ⟨rfl⟩
        exact ⟨by decide,by decide⟩
      · rintro _ ⟨none,_⟩
        cases none
      · rintro (none | none) <;> cases none
  obtain ⟨s,same,owned,_⟩ := sounding_resources path
  exact ⟨s,same,owned⟩

def Domain (s : Option Hal) (call : Call) : Prop :=
  ∀ t, s = some t → match call with
    | .query x _ _ _ => t.held x = none
    | .release _ => True

-- The first release of a station gives buffer 0 back for its zeroed swap record; a second
-- release gives back the entry another station has been given since.
def zeroedSwap : List Call := [.query 0 .su .w20 false,.query 1 .su .w20 false,.release 0]
def twiceReleased : List Call := [.query 0 .su .w20 false,.release 0,.query 1 .su .w20 false,.release 0]

theorem sounding_resources_lost : ∃ s t,
    Machine.Reached step Domain (some (init 2 2 0 1 0 (by decide) someIdent)) (some s) ∧ ¬Owned 2 (fun | .su => 2 | .mu => 0) s ∧
    Machine.Reached step Domain (some (init 1 1 0 1 0 (by decide) someIdent)) (some t) ∧ ¬Owned 1 (fun | .su => 1 | .mu => 0) t := by
  have first : ∃ s, run step (some (init 2 2 0 1 0 (by decide) someIdent)) zeroedSwap = some s ∧
      s.held 1 = some ⟨1,.su,(0,.i20LU),none⟩ ∧ s.csi.sub 0 1 = false := ⟨_,rfl,rfl,rfl⟩
  have second : ∃ t, run step (some (init 1 1 0 1 0 (by decide) someIdent)) twiceReleased = some t ∧
      t.held 1 = some ⟨0,.su,(0,.i20LL),none⟩ ∧ t.bf.busy = [] := ⟨_,rfl,rfl,rfl⟩
  obtain ⟨s,runS,heldS,cleared⟩ := first
  obtain ⟨t,runT,heldT,empty⟩ := second
  refine ⟨s,t,runS ▸ Machine.Reached.start.run ?_,?_,runT ▸ Machine.Reached.start.run ?_,?_⟩
  · refine ⟨?_,?_,?_,trivial⟩
    · rintro s ⟨rfl⟩
      exact rfl
    · rintro s ⟨rfl⟩
      exact rfl
    · exact fun _ _ => trivial
  · intro owned
    have busy := (owned.has 1 _ heldS).csi 0 1 (.inl ⟨rfl,by decide⟩)
    cases cleared.symm.trans busy
  · refine ⟨?_,?_,?_,?_,trivial⟩
    · rintro s ⟨rfl⟩
      exact rfl
    · exact fun _ _ => trivial
    · rintro s ⟨rfl⟩
      exact rfl
    · exact fun _ _ => trivial
  · intro owned
    have listed := (owned.has 1 _ heldT).entry
    rw [empty] at listed
    cases listed
end Rtl8852au.Sounding
