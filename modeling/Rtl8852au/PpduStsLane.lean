import Mathlib.Data.List.Basic
import Rtl8852au.Bypass
import Rtl8852au.PpduSts

namespace Rtl8852au.Psts
open Machine PhlQueue Bypass Prod

def key (p : RxPkt) : Nat × Nat := (p.name,p.ppdu)

def lane (s : Rx) (band : Fin 2) : Lane (Nat × Nat) :=
  ⟨(s.handled.filter (fun h => decide (hwBand h.1 = band))).map fun h => (key h.1,h.2),
    (s.sts band (s.psts.curPpduCnt band)).queue.map key⟩

def off (psts : PpduStsInfo) (p : RxPkt) : Prop :=
  psts.enPstsPerPkt = false ∨ p.mdata.ppduCnt ≥ phlMaxPpduCnt ∨ psts.enPpduSts (hwBand p) = false

instance : Decidable (off psts p) := inferInstanceAs (Decidable (_ ∨ _ ∨ _))

def passes (psts : PpduStsInfo) (p : RxPkt) : Prop :=
  off psts p ∨ psts.curPpduCnt (hwBand p) = p.mdata.ppduCnt ∧ ¬ filtered psts p

instance : Decidable (passes psts p) := inferInstanceAs (Decidable (_ ∨ _ ∧ ¬ _))

def wifiMoves (psts : PpduStsInfo) (p : RxPkt) : List (Move (Nat × Nat)) :=
  if passes psts p then [.pass (key p)]
  else if psts.curPpduCnt (hwBand p) = p.mdata.ppduCnt then [.park (key p)]
  else [.flush,if filtered psts p then .park (key p) else .pass (key p)]

def laneMoves (psts : PpduStsInfo) (p : RxPkt) : List (Move (Nat × Nat)) :=
  match p.type with
  | .wifi => wifiMoves psts p
  | .ppduStatus => if off psts p then [] else [.flush]
  | .other => []

structure Rx.Inv (s : Rx) : Prop where
  counted : ∀ band i, (s.sts band i).Counted
  alone : ∀ band i, i ≠ s.psts.curPpduCnt band → (s.sts band i).queue = []
  small : ∀ band, s.psts.curPpduCnt band < phlMaxPpduCnt
  own : ∀ band i, ∀ p ∈ (s.sts band i).queue, hwBand p = band
  kept : s.dropped = []

section queues
variable {s : Rx} {band : Fin 2} {i : Nat}

theorem setSts_same (s : Rx) (band : Fin 2) (i : Nat) : s.setSts band i (s.sts band i) = s := by
  unfold Rx.setSts Rx.sts
  rw [Function.update_eq_self,Function.update_eq_self]

@[simp] theorem sts_setSts (s : Rx) (band : Fin 2) (i : Nat) (q : PhlQueue RxPkt) : (s.setSts band i q).sts band i = q := by
  simp [Rx.setSts,Rx.sts]

theorem sts_setSts_ne (s : Rx) (q : PhlQueue RxPkt) (other : band' ≠ band ∨ j ≠ i) :
    (s.setSts band i q).sts band' j = s.sts band' j := by
  unfold Rx.setSts Rx.sts
  by_cases same : band' = band
  · subst same
    have apart : j ≠ i := other.resolve_left (fun ne => ne rfl)
    simp [apart]
  · simp [same]

def handedOver (s : Rx) (band : Fin 2) (i : Nat) : Rx :=
  {s.setSts band i .init with handled:=s.handled ++ (s.sts band i).queue.map (·,true)}

theorem handedOver_empty (counted : (s.sts band i).Counted) (empty : (s.sts band i).queue = []) : handedOver s band i = s := by
  have same := counted.init empty
  have keeps := setSts_same s band i
  rw [same] at keeps
  unfold handedOver
  rw [keeps,same]
  simp [PhlQueue.init]

theorem drain_exact (queue : List RxPkt) (list : (s.sts band i).queue = queue) (counted : (s.sts band i).Counted) :
    iterate (fun s => ((s.sts band i).pqPop .first).isSome) (popAndHandle band i) queue.length s = handedOver s band i := by
  induction queue generalizing s with
  | nil => exact (handedOver_empty counted list).symm
  | cons p rest ih =>
    obtain ⟨pop,next⟩ := counted.popCons list
    have round : popAndHandle band i s = (s.setSts band i ⟨rest,(s.sts band i).cnt - 1⟩).rxHandleNormal p true := by
      unfold popAndHandle
      rw [pop]
    have view : (popAndHandle band i s).sts band i = ⟨rest,(s.sts band i).cnt - 1⟩ := by
      rw [round]
      exact sts_setSts s band i _
    have again := ih (s := popAndHandle band i s) (by rw [view]) (by rw [view]; exact next)
    rw [List.length_cons,iterate,pop]
    dsimp only [Option.isSome_some]
    rw [if_pos rfl,again]
    unfold handedOver
    rw [view,round,list]
    simp [Rx.rxHandleNormal,Rx.setSts]

theorem phlRxProcFrameList_exact (counted : (s.sts band i).Counted) : phlRxProcFrameList s band i = handedOver s band i := by
  unfold phlRxProcFrameList
  split
  · rename_i none_left
    exact (handedOver_empty counted (counted.empty.mp none_left)).symm
  · exact drain_exact _ rfl counted

@[simp] theorem sts_handedOver (s : Rx) (band : Fin 2) (i : Nat) : (handedOver s band i).sts band i = .init :=
  sts_setSts s band i .init

theorem resetSts_init (empty : s.sts band i = .init) : s.resetSts band i = s := by
  have keeps := setSts_same s band i
  rw [empty] at keeps
  unfold Rx.resetSts
  rw [empty]
  have same : (PhlQueue.init : PhlQueue RxPkt).pqReset = .init := rfl
  rw [same,keeps]
  simp [PhlQueue.init]

theorem indicate_exact (counted : (s.sts band i).Counted) :
    (phlRxProcFrameList s band i).resetSts band i = handedOver s band i := by
  rw [phlRxProcFrameList_exact counted]
  exact resetSts_init (sts_handedOver s band i)

theorem indicateSts_exact (counted : (s.sts band i).Counted) : indicateSts band s i = handedOver s band i := by
  unfold indicateSts
  split
  · exact indicate_exact counted
  · rename_i none_left
    have empty := counted.empty.mp (not_not.mp none_left)
    exact (handedOver_empty counted empty).symm

theorem sts_handedOver_ne (s : Rx) (other : band' ≠ band ∨ j ≠ i) : (handedOver s band i).sts band' j = s.sts band' j :=
  sts_setSts_ne s .init other

theorem sts_handedOver_cases (s : Rx) (band : Fin 2) (i : Nat) (band' : Fin 2) (j : Nat) :
    (handedOver s band i).sts band' j = .init ∨ (handedOver s band i).sts band' j = s.sts band' j := by
  by_cases other : band' ≠ band ∨ j ≠ i
  · exact .inr (sts_handedOver_ne s other)
  · push Not at other
    obtain ⟨rfl,rfl⟩ := other
    exact .inl (sts_handedOver s band' j)
end queues
section step
variable {s : Rx}

theorem Rx.Inv.handedOver (inv : s.Inv) (band : Fin 2) (i : Nat) : (handedOver s band i).Inv := by
  refine ⟨?_,?_,inv.small,?_,inv.kept⟩
  · intro band' j
    rcases sts_handedOver_cases s band i band' j with same | same
    · rw [same]
      exact init_counted
    · rw [same]
      exact inv.counted band' j
  · intro band' j other
    rcases sts_handedOver_cases s band i band' j with same | same
    · rw [same]
      rfl
    · rw [same]
      exact inv.alone band' j other
  · intro band' j p member
    rcases sts_handedOver_cases s band i band' j with same | same
    · rw [same] at member
      exact absurd member List.not_mem_nil
    · rw [same] at member
      exact inv.own band' j p member

theorem indicateAll_exact (inv : s.Inv) (band : Fin 2) (list : List Nat) :
    list.foldl (indicateSts band) s =
      if s.psts.curPpduCnt band ∈ list then Psts.handedOver s band (s.psts.curPpduCnt band) else s := by
  induction list generalizing s with
  | nil => rfl
  | cons i rest ih =>
    rw [List.foldl_cons,indicateSts_exact (inv.counted band i),ih (inv.handedOver band i)]
    by_cases here : i = s.psts.curPpduCnt band
    · subst here
      have counted : ((Psts.handedOver s band (s.psts.curPpduCnt band)).sts band (s.psts.curPpduCnt band)).Counted := by
        rw [sts_handedOver]
        exact init_counted
      have again : Psts.handedOver (Psts.handedOver s band (s.psts.curPpduCnt band)) band (s.psts.curPpduCnt band) =
          Psts.handedOver s band (s.psts.curPpduCnt band) := by
        apply handedOver_empty counted
        rw [sts_handedOver]
        rfl
      have cur : (Psts.handedOver s band (s.psts.curPpduCnt band)).psts.curPpduCnt band = s.psts.curPpduCnt band := rfl
      rw [cur,again]
      simp
    · have same : Psts.handedOver s band i = s := handedOver_empty (inv.counted band i) (inv.alone band i here)
      rw [same]
      simp [Ne.symm here]

theorem lane_handedOver (inv : s.Inv) (band : Fin 2) :
    lane (handedOver s band (s.psts.curPpduCnt band)) band = move (lane s band) .flush := by
  have own : ∀ p ∈ (s.sts band (s.psts.curPpduCnt band)).queue, hwBand p = band := inv.own band _
  have all : ((s.sts band (s.psts.curPpduCnt band)).queue.map (·,true)).filter (fun h => decide (hwBand h.1 = band)) =
      (s.sts band (s.psts.curPpduCnt band)).queue.map (·,true) := by
    apply List.filter_eq_self.mpr
    intro h member
    obtain ⟨p,inside,rfl⟩ := List.mem_map.mp member
    exact decide_eq_true (own p inside)
  have cur : (handedOver s band (s.psts.curPpduCnt band)).psts.curPpduCnt band = s.psts.curPpduCnt band := rfl
  have handled : (handedOver s band (s.psts.curPpduCnt band)).handled =
      s.handled ++ (s.sts band (s.psts.curPpduCnt band)).queue.map (·,true) := rfl
  unfold lane move
  rw [cur,sts_handedOver,handled,List.filter_append,all,List.map_append]
  simp [PhlQueue.init]

theorem lane_handedOver_ne (inv : s.Inv) (other : band' ≠ band) :
    lane (handedOver s band i) band' = lane s band' := by
  have none_here : ((s.sts band i).queue.map (·,true)).filter (fun h => decide (hwBand h.1 = band')) = [] := by
    apply List.filter_eq_nil_iff.mpr
    intro h member
    obtain ⟨p,inside,rfl⟩ := List.mem_map.mp member
    have own := inv.own band i p inside
    simp [own,Ne.symm other]
  have handled : (handedOver s band i).handled = s.handled ++ (s.sts band i).queue.map (·,true) := rfl
  have cur : (handedOver s band i).psts.curPpduCnt = s.psts.curPpduCnt := rfl
  unfold lane
  rw [handled,cur,sts_handedOver_ne s (.inl other),List.filter_append,none_here,List.append_nil]

def turned (s : Rx) (p : RxPkt) : Rx :=
  {s with psts:={s.psts with curPpduCnt:=Function.update s.psts.curPpduCnt (hwBand p) p.mdata.ppduCnt}}

def parked (s : Rx) (p : RxPkt) : Rx :=
  turned (s.setSts (hwBand p) p.mdata.ppduCnt ((s.sts (hwBand p) p.mdata.ppduCnt).pqPush p .tail)) p

theorem turned_same (same : s.psts.curPpduCnt (hwBand p) = p.mdata.ppduCnt) : turned s p = s := by
  unfold turned
  rw [← same,Function.update_eq_self]

theorem turned_cur (s : Rx) (p : RxPkt) : (turned s p).psts.curPpduCnt (hwBand p) = p.mdata.ppduCnt :=
  Function.update_self _ _ _

theorem turned_cur_ne (s : Rx) (other : band ≠ hwBand p) :
    (turned s p).psts.curPpduCnt band = s.psts.curPpduCnt band := Function.update_of_ne other _ _

def Fits (s : Rx) (p : RxPkt) : Prop := s.psts.curPpduCnt (hwBand p) = p.mdata.ppduCnt ∨ ∀ i, (s.sts (hwBand p) i).queue = []

theorem Fits.view (fits : Fits s p) :
    (s.sts (hwBand p) p.mdata.ppduCnt).queue = (s.sts (hwBand p) (s.psts.curPpduCnt (hwBand p))).queue := by
  rcases fits with same | empty
  · rw [same]
  · rw [empty,empty]

theorem turned_inv (inv : s.Inv) (fits : Fits s p) (small : p.mdata.ppduCnt < phlMaxPpduCnt) : (turned s p).Inv := by
  rcases fits with same | empty
  · rw [turned_same same]
    exact inv
  · refine ⟨inv.counted,?_,?_,inv.own,inv.kept⟩
    · intro band i apart
      by_cases own : band = hwBand p
      · rw [own]
        exact empty i
      · rw [turned_cur_ne s own] at apart
        exact inv.alone band i apart
    · intro band
      by_cases own : band = hwBand p
      · rw [own,turned_cur]
        exact small
      · rw [turned_cur_ne s own]
        exact inv.small band

theorem parked_inv (inv : s.Inv) (fits : Fits s p) (small : p.mdata.ppduCnt < phlMaxPpduCnt) : (parked s p).Inv := by
  have turned := turned_inv inv fits small
  have sts (band : Fin 2) (i : Nat) : (parked s p).sts band i =
      (s.setSts (hwBand p) p.mdata.ppduCnt ((s.sts (hwBand p) p.mdata.ppduCnt).pqPush p .tail)).sts band i := rfl
  have cases (band : Fin 2) (i : Nat) :
      (band = hwBand p ∧ i = p.mdata.ppduCnt ∧ (parked s p).sts band i = (s.sts band i).pqPush p .tail) ∨
      (¬ (band = hwBand p ∧ i = p.mdata.ppduCnt) ∧ (parked s p).sts band i = s.sts band i) := by
    rw [sts]
    by_cases here : band = hwBand p ∧ i = p.mdata.ppduCnt
    · obtain ⟨rfl,rfl⟩ := here
      exact .inl ⟨rfl,rfl,sts_setSts _ _ _ _⟩
    · exact .inr ⟨here,sts_setSts_ne _ _ (by tauto)⟩
  refine ⟨?_,?_,turned.small,?_,turned.kept⟩
  · intro band i
    rcases cases band i with ⟨_,_,same⟩ | ⟨_,same⟩
    · rw [same]
      exact (inv.counted band i).push p .tail
    · rw [same]
      exact inv.counted band i
  · intro band i apart
    rcases cases band i with ⟨rfl,rfl,_⟩ | ⟨_,same⟩
    · exact absurd (turned_cur _ p).symm apart
    · rw [same]
      exact turned.alone band i apart
  · intro band i q member
    rcases cases band i with ⟨rfl,rfl,same⟩ | ⟨_,same⟩
    · rw [same] at member
      rcases List.mem_append.mp member with old | new
      · exact inv.own _ _ q old
      · rw [List.mem_singleton.mp new]
    · rw [same] at member
      exact inv.own band i q member

theorem lane_turned (fits : Fits s p) (band : Fin 2) : lane (turned s p) band = lane s band := by
  by_cases own : band = hwBand p
  · subst own
    have sts : (turned s p).sts (hwBand p) p.mdata.ppduCnt = s.sts (hwBand p) p.mdata.ppduCnt := rfl
    unfold lane
    rw [turned_cur,sts,fits.view]
    rfl
  · unfold lane
    rw [turned_cur_ne s own]
    rfl

theorem lane_parked (fits : Fits s p) (band : Fin 2) :
    lane (parked s p) band = if hwBand p = band then move (lane s band) (.park (key p)) else lane s band := by
  split
  · rename_i own
    subst own
    have cur : (parked s p).psts.curPpduCnt (hwBand p) = p.mdata.ppduCnt := turned_cur _ p
    have sts : (parked s p).sts (hwBand p) p.mdata.ppduCnt = (s.sts (hwBand p) p.mdata.ppduCnt).pqPush p .tail :=
      sts_setSts _ _ _ _
    unfold lane move
    rw [cur,sts,← fits.view]
    simp [pqPush,parked,turned,Rx.setSts]
  · rename_i other
    have cur : (parked s p).psts.curPpduCnt band = s.psts.curPpduCnt band := turned_cur_ne _ (Ne.symm other)
    have sts (i : Nat) : (parked s p).sts band i = s.sts band i := sts_setSts_ne _ _ (.inl (Ne.symm other))
    unfold lane
    rw [cur,sts]
    rfl

theorem lane_handled (s : Rx) (p : RxPkt) (band : Fin 2) :
    lane (s.rxHandleNormal p false) band = if hwBand p = band then move (lane s band) (.pass (key p)) else lane s band := by
  have sts (i : Nat) : (s.rxHandleNormal p false).sts band i = s.sts band i := rfl
  have handled : (s.rxHandleNormal p false).handled = s.handled ++ [(p,false)] := rfl
  have cur : (s.rxHandleNormal p false).psts = s.psts := rfl
  unfold lane move
  rw [sts,handled,cur,List.filter_append]
  split <;> rename_i own <;> simp [own]

def indicated (s : Rx) (p : RxPkt) : Rx := handedOver s (hwBand p) (s.psts.curPpduCnt (hwBand p))

theorem indicated_fits (inv : s.Inv) (p : RxPkt) : Fits (indicated s p) p := by
  apply Or.inr
  intro i
  by_cases here : i = s.psts.curPpduCnt (hwBand p)
  · rw [here]
    exact congrArg PhlQueue.queue (sts_handedOver s _ _)
  · exact (inv.handedOver _ _).alone _ i here

theorem phlRxProcWaitPhySts_exact (inv : s.Inv) (p : RxPkt) : phlRxProcWaitPhySts s p =
    if passes s.psts p then (false,s)
    else if s.psts.curPpduCnt (hwBand p) = p.mdata.ppduCnt then (true,parked s p)
    else if filtered s.psts p then (true,parked (indicated s p) p) else (false,turned (indicated s p) p) := by
  unfold phlRxProcWaitPhySts passes off
  by_cases perPkt : s.psts.enPstsPerPkt = false
  · simp [perPkt]
  · by_cases large : p.mdata.ppduCnt ≥ phlMaxPpduCnt
    · simp [large]
    · by_cases disabled : s.psts.enPpduSts (hwBand p) = false
      · simp [disabled]
      · by_cases same : s.psts.curPpduCnt (hwBand p) = p.mdata.ppduCnt
        · have stays := turned_same (s := s.setSts (hwBand p) p.mdata.ppduCnt
            ((s.sts (hwBand p) p.mdata.ppduCnt).pqPush p .tail)) same
          unfold parked
          rw [stays]
          simp [perPkt,large,disabled,same]
        · have all := indicateAll_exact inv (hwBand p) (List.range phlMaxPpduCnt)
          rw [if_pos (List.mem_range.mpr (inv.small _))] at all
          have empty : (indicated s p).sts (hwBand p) p.mdata.ppduCnt = .init := by
            have counted := (inv.handedOver (hwBand p) (s.psts.curPpduCnt (hwBand p))).counted (hwBand p) p.mdata.ppduCnt
            have none_left : ((indicated s p).sts (hwBand p) p.mdata.ppduCnt).queue = [] :=
              (inv.handedOver _ _).alone _ _ (Ne.symm same)
            exact counted.init none_left
          simp only [perPkt,large,disabled,same,false_or,false_and,if_false,ne_eq,not_false_eq_true,if_true]
          rw [all]
          change (if filtered s.psts p then
            (true,parked ((indicated s p).resetSts (hwBand p) p.mdata.ppduCnt) p) else (false,turned (indicated s p) p)) = _
          rw [resetSts_init empty]
          simp

theorem copyPhyInfo_map (f : RxPkt → β) (blind : ∀ p info, f {p with phyInfo:=info} = f p) (ampdu : Bool) (info : PhyInfo)
    (list : List RxPkt) : (copyPhyInfo ampdu info list).map f = list.map f := by
  induction list with
  | nil => rfl
  | cons p rest ih =>
    cases ampdu with
    | false => simp [copyPhyInfo,blind]
    | true => rw [copyPhyInfo,if_pos rfl,List.map_cons,List.map_cons,blind,ih]

theorem rewritten (inv : s.Inv) (band : Fin 2) (cnt : q.cnt = (s.sts band (s.psts.curPpduCnt band)).cnt)
    (keys : q.queue.map key = (s.sts band (s.psts.curPpduCnt band)).queue.map key)
    (bands : q.queue.map hwBand = (s.sts band (s.psts.curPpduCnt band)).queue.map hwBand) :
    (s.setSts band (s.psts.curPpduCnt band) q).Inv ∧
    ∀ band', lane (s.setSts band (s.psts.curPpduCnt band) q) band' = lane s band' := by
  have cases (band' : Fin 2) (i : Nat) :
      (band' = band ∧ i = s.psts.curPpduCnt band ∧ (s.setSts band (s.psts.curPpduCnt band) q).sts band' i = q) ∨
      (s.setSts band (s.psts.curPpduCnt band) q).sts band' i = s.sts band' i := by
    by_cases here : band' = band ∧ i = s.psts.curPpduCnt band
    · obtain ⟨rfl,rfl⟩ := here
      exact .inl ⟨rfl,rfl,sts_setSts _ _ _ _⟩
    · exact .inr (sts_setSts_ne _ _ (by tauto))
  refine ⟨⟨?_,?_,inv.small,?_,inv.kept⟩,?_⟩
  · intro band' i
    rcases cases band' i with ⟨_,_,same⟩ | same
    · rw [same]
      have length := congrArg List.length keys
      rw [List.length_map,List.length_map] at length
      unfold Counted
      rw [cnt,length]
      exact inv.counted _ _
    · rw [same]
      exact inv.counted band' i
  · intro band' i apart
    rcases cases band' i with ⟨rfl,rfl,_⟩ | same
    · exact absurd rfl apart
    · rw [same]
      exact inv.alone band' i apart
  · intro band' i p member
    rcases cases band' i with ⟨rfl,rfl,same⟩ | same
    · rw [same] at member
      have there : hwBand p ∈ q.queue.map hwBand := List.mem_map_of_mem member
      rw [bands] at there
      obtain ⟨old,inside,eq⟩ := List.mem_map.mp there
      rw [← eq]
      exact inv.own _ _ old inside
    · rw [same] at member
      exact inv.own band' i p member
  · intro band'
    have cur : (s.setSts band (s.psts.curPpduCnt band) q).psts.curPpduCnt = s.psts.curPpduCnt := rfl
    unfold lane
    rw [cur]
    rcases cases band' (s.psts.curPpduCnt band') with ⟨rfl,_,same⟩ | same
    · rw [same,keys]
      rfl
    · rw [same]
      rfl

theorem on_parts (on : ¬ off psts p) : psts.enPstsPerPkt ≠ false ∧
    ¬ p.mdata.ppduCnt ≥ phlMaxPpduCnt ∧ psts.enPpduSts (hwBand p) ≠ false := by
  constructor
  · intro perPkt
    exact on (.inl perPkt)
  · constructor
    · intro large
      exact on (.inr (.inl large))
    · intro band
      exact on (.inr (.inr band))

theorem phlRxProcPhySts_indicates (inv : s.Inv) (radio : Radio) (p : RxPkt) (on : ¬ off s.psts p) :
    ∃ t : Rx, t.Inv ∧ (∀ band, lane t band = lane s band) ∧ t.psts.curPpduCnt = s.psts.curPpduCnt ∧
      t.waited = s.waited ∧ (phlRxProcPhySts radio s p).2 = indicated t p := by
  obtain ⟨perPkt,small,enabled⟩ := on_parts on
  have counted := inv.counted (hwBand p) (s.psts.curPpduCnt (hwBand p))
  unfold phlRxProcPhySts
  dsimp only
  rw [if_neg perPkt,if_neg small,if_neg enabled]
  split
  · rename_i none_left
    exact ⟨s,inv,fun _ => rfl,rfl,rfl,(handedOver_empty counted (counted.empty.mp none_left)).symm⟩
  · rename_i some_left
    rw [counted.front]
    cases list : (s.sts (hwBand p) (s.psts.curPpduCnt (hwBand p))).queue with
    | nil => exact absurd (counted.empty.mpr list) some_left
    | cons front rest =>
      dsimp only [List.head?_cons]
      split
      · have keys := copyPhyInfo_map key (fun _ _ => rfl) s.psts.pstsAmpdu (statusInfo radio s.psts front p)
          (s.sts (hwBand p) (s.psts.curPpduCnt (hwBand p))).queue
        have bands := copyPhyInfo_map hwBand (fun _ _ => rfl) s.psts.pstsAmpdu (statusInfo radio s.psts front p)
          (s.sts (hwBand p) (s.psts.curPpduCnt (hwBand p))).queue
        rw [← list]
        obtain ⟨next,lanes⟩ := rewritten inv (hwBand p)
          (q := {s.sts (hwBand p) (s.psts.curPpduCnt (hwBand p)) with
            queue := copyPhyInfo s.psts.pstsAmpdu (statusInfo radio s.psts front p)
              (s.sts (hwBand p) (s.psts.curPpduCnt (hwBand p))).queue}) rfl keys bands
        exact ⟨_,next,lanes,rfl,rfl,indicate_exact (next.counted _ _)⟩
      · exact ⟨s,inv,fun _ => rfl,rfl,rfl,indicate_exact counted⟩

theorem indicated_inv (inv : s.Inv) (p : RxPkt) : (indicated s p).Inv := inv.handedOver _ _

theorem lane_indicated (inv : s.Inv) (p : RxPkt) (band : Fin 2) :
    lane (indicated s p) band = if hwBand p = band then move (lane s band) .flush else lane s band := by
  split
  · rename_i own
    subst own
    exact lane_handedOver inv (hwBand p)
  · rename_i other
    exact lane_handedOver_ne inv (Ne.symm other)

structure Follows (s t : Rx) (p : RxPkt) (list : List (Move (Nat × Nat))) : Prop where
  inv : t.Inv
  lanes : ∀ band, lane t band = if hwBand p = band then moves (lane s band) list else lane s band
  waited : t.waited = s.waited ∧ list.flatMap parks = [] ∨ t.waited = s.waited ++ [p] ∧ list.flatMap parks = [key p]

theorem passed (inv : s.Inv) (p : RxPkt) : Follows s (s.rxHandleNormal p false) p [.pass (key p)] := by
  exact ⟨{inv with},lane_handled s p,.inl ⟨rfl,rfl⟩⟩

def waiting (s : Rx) (p : RxPkt) : Rx := {parked s p with waited:=s.waited ++ [p]}

theorem waiting_follows (inv : s.Inv) (fits : Fits s p) (small : p.mdata.ppduCnt < phlMaxPpduCnt) :
    Follows s (waiting s p) p [.park (key p)] := by
  have next := parked_inv inv fits small
  exact ⟨{next with},lane_parked fits,.inr ⟨rfl,rfl⟩⟩

theorem turned_follows (inv : s.Inv) (fits : Fits s p) (small : p.mdata.ppduCnt < phlMaxPpduCnt) :
    Follows s (turned s p) p [] := by
  refine ⟨turned_inv inv fits small,?_,.inl ⟨rfl,rfl⟩⟩
  intro band
  rw [lane_turned fits]
  simp

theorem indicated_follows (inv : s.Inv) (p : RxPkt) : Follows s (indicated s p) p [.flush] := by
  exact ⟨indicated_inv inv p,lane_indicated inv p,.inl ⟨rfl,rfl⟩⟩

theorem Follows.trans {one two : List (Move (Nat × Nat))} (first : Follows s t p one)
    (second : Follows t u p two) (once : t.waited = s.waited ∧ one.flatMap parks = []) : Follows s u p (one ++ two) := by
  refine ⟨second.inv,?_,?_⟩
  · intro band
    rw [second.lanes,first.lanes]
    split
    · rw [moves_append]
    · rfl
  · rw [List.flatMap_append,once.2,List.nil_append,← once.1]
    exact second.waited

theorem step_follows (inv : s.Inv) (r : Rcvd) : Follows s (s.step r) r.pkt (laneMoves s.psts r.pkt) := by
  obtain ⟨p,radio⟩ := r
  unfold Rx.step phlRxProcess laneMoves
  dsimp only
  cases kind : p.type with
  | wifi =>
    dsimp only
    rw [phlRxProcWaitPhySts_exact inv]
    unfold wifiMoves
    by_cases pass : passes s.psts p
    · rw [if_pos pass,if_pos pass]
      exact passed inv p
    · have small : p.mdata.ppduCnt < phlMaxPpduCnt := by
        by_contra large
        exact pass (.inl (.inr (.inl (Nat.le_of_not_lt large))))
      rw [if_neg pass,if_neg pass]
      by_cases same : s.psts.curPpduCnt (hwBand p) = p.mdata.ppduCnt
      · rw [if_pos same,if_pos same]
        exact waiting_follows inv (.inl same) small
      · rw [if_neg same,if_neg same]
        have flushed := indicated_follows inv p
        have fits := indicated_fits inv p
        by_cases filter : filtered s.psts p
        · rw [if_pos filter,if_pos filter]
          exact flushed.trans (waiting_follows flushed.inv fits small) ⟨rfl,rfl⟩
        · rw [if_neg filter,if_neg filter]
          have turn := turned_follows flushed.inv fits small
          exact flushed.trans (turn.trans (passed turn.inv p) ⟨rfl,rfl⟩) ⟨rfl,rfl⟩
  | ppduStatus =>
    dsimp only
    by_cases disabled : off s.psts p
    · have stays : (phlRxProcPhySts radio s p).2 = s := by
        unfold phlRxProcPhySts
        rcases disabled with perPkt | large | band
        · simp [perPkt]
        · simp [large]
        · simp [band]
      rw [stays,if_pos disabled]
      refine ⟨{inv with},?_,.inl ⟨rfl,rfl⟩⟩
      intro band
      simp [lane,Rx.phlRecycleRxBuf,Rx.sts]
    · obtain ⟨t,tinv,lanes,cur,waited,result⟩ := phlRxProcPhySts_indicates inv radio p disabled
      rw [result,if_neg disabled]
      have flushed := indicated_follows tinv p
      have next := flushed.inv
      refine ⟨{next with},?_,.inl ⟨waited,rfl⟩⟩
      intro band
      rw [← lanes]
      exact flushed.lanes band
  | other =>
    refine ⟨{inv with},?_,.inl ⟨rfl,rfl⟩⟩
    intro band
    simp [lane,Rx.phlRecycleRxBuf,Rx.sts]
end step
section runs
variable {s : Rx}

def Rising (events : List Rcvd) : Prop :=
  events.Pairwise fun early r => early.pkt.type = .wifi → r.pkt.type = .wifi → hwBand early.pkt = hwBand r.pkt →
    early.pkt.ppdu ≤ r.pkt.ppdu

def InTurn (s : Rx) (r : Rcvd) : Prop :=
  r.pkt.type = .wifi → passes s.psts r.pkt →
    ∀ q ∈ (s.sts (hwBand r.pkt) (s.psts.curPpduCnt (hwBand r.pkt))).queue, r.pkt.ppdu ≤ q.ppdu

instance : Decidable (InTurn s r) := inferInstanceAs (Decidable (_ → _ → ∀ q ∈ _,_))

def InOrder (s : Rx) : Prop := ∀ band, Ordered snd (lane s band)

def Indicates (psts : PpduStsInfo) (p : RxPkt) : Prop :=
  ¬ off psts p ∧ (p.type = .ppduStatus ∨ p.type = .wifi ∧ psts.curPpduCnt (hwBand p) ≠ p.mdata.ppduCnt)

instance : Decidable (InOrder s) := inferInstanceAs (Decidable (∀ _,List.Pairwise _ _))

structure Sound (s : Rx) : Prop where
  alone : ∀ band i, (s.sts band i).queue ≠ [] → i = s.psts.curPpduCnt band
  once : ∀ band, late (lane s band) = (s.waited.filter (fun p => decide (hwBand p = band))).map key
  kept : s.dropped = []
  handed : ∀ r : Rcvd, Indicates s.psts r.pkt → line (lane s (hwBand r.pkt)) <+: (lane (s.step r) (hwBand r.pkt)).done

section
variable (perPkt ampdu fake : Bool) (filter : Nat) (en : Fin 2 → Bool)

theorem start_inv :
    (Rx.start perPkt ampdu fake filter en).Inv :=
  ⟨fun _ _ => init_counted,fun _ _ _ => rfl,fun _ => Nat.zero_lt_succ 7,fun _ _ _ member => absurd member List.not_mem_nil,rfl⟩

theorem Rx.Inv.handed (inv : s.Inv) (r : Rcvd) (indicates : Indicates s.psts r.pkt) :
    line (lane s (hwBand r.pkt)) <+: (lane (s.step r) (hwBand r.pkt)).done := by
  obtain ⟨on,kind⟩ := indicates
  rw [(step_follows inv r).lanes,if_pos rfl]
  unfold laneMoves
  rcases kind with status | ⟨wifi,other⟩
  · rw [status]
    dsimp only
    rw [if_neg on]
    exact List.prefix_rfl
  · have turns : ¬ passes s.psts r.pkt := fun pass => pass.elim on (fun same => other same.1)
    rw [wifi]
    dsimp only
    unfold wifiMoves
    rw [if_neg turns,if_neg other,moves_cons,moves_cons,moves_nil]
    split
    · exact List.prefix_rfl
    · exact List.prefix_append _ _

theorem step_once (inv : s.Inv) (r : Rcvd)
    (once : ∀ band, late (lane s band) = (s.waited.filter (fun p => decide (hwBand p = band))).map key) (band : Fin 2) :
    late (lane (s.step r) band) = ((s.step r).waited.filter (fun p => decide (hwBand p = band))).map key := by
  have follows := step_follows inv r
  rw [follows.lanes]
  by_cases own : hwBand r.pkt = band
  · rw [if_pos own,late_moves,once]
    rcases follows.waited with ⟨same,none_parked⟩ | ⟨more,one_parked⟩
    · rw [same,none_parked,List.append_nil]
    · rw [more,one_parked,List.filter_append]
      simp [own]
  · rw [if_neg own,once]
    rcases follows.waited with ⟨same,_⟩ | ⟨more,_⟩
    · rw [same]
    · rw [more,List.filter_append]
      simp [own]

theorem laneMoves_own (psts : PpduStsInfo) (p : RxPkt) (moved : .park a ∈ laneMoves psts p ∨ .pass a ∈ laneMoves psts p) :
    p.type = .wifi ∧ a = key p := by
  unfold laneMoves wifiMoves at moved
  cases kind : p.type with
  | wifi =>
    refine ⟨rfl,?_⟩
    rw [kind] at moved
    dsimp only at moved
    split at moved
    · simpa using moved
    · split at moved
      · simpa using moved
      · split at moved <;> simpa using moved
  | ppduStatus =>
    rw [kind] at moved
    dsimp only at moved
    split at moved <;> simp at moved
  | other =>
    rw [kind] at moved
    simp at moved

theorem step_order (inv : s.Inv) (r : Rcvd)
    (recent : r.pkt.type = .wifi → Recent snd (lane s (hwBand r.pkt)) (key r.pkt)) :
    InOrder (s.step r) ↔ InOrder s ∧ InTurn s r := by
  have follows := step_follows inv r
  have own : Ordered snd (moves (lane s (hwBand r.pkt)) (laneMoves s.psts r.pkt)) ↔
      Ordered snd (lane s (hwBand r.pkt)) ∧ InTurn s r := by
    unfold laneMoves InTurn
    cases kind : r.pkt.type with
    | wifi =>
      have recent := recent kind
      dsimp only
      unfold wifiMoves
      by_cases pass : passes s.psts r.pkt
      · rw [if_pos pass,moves_cons,moves_nil,ordered_pass]
        have parked : (lane s (hwBand r.pkt)).parked =
            (s.sts (hwBand r.pkt) (s.psts.curPpduCnt (hwBand r.pkt))).queue.map key := rfl
        rw [parked]
        constructor
        · intro ⟨ordered,behind⟩
          exact ⟨ordered,fun _ _ q member => behind (key q) (List.mem_map_of_mem member)⟩
        · intro ⟨ordered,turn⟩
          refine ⟨ordered,?_⟩
          intro b member
          obtain ⟨q,inside,rfl⟩ := List.mem_map.mp member
          exact turn rfl pass q inside
      · have free : Ordered snd (lane s (hwBand r.pkt)) ↔
            Ordered snd (lane s (hwBand r.pkt)) ∧ (RxType.wifi = .wifi → passes s.psts r.pkt →
              ∀ q ∈ (s.sts (hwBand r.pkt) (s.psts.curPpduCnt (hwBand r.pkt))).queue, r.pkt.ppdu ≤ q.ppdu) := by
          simp [pass]
        rw [if_neg pass,← free]
        split
        · rw [moves_cons,moves_nil]
          exact ordered_park recent
        · have flushed : Recent snd (move (lane s (hwBand r.pkt)) .flush) (key r.pkt) := by
            unfold Recent
            rw [line_flush]
            exact recent
          rw [moves_cons,moves_cons,moves_nil]
          split
          · rw [ordered_park flushed]
            exact ordered_flush
          · have nothing : (move (lane s (hwBand r.pkt)) .flush).parked = [] := rfl
            rw [ordered_pass,nothing,ordered_flush]
            simp
    | ppduStatus =>
      dsimp only
      split
      · simp
      · rw [moves_cons,moves_nil,ordered_flush]
        simp
    | other => simp
  constructor
  · intro ordered
    have here := ordered (hwBand r.pkt)
    rw [follows.lanes,if_pos rfl] at here
    obtain ⟨old,turn⟩ := own.mp here
    refine ⟨?_,turn⟩
    intro band
    by_cases same : hwBand r.pkt = band
    · exact same ▸ old
    · have there := ordered band
      rw [follows.lanes,if_neg same] at there
      exact there
  · intro ⟨ordered,turn⟩ band
    rw [follows.lanes]
    by_cases same : hwBand r.pkt = band
    · rw [if_pos same,← same]
      exact own.mpr ⟨ordered _,turn⟩
    · rw [if_neg same]
      exact ordered band

theorem run_order (events : List Rcvd) (inv : s.Inv) (rising : Rising events)
    (recent : ∀ r ∈ events, r.pkt.type = .wifi → Recent snd (lane s (hwBand r.pkt)) (key r.pkt)) :
    InOrder (run Rx.step s events) ↔ InOrder s ∧ Admitted Rx.step InTurn s events := by
  induction events generalizing s with
  | nil => exact (and_iff_left trivial).symm
  | cons r rest ih =>
    obtain ⟨ahead,rising⟩ := List.pairwise_cons.mp rising
    have follows := step_follows inv r
    have later : ∀ next ∈ rest, next.pkt.type = .wifi →
        Recent snd (lane (s.step r) (hwBand next.pkt)) (key next.pkt) := by
      intro next member wifi out inside
      have old := recent next (List.mem_cons_of_mem _ member) wifi
      rw [follows.lanes] at inside
      by_cases same : hwBand r.pkt = hwBand next.pkt
      · rw [if_pos same] at inside
        rcases line_moves _ _ inside with before | now
        · exact old out before
        · obtain ⟨kind,this⟩ := laneMoves_own s.psts r.pkt now
          rw [this]
          exact ahead next member kind wifi same
      · rw [if_neg same] at inside
        exact old out inside
    have tail := ih follows.inv rising later
    have head := step_order inv r (recent r List.mem_cons_self)
    have run : run Rx.step s (r :: rest) = run Rx.step (s.step r) rest := rfl
    rw [run,tail,head,and_assoc]
    rfl

theorem run_sound (events : List Rcvd) (inv : s.Inv)
    (once : ∀ band, late (lane s band) = (s.waited.filter (fun p => decide (hwBand p = band))).map key) :
    Sound (run Rx.step s events) := by
  induction events generalizing s with
  | nil =>
    refine ⟨?_,once,inv.kept,inv.handed⟩
    intro band i waiting
    by_contra other
    exact waiting (inv.alone band i other)
  | cons r rest ih => exact ih (step_follows inv r).inv (step_once inv r once)

theorem start_recent (band : Fin 2) (a : Nat × Nat) :
    Recent snd (lane (Rx.start perPkt ampdu fake filter en) band) a := by
  intro out member
  exact absurd member List.not_mem_nil
end

theorem ppdu_sts_queueing (perPkt ampdu fake : Bool) (filter : Nat) (en : Fin 2 → Bool) (events : List Rcvd)
    (rising : Rising events) :
    Sound (Machine.run Rx.step (.start perPkt ampdu fake filter en) events) ∧
    (InOrder (Machine.run Rx.step (.start perPkt ampdu fake filter en) events) ↔
      Admitted Rx.step InTurn (.start perPkt ampdu fake filter en) events) := by
  have inv := start_inv perPkt ampdu fake filter en
  have ordered := run_order events inv rising (fun _ _ _ => start_recent perPkt ampdu fake filter en _ _)
  have nothing : InOrder (.start perPkt ampdu fake filter en) := fun _ => List.Pairwise.nil
  exact ⟨run_sound events inv (fun _ => rfl),ordered.trans (and_iff_right nothing)⟩
end runs

def rcvd (name ppdu cnt frameType : Nat) (type : RxType) : Rcvd :=
  ⟨⟨name,ppdu,type,⟨0,1,0,cnt,0,0,0,frameType⟩,0,⟨true,0,fun _ => 0,0,0,0⟩⟩,⟨0,0,0,0,id⟩⟩

def started : Rx := .start true false false 1 fun _ => true

-- A management frame that waits for its PPDU status, and one that waits for the
-- next PPDU.
theorem ppdu_sts_queueing_met :
    Sound (Machine.run Rx.step started [rcvd 0 0 0 0 .wifi,rcvd 1 0 0 0 .ppduStatus,rcvd 2 1 1 0 .wifi,rcvd 3 2 2 2 .wifi]) ∧
    InOrder (Machine.run Rx.step started [rcvd 0 0 0 0 .wifi,rcvd 1 0 0 0 .ppduStatus,rcvd 2 1 1 0 .wifi,rcvd 3 2 2 2 .wifi]) := by
  have rising : Rising [rcvd 0 0 0 0 .wifi,rcvd 1 0 0 0 .ppduStatus,rcvd 2 1 1 0 .wifi,rcvd 3 2 2 2 .wifi] := by
    unfold Rising
    simp [rcvd]
  have all := ppdu_sts_queueing true false false 1 (fun _ => true) _ rising
  exact ⟨all.1,all.2.mpr (by decide)⟩

-- The status of PPDU 0 is missed and the counter has wrapped: the data frame of
-- PPDU 8 does not wait and overtakes the management frame.
theorem ppdu_sts_wrapped : Rising [rcvd 0 0 0 0 .wifi,rcvd 1 8 0 2 .wifi] ∧
    ¬ InOrder (Machine.run Rx.step started [rcvd 0 0 0 0 .wifi,rcvd 1 8 0 2 .wifi]) := by
  refine ⟨?_,by decide⟩
  unfold Rising
  simp [rcvd]
end Rtl8852au.Psts
