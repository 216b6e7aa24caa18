import Rtl8852au.SleepQ

namespace Rtl8852au.SleepQ
open Function List

def Sta.Announces (sta : Sta) : Prop := if sta.hasLegacyAc then ∃ f ∈ sta.sleepQ, sta.uapsd f = false else sta.sleepQ ≠ []
def uapsdCount (sta : Sta) (queue : List Frame) : Nat := (queue.filter sta.uapsd).length

structure StaAgrees (sta : Sta) (dz tim : Bool) : Prop where
  len : sta.sleepqLen = sta.sleepQ.length
  acLen : sta.sleepqAcLen = uapsdCount sta sta.sleepQ
  dz : dz ↔ sta.sleep
  tim : tim ↔ sta.Announces

structure Agrees (s : Ap n) : Prop where
  stas : ∀ i sta, s.stas i = some sta → StaAgrees sta (s.staDz (aid i)) (s.tim (aid i))
  bmc : ∀ bmc, s.bmc = some bmc → (s.tim 0 ↔ bmc.sleepQ ≠ [])

structure Kept (s : Ap n) : Prop extends Agrees s where
  absent : ∀ i, s.stas i = none → s.staDz (aid i) = false ∧ s.tim (aid i) = false
  group : ∀ bmc, s.bmc = some bmc → bmc.sleepQ = [] ∧ bmc.sleepqLen = 0
  bit : s.tim 0 = false

def Fits (entry : Option Sta) (dz tim : Bool) : Prop :=
  match entry with
  | none => dz = false ∧ tim = false
  | some sta => StaAgrees sta dz tim

theorem Kept.fits {s : Ap n} (kept : Kept s) (i : Fin n) : Fits (s.stas i) (s.staDz (aid i)) (s.tim (aid i)) := by
  cases found : s.stas i with
  | none => exact kept.absent i found
  | some sta => exact kept.stas i sta found

theorem aid_other (other : j ≠ i) : aid j ≠ aid i := by
  intro same
  exact other (Fin.ext (Nat.succ.inj same))

structure Touches (s t : Ap n) (i : Fin n) (entry : Option Sta) : Prop where
  stas : t.stas = Function.update s.stas i entry
  staDz : ∀ bit, bit ≠ aid i → t.staDz bit = s.staDz bit
  tim : ∀ bit, bit ≠ aid i → t.tim bit = s.tim bit
  bmc : t.bmc = s.bmc

theorem Kept.touch (kept : Kept s) (touches : Touches s t i entry) (fits : Fits entry (t.staDz (aid i)) (t.tim (aid i))) : Kept t := by
  have each : ∀ j, Fits (t.stas j) (t.staDz (aid j)) (t.tim (aid j)) := by
    intro j
    rw [touches.stas]
    by_cases here : j = i
    · subst here
      rwa [update_self]
    · rw [update_of_ne here,touches.staDz _ (aid_other here),touches.tim _ (aid_other here)]
      exact kept.fits j
  have zero : t.tim 0 = s.tim 0 := touches.tim 0 (by unfold aid; omega)
  refine ⟨⟨?_,?_⟩,?_,?_,?_⟩
  · intro j sta found
    have fits := each j
    rwa [found] at fits
  · intro bmc found
    rw [touches.bmc] at found
    rw [zero]
    exact kept.bmc bmc found
  · intro j found
    have fits := each j
    rwa [found] at fits
  · intro bmc found
    rw [touches.bmc] at found
    exact kept.group bmc found
  · exact zero.trans kept.bit

theorem rtwIntfXmitframeEnqueue_same (phl : Nat → Nat → Bool) (s : Ap n) (f : Frame) :
    (rtwIntfXmitframeEnqueue phl s f).stas = s.stas ∧ (rtwIntfXmitframeEnqueue phl s f).staDz = s.staDz ∧
      (rtwIntfXmitframeEnqueue phl s f).tim = s.tim ∧ (rtwIntfXmitframeEnqueue phl s f).bmc = s.bmc := by
  unfold rtwIntfXmitframeEnqueue
  split
  · exact ⟨rfl,rfl,rfl,rfl⟩
  · split
    · exact ⟨rfl,rfl,rfl,rfl⟩
    · exact ⟨rfl,rfl,rfl,rfl⟩

theorem release_same (phl : Nat → Nat → Bool) (s : Ap n) (r : Release) :
    (release phl s r).stas = s.stas ∧ (release phl s r).staDz = s.staDz ∧
      (release phl s r).tim = s.tim ∧ (release phl s r).bmc = s.bmc := by
  unfold release
  have rounds : ∀ (out : List (Frame × List Frame)) (u : Ap n),
      u.stas = s.stas ∧ u.staDz = s.staDz ∧ u.tim = s.tim ∧ u.bmc = s.bmc →
      (out.foldl (fun s p => rtwIntfXmitframeEnqueue phl s p.1) u).stas = s.stas ∧
      (out.foldl (fun s p => rtwIntfXmitframeEnqueue phl s p.1) u).staDz = s.staDz ∧
      (out.foldl (fun s p => rtwIntfXmitframeEnqueue phl s p.1) u).tim = s.tim ∧
      (out.foldl (fun s p => rtwIntfXmitframeEnqueue phl s p.1) u).bmc = s.bmc := by
    intro out
    induction out with
    | nil => intro u same; exact same
    | cons p rest ih =>
      intro u same
      obtain ⟨stas,staDz,tim,bmc⟩ := rtwIntfXmitframeEnqueue_same phl u p.1
      exact ih _ ⟨stas.trans same.1,staDz.trans same.2.1,tim.trans same.2.2.1,bmc.trans same.2.2.2⟩
  exact rounds r.out _ ⟨rfl,rfl,rfl,rfl⟩

theorem uapsdCount_cons (sta : Sta) (f : Frame) (rest : List Frame) :
    uapsdCount sta (f :: rest) = (if sta.uapsd f then 1 else 0) + uapsdCount sta rest := by
  unfold uapsdCount
  rw [filter_cons]
  split
  · rw [length_cons,Nat.add_comm]
  · rw [Nat.zero_add]

theorem dec_succ (count : Nat) : dec (count+1) = count := rfl
theorem trigger_uapsd (sta : Sta) (f : Frame) : sta.trigger (acOf f.priority) = sta.uapsd f := sta.both _

section
variable (queue : List Frame) (sta : Sta)

theorem wakeupLoop_empties (here : sta.sleepQ = queue) (len : sta.sleepqLen = queue.length)
    (acLen : sta.sleepqAcLen = uapsdCount sta queue) :
    (wakeupLoop sta queue).1 = {sta with sleepQ:=[], sleepqLen:=0, sleepqAcLen:=0} := by
  induction queue generalizing sta with
  | nil =>
    obtain ⟨conf,sleep,sleepQ,sleepqLen,sleepqAcLen⟩ := sta
    obtain rfl : sleepQ = [] := here
    obtain rfl : sleepqLen = 0 := len
    obtain rfl : sleepqAcLen = 0 := acLen
    rfl
  | cons f rest ih =>
    rw [uapsdCount_cons] at acLen
    rw [length_cons] at len
    unfold wakeupLoop
    simp only
    unfold wakeupFrame
    simp only [trigger_uapsd,len,dec_succ]
    split
    · rename_i uapsd
      rw [if_pos uapsd,Nat.add_comm] at acLen
      rw [acLen,dec_succ]
      exact ih _ rfl rfl rfl
    · rename_i legacy
      rw [if_neg legacy,Nat.zero_add] at acLen
      exact ih _ rfl rfl acLen

theorem deliverLoop_leaves (kept : List Frame) (here : sta.sleepQ = kept ++ queue)
    (len : sta.sleepqLen = (kept ++ queue).length) (acLen : sta.sleepqAcLen = uapsdCount sta queue) :
    (deliverLoop sta kept queue).1 = {sta with
      sleepQ := kept ++ queue.filter (fun f => !sta.uapsd f)
      sleepqLen := (kept ++ queue.filter (fun f => !sta.uapsd f)).length
      sleepqAcLen := 0} := by
  induction queue generalizing sta kept with
  | nil =>
    obtain ⟨conf,sleep,sleepQ,sleepqLen,sleepqAcLen⟩ := sta
    obtain rfl : sleepQ = kept ++ [] := here
    obtain rfl : sleepqLen = (kept ++ []).length := len
    obtain rfl : sleepqAcLen = 0 := acLen
    rfl
  | cons f rest ih =>
    rw [uapsdCount_cons] at acLen
    unfold deliverLoop
    rw [trigger_uapsd]
    split
    · rename_i legacy
      have passed : sta.uapsd f = false := by simpa using legacy
      rw [if_neg (by simp [passed]),Nat.zero_add] at acLen
      rw [ih sta (kept ++ [f]) (by simp [here]) (by simp [len]) acLen,filter_cons_of_pos (by simp [passed]),append_assoc]
      rfl
    · rename_i taken
      have passed : sta.uapsd f := by simpa using taken
      rw [if_pos passed,Nat.add_comm] at acLen
      have lenEq : sta.sleepqLen = (kept ++ rest).length + 1 := by
        rw [len]
        simp only [length_append,length_cons]
        omega
      simp only [deliverFrame,lenEq,acLen,dec_succ]
      rw [ih _ kept rfl rfl rfl,filter_cons_of_neg (by simp [passed])]
      rfl

theorem deliverLoop_clear (kept : List Frame) (acLen : sta.sleepqAcLen = uapsdCount sta queue) :
    (deliverLoop sta kept queue).2.2 = (decide (0 < uapsdCount sta queue) && !sta.hasLegacyAc) := by
  induction queue generalizing sta kept with
  | nil => rfl
  | cons f rest ih =>
    rw [uapsdCount_cons] at acLen ⊢
    unfold deliverLoop
    rw [trigger_uapsd]
    split
    · rename_i legacy
      have passed : sta.uapsd f = false := by simpa using legacy
      rw [if_neg (by simp [passed]),Nat.zero_add] at acLen ⊢
      exact ih sta (kept ++ [f]) acLen
    · rename_i taken
      have passed : sta.uapsd f := by simpa using taken
      rw [if_pos passed,Nat.add_comm] at acLen ⊢
      simp only [deliverFrame,acLen,dec_succ]
      rw [ih _ kept rfl]
      change (decide (uapsdCount sta rest = 0) && !sta.hasLegacyAc || decide (0 < uapsdCount sta rest) && !sta.hasLegacyAc) = _
      rcases Nat.eq_zero_or_pos (uapsdCount sta rest) with none | more
      · simp [none]
      · simp [more]
end

theorem Sta.allDelivery (sta : Sta) (none : sta.hasLegacyAc = false) (ac : Ac) : sta.delivery ac := by
  cases delivery : sta.delivery ac with
  | true => rfl
  | false =>
    have some := sta.legacy.mpr ⟨ac,delivery⟩
    rw [none] at some
    cases some

theorem queue_announces (sta : Sta) (f : Frame) : (sta.queue f).Announces ↔ sta.Announces ∨ sta.marks f := by
  unfold Sta.Announces Sta.marks
  cases legacy : sta.hasLegacyAc with
  | true =>
    have same : (sta.queue f).hasLegacyAc := legacy
    rw [if_pos same,if_pos rfl]
    simp only [Bool.true_and,Bool.not_true,Bool.false_and,Bool.or_false,Bool.not_eq_eq_eq_not]
    constructor
    · rintro ⟨g,member,plain⟩
      rcases mem_append.mp member with old | new
      · exact .inl ⟨g,old,plain⟩
      · obtain rfl := mem_singleton.mp new
        exact .inr plain
    · rintro (⟨g,old,plain⟩ | plain)
      · exact ⟨g,mem_append_left _ old,plain⟩
      · exact ⟨f,mem_append_right _ (mem_singleton_self f),plain⟩
  | false =>
    have same : ¬(sta.queue f).hasLegacyAc := by simp [Sta.queue,legacy]
    rw [if_neg same,if_neg (by simp)]
    have delivered : sta.uapsd f := sta.allDelivery legacy _
    simp [Sta.queue,delivered]

theorem uapsdCount_snoc (sta : Sta) (queue : List Frame) (f : Frame) :
    uapsdCount sta (queue ++ [f]) = if sta.uapsd f then uapsdCount sta queue + 1 else uapsdCount sta queue := by
  unfold uapsdCount
  rw [filter_append,length_append]
  by_cases uapsd : sta.uapsd f
  · rw [filter_cons_of_pos uapsd,if_pos uapsd]
    rfl
  · rw [filter_cons_of_neg uapsd,if_neg uapsd]
    rfl

theorem StaAgrees.queue {dz tim : Bool} (agrees : StaAgrees sta dz tim) (f : Frame) :
    StaAgrees (sta.queue f) dz (if sta.marks f then true else tim) := by
  refine ⟨?_,?_,agrees.dz,?_⟩
  · simp [Sta.queue,agrees.len]
  · refine Eq.trans ?_ (uapsdCount_snoc sta sta.sleepQ f).symm
    simp only [Sta.queue,agrees.acLen]
  · rw [queue_announces]
    split
    · rename_i marked
      simp [marked]
    · rename_i unmarked
      simp [unmarked,agrees.tim]

theorem enqueue_cases (s : Ap n) (receiver : Option (Fin n)) (f : Frame) :
    xmitframeEnqueueForSleepingSta s receiver f = (s,false) ∨ ∃ i sta, s.stas i = some sta ∧ sta.sleep ∧
      xmitframeEnqueueForSleepingSta s receiver f = (accept s i sta f,true) := by
  unfold xmitframeEnqueueForSleepingSta
  split
  · exact .inl rfl
  · rename_i i
    split
    · exact .inl rfl
    · rename_i sta found
      split
      · exact .inl rfl
      · split
        · exact .inl rfl
        · split
          · exact .inl rfl
          · rename_i dozing
            refine .inr ⟨i,sta,found,?_,rfl⟩
            cases here : sta.sleep with
            | true => rfl
            | false => simp [here] at dozing

theorem setSta_touches (s : Ap n) (i : Fin n) (sta : Sta) : Touches s (s.setSta i sta) i (some sta) :=
  ⟨rfl,fun _ _ => rfl,fun _ _ => rfl,rfl⟩

theorem Touches.setTim (touches : Touches s t i entry) (value : Bool) : Touches s (t.setTim (aid i) value) i entry :=
  {touches with tim:=fun bit other => (Ap.setTim_other other).trans (touches.tim bit other)}

theorem Touches.setDz (touches : Touches s t i entry) (value : Bool) : Touches s (t.setDz (aid i) value) i entry :=
  {touches with staDz:=fun bit other => (Ap.setDz_other other).trans (touches.staDz bit other)}

theorem Touches.again (touches : Touches s t i entry) (sta : Sta) : Touches s (t.setSta i sta) i (some sta) := by
  refine {touches with stas:=?_}
  change update t.stas i (some sta) = update s.stas i (some sta)
  rw [touches.stas,update_idem]

theorem accept_touches (s : Ap n) (i : Fin n) (sta : Sta) (f : Frame) : Touches s (accept s i sta f) i (some (sta.queue f)) := by
  have queued : Touches s {s.setSta i (sta.queue f) with accepted:=s.accepted ++ [f.id]} i (some (sta.queue f)) :=
    ⟨rfl,fun _ _ => rfl,fun _ _ => rfl,rfl⟩
  unfold accept
  simp only
  split
  · exact queued.setTim true
  · exact queued

theorem accept_bits (s : Ap n) (i : Fin n) (sta : Sta) (f : Frame) :
    (accept s i sta f).staDz (aid i) = s.staDz (aid i) ∧
      (accept s i sta f).tim (aid i) = if sta.marks f then true else s.tim (aid i) := by
  unfold accept
  simp only
  split
  · exact ⟨rfl,update_self ..⟩
  · exact ⟨rfl,rfl⟩

theorem enqueue_kept {s : Ap n} (kept : Kept s) (receiver : Option (Fin n)) (f : Frame) :
    Kept (xmitframeEnqueueForSleepingSta s receiver f).1 := by
  rcases enqueue_cases s receiver f with refused | ⟨i,sta,found,_,queued⟩
  · rw [refused]
    exact kept
  · rw [queued]
    refine kept.touch (accept_touches s i sta f) ?_
    rw [(accept_bits s i sta f).1,(accept_bits s i sta f).2]
    exact (kept.stas i sta found).queue f

theorem stop_kept {s : Ap n} (kept : Kept s) (i : Fin n) (pending : List Frame) : Kept (stopStaXmit s i pending) := by
  unfold stopStaXmit
  cases found : s.stas i with
  | none => exact kept
  | some sta =>
    simp only
    have agrees := kept.stas i sta found
    have asleep : Kept ((s.setSta i {sta with sleep:=true}).setDz (aid i) true) := by
      refine kept.touch ((setSta_touches s i _).setDz true) ?_
      rw [Ap.setDz_here]
      exact {agrees with dz:=by simp}
    generalize (s.setSta i {sta with sleep:=true}).setDz (aid i) true = t at asleep
    induction pending generalizing t with
    | nil => exact asleep
    | cons f rest ih => exact ih _ (enqueue_kept asleep (some i) _)

theorem release_touches (touches : Touches s t i entry) (phl : Nat → Nat → Bool) (r : Release) :
    Touches s (release phl t r) i entry := by
  obtain ⟨stas,staDz,tim,bmc⟩ := release_same phl t r
  exact ⟨stas.trans touches.stas,fun bit other => (congrFun staDz bit).trans (touches.staDz bit other),
    fun bit other => (congrFun tim bit).trans (touches.tim bit other),bmc.trans touches.bmc⟩

theorem wakeupBmc_kept {s : Ap n} (kept : Kept s) (phl : Nat → Nat → Bool) : Kept (wakeupBmc phl s) := by
  unfold wakeupBmc
  cases found : s.bmc with
  | none => exact kept
  | some bmc =>
    simp only
    split
    · exact kept
    · obtain ⟨empty,zero⟩ := kept.group bmc found
      rw [empty]
      simp only [bmcLoop]
      unfold clearGroup
      rw [if_pos zero]
      obtain ⟨stas,staDz,tim,group⟩ := release_same phl {s with bmc:=some bmc}
        {kind:=.wakeup, delivery:=fun _ => false, queue:=[], out:=[]}
      generalize release phl {s with bmc:=some bmc} {kind:=.wakeup, delivery:=fun _ => false, queue:=[], out:=[]} = t at *
      have bit : ∀ j : Fin n, aid j ≠ 0 := fun j => Nat.succ_ne_zero _
      have dz : ∀ j : Fin n, ((t.setTim 0 false).setDz 0 false).staDz (aid j) = s.staDz (aid j) := fun j =>
        (Ap.setDz_other (bit j)).trans (congrFun staDz _)
      have timSame : ∀ j : Fin n, ((t.setTim 0 false).setDz 0 false).tim (aid j) = s.tim (aid j) := by
        intro j
        rw [Ap.setDz_tim,Ap.setTim_other (bit j)]
        exact congrFun tim _
      have clear : ((t.setTim 0 false).setDz 0 false).tim 0 = false := t.setTim_here 0 false
      have groupNow : ∀ bmc', ((t.setTim 0 false).setDz 0 false).bmc = some bmc' → bmc'.sleepQ = [] ∧ bmc'.sleepqLen = 0 := by
        intro bmc' here
        obtain rfl : bmc = bmc' := Option.some.inj (group.symm.trans here)
        exact ⟨empty,zero⟩
      refine ⟨⟨?_,?_⟩,?_,groupNow,clear⟩
      · intro j sta here
        rw [dz,timSame]
        exact kept.stas j sta ((congrFun stas j).symm.trans here)
      · intro bmc' here
        rw [clear,(groupNow bmc' here).1]
        simp
      · intro j here
        rw [dz,timSame]
        exact kept.absent j ((congrFun stas j).symm.trans here)

theorem wakeup_kept {s : Ap n} (kept : Kept s) (phl : Nat → Nat → Bool) (i : Fin n) : Kept (wakeupStaToXmit phl s i) := by
  unfold wakeupStaToXmit
  cases found : s.stas i with
  | none => exact kept
  | some sta =>
    have agrees := kept.stas i sta found
    have empties := wakeupLoop_empties sta.sleepQ sta rfl agrees.len agrees.acLen
    simp only [empties,if_pos]
    refine wakeupBmc_kept (kept.touch
      (((release_touches (setSta_touches s i _) phl _).again _).setTim false |>.setDz false) ?_) phl
    rw [Ap.setDz_here,Ap.setDz_tim,Ap.setTim_here]
    refine ⟨rfl,rfl,by simp,?_⟩
    simp [Sta.Announces]

-- A poll that reaches the queue finds it empty, or finds a frame of a legacy
-- category at its head and, if more are queued, another such frame behind it.
def PollServes (s : Ap n) : Event n → Prop
  | .poll i pollAid priority _ => ∀ sta, s.stas i = some sta → pollAid = aid i → sta.delivery (acOf priority) = false →
      sta.sleep → ∀ f rest, sta.sleepQ = f :: rest →
        sta.uapsd f = false ∧ (rest = [] ∨ ∃ g ∈ rest, sta.uapsd g = false)
  | _ => True

theorem poll_kept {s : Ap n} (kept : Kept s) (i : Fin n) (pollAid priority : Nat) (phl : Nat → Nat → Bool)
    (serves : PollServes s (.poll i pollAid priority phl)) : Kept (rtwProccessPspoll phl s i pollAid priority) := by
  unfold rtwProccessPspoll
  cases found : s.stas i with
  | none => exact kept
  | some sta =>
    have agrees := kept.stas i sta found
    simp only
    split
    · exact kept
    · rename_i mine
      split
      · exact kept
      · rename_i polled
        have plain : sta.delivery (acOf priority) = false := by simpa using polled
        have legacy : sta.hasLegacyAc := sta.legacy.mpr ⟨_,plain⟩
        split
        · exact kept
        · rename_i dozing
          have asleep : sta.sleep := by
            cases here : sta.sleep with
            | true => rfl
            | false => simp [here] at dozing
          split
          · rename_i empty
            split
            · rename_i announced
              have some := agrees.tim.mp announced
              simp [Sta.Announces,legacy,empty] at some
            · exact kept
          · rename_i f rest queue
            obtain ⟨head,behind⟩ := serves sta found (by simpa using mine) plain asleep f rest queue
            have len := agrees.len
            have acLen := agrees.acLen
            rw [queue,length_cons] at len
            rw [queue,uapsdCount_cons,if_neg (by simp [head]),Nat.zero_add] at acLen
            have announced : s.tim (aid i) := agrees.tim.mpr (by
              unfold Sta.Announces
              rw [if_pos legacy]
              exact ⟨f,by simp [queue],head⟩)
            have touches := release_touches (setSta_touches s i {sta with sleepQ:=rest, sleepqLen:=dec sta.sleepqLen}) phl
              {kind := .poll, delivery := sta.delivery, queue := sta.sleepQ,
               out := [({f with mdata:=decide (0 < dec sta.sleepqLen), triggered:=true},rest)]}
            obtain ⟨_,staDz,tim,_⟩ := release_same phl (s.setSta i {sta with sleepQ:=rest, sleepqLen:=dec sta.sleepqLen})
              {kind := .poll, delivery := sta.delivery, queue := sta.sleepQ,
               out := [({f with mdata:=decide (0 < dec sta.sleepqLen), triggered:=true},rest)]}
            have dzNow := congrFun staDz (aid i)
            have timNow := congrFun tim (aid i)
            rw [len,dec_succ] at touches dzNow timNow
            simp only [len,dec_succ]
            split
            · rename_i last
              refine kept.touch (touches.setTim false) ?_
              rw [Ap.setTim_here,Ap.setTim_staDz,dzNow]
              have none : rest = [] := eq_nil_of_length_eq_zero last
              refine ⟨rfl,acLen,agrees.dz,?_⟩
              simp [Sta.Announces,legacy,none]
            · rename_i more
              refine kept.touch touches ?_
              rw [dzNow,timNow]
              refine ⟨rfl,acLen,agrees.dz,?_⟩
              have left : rest ≠ [] := fun none => more (by rw [none]; rfl)
              have another := behind.resolve_left left
              change s.tim (aid i) ↔ _
              simp only [announced,true_iff]
              unfold Sta.Announces
              rw [if_pos legacy]
              exact another

def Sta.delivered (sta : Sta) : Sta := {sta with
  sleepQ := sta.sleepQ.filter (fun f => !sta.uapsd f)
  sleepqLen := (sta.sleepQ.filter (fun f => !sta.uapsd f)).length
  sleepqAcLen := 0}

theorem delivered_count (sta : Sta) : uapsdCount sta.delivered sta.delivered.sleepQ = 0 := by
  have none : (sta.sleepQ.filter (fun f => !sta.uapsd f)).filter sta.uapsd = [] := by
    rw [filter_filter,filter_eq_nil_iff]
    intro f _
    simp
  exact congrArg length none

theorem delivered_announces (sta : Sta) : sta.delivered.Announces ↔ sta.Announces ∧ sta.hasLegacyAc := by
  unfold Sta.Announces
  cases legacy : sta.hasLegacyAc with
  | true =>
    have same : sta.delivered.hasLegacyAc := legacy
    rw [if_pos same,if_pos rfl]
    constructor
    · rintro ⟨f,member,plain⟩
      exact ⟨⟨f,(mem_filter.mp member).1,plain⟩,rfl⟩
    · rintro ⟨⟨f,member,plain⟩,_⟩
      exact ⟨f,mem_filter.mpr ⟨member,by simp [plain]⟩,plain⟩
  | false =>
    have same : ¬sta.delivered.hasLegacyAc := by simp [Sta.delivered,legacy]
    rw [if_neg same,if_neg (by simp)]
    have empty : sta.delivered.sleepQ = [] := by
      rw [Sta.delivered,filter_eq_nil_iff]
      intro f _
      simp [Sta.uapsd,sta.allDelivery legacy]
    simp [empty]

theorem StaAgrees.delivered {dz tim : Bool} (agrees : StaAgrees sta dz tim) :
    StaAgrees sta.delivered dz (if decide (0 < uapsdCount sta sta.sleepQ) && !sta.hasLegacyAc then false else tim) := by
  refine ⟨rfl,(delivered_count sta).symm,agrees.dz,?_⟩
  rw [delivered_announces]
  cases legacy : sta.hasLegacyAc with
  | true => simp [agrees.tim]
  | false =>
    by_cases some : 0 < uapsdCount sta sta.sleepQ
    · simp [some]
    · have empty : sta.sleepQ = [] := by
        have every : sta.sleepQ.filter sta.uapsd = sta.sleepQ := by
          rw [filter_eq_self]
          intro f _
          exact sta.allDelivery legacy _
        have zero : (sta.sleepQ.filter sta.uapsd).length = 0 := Nat.eq_zero_of_not_pos some
        rw [every] at zero
        exact eq_nil_of_length_eq_zero zero
      have silent : ¬sta.Announces := by simp [Sta.Announces,legacy,empty]
      simp [some,agrees.tim,silent]

theorem trigger_kept {s : Ap n} (kept : Kept s) (phl : Nat → Nat → Bool) (i : Fin n) : Kept (xmitDeliveryEnabledFrames phl s i) := by
  unfold xmitDeliveryEnabledFrames
  cases found : s.stas i with
  | none => exact kept
  | some sta =>
    have agrees := kept.stas i sta found
    have leaves : (deliverLoop sta [] sta.sleepQ).1 = sta.delivered := deliverLoop_leaves sta.sleepQ sta [] rfl agrees.len agrees.acLen
    have clear := deliverLoop_clear sta.sleepQ sta [] agrees.acLen
    have fits := agrees.delivered
    simp only [leaves,clear]
    have touches := release_touches (setSta_touches s i sta.delivered) phl
      {kind:=.trigger, delivery:=sta.delivery, queue:=sta.sleepQ, out:=(deliverLoop sta [] sta.sleepQ).2.1}
    obtain ⟨_,staDz,tim,_⟩ := release_same phl (s.setSta i sta.delivered)
      {kind:=.trigger, delivery:=sta.delivery, queue:=sta.sleepQ, out:=(deliverLoop sta [] sta.sleepQ).2.1}
    have dzNow := congrFun staDz (aid i)
    have timNow := congrFun tim (aid i)
    split
    · rename_i cleared
      rw [if_pos cleared] at fits
      refine kept.touch (touches.setTim false) ?_
      rw [Ap.setTim_here,Ap.setTim_staDz,dzNow]
      exact fits
    · rename_i left
      rw [if_neg left] at fits
      refine kept.touch touches ?_
      rw [dzNow,timNow]
      exact fits

theorem wmmps_kept {s : Ap n} (kept : Kept s) (phl : Nat → Nat → Bool) (i : Fin n) (priority : Nat) :
    Kept (processWmmpsData phl s i priority) := by
  unfold processWmmpsData
  cases s.stas i with
  | none => exact kept
  | some sta =>
    simp only
    split
    · exact trigger_kept kept phl i
    · exact kept

theorem free_kept {s : Ap n} (kept : Kept s) (i : Fin n) : Kept (rtwFreeStainfo s i) := by
  unfold rtwFreeStainfo
  cases s.stas i with
  | none => exact kept
  | some sta =>
    have removed : Touches s {s with stas:=update s.stas i none, freed:=s.freed ++ sta.sleepQ.map Frame.id} i none :=
      ⟨rfl,fun _ _ => rfl,fun _ _ => rfl,rfl⟩
    refine kept.touch ((removed.setDz false).setTim false) ?_
    rw [Ap.setTim_here,Ap.setTim_staDz,Ap.setDz_here]
    exact ⟨rfl,rfl⟩

theorem join_kept {s : Ap n} (kept : Kept s) (i : Fin n) (conf : Conf) : Kept (join s i conf) := by
  unfold join
  cases found : s.stas i with
  | some sta => exact kept
  | none =>
    refine kept.touch (setSta_touches s i _) ?_
    obtain ⟨dz,tim⟩ := kept.absent i found
    refine ⟨rfl,rfl,?_,?_⟩
    · simpa [Ap.setSta] using dz
    · simpa [Ap.setSta,Sta.Announces] using tim

theorem leave_kept {s : Ap n} (kept : Kept s) (i : Fin n) : Kept (leave s i) := by
  unfold leave
  cases found : s.stas i with
  | none => exact kept
  | some sta =>
    have agrees := kept.stas i sta found
    exact kept.touch (setSta_touches s i _) {agrees with}

theorem apStep_kept {s : Ap n} (kept : Kept s) (event : Event n) (serves : PollServes s event) : Kept (apStep s event) := by
  cases event with
  | join i conf => exact join_kept kept i conf
  | leave i => exact leave_kept kept i
  | free i => exact free_kept kept i
  | enqueue receiver id priority txreqCnt => exact enqueue_kept kept receiver _
  | stop i pending => exact stop_kept kept i _
  | wakeup i phl => exact wakeup_kept kept phl i
  | poll i pollAid priority phl => exact poll_kept kept i pollAid priority phl serves
  | trigger i priority phl => exact wmmps_kept kept phl i priority

theorem startAp_kept (n : Nat) (bmc : Bool) : Kept (startAp n bmc) := by
  refine ⟨⟨?_,?_⟩,fun _ _ => ⟨rfl,rfl⟩,?_,rfl⟩
  · intro i sta found
    cases found
  · intro group found
    cases bmc with
    | false => cases found
    | true =>
      obtain rfl := Option.some.inj found
      simp [startAp]
  · intro group found
    cases bmc with
    | false => cases found
    | true =>
      obtain rfl := Option.some.inj found
      exact ⟨rfl,rfl⟩

-- Counters and bitmaps follow the queues while every poll is one the queue can
-- serve.
theorem sleep_queues_agree (path : Machine.Reached apStep PollServes (startAp n bmc) s) : Agrees s :=
  (path.invariant Kept (startAp_kept n bmc) fun _ event kept serves => apStep_kept kept event serves).toAgrees

def voiceConf : Conf where
  asoc := true
  delivery := fun ac => ac = .vo
  trigger := fun ac => ac = .vo
  hasLegacyAc := true
  both := fun _ => rfl
  legacy := ⟨fun _ => ⟨.be,by decide⟩,fun _ => rfl⟩

def allGo : Nat → Nat → Bool := fun _ _ => true
def dozing : List (Event 1) := [.join 0 voiceConf,.stop 0 []]
def twoBuffered : Ap 1 := Machine.run apStep (startAp 1 true) (dozing ++ [.enqueue (some 0) 7 0 1,.enqueue (some 0) 8 0 1])

theorem sleep_queues_agree_polled : Agrees (apStep twoBuffered (.poll 0 1 0 allGo)) := by
  have path : Machine.Reached apStep PollServes (startAp 1 true) twoBuffered :=
    Machine.Reached.start.run ⟨trivial,trivial,trivial,trivial,trivial⟩
  refine sleep_queues_agree (path.step ?_)
  intro sta found _ _ _ f rest queue
  obtain rfl := Option.some.inj found
  obtain ⟨rfl,rfl⟩ := cons.inj queue
  exact ⟨by decide,.inr ⟨prepared 8 0 1,mem_singleton_self _,by decide⟩⟩

def voicePolled : Ap 1 :=
  Machine.run apStep (startAp 1 true) (dozing ++ [.enqueue (some 0) 7 6 1,.enqueue (some 0) 8 0 1,.poll 0 1 0 allGo])

theorem sleep_queues_drift : ¬∀ n bmc (s : Ap n), Machine.Reached apStep (fun _ _ => True) (startAp n bmc) s → Agrees s := by
  intro always
  have agrees := always 1 true voicePolled (Machine.Reached.start.run ⟨trivial,trivial,trivial,trivial,trivial,trivial⟩)
  have counts : (voicePolled.stas 0).map (fun sta => (sta.sleepqAcLen,uapsdCount sta sta.sleepQ)) = some (1,0) := by decide
  obtain ⟨sta,found,pair⟩ := Option.map_eq_some_iff.mp counts
  obtain ⟨counted,queued⟩ := Prod.mk.inj pair
  have same := (agrees.stas 0 sta found).acLen
  omega
end Rtl8852au.SleepQ
