import Rtl8852au.SleepQAgree

namespace Rtl8852au.SleepQ
open Function Option List

def ids (entry : Option Sta) : List Nat :=
  match entry with
  | none => []
  | some sta => sta.sleepQ.map Frame.id

def groupIds (bmc : Option Bmc) : List Nat :=
  match bmc with
  | none => []
  | some bmc => bmc.sleepQ.map Frame.id

def staIds (stas : Fin n → Option Sta) : List Nat := (finRange n).flatMap fun i => ids (stas i)
def queued (s : Ap n) : List Nat := staIds s.stas ++ groupIds s.bmc

def Kind.covers (kind : Kind) (delivery : Ac → Bool) (f : Frame) : Bool :=
  match kind with
  | .wakeup => true
  | .poll => !delivery (acOf f.priority)
  | .trigger => delivery (acOf f.priority)

structure Release.Right (r : Release) : Prop where
  order : (r.out.map fun p => p.1.id).Sublist (r.queue.map Frame.id)
  polled : r.kind = .poll → ∀ p ∈ r.out, r.delivery (acOf p.1.priority) = false
  moreData : ∀ p ∈ r.out, p.1.hdrMdata ↔ ∃ f ∈ p.2, r.kind.covers r.delivery f

def Placed (s : Ap n) : Prop := s.accepted.Perm (queued s ++ (s.handed ++ s.freed))

structure Delivered (s : Ap n) : Prop where
  placed : Placed s
  releases : ∀ r ∈ s.releases, r.Right

structure Flows (s : Ap n) : Prop extends Delivered s where
  plain : ∀ i sta, s.stas i = some sta → ∀ f ∈ sta.sleepQ, f.hdrMdata = false
  group : ∀ bmc, s.bmc = some bmc → bmc.sleepQ = []

theorem staIds_split (stas : Fin n → Option Sta) (i : Fin n) :
    ∃ others, ∀ entry, (staIds (update stas i entry)).Perm (ids entry ++ others) := by
  obtain ⟨before,after,split⟩ := append_of_mem (mem_finRange i)
  have nodup : (before ++ i :: after).Nodup := split ▸ nodup_finRange n
  have apart : ∀ part : List (Fin n), i ∉ part → ∀ entry,
      (part.flatMap fun j => ids (update stas i entry j)) = part.flatMap fun j => ids (stas j) := by
    intro part absent entry
    refine flatMap_congr fun j member => ?_
    have other : j ≠ i := by
      intro same
      subst same
      exact absent member
    rw [update_of_ne other]
  have absentBefore : i ∉ before := fun member => (nodup_append.mp nodup).2.2 i member i (mem_cons_self ..) rfl
  have absentAfter : i ∉ after := (nodup_cons.mp (nodup_append.mp nodup).2.1).1
  refine ⟨(before.flatMap fun j => ids (stas j)) ++ after.flatMap fun j => ids (stas j),?_⟩
  intro entry
  unfold staIds
  rw [split,flatMap_append,flatMap_cons,apart before absentBefore,apart after absentAfter,update_self]
  exact perm_append_comm_assoc _ _ _

theorem staIds_same (stas : Fin n → Option Sta) (i : Fin n) (others : List Nat)
    (split : ∀ entry, (staIds (update stas i entry)).Perm (ids entry ++ others)) :
    (staIds stas).Perm (ids (stas i) ++ others) := by
  have same := split (stas i)
  rwa [update_eq_self] at same

theorem Placed.touch (placed : Placed s) (touches : Touches s t i entry)
    (accepted : t.accepted = s.accepted ++ new) (done : (t.handed ++ t.freed).Perm (s.handed ++ s.freed ++ gone))
    (here : (ids (s.stas i) ++ new).Perm (ids entry ++ gone)) : Placed t := by
  obtain ⟨others,split⟩ := staIds_split s.stas i
  have before := staIds_same s.stas i others split
  have after := split entry
  unfold Placed queued at placed ⊢
  rw [accepted,touches.stas,touches.bmc]
  rw [perm_iff_count] at placed done here before after ⊢
  intro x
  have placed := placed x
  have done := done x
  have here := here x
  have before := before x
  have after := after x
  simp only [count_append] at placed done here before after ⊢
  omega

def Whole (phl : Nat → Nat → Bool) (f : Frame) : Prop := 1 < f.txreqCnt → (range f.txreqCnt).all (phl f.id)

section
variable (phl : Nat → Nat → Bool) (s : Ap n)

theorem rtwIntfXmitframeEnqueue_placed (f : Frame) (whole : Whole phl f) :
    (rtwIntfXmitframeEnqueue phl s f).accepted = s.accepted ∧ (rtwIntfXmitframeEnqueue phl s f).releases = s.releases ∧
      ((rtwIntfXmitframeEnqueue phl s f).handed ++ (rtwIntfXmitframeEnqueue phl s f).freed).Perm (s.handed ++ s.freed ++ [f.id]) := by
  unfold rtwIntfXmitframeEnqueue
  split
  · refine ⟨rfl,rfl,?_⟩
    simp only [append_assoc]
    exact (perm_append_left_iff s.handed).mpr perm_append_comm
  · rename_i refused
    split
    · refine ⟨rfl,rfl,?_⟩
      simp only [append_assoc]
      exact List.Perm.refl _
    · rename_i several
      exact absurd (whole (by omega)) refused

theorem release_none (kind : Kind) (delivery : Ac → Bool) (queue : List Frame) :
    release phl s {kind, delivery, queue, out:=[]} = {s with releases:=s.releases ++ [{kind, delivery, queue, out:=[]}]} := rfl

theorem release_one (r : Release) (only : r.out = [(f,left)]) (whole : Whole phl f) :
    (release phl s r).accepted = s.accepted ∧ (release phl s r).releases = s.releases ++ [r] ∧
      ((release phl s r).handed ++ (release phl s r).freed).Perm (s.handed ++ s.freed ++ [f.id]) := by
  unfold release
  rw [only]
  exact rtwIntfXmitframeEnqueue_placed phl _ f whole
end

theorem Flows.setTim (flows : Flows s) (bit : Nat) (value : Bool) : Flows (s.setTim bit value) :=
  ⟨⟨flows.placed,flows.releases⟩,flows.plain,flows.group⟩

theorem Flows.setDz (flows : Flows s) (bit : Nat) (value : Bool) : Flows (s.setDz bit value) :=
  ⟨⟨flows.placed,flows.releases⟩,flows.plain,flows.group⟩

theorem right_none (kind : Kind) (delivery : Ac → Bool) (queue : List Frame) : Release.Right {kind, delivery, queue, out:=[]} := by
  refine ⟨nil_sublist _,?_,?_⟩
  · intro _ p out
    cases out
  · intro p out
    cases out

theorem Flows.note (flows : Flows s) (right : Release.Right r) : Flows {s with releases:=s.releases ++ [r]} := by
  refine ⟨⟨flows.placed,?_⟩,flows.plain,flows.group⟩
  intro r' member
  rcases mem_append.mp member with old | new
  · exact flows.releases r' old
  · obtain rfl := mem_singleton.mp new
    exact right

theorem Flows.touch (flows : Flows s) (new gone : List Nat) (touches : Touches s t i entry)
    (accepted : t.accepted = s.accepted ++ new) (done : (t.handed ++ t.freed).Perm (s.handed ++ s.freed ++ gone))
    (here : (ids (s.stas i) ++ new).Perm (ids entry ++ gone)) (releases : ∀ r ∈ t.releases, r ∈ s.releases ∨ r.Right)
    (plain : ∀ sta, entry = some sta → ∀ f ∈ sta.sleepQ, f.hdrMdata = false) : Flows t := by
  refine ⟨⟨flows.placed.touch touches accepted done here,?_⟩,?_,?_⟩
  · intro r member
    rcases releases r member with old | right
    · exact flows.releases r old
    · exact right
  · intro j sta found f member
    rw [touches.stas] at found
    by_cases same : j = i
    · subst same
      rw [update_self] at found
      exact plain sta found f member
    · rw [update_of_ne same] at found
      exact flows.plain j sta found f member
  · intro bmc found
    rw [touches.bmc] at found
    exact flows.group bmc found

theorem Flows.resta (flows : Flows s) (found : s.stas i = some sta) (same : sta'.sleepQ = sta.sleepQ) :
    Flows (s.setSta i sta') := by
  refine flows.touch [] [] (setSta_touches s i sta') (by simp [Ap.setSta]) (by simp [Ap.setSta]) ?_
    (fun r member => .inl member) ?_
  · rw [found]
    simp [ids,same]
  · intro other entry f member
    obtain rfl := some.inj entry
    rw [same] at member
    exact flows.plain i sta found f member

theorem enqueue_flows {s : Ap n} (flows : Flows s) (receiver : Option (Fin n)) (f : Frame) (plain : f.hdrMdata = false) :
    Flows (xmitframeEnqueueForSleepingSta s receiver f).1 := by
  rcases enqueue_cases s receiver f with refused | ⟨i,sta,found,_,queued⟩
  · rw [refused]
    exact flows
  · rw [queued]
    have logs : (accept s i sta f).accepted = s.accepted ++ [f.id] ∧ (accept s i sta f).handed = s.handed ∧
        (accept s i sta f).freed = s.freed ∧ (accept s i sta f).releases = s.releases := by
      unfold accept
      simp only
      split
      · exact ⟨rfl,rfl,rfl,rfl⟩
      · exact ⟨rfl,rfl,rfl,rfl⟩
    refine flows.touch [f.id] [] (accept_touches s i sta f) logs.1 (by simp [logs.2.1,logs.2.2.1]) ?_ ?_ ?_
    · rw [found]
      simp [ids,Sta.queue]
    · intro r member
      rw [logs.2.2.2] at member
      exact .inl member
    · intro other entry g member
      obtain rfl := some.inj entry
      rcases mem_append.mp member with old | new
      · exact flows.plain i sta found g old
      · obtain rfl := mem_singleton.mp new
        exact plain

theorem stop_flows {s : Ap n} (flows : Flows s) (i : Fin n) (pending : List Frame) (plain : ∀ f ∈ pending, f.hdrMdata = false) :
    Flows (stopStaXmit s i pending) := by
  unfold stopStaXmit
  cases found : s.stas i with
  | none => exact flows
  | some sta =>
    simp only
    have slept : Flows (s.setSta i {sta with sleep:=true}) := flows.resta found rfl
    have asleep := slept.setDz (aid i) true
    generalize (s.setSta i {sta with sleep:=true}).setDz (aid i) true = t at asleep
    induction pending generalizing t with
    | nil => exact asleep
    | cons f rest ih =>
      exact ih (fun g member => plain g (mem_cons_of_mem _ member)) _
        (enqueue_flows asleep (some i) _ (plain f (mem_cons_self ..)))

theorem Flows.letOut (flows : Flows s) (found : s.stas i = some sta) (phl : Nat → Nat → Bool) (kind : Kind)
    (before after : List Frame) (sta' : Sta) (f' : Frame) (split : sta.sleepQ = before ++ f :: after) (remain : sta'.sleepQ = before ++ after) (whole : Whole phl f)
    (polled : kind = .poll → sta.uapsd f = false) (others : ∀ g ∈ before ++ after, kind.covers sta.delivery g = false)
    (id : f'.id = f.id) (priority : f'.priority = f.priority) (txreqCnt : f'.txreqCnt = f.txreqCnt) (header : f'.hdrMdata = f.hdrMdata) :
    Flows (release phl (s.setSta i sta') {kind, delivery:=sta.delivery, queue:=sta.sleepQ, out:=[(f',before ++ after)]}) := by
  have whole' : Whole phl f' := by
    unfold Whole
    rw [id,txreqCnt]
    exact whole
  have plain := flows.plain i sta found
  obtain ⟨accepted,releases,done⟩ := release_one phl (s.setSta i sta')
    {kind, delivery:=sta.delivery, queue:=sta.sleepQ, out:=[(f',before ++ after)]} rfl whole'
  refine flows.touch [] [f'.id] (release_touches (setSta_touches s i sta') phl _) (by rw [accepted]; simp [Ap.setSta]) done ?_ ?_ ?_
  · rw [found,append_nil,id]
    simp only [ids,split,remain,map_append,map_cons]
    rw [append_assoc]
    exact (perm_append_left_iff _).mpr (@perm_append_comm _ [f.id] _)
  · intro r member
    rw [releases] at member
    rcases mem_append.mp member with old | new
    · exact .inl old
    · obtain rfl := mem_singleton.mp new
      refine .inr ⟨?_,?_,?_⟩
      · simp [split,id]
      · intro poll p out
        obtain rfl := mem_singleton.mp out
        change sta.delivery (acOf f'.priority) = false
        rw [priority]
        exact polled poll
      · intro p out
        obtain rfl := mem_singleton.mp out
        rw [header,plain f (by simp [split])]
        constructor
        · intro never
          cases never
        · rintro ⟨g,behind,covered⟩
          rw [others g behind] at covered
          cases covered
  · intro other entry g member
    obtain rfl := some.inj entry
    rw [remain] at member
    refine plain g ?_
    rw [split]
    rcases mem_append.mp member with first | second
    · exact mem_append_left _ first
    · exact mem_append_right _ (mem_cons_of_mem _ second)

theorem Flows.letNone (flows : Flows s) (found : s.stas i = some sta) (phl : Nat → Nat → Bool) (kind : Kind)
    (same : sta'.sleepQ = sta.sleepQ) :
    Flows (release phl (s.setSta i sta') {kind, delivery:=sta.delivery, queue:=sta.sleepQ, out:=[]}) := by
  rw [release_none]
  exact (flows.resta found same).note (right_none kind sta.delivery sta.sleepQ)

theorem wakeupFrame_frame (sta : Sta) (f : Frame) (rest : List Frame) : (wakeupFrame sta f rest).1.sleepQ = rest ∧
    (wakeupFrame sta f rest).2.id = f.id ∧ (wakeupFrame sta f rest).2.priority = f.priority ∧
      (wakeupFrame sta f rest).2.txreqCnt = f.txreqCnt ∧ (wakeupFrame sta f rest).2.hdrMdata = f.hdrMdata := by
  unfold wakeupFrame
  simp only
  split
  · exact ⟨rfl,rfl,rfl,rfl,rfl⟩
  · exact ⟨rfl,rfl,rfl,rfl,rfl⟩

theorem Flows.clearGroup (flows : Flows s) (bmc : Bmc) : Flows (clearGroup s bmc) := by
  unfold SleepQ.clearGroup
  split
  · exact (flows.setTim 0 false).setDz 0 false
  · exact flows

theorem wakeupBmc_flows (flows : Flows s) (phl : Nat → Nat → Bool) : Flows (wakeupBmc phl s) := by
  unfold wakeupBmc
  cases found : s.bmc with
  | none => exact flows
  | some bmc =>
    simp only
    split
    · exact flows
    · have empty := flows.group bmc found
      rw [empty]
      simp only [bmcLoop]
      have same : {s with bmc:=some bmc} = s := by rw [← found]
      rw [same,release_none]
      exact (flows.note (right_none .wakeup _ [])).clearGroup bmc

-- What a release finds: a wake-up at most one frame, a trigger at most one of
-- a U-APSD category, a poll a frame of a legacy category at the head and no
-- other behind it; and PHL refuses no request of such a frame if it has several.
def ReleasesOne (s : Ap n) : Event n → Prop
  | .wakeup i phl => ∀ sta, s.stas i = some sta → sta.sleepQ.length ≤ 1 ∧ ∀ f ∈ sta.sleepQ, Whole phl f
  | .poll i pollAid priority phl => ∀ sta, s.stas i = some sta → pollAid = aid i → sta.delivery (acOf priority) = false →
      sta.sleep → s.staDz (aid i) → ∀ f rest, sta.sleepQ = f :: rest →
        sta.uapsd f = false ∧ (∀ g ∈ rest, sta.uapsd g) ∧ Whole phl f
  | .trigger i priority phl => ∀ sta, s.stas i = some sta → sta.sleep → sta.trigger (acOf priority) →
      0 < sta.sleepqAcLen → uapsdCount sta sta.sleepQ ≤ 1 ∧ ∀ f ∈ sta.sleepQ, sta.uapsd f → Whole phl f
  | _ => True

theorem wakeup_flows {s : Ap n} (flows : Flows s) (phl : Nat → Nat → Bool) (i : Fin n)
    (one : ReleasesOne s (.wakeup i phl)) : Flows (wakeupStaToXmit phl s i) := by
  unfold wakeupStaToXmit
  cases found : s.stas i with
  | none => exact flows
  | some sta =>
    obtain ⟨few,whole⟩ := one sta found
    have out : Flows (release phl (s.setSta i (wakeupLoop sta sta.sleepQ).1)
        {kind:=.wakeup, delivery:=sta.delivery, queue:=sta.sleepQ, out:=(wakeupLoop sta sta.sleepQ).2}) := by
      cases queue : sta.sleepQ with
      | nil =>
        have none : Flows (release phl (s.setSta i sta) _) := flows.letNone found phl .wakeup rfl
        rwa [queue] at none
      | cons f rest =>
        rw [queue,length_cons] at few
        obtain rfl : rest = [] := eq_nil_of_length_eq_zero (by omega)
        obtain ⟨left,id,priority,txreqCnt,header⟩ := wakeupFrame_frame sta f []
        have one := flows.letOut found phl .wakeup [] [] _ _ queue left (whole f (by simp [queue]))
          (fun poll => by cases poll) (fun g member => by cases member) id priority txreqCnt header
        rwa [queue] at one
    have known : (release phl (s.setSta i (wakeupLoop sta sta.sleepQ).1)
        {kind:=.wakeup, delivery:=sta.delivery, queue:=sta.sleepQ, out:=(wakeupLoop sta sta.sleepQ).2}).stas i =
        some (wakeupLoop sta sta.sleepQ).1 := by
      rw [(release_same phl _ _).1]
      exact update_self ..
    simp only
    split
    · have awake := out.resta known (show {(wakeupLoop sta sta.sleepQ).1 with sleep:=false}.sleepQ = _ from rfl)
      exact wakeupBmc_flows ((awake.setTim (aid i) false).setDz (aid i) false) phl
    · exact wakeupBmc_flows out phl

theorem poll_flows {s : Ap n} (flows : Flows s) (i : Fin n) (pollAid priority : Nat) (phl : Nat → Nat → Bool)
    (one : ReleasesOne s (.poll i pollAid priority phl)) : Flows (rtwProccessPspoll phl s i pollAid priority) := by
  unfold rtwProccessPspoll
  cases found : s.stas i with
  | none => exact flows
  | some sta =>
    simp only
    split
    · exact flows
    · rename_i mine
      split
      · exact flows
      · rename_i polled
        split
        · exact flows
        · rename_i dozing
          have asleep : sta.sleep ∧ s.staDz (aid i) := by simpa using dozing
          split
          · rename_i empty
            split
            · have reset : Flows (s.setSta i {sta with sleepqLen:=0}) := flows.resta found rfl
              exact reset.setTim (aid i) false
            · exact flows
          · rename_i f rest queue
            obtain ⟨head,behind,whole⟩ := one sta found (by simpa using mine) (by simpa using polled) asleep.1 asleep.2 f rest queue
            have others : ∀ g ∈ [] ++ rest, Kind.poll.covers sta.delivery g = false := by
              intro g member
              have uapsd := behind g member
              unfold Sta.uapsd at uapsd
              simp [Kind.covers,uapsd]
            have out := flows.letOut found phl .poll [] rest {sta with sleepQ:=rest, sleepqLen:=dec sta.sleepqLen}
              {f with mdata:=decide (0 < dec sta.sleepqLen), triggered:=true} queue rfl whole (fun _ => head) others rfl rfl rfl rfl
            split
            · exact out.setTim (aid i) false
            · exact out

theorem deliverLoop_none (queue : List Frame) (sta : Sta) (kept : List Frame) (none : uapsdCount sta queue = 0) :
    deliverLoop sta kept queue = (sta,[],false) := by
  induction queue generalizing kept with
  | nil => rfl
  | cons f rest ih =>
    rw [uapsdCount_cons] at none
    have passed : ¬sta.uapsd f := by
      intro uapsd
      rw [if_pos uapsd] at none
      omega
    rw [if_neg passed,Nat.zero_add] at none
    unfold deliverLoop
    rw [trigger_uapsd,if_pos (by simpa using passed)]
    exact ih (kept ++ [f]) none

theorem deliverLoop_one (queue : List Frame) (sta : Sta) (kept : List Frame) (one : uapsdCount sta queue = 1) :
    ∃ before f after, queue = before ++ f :: after ∧ sta.uapsd f ∧ (∀ g ∈ before ++ after, sta.uapsd g = false) ∧
      (deliverLoop sta kept queue).1 = (deliverFrame sta f (kept ++ before ++ after)).1 ∧
      (deliverLoop sta kept queue).2.1 = [((deliverFrame sta f (kept ++ before ++ after)).2,kept ++ before ++ after)] := by
  induction queue generalizing kept with
  | nil => cases one
  | cons f rest ih =>
    rw [uapsdCount_cons] at one
    by_cases uapsd : sta.uapsd f
    · rw [if_pos uapsd] at one
      have none : uapsdCount sta rest = 0 := by omega
      have later : uapsdCount (deliverFrame sta f (kept ++ rest)).1 rest = 0 := none
      have others : ∀ g ∈ rest, sta.uapsd g = false := by
        have empty := filter_eq_nil_iff.mp (eq_nil_of_length_eq_zero none)
        intro g member
        simpa using empty g member
      refine ⟨[],f,rest,rfl,uapsd,others,?_,?_⟩
      · unfold deliverLoop
        rw [trigger_uapsd,if_neg (by simp [uapsd])]
        simp only [append_nil]
        rw [deliverLoop_none rest _ kept later]
      · unfold deliverLoop
        rw [trigger_uapsd,if_neg (by simp [uapsd])]
        simp only [append_nil]
        rw [deliverLoop_none rest _ kept later]
    · rw [if_neg uapsd,Nat.zero_add] at one
      obtain ⟨before,g,after,split,taken,others,first,second⟩ := ih (kept ++ [f]) one
      refine ⟨f :: before,g,after,by rw [split]; rfl,taken,?_,?_,?_⟩
      · intro h member
        rcases mem_cons.mp member with rfl | rest
        · simpa using uapsd
        · exact others h rest
      · unfold deliverLoop
        rw [trigger_uapsd,if_pos (by simpa using uapsd),first]
        simp
      · unfold deliverLoop
        rw [trigger_uapsd,if_pos (by simpa using uapsd),second]
        simp

theorem wmmps_flows {s : Ap n} (flows : Flows s) (phl : Nat → Nat → Bool) (i : Fin n) (priority : Nat)
    (one : ReleasesOne s (.trigger i priority phl)) : Flows (processWmmpsData phl s i priority) := by
  unfold processWmmpsData
  cases found : s.stas i with
  | none => exact flows
  | some sta =>
    simp only
    split
    · rename_i triggered
      simp only [Bool.and_eq_true,decide_eq_true_eq] at triggered
      obtain ⟨few,whole⟩ := one sta found triggered.1.1 triggered.1.2 triggered.2
      have out : Flows (release phl (s.setSta i (deliverLoop sta [] sta.sleepQ).1)
          {kind:=.trigger, delivery:=sta.delivery, queue:=sta.sleepQ, out:=(deliverLoop sta [] sta.sleepQ).2.1}) := by
        rcases Nat.eq_zero_or_pos (uapsdCount sta sta.sleepQ) with none | some
        · rw [deliverLoop_none _ _ _ none]
          exact flows.letNone found phl .trigger rfl
        · obtain ⟨before,f,after,split,uapsd,others,first,second⟩ := deliverLoop_one sta.sleepQ sta [] (by omega)
          rw [first,second]
          exact flows.letOut found phl .trigger before after _ _ split rfl (whole f (by simp [split]) uapsd) (fun poll => by cases poll) others rfl rfl rfl rfl
      unfold xmitDeliveryEnabledFrames
      rw [found]
      simp only
      split
      · exact out.setTim (aid i) false
      · exact out
    · exact flows

theorem free_flows {s : Ap n} (flows : Flows s) (i : Fin n) : Flows (rtwFreeStainfo s i) := by
  unfold rtwFreeStainfo
  cases found : s.stas i with
  | none => exact flows
  | some sta =>
    have removed : Flows {s with stas:=update s.stas i none, freed:=s.freed ++ sta.sleepQ.map Frame.id} := by
      have touches : Touches s {s with stas:=update s.stas i none, freed:=s.freed ++ sta.sleepQ.map Frame.id} i none :=
        ⟨rfl,fun _ _ => rfl,fun _ _ => rfl,rfl⟩
      refine flows.touch [] (sta.sleepQ.map Frame.id) touches (by simp) (by simp) ?_ (fun r member => .inl member) (fun _ none => by cases none)
      rw [found]
      simp [ids]
    exact (removed.setDz (aid i) false).setTim (aid i) false

theorem join_flows {s : Ap n} (flows : Flows s) (i : Fin n) (conf : Conf) : Flows (join s i conf) := by
  unfold join
  cases found : s.stas i with
  | some sta => exact flows
  | none =>
    refine flows.touch [] [] (setSta_touches s i _) (by simp [Ap.setSta]) (by simp [Ap.setSta]) ?_
      (fun r member => .inl member) ?_
    · rw [found]
      simp [ids]
    · intro sta entry f member
      obtain rfl := some.inj entry
      cases member

theorem leave_flows {s : Ap n} (flows : Flows s) (i : Fin n) : Flows (leave s i) := by
  unfold leave
  cases found : s.stas i with
  | none => exact flows
  | some sta => exact flows.resta found rfl

theorem apStep_flows {s : Ap n} (flows : Flows s) (event : Event n) (one : ReleasesOne s event) : Flows (apStep s event) := by
  cases event with
  | join i conf => exact join_flows flows i conf
  | leave i => exact leave_flows flows i
  | free i => exact free_flows flows i
  | enqueue receiver id priority txreqCnt => exact enqueue_flows flows receiver _ rfl
  | stop i pending =>
    refine stop_flows flows i _ ?_
    intro f member
    obtain ⟨p,_,rfl⟩ := mem_map.mp member
    rfl
  | wakeup i phl => exact wakeup_flows flows phl i one
  | poll i pollAid priority phl => exact poll_flows flows i pollAid priority phl one
  | trigger i priority phl => exact wmmps_flows flows phl i priority one

theorem startAp_flows (n : Nat) (bmc : Bool) : Flows (startAp n bmc) := by
  have group : ∀ held, (startAp n bmc).bmc = some held → held.sleepQ = [] := by
    intro held found
    cases bmc with
    | false => cases found
    | true =>
      obtain rfl := some.inj found
      rfl
  refine ⟨⟨?_,fun r member => (by cases member)⟩,fun i sta found => (by cases found),group⟩
  have none : queued (startAp n bmc) = [] := by
    cases bmc with
    | false => simp [queued,staIds,ids,groupIds,startAp]
    | true => simp [queued,staIds,ids,groupIds,startAp]
  unfold Placed
  rw [none]
  exact List.Perm.refl _

-- Frames are delivered as they should be while no release finds more than one
-- frame of its kind.
theorem power_save_delivered (path : Machine.Reached apStep ReleasesOne (startAp n bmc) s) : Delivered s :=
  (path.invariant Flows (startAp_flows n bmc) fun _ event flows one => apStep_flows flows event one).toDelivered

def oneBuffered : Ap 1 := Machine.run apStep (startAp 1 true) (dozing ++ [.enqueue (some 0) 7 0 2])

theorem power_save_delivered_polled : Delivered (apStep oneBuffered (.poll 0 1 0 allGo)) := by
  have path : Machine.Reached apStep ReleasesOne (startAp 1 true) oneBuffered :=
    Machine.Reached.start.run ⟨trivial,trivial,trivial,trivial⟩
  refine power_save_delivered (path.step ?_)
  intro sta found _ _ _ _ f rest queue
  obtain rfl := some.inj found
  obtain ⟨rfl,rfl⟩ := cons.inj queue
  exact ⟨by decide,fun g member => (by cases member),fun _ => by decide⟩

def twoWoken : Ap 1 := Machine.run apStep twoBuffered [.wakeup 0 allGo]

theorem power_save_unannounced : ¬∀ n bmc (s : Ap n), Machine.Reached apStep (fun _ _ => True) (startAp n bmc) s → Delivered s := by
  intro always
  have path : Machine.Reached apStep (fun _ _ => True) (startAp 1 true) twoBuffered :=
    Machine.Reached.start.run ⟨trivial,trivial,trivial,trivial,trivial⟩
  have delivered := always 1 true twoWoken (path.run ⟨trivial,trivial⟩)
  have released : ∃ r ∈ twoWoken.releases, ∃ p ∈ r.out, p.1.hdrMdata = false ∧ ∃ f ∈ p.2, r.kind.covers r.delivery f := by
    decide
  obtain ⟨r,noted,p,out,header,follows⟩ := released
  have said := ((delivered.releases r noted).moreData p out).mpr follows
  rw [header] at said
  cases said
end Rtl8852au.SleepQ
