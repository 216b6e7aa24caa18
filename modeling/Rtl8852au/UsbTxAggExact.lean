import Rtl8852au.UsbTxAggPlan

namespace Rtl8852au.UsbTx
open Nat List
open Rings (maxPhlRingEntryNum)
open PrefixScan

structure Plain (tring : TxRing) (reqBusy : Nat) : Prop where
  content : (∀ k < reqBusy, ∀ txReq, tring.reqAt k = some txReq → txReq.mdata.type = .data) ∨
    ∃ txReq, tring.reqAt 0 = some txReq ∧ txReq.mdata.type ≠ .data
  lengths : ∀ k < reqBusy, ∀ txReq, tring.reqAt k = some txReq →
    macTxdescLen txReq.mdata = txReq.wdLen ∧ txReq.copied = txReq.totalLen ∧ txReq.mdata.usbPktOfst ≠ 1

structure AsPlanned (bus : Bus) (tring : TxRing) (reqBusy : Nat) (handled : Handled) : Prop where
  count : handled.pieces.length = (usbTxAggPreprocess bus tring reqBusy).lastIdx.elim 0 (· + 1)
  first : ∀ txReq, 0 < reqBusy → tring.reqAt 0 = some txReq → align8 (txReq.wdLen+txReq.totalLen) ≤ bus.limit → handled.pieces ≠ []
  whole : ∀ submission, handled.submission = some submission → submission.txLen % bus.usbBulkoutSize ≠ 0

def Padded (bus : Bus) (tring : TxRing) (n : Nat) : Prop :=
  endAt (planned tring) n ≠ 0 ∧ endAt (planned tring) n % bus.usbBulkoutSize = 0

instance (bus : Bus) (tring : TxRing) (n : Nat) : Decidable (Padded bus tring n) := instDecidableAnd

-- The last planned request with eight more bytes: it still fits, and its descriptor
-- does not end with the bulk.
def LastFits (bus : Bus) (tring : TxRing) (n : Nat) : Prop :=
  ∀ txReq, tring.reqAt (n-1) = some txReq →
    align8 (txReq.wdLen + pktOffsetDummy + txReq.totalLen) + endAt (planned tring) (n-1) ≤ bus.limit ∧
    (1 < n → (start (planned tring) (n-1) + (txReq.wdLen+pktOffsetDummy)) % bus.usbBulkoutSize ≠ 0)

abbrev Follows (bus : Bus) (tring : TxRing) (reqBusy n : Nat) : Prop :=
  Stops (accepts bus (usbTxAggPreprocess bus tring reqBusy) tring (fun _ => true))
    (halts bus (usbTxAggPreprocess bus tring reqBusy) tring (fun _ => true)) reqBusy n

-- Eight bytes more for every request whose index has the eight bits of the last one's.
def grown (tring : TxRing) (n k : Nat) : Nat := planned tring k + 8 * if k % 256 = (n-1) % 256 then 1 else 0

def grownAccepts (bus : Bus) (tring : TxRing) (n k : Nat) : Prop :=
  match tring.reqAt k with
  | none => False
  | some txReq => align8 (grown tring n k) + endAt (grown tring n) k ≤ bus.limit ∧
      (start (grown tring n) k + (grown tring n k - txReq.totalLen)) % bus.usbBulkoutSize ≠ 0

def grownHalts (bus : Bus) (tring : TxRing) (n k : Nat) : Prop := tring.isData k = false ∨ wdFull bus (grown tring n) k

instance : DecidablePred (grownAccepts bus tring n) := by
  intro k
  unfold grownAccepts
  exact match tring.reqAt k with
    | none => instDecidableFalse
    | some _ => instDecidableAnd

instance : DecidablePred (grownHalts bus tring n) := fun _ => instDecidableOr

-- When the run keeps to the plan: no dummy is asked for, or the one of the last
-- request does no harm. From 257 requests on the count of eight bits meets the
-- index of the last one more than once, and every one of these brings a dummy:
-- with all of them the requests must still end where they were planned to.
def KeepsPlan (bus : Bus) (tring : TxRing) (reqBusy : Nat) : Prop :=
  Padded bus tring (planCount bus tring reqBusy) →
    if planCount bus tring reqBusy ≤ 256 then LastFits bus tring (planCount bus tring reqBusy)
    else taken (grownAccepts bus tring (planCount bus tring reqBusy)) (grownHalts bus tring (planCount bus tring reqBusy))
      reqBusy 0 = planCount bus tring reqBusy

def dummies (n k : Nat) : Nat := (k + 255 - (n-1) % 256) / 256

section exact
variable {bus : Bus} {tring : TxRing} {reqBusy n k : Nat}

section
variable (bulk : bus.usbBulkoutSize = 512 ∨ bus.usbBulkoutSize = 1024)
include bulk

theorem bulk_shift (len : Nat) (whole : len % bus.usbBulkoutSize = 0) :
    (len+8) >>> bus.shiftOffset = len >>> bus.shiftOffset := by
  rw [shiftRight_eq_div_pow,shiftRight_eq_div_pow]
  unfold Bus.shiftOffset
  rcases bulk with size | size
  · rw [size] at whole ⊢
    simp only [reduceEqDiff,if_false,if_true,reducePow]
    omega
  · rw [size] at whole ⊢
    simp only [if_true,reducePow]
    omega

theorem desc_inside (txReq : XmitReq) (whole : len % bus.usbBulkoutSize = 0) :
    (len+txReq.wdLen) % bus.usbBulkoutSize ≠ 0 := by
  have long := wdLen_long txReq
  rcases bulk with size | size
  · rw [size] at whole ⊢
    omega
  · rw [size] at whole ⊢
    omega
end

theorem dummyAt_plan (n : Nat) (dummy : Prop) [Decidable dummy] (k : Nat) :
    Plan.dummyAt ⟨before none some n,decide dummy⟩ (k % 256) = decide (0 < n ∧ dummy ∧ k % 256 = (n-1) % 256) := by
  cases n with
  | zero => simp [Plan.dummyAt,before]
  | succ m =>
    simp only [Plan.dummyAt,before,succ_pos,true_and,Bool.decide_and]
    rfl

theorem plan_dummyAt (bus : Bus) (tring : TxRing) (reqBusy k : Nat) :
    (usbTxAggPreprocess bus tring reqBusy).dummyAt (k % 256) = decide (0 < planCount bus tring reqBusy ∧
      Padded bus tring (planCount bus tring reqBusy) ∧ k % 256 = (planCount bus tring reqBusy - 1) % 256) := by
  rw [usbTxAggPreprocess_exact,dummyAt_plan]
  rfl

theorem prepared_plain (plain : Plain tring reqBusy) (plan : Plan) (inside : k < reqBusy) (there : tring.reqAt k = some txReq) :
    prepared plan tring (fun _ => true) k = planned tring k + dummyLen (plan.dummyAt (k % 256)) := by
  obtain ⟨desc,copied,fresh⟩ := plain.lengths k inside txReq there
  rw [prepared_some there,planned_some there,if_pos rfl,writes,desc,copied,beq_eq_false_iff_ne.mpr fresh,Bool.false_or]
  omega

theorem prepared_bare (plain : Plain tring reqBusy) (plan : Plan) (bare : ∀ k, plan.dummyAt (k % 256) = false) (inside : k < reqBusy) :
    prepared plan tring (fun _ => true) k = planned tring k := by
  cases there : tring.reqAt k with
  | none => simp only [prepared,planned,there,Option.elim_none]
  | some txReq =>
    rw [prepared_plain plain plan inside there,bare]
    rfl

theorem dummies_succ (n k : Nat) : dummies n (k+1) = dummies n k + if k % 256 = (n-1) % 256 then 1 else 0 := by
  unfold dummies
  split <;> omega

theorem dummies_range (some : 0 < n) (small : n < maxPhlRingEntryNum) : 1 ≤ dummies n n ∧ dummies n n ≤ 16 := by
  unfold maxPhlRingEntryNum at small
  unfold dummies
  omega

section ran
variable (plain : Plain tring reqBusy) (stops : Stops (planAccepts bus tring) (planHalts bus tring) reqBusy n)
include plain stops

theorem planned_data (inside : k < reqBusy) (there : tring.reqAt k = some txReq) (later : 0 < k) (upto : k ≤ n)
    (going : n = 1 → k = n → ¬planHalts bus tring 0) : txReq.mdata.type = .data := by
  rcases plain.content with every | ⟨first,firstThere,other⟩
  · exact every k inside txReq there
  · exfalso
    have halts : planHalts bus tring 0 := .inl ((isData_some firstThere).trans (decide_eq_false other))
    rcases lt_or_ge 1 n with more | one
    · exact stops.onward 0 more halts
    · exact going (by omega) (by omega) halts

theorem planned_there (less : k < n) : ∃ txReq, tring.reqAt k = some txReq ∧
    prepared (usbTxAggPreprocess bus tring reqBusy) tring (fun _ => true) k = planned tring k +
      dummyLen ((usbTxAggPreprocess bus tring reqBusy).dummyAt (k % 256)) := by
  obtain ⟨txReq,there⟩ := planAccepts_there (stops.accepted k less)
  have inside := stops.bound
  exact ⟨txReq,there,prepared_plain plain _ (by omega) there⟩

theorem follows_bare (bare : ¬Padded bus tring n) (bulk : bus.usbBulkoutSize = 512 ∨ bus.usbBulkoutSize = 1024) :
    Follows bus tring reqBusy n := by
  have count := planCount_stops.unique stops
  have none : ∀ k, (usbTxAggPreprocess bus tring reqBusy).dummyAt (k % 256) = false := by
    intro k
    rw [plan_dummyAt,count]
    exact decide_eq_false (fun all => bare all.2.1)
  have same : ∀ k < reqBusy, prepared (usbTxAggPreprocess bus tring reqBusy) tring (fun _ => true) k = planned tring k :=
    fun k inside => prepared_bare plain _ none inside
  have bound := stops.bound
  refine stops.carry ?_ ?_ ?_ ?_
  · intro k less
    obtain ⟨txReq,there⟩ := planAccepts_there (stops.accepted k less)
    have tests := (planAccepts_some there).mp (stops.accepted k less)
    rw [accepts_some there,none,endAt_congr (fun j before => same j (by omega)),start_congr (fun j before => same j (by omega))]
    exact ⟨tests.1,fun ends => tests.2 ends.2.2⟩
  · rintro k less more (failed | other | full)
    · cases failed
    · exact more (.inl other)
    · exact more (.inr ((wdFull_congr bus (fun j before => same j (by omega))).mp full))
  · rintro m eq (other | full)
    · exact .inr (.inl other)
    · exact .inr (.inr ((wdFull_congr bus (fun j before => same j (by omega))).mpr full))
  · intro no going inside accepted
    obtain ⟨txReq,there⟩ := accepts_there accepted
    rw [accepts_some there,none,endAt_congr (fun j before => same j (by omega)),start_congr (fun j before => same j (by omega))] at accepted
    apply no
    rw [planAccepts_some there]
    refine ⟨accepted.1,?_⟩
    rcases Nat.eq_zero_or_pos n with rfl | later
    · exact desc_inside bulk txReq (zero_mod _)
    · intro ends
      have long := plan_length stops later
      exact accepted.2 ⟨planned_data plain stops inside there later (le_refl n) (fun one _ => going 0 one),by omega,ends⟩

section
variable (padded : Padded bus tring n)
include padded

theorem prepared_padded (less : k < n) :
    prepared (usbTxAggPreprocess bus tring reqBusy) tring (fun _ => true) k = grown tring n k := by
  obtain ⟨txReq,_,len⟩ := planned_there plain stops less
  rw [len,grown,plan_dummyAt,planCount_stops.unique stops]
  have some : 0 < n := by omega
  simp only [some,padded,true_and]
  split <;> simp_all [dummyLen,pktOffsetDummy]

theorem start_padded (upto : k ≤ n) :
    start (prepared (usbTxAggPreprocess bus tring reqBusy) tring (fun _ => true)) k = start (planned tring) k + 8 * dummies n k := by
  induction k with
  | zero =>
    simp only [start,dummies]
    omega
  | succ k ih =>
    have len := prepared_padded plain stops padded upto
    rw [start,start,ih (by omega),len,grown,dummies_succ]
    unfold align8
    split <;> omega

theorem endAt_padded (upto : k ≤ n) :
    endAt (prepared (usbTxAggPreprocess bus tring reqBusy) tring (fun _ => true)) k = endAt (planned tring) k + 8 * dummies n k := by
  cases k with
  | zero =>
    simp only [endAt,before,dummies]
    omega
  | succ k =>
    have prior := start_padded plain stops padded (le_of_lt upto)
    have len := prepared_padded plain stops padded upto
    simp only [endAt,before,prior,len,grown,dummies_succ]
    omega

theorem early_plain (short : n ≤ 256) (less : k + 1 < n) :
    prepared (usbTxAggPreprocess bus tring reqBusy) tring (fun _ => true) k = planned tring k := by
  rw [prepared_padded plain stops padded (lt_of_succ_lt less),grown,if_neg (by omega)]
  rfl

omit plain in
theorem plan_dummy (less : 0 < n) (short : n ≤ 256) (upto : k ≤ n) :
    (usbTxAggPreprocess bus tring reqBusy).dummyAt (k % 256) = decide (k+1 = n) := by
  rw [plan_dummyAt,planCount_stops.unique stops]
  apply decide_eq_decide.mpr
  constructor
  · rintro ⟨_,_,same⟩
    omega
  · intro last
    exact ⟨less,padded,by omega⟩

theorem follows_last (some : 0 < n) (short : n ≤ 256)
    (bulk : bus.usbBulkoutSize = 512 ∨ bus.usbBulkoutSize = 1024) : Follows bus tring reqBusy n ↔ LastFits bus tring n := by
  have early : ∀ k, k+1 < n → prepared (usbTxAggPreprocess bus tring reqBusy) tring (fun _ => true) k = planned tring k :=
    fun k less => early_plain plain stops padded short less
  have bound := stops.bound
  have last : (usbTxAggPreprocess bus tring reqBusy).dummyAt ((n-1) % 256) := by
    rw [plan_dummy stops padded some short (by omega)]
    exact decide_eq_true (by omega)
  have unshifted : endAt (prepared (usbTxAggPreprocess bus tring reqBusy) tring (fun _ => true)) (n-1) = endAt (planned tring) (n-1) ∧
      start (prepared (usbTxAggPreprocess bus tring reqBusy) tring (fun _ => true)) (n-1) = start (planned tring) (n-1) :=
    ⟨endAt_congr (fun j before => early j (by omega)),start_congr (fun j before => early j (by omega))⟩
  constructor
  · intro follows txReq there
    have accepted := follows.accepted (n-1) (by omega)
    rw [accepts_some there,last,unshifted.1,unshifted.2] at accepted
    refine ⟨accepted.1,?_⟩
    intro more ends
    have data := planned_data plain stops (by omega) there (by omega) (by omega) (fun one same => by omega)
    obtain ⟨m,eq⟩ : ∃ m, n - 1 = m + 1 := ⟨n-2,by omega⟩
    obtain ⟨prior,priorThere⟩ := planAccepts_there (stops.accepted m (by omega))
    have long := wdLen_long prior
    refine accepted.2 ⟨data,?_,ends⟩
    rw [eq]
    simp only [endAt,before,planned_some priorThere]
    omega
  · intro fits
    refine stops.carry ?_ ?_ ?_ ?_
    · intro k less
      obtain ⟨txReq,there⟩ := planAccepts_there (stops.accepted k less)
      have tests := (planAccepts_some there).mp (stops.accepted k less)
      by_cases final : k + 1 = n
      · obtain rfl : k = n - 1 := by omega
        rw [accepts_some there,last,unshifted.1,unshifted.2]
        refine ⟨(fits txReq there).1,?_⟩
        rintro ⟨_,begun,ends⟩
        by_cases more : 1 < n
        · exact (fits txReq there).2 more ends
        · exact begun (by rw [show n - 1 = 0 by omega]; rfl)
      · rw [accepts_some there,plan_dummy stops padded some short (le_of_lt less),decide_eq_false final,
          endAt_congr (fun j before => early j (by omega)),start_congr (fun j before => early j (by omega))]
        exact ⟨tests.1,fun ends => tests.2 ends.2.2⟩
    · rintro k less more (failed | other | full)
      · cases failed
      · exact more (.inl other)
      · exact more (.inr ((wdFull_congr bus (fun j before => early j (by omega))).mp full))
    · rintro m eq (other | full)
      · exact .inr (.inl other)
      · refine .inr (.inr ?_)
        have whole := padded.2
        have moved := endAt_padded plain stops padded (le_refl n)
        have one : dummies n n = 1 := by unfold dummies; omega
        rw [one,eq] at moved
        rw [eq] at whole
        unfold wdFull trascAt at full ⊢
        rw [trascAt_congr _ (fun j before => early j (by omega)),moved]
        unfold trascStep at full ⊢
        rwa [bulk_shift bulk _ whole]
    · intro no going inside accepted
      obtain ⟨txReq,there⟩ := accepts_there accepted
      rw [accepts_some there,plan_dummy stops padded some short (le_refl n),decide_eq_false (by omega),
        endAt_padded plain stops padded (le_refl n)] at accepted
      apply no
      rw [planAccepts_some there]
      have fit := accepted.1
      unfold dummyLen at fit
      refine ⟨Nat.le_trans (Nat.add_le_add_left (Nat.le_add_right _ _) _) fit,?_⟩
      rw [start_end]
      have whole : align8 (endAt (planned tring) n) % bus.usbBulkoutSize = 0 := by
        have aligned : endAt (planned tring) n % 8 = 0 := by
          have ends := padded.2
          rcases bulk with size | size <;> rw [size] at ends <;> omega
        rw [show align8 (endAt (planned tring) n) = endAt (planned tring) n by unfold align8; omega]
        exact padded.2
      exact desc_inside bulk txReq whole

variable (bulk : bus.usbBulkoutSize = 512 ∨ bus.usbBulkoutSize = 1024) (many : 1 < n)
include bulk many

theorem accepts_grown (upto : k ≤ n) (inside : k < reqBusy) :
    accepts bus (usbTxAggPreprocess bus tring reqBusy) tring (fun _ => true) k ↔ grownAccepts bus tring n k := by
  cases there : tring.reqAt k with
  | none => simp [accepts,grownAccepts,there]
  | some txReq =>
    have same : ∀ j < k, prepared (usbTxAggPreprocess bus tring reqBusy) tring (fun _ => true) j = grown tring n j :=
      fun j less => prepared_padded plain stops padded (lt_of_lt_of_le less upto)
    have extra : dummyLen ((usbTxAggPreprocess bus tring reqBusy).dummyAt (k % 256)) =
        8 * if k % 256 = (n-1) % 256 then 1 else 0 := by
      rw [plan_dummyAt,planCount_stops.unique stops]
      have some : 0 < n := by omega
      simp only [some,padded,true_and]
      split <;> simp_all [dummyLen,pktOffsetDummy]
    have long := wdLen_long txReq
    rw [accepts_some there,endAt_congr same,start_congr same,extra]
    simp only [grownAccepts,there,grown,planned_some there]
    rw [show ∀ a b c : Nat, a + b + c = a + c + b by omega,show ∀ a b c : Nat, a + b + c - b = a + c by omega]
    refine and_congr_right fun _ => not_congr ⟨fun ends => ends.2.2,fun ends => ?_⟩
    cases k with
    | zero =>
      have last : (txReq.wdLen + 8 * if 0 % 256 = (n-1) % 256 then 1 else 0) ≤ 56 := by split <;> omega
      rw [start,Nat.zero_add] at ends
      rcases bulk with size | size <;> rw [size] at ends <;> omega
    | succ m =>
      obtain ⟨prior,priorThere⟩ := planAccepts_there (stops.accepted m upto)
      have size := wdLen_long prior
      refine ⟨planned_data plain stops inside there (succ_pos m) upto (fun one _ => by omega),?_,ends⟩
      simp only [endAt,before,grown,planned_some priorThere]
      omega

theorem follows_grown : Follows bus tring reqBusy n ↔
    taken (grownAccepts bus tring n) (grownHalts bus tring n) reqBusy 0 = n := by
  have bound := stops.bound
  have halts {k : Nat} (less : k < n) : halts bus (usbTxAggPreprocess bus tring reqBusy) tring (fun _ => true) k ↔ grownHalts bus tring n k := by
    have full := wdFull_congr bus fun j (upto : j < k+1) => prepared_padded plain stops padded (lt_of_lt_of_le upto less)
    simp [UsbTx.halts,grownHalts,full]
  rw [taken_eq]
  constructor
  · intro follows
    refine follows.carry ?_ ?_ ?_ ?_
    · exact fun k less => (accepts_grown plain stops padded bulk many (le_of_lt less) (by omega)).mp (follows.accepted k less)
    · exact fun k less => mt (halts (lt_of_succ_lt less)).mpr
    · exact fun m eq => (halts (by omega)).mp
    · exact fun no _ inside => mt (accepts_grown plain stops padded bulk many (le_refl n) inside).mpr no
  · intro ends
    refine ends.carry ?_ ?_ ?_ ?_
    · exact fun k less => (accepts_grown plain stops padded bulk many (le_of_lt less) (by omega)).mpr (ends.accepted k less)
    · exact fun k less => mt (halts (lt_of_succ_lt less)).mp
    · exact fun m eq => (halts (by omega)).mpr
    · exact fun no _ inside => mt (accepts_grown plain stops padded bulk many (le_refl n) inside).mp no
end
end ran
section
variable (bulk : bus.usbBulkoutSize = 512 ∨ bus.usbBulkoutSize = 1024) (plain : Plain tring reqBusy)
include bulk plain

theorem keeps_follows :
    KeepsPlan bus tring reqBusy ↔ Follows bus tring reqBusy (planCount bus tring reqBusy) := by
  unfold KeepsPlan
  by_cases padded : Padded bus tring (planCount bus tring reqBusy)
  · have some : 0 < planCount bus tring reqBusy := by
      by_contra none
      exact padded.1 (by rw [show planCount bus tring reqBusy = 0 by omega]; rfl)
    rw [imp_iff_right padded]
    split
    · rename_i short
      exact (follows_last plain planCount_stops padded some short bulk).symm
    · exact (follows_grown plain planCount_stops padded bulk (by omega)).symm
  · exact ⟨fun _ => follows_bare plain planCount_stops padded bulk,fun _ there => absurd there padded⟩

theorem follows_length
    (small : reqBusy < maxPhlRingEntryNum) (some : 0 < planCount bus tring reqBusy) :
    endAt (prepared (usbTxAggPreprocess bus tring reqBusy) tring (fun _ => true)) (planCount bus tring reqBusy) %
      bus.usbBulkoutSize ≠ 0 := by
  have stops : Stops (planAccepts bus tring) (planHalts bus tring) reqBusy (planCount bus tring reqBusy) := planCount_stops
  have bound := stops.bound
  by_cases padded : Padded bus tring (planCount bus tring reqBusy)
  · obtain ⟨more,few⟩ := dummies_range some (lt_of_le_of_lt bound small)
    have whole := padded.2
    rw [endAt_padded plain stops padded (le_refl _)]
    rcases bulk with size | size <;> rw [size] at whole ⊢ <;> omega
  · have same : ∀ k < planCount bus tring reqBusy,
        prepared (usbTxAggPreprocess bus tring reqBusy) tring (fun _ => true) k = planned tring k := by
      intro k less
      obtain ⟨txReq,_,len⟩ := planned_there plain stops less
      rw [len,plan_dummyAt,decide_eq_false (fun all => padded all.2.1)]
      rfl
    rw [endAt_congr same]
    intro whole
    have long := plan_length stops some
    exact padded ⟨by omega,whole⟩
end
end exact

theorem plan_executed (bus : Bus) (usbTx : Bool) (ringSts : RingStatus) (tring : TxRing) (txBuf : Nat) (bufs : TxBufs)
    (bulk : bus.usbBulkoutSize = 512 ∨ bus.usbBulkoutSize = 1024) (plain : Plain tring ringSts.reqBusy) :
    AsPlanned bus tring ringSts.reqBusy (phlHandleXmitRingUsb bus ⟨fun _ => true,usbTx⟩ ringSts tring txBuf bufs) ↔
      KeepsPlan bus tring ringSts.reqBusy := by
  have finished := loop_finished bus (usbTxAggPreprocess bus tring ringSts.reqBusy) tring (fun _ => true) ringSts ringSts.reqBusy
  have pieces : (phlHandleXmitRingUsb bus ⟨fun _ => true,usbTx⟩ ringSts tring txBuf bufs).pieces.length =
      tring.count bus (usbTxAggPreprocess bus tring ringSts.reqBusy) (fun _ => true) ringSts.reqBusy := by
    simp only [phlHandleXmitRingUsb,finished.pieces,length_map,length_range]
  have last : (usbTxAggPreprocess bus tring ringSts.reqBusy).lastIdx.elim 0 (· + 1) = planCount bus tring ringSts.reqBusy := by
    rw [usbTxAggPreprocess_exact]
    cases planCount bus tring ringSts.reqBusy <;> rfl
  have stops : Stops (planAccepts bus tring) (planHalts bus tring) ringSts.reqBusy (planCount bus tring ringSts.reqBusy) :=
    planCount_stops
  rw [keeps_follows bulk plain]
  constructor
  · intro planned
    have count := planned.count
    rw [pieces,last] at count
    exact taken_eq.mp count
  · intro follows
    have count : tring.count bus (usbTxAggPreprocess bus tring ringSts.reqBusy) (fun _ => true) ringSts.reqBusy =
        planCount bus tring ringSts.reqBusy := taken_eq.mpr follows
    refine ⟨by rw [pieces,last,count],?_,?_⟩
    · intro txReq busy there fits none
      have empty := congrArg length none
      rw [pieces,count] at empty
      have accepted : planAccepts bus tring 0 := (planAccepts_some there).mpr ⟨fits,desc_inside bulk txReq (zero_mod _)⟩
      have taken := stops.attempted.mp (⟨busy,accepted,fun j less => absurd less (not_lt_zero j)⟩ :
        Attempted (planAccepts bus tring) (planHalts bus tring) ringSts.reqBusy 0)
      exact absurd empty (ne_of_gt taken)
    · intro submission given
      simp only [phlHandleXmitRingUsb] at given
      split at given
      · rename_i sent
        cases given
        rw [finished.pstatus,count] at sent
        cases size : planCount bus tring ringSts.reqBusy with
        | zero =>
          rw [size] at sent
          cases sent
        | succ m =>
          have len := finished.txLen m (count.trans size) rfl
          have ends := follows_length bulk plain ringSts.reqBusy.isLt (by omega)
          rw [size] at ends
          rw [len]
          split
          · exact ends
          · rename_i other
            rcases Nat.eq_zero_or_pos m with rfl | later
            · exact ends
            · obtain ⟨txReq,there⟩ := planAccepts_there (stops.accepted m (by omega))
              have bound := stops.bound
              have data := planned_data plain stops (by omega) there later (by omega) (fun one same => by omega)
              rw [isData_some there] at other
              exact absurd (decide_eq_true data) other
      · cases given

theorem plain_holding (one two : Nat) (first : one < 2 ^ 16) (second : two < 2 ^ 16) (reqBusy : Nat) :
    Plain (.holding (.plain .data one first) (.plain .data two second)) reqBusy := by
  have every : ∀ k txReq, (TxRing.holding (.plain .data one first) (.plain .data two second)).reqAt k = some txReq →
      txReq = .plain .data one first ∨ txReq = .plain .data two second := by
    intro k txReq there
    simp only [TxRing.reqAt,TxRing.holding,Option.some.injEq] at there
    split at there
    · exact .inl there.symm
    · exact .inr there.symm
  constructor
  · refine .inl ?_
    intro k _ txReq there
    rcases every k txReq there with rfl | rfl <;> rfl
  · intro k _ txReq there
    rcases every k txReq there with rfl | rfl <;> exact ⟨rfl,by simp [XmitReq.copied,XmitReq.plain],by simp [XmitReq.plain]⟩

-- 480 bytes and then 32: with the dummy the second descriptor would end with the
-- bulk, and the request is left out.
theorem plan_abandoned : ¬∀ (bus : Bus) (usbTx : Bool) (ringSts : RingStatus) (tring : TxRing) (txBuf : Nat) (bufs : TxBufs),
    bus.usbBulkoutSize = 512 ∨ bus.usbBulkoutSize = 1024 → Plain tring ringSts.reqBusy →
    AsPlanned bus tring ringSts.reqBusy (phlHandleXmitRingUsb bus ⟨fun _ => true,usbTx⟩ ringSts tring txBuf bufs) := by
  intro all
  have planned := all .usual true ⟨0,0,0,0,2⟩ (.holding (.plain .data 456 (by decide)) (.plain .data 8 (by decide))) 0
    ⟨[],[],[]⟩ (.inl rfl) (plain_holding 456 8 (by decide) (by decide) 2)
  have count := planned.count
  revert count
  decide +kernel

theorem plan_executed_holding :
    AsPlanned .usual (.holding (.plain .data 100 (by decide)) (.plain .data 60 (by decide))) 2
      (phlHandleXmitRingUsb .usual ⟨fun _ => true,true⟩ ⟨0,0,0,0,2⟩
        (.holding (.plain .data 100 (by decide)) (.plain .data 60 (by decide))) 0 ⟨[],[],[]⟩) ↔
    KeepsPlan .usual (.holding (.plain .data 100 (by decide)) (.plain .data 60 (by decide))) 2 :=
  plan_executed .usual true ⟨0,0,0,0,2⟩ _ 0 ⟨[],[],[]⟩ (.inl rfl) (plain_holding 100 60 (by decide) (by decide) 2)

end Rtl8852au.UsbTx
