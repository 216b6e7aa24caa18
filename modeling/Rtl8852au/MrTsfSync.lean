import Rtl8852au.MrTsf

namespace Rtl8852au.MrTsf
open List Nat Machine
variable {n : Nat}

-- The types of the station side that link in a run, and those the counters look at.
def staType : RoleType → Bool
  | .station | .p2pGc => true
  | _ => false

def staCounted : RoleType → Bool
  | .station | .p2pGc | .p2pDevice | .tdls => true
  | _ => false

def LinkedSta (s : Band n) (i : Fin n) : Prop :=
  s.roleMap i = true ∧ staType (s.roles i).type = true ∧ (s.roles i).mstate = .linked

def StartedAp (s : Band n) (i : Fin n) : Prop :=
  s.roleMap i = true ∧ apType (s.roles i).type = true ∧ (s.roles i).mstate = .linked

structure Shared (s : Band n) : Prop where
  one : s.chanctxNum = 1
  context : ∀ i, s.ctxRoleMap i = s.roleMap i
  pointer : ∀ i, s.roleMap i = true → (s.roles i).chanctx = true
  port : ∀ i, s.roleMap i = true → (s.roles i).hwPort < hwPortMax
  distinct : ∀ i j, s.roleMap i = true → s.roleMap j = true → (s.roles i).hwPort = (s.roles j).hwPort → i = j

structure Unsynced (s : Band n) : Prop where
  port : s.tsfSyncPort = hwPortMax
  apart : ∀ i, s.roleMap i = true → (s.roles i).mstate ≠ .linked

structure TsfSynced (s : Band n) : Prop where
  idle : s.tsfSyncPort = hwPortMax ↔ (¬∃ i, LinkedSta s i) ∨ ¬∃ i, StartedAp s i
  source : s.tsfSyncPort ≠ hwPortMax → ∃ i, LinkedSta s i ∧ (s.roles i).hwPort = s.tsfSyncPort
  follows : s.tsfSyncPort ≠ hwPortMax → ∀ i, StartedAp s i → s.syncSource (s.roles i).hwPort = some s.tsfSyncPort

def candidate (s : Band n) (self j : Fin n) : Prop :=
  s.ctxRoleMap j = true ∧ j ≠ self ∧ ((s.roles j).type = .station ∨ (s.roles j).type = .tdls)

def Found (s : Band n) (self : Fin n) : Prop :=
  ∃ q, LinkedSta s q ∧ q ≠ self ∧
    ((candidate s self q ∧ ∀ j, candidate s self j → q ≤ j) ∨
      ((∀ j, ¬candidate s self j) ∧ ∀ j, s.ctxRoleMap j = true → j ≤ q))

structure Proper (s : Band n) (event : Event n) : Prop where
  listed : s.roleMap event.wrole = true
  kind : match event.state with
    | .staConnEnd | .staDisConn => staType (s.roles event.wrole).type = true
    | .apStart | .apStop => apType (s.roles event.wrole).type = true
  hal : ∀ i, event.hal i = true

def SearchFits (s : Band n) (event : Event n) : Prop :=
  match event.state with
  | .staDisConn => (s.roles event.wrole).hwPort = s.tsfSyncPort → (∃ q, LinkedSta s q ∧ q ≠ event.wrole) → Found s event.wrole
  | .apStart => s.tsfSyncPort = hwPortMax → (∃ q, LinkedSta s q) → Found s event.wrole
  | _ => True

section
variable (s : Band n)

theorem searchLoop_out (self : Fin n) (l : List (Fin n)) (wr : Option (Fin n))
    (out : ∀ j ∈ l, s.ctxRoleMap j = false) : searchLoop s self true l wr = wr := by
  induction l with
  | nil => rfl
  | cons i rest ih =>
      rw [searchLoop,if_neg (by simp [out i (mem_cons_self ..)])]
      exact ih fun j later => out j (mem_cons_of_mem _ later)

theorem searchLoop_pass (self i : Fin n) (rest : List (Fin n)) (wr : Option (Fin n))
    (pass : ¬candidate s self i) :
    searchLoop s self true (i :: rest) wr = searchLoop s self true rest (if s.ctxRoleMap i then some i else wr) := by
  rw [searchLoop]
  cases listed : s.ctxRoleMap i with
  | false => rfl
  | true =>
      rw [if_pos rfl,if_pos rfl]
      by_cases same : i = self
      · rw [if_pos ⟨rfl,same⟩]
      · rw [if_neg fun both => same both.2,if_neg fun types => pass ⟨listed,same,types⟩]

theorem searchLoop_first (self q : Fin n) (l : List (Fin n)) (wr : Option (Fin n)) (sorted : l.Pairwise (· < ·))
    (listed : q ∈ l) (found : candidate s self q) (first : ∀ j, candidate s self j → q ≤ j) :
    searchLoop s self true l wr = some q := by
  induction l generalizing wr with
  | nil => cases listed
  | cons i rest ih =>
      obtain ⟨below,sorted⟩ := pairwise_cons.mp sorted
      by_cases same : i = q
      · subst same
        obtain ⟨context,apart,types⟩ := found
        rw [searchLoop,if_pos context,if_neg fun both => apart both.2,if_pos types]
      · have later := (mem_cons.mp listed).resolve_left (Ne.symm same)
        have pass : ¬candidate s self i := fun earlier => not_lt.mpr (first i earlier) (below q later)
        rw [searchLoop_pass s self i rest wr pass]
        exact ih _ sorted later

theorem searchLoop_last (self q : Fin n) (l : List (Fin n)) (wr : Option (Fin n)) (sorted : l.Pairwise (· < ·))
    (listed : q ∈ l) (context : s.ctxRoleMap q) (none : ∀ j, ¬candidate s self j)
    (last : ∀ j, s.ctxRoleMap j → j ≤ q) : searchLoop s self true l wr = some q := by
  induction l generalizing wr with
  | nil => cases listed
  | cons i rest ih =>
      obtain ⟨below,sorted⟩ := pairwise_cons.mp sorted
      rw [searchLoop_pass s self i rest wr (none i)]
      by_cases same : i = q
      · subst same
        rw [if_pos context]
        apply searchLoop_out
        intro j later
        by_contra inside
        have above := last j (by simpa using inside)
        exact not_lt.mpr above (below j later)
      · exact ih _ sorted ((mem_cons.mp listed).resolve_left (Ne.symm same))

theorem search_found (self : Fin n) (shared : Shared s) (listed : s.roleMap self) (found : Found s self) :
    ∃ q, searchLdStaWrole s self true = some q ∧ LinkedSta s q ∧ q ≠ self := by
  obtain ⟨q,linked,apart,place⟩ := found
  refine ⟨q,?_,linked,apart⟩
  have sorted : (finRange n).Pairwise (· < ·) := pairwise_lt_finRange n
  rw [searchLdStaWrole,if_pos (shared.pointer self listed)]
  rcases place with ⟨here,first⟩ | ⟨none,last⟩
  · exact searchLoop_first s self q _ _ sorted (mem_finRange q) here first
  · have context := (shared.context q).trans linked.1
    exact searchLoop_last s self q _ _ sorted (mem_finRange q) context none last

def ldSta (wr : WifiRole) : Bool := staCounted wr.type && wr.mstate == .linked
def startedAp (wr : WifiRole) : Bool := apType wr.type && wr.mstate == .linked

theorem roleInfo_ldSta (info : MrInfo) (wr : WifiRole) :
    (roleInfo info wr).ldStaNum = info.ldStaNum + if ldSta wr then 1 else 0 := by
  unfold roleInfo ldSta
  cases wr.type <;> cases mstate : wr.mstate <;> simp [staCounted,staInfo,apInfo,mstate]

theorem roleInfo_ap (info : MrInfo) (wr : WifiRole) :
    (roleInfo info wr).apNum = info.apNum + if startedAp wr then 1 else 0 := by
  unfold roleInfo startedAp
  cases wr.type <;> cases mstate : wr.mstate <;> simp [apType,staInfo,apInfo,mstate]

theorem counts_zero (field : MrInfo → Nat) (counted : WifiRole → Bool)
    (each : ∀ info wr, field (roleInfo info wr) = field info + if counted wr then 1 else 0) (l : List (Fin n)) (info : MrInfo) :
    field (l.foldl (countEach s) info) = 0 ↔
      field info = 0 ∧ ∀ i ∈ l, s.roleMap i → counted (s.roles i) = false := by
  induction l generalizing info with
  | nil => simp
  | cons i rest ih =>
      rw [foldl_cons,ih,countEach,forall_mem_cons]
      cases listed : s.roleMap i with
      | false => simp
      | true =>
          rw [if_pos rfl,each]
          cases counts : counted (s.roles i) <;> simp

theorem infoUpt_ldSta :
    (infoUpt s).curInfo.ldStaNum = 0 ↔ ∀ i, s.roleMap i → ldSta (s.roles i) = false := by
  have count := counts_zero s MrInfo.ldStaNum ldSta roleInfo_ldSta (finRange n) noInfo
  simpa [infoUpt,noInfo] using count

theorem infoUpt_ap :
    (infoUpt s).curInfo.apNum = 0 ↔ ∀ i, s.roleMap i → startedAp (s.roles i) = false := by
  have count := counts_zero s MrInfo.apNum startedAp roleInfo_ap (finRange n) noInfo
  simpa [infoUpt,noInfo] using count

section
variable (hal : Fin n → Bool) (taken : ∀ i, hal i = true)
include taken

theorem enableFold_spec (source : Fin n) (l : List (Fin n)) (s : Band n) :
    ∃ told, l.foldl (enableEach hal source) (true,s) = (true,{s with syncSource:=told}) ∧
      (∀ port, s.syncSource port = some (s.roles source).hwPort → told port = some (s.roles source).hwPort) ∧
      ∀ i ∈ l, s.ctxRoleMap i → i ≠ source → apType (s.roles i).type →
        told (s.roles i).hwPort = some (s.roles source).hwPort := by
  induction l generalizing s with
  | nil => exact ⟨s.syncSource,rfl,fun _ told => told,fun i listed => (nomatch listed)⟩
  | cons i rest ih =>
      rw [foldl_cons]
      by_cases goes : s.ctxRoleMap i ∧ i ≠ source ∧ apType (s.roles i).type
      · have one : enableEach hal source (true,s) i = (true,
            {s with syncSource:=Function.update s.syncSource (s.roles i).hwPort (some (s.roles source).hwPort)}) := by
          rw [enableEach,if_pos goes,taken i]
          rfl
        rw [one]
        obtain ⟨told,same,kept,all⟩ := ih {s with
          syncSource := Function.update s.syncSource (s.roles i).hwPort (some (s.roles source).hwPort)}
        refine ⟨told,same,?_,?_⟩
        · intro port before
          apply kept port
          by_cases here : port = (s.roles i).hwPort
          · rw [here]
            exact Function.update_self ..
          · exact (Function.update_of_ne here ..).trans before
        · intro j listed context apart kind
          cases listed with
          | head => exact kept _ (Function.update_self ..)
          | tail _ later => exact all j later context apart kind
      · have one : enableEach hal source (true,s) i = (true,s) := by rw [enableEach,if_neg goes]
        rw [one]
        obtain ⟨told,same,kept,all⟩ := ih s
        refine ⟨told,same,kept,?_⟩
        intro j listed context apart kind
        cases listed with
        | head => exact absurd ⟨context,apart,kind⟩ goes
        | tail _ later => exact all j later context apart kind

theorem enableAll_spec (source : Fin n) :
    ∃ told, (enableAll s hal source).2 = {s with syncSource:=told,tsfSyncPort:=(s.roles source).hwPort} ∧
      ∀ i, s.ctxRoleMap i → i ≠ source → apType (s.roles i).type →
        told (s.roles i).hwPort = some (s.roles source).hwPort := by
  obtain ⟨told,same,_,all⟩ := enableFold_spec hal taken source (finRange n) s
  refine ⟨told,?_,fun i => all i (mem_finRange i)⟩
  rw [enableAll,same]
  rfl

theorem disableFold_spec (port : Nat) (l : List (Fin n)) (s : Band n) :
    ∃ told, l.foldl (disableEach hal port) (true,s) = (true,{s with syncSource:=told}) := by
  induction l generalizing s with
  | nil => exact ⟨s.syncSource,rfl⟩
  | cons i rest ih =>
      rw [foldl_cons,disableEach]
      split
      · rw [taken i]
        exact ih _
      · exact ih s

theorem disableAll_spec :
    ∃ told, (disableAll true s hal).2 = {s with syncSource:=told,tsfSyncPort:=hwPortMax} := by
  obtain ⟨told,same⟩ := disableFold_spec hal taken s.tsfSyncPort (finRange n) s
  refine ⟨told,?_⟩
  rw [disableAll,same]
  rfl
end

structure Following (s : Band n) : Prop where
  shared : Shared s
  kinds : ∀ i, s.roleMap i = true → (s.roles i).mstate = .linked → staType (s.roles i).type = true ∨ apType (s.roles i).type = true
  synced : TsfSynced s

def updated (s : Band n) (r : Fin n) (mstate : MlmeState) : Band n := infoUpt (setMstate s r mstate)

theorem updated_self (r : Fin n) (mstate : MlmeState) :
    (updated s r mstate).roles r = {s.roles r with mstate} := Function.update_self ..

theorem updated_other (mstate : MlmeState) (apart : i ≠ r) : (updated s r mstate).roles i = s.roles i :=
  Function.update_of_ne apart ..

theorem updated_type (r : Fin n) (mstate : MlmeState) (i : Fin n) :
    ((updated s r mstate).roles i).type = (s.roles i).type := by
  by_cases same : i = r
  · rw [same,updated_self]
  · rw [updated_other s mstate same]

theorem updated_port (r : Fin n) (mstate : MlmeState) (i : Fin n) :
    ((updated s r mstate).roles i).hwPort = (s.roles i).hwPort := by
  by_cases same : i = r
  · rw [same,updated_self]
  · rw [updated_other s mstate same]
end

theorem updated_shared (shared : Shared s) (r : Fin n) (mstate : MlmeState) : Shared (updated s r mstate) where
  one := shared.one
  context := shared.context
  pointer := by
    intro i listed
    by_cases same : i = r
    · rw [same,updated_self]
      exact shared.pointer r (same ▸ listed)
    · rw [updated_other s mstate same]
      exact shared.pointer i listed
  port := by
    intro i listed
    rw [updated_port]
    exact shared.port i listed
  distinct := by
    intro i j first second
    rw [updated_port,updated_port]
    exact shared.distinct i j first second

theorem updated_linked (s : Band n) (mstate : MlmeState) (apart : i ≠ r) :
    LinkedSta (updated s r mstate) i ↔ LinkedSta s i := by
  unfold LinkedSta
  rw [updated_other s mstate apart]
  exact Iff.rfl

theorem updated_started (s : Band n) (mstate : MlmeState) (apart : i ≠ r) :
    StartedAp (updated s r mstate) i ↔ StartedAp s i := by
  unfold StartedAp
  rw [updated_other s mstate apart]
  exact Iff.rfl

theorem sta_not_ap (type : RoleType) (sta : staType type) : apType type = false := by cases type <;> first | rfl | cases sta

theorem updated_kinds (following : Following s) (kind : staType (s.roles r).type ∨ apType (s.roles r).type)
    (mstate : MlmeState) (i : Fin n) (listed : (updated s r mstate).roleMap i)
    (linked : ((updated s r mstate).roles i).mstate = .linked) :
    staType ((updated s r mstate).roles i).type ∨ apType ((updated s r mstate).roles i).type := by
  rw [updated_type]
  by_cases same : i = r
  · rw [same]
    exact kind
  · rw [updated_other s mstate same] at linked
    exact following.kinds i listed linked

theorem ldSta_false (wr : WifiRole) (kinds : wr.mstate = .linked → staType wr.type ∨ apType wr.type) :
    ldSta wr = false ↔ ¬(staType wr.type ∧ wr.mstate = .linked) := by
  unfold ldSta
  cases linked : wr.mstate with
  | noLink => simp
  | linking => simp
  | linked =>
      have kind := kinds linked
      generalize wr.type = type at kind
      cases type <;> simp_all [staCounted,staType,apType]

theorem startedAp_false (wr : WifiRole) : startedAp wr = false ↔ ¬(apType wr.type ∧ wr.mstate = .linked) := by
  unfold startedAp
  cases wr.mstate <;> simp

theorem counted_sta (following : Following s) (kind : staType (s.roles r).type ∨ apType (s.roles r).type)
    (mstate : MlmeState) : (updated s r mstate).curInfo.ldStaNum = 0 ↔ ¬∃ i, LinkedSta (updated s r mstate) i := by
  refine (infoUpt_ldSta (setMstate s r mstate)).trans ⟨?_,?_⟩
  · rintro none ⟨i,listed,linked⟩
    exact (ldSta_false _ (updated_kinds following kind mstate i listed)).mp (none i listed) linked
  · intro none i listed
    exact (ldSta_false _ (updated_kinds following kind mstate i listed)).mpr fun linked => none ⟨i,listed,linked⟩

theorem counted_ap (s : Band n) (r : Fin n) (mstate : MlmeState) :
    (updated s r mstate).curInfo.apNum = 0 ↔ ¬∃ i, StartedAp (updated s r mstate) i := by
  refine (infoUpt_ap (setMstate s r mstate)).trans ⟨?_,?_⟩
  · rintro none ⟨i,listed,started⟩
    exact (startedAp_false _).mp (none i listed) started
  · intro none i listed
    exact (startedAp_false _).mpr fun started => none ⟨i,listed,started⟩

-- What the calls write, and when the table follows again.
def told (s : Band n) (source : Nat → Option Nat) (port : Nat) : Band n := {s with syncSource:=source,tsfSyncPort:=port}

theorem told_following (following : Following s) (kind : staType (s.roles r).type ∨ apType (s.roles r).type)
    (mstate : MlmeState) (synced : TsfSynced (told (updated s r mstate) source port)) :
    Following (told (updated s r mstate) source port) where
  shared :=
    have shared := updated_shared following.shared r mstate
    {shared with}
  kinds := updated_kinds following kind mstate
  synced := synced

theorem told_off (u : Band n) (source : Nat → Option Nat) (off : (¬∃ i, LinkedSta u i) ∨ ¬∃ i, StartedAp u i) :
    TsfSynced (told u source hwPortMax) :=
  ⟨⟨fun _ => off,fun _ => rfl⟩,fun on => absurd rfl on,fun on => absurd rfl on⟩

theorem told_on (shared : Shared u) (source : Nat → Option Nat) (linked : LinkedSta u q) (here : (u.roles q).hwPort = port)
    (started : ∃ i, StartedAp u i) (follows : ∀ i, StartedAp u i → source (u.roles i).hwPort = some port) :
    TsfSynced (told u source port) := by
  have low := shared.port q linked.1
  rw [here] at low
  have real : port ≠ hwPortMax := by omega
  constructor
  · constructor
    · exact fun off => absurd off real
    · rintro (none | none)
      · exact absurd ⟨q,linked⟩ none
      · exact absurd started none
  · exact fun _ => ⟨q,linked,here⟩
  · exact fun _ => follows

theorem kept_off (off : s.tsfSyncPort = hwPortMax)
    (none : (¬∃ i, LinkedSta (updated s r mstate) i) ∨ ¬∃ i, StartedAp (updated s r mstate) i) :
    TsfSynced (told (updated s r mstate) source s.tsfSyncPort) := by
  rw [off]
  exact told_off _ _ none

theorem type_apart {s : Band n} (sta : staType (s.roles i).type) (ap : apType (s.roles j).type) : i ≠ j := by
  intro same
  rw [← same,sta_not_ap _ sta] at ap
  cases ap

theorem left_apart (still : ((updated s r .noLink).roles i).mstate = .linked) : i ≠ r := by
  intro same
  rw [same,updated_self] at still
  cases still

theorem left_linked (after : LinkedSta (updated s r .noLink) i) : LinkedSta s i :=
  (updated_linked s .noLink (left_apart after.2.2)).mp after

theorem left_started (after : StartedAp (updated s r .noLink) i) : StartedAp s i :=
  (updated_started s .noLink (left_apart after.2.2)).mp after

theorem left_off (synced : TsfSynced s) (off : s.tsfSyncPort = hwPortMax) :
    TsfSynced (told (updated s r .noLink) source s.tsfSyncPort) := by
  apply kept_off off
  rcases synced.idle.mp off with none | none
  · left
    rintro ⟨i,linked⟩
    exact none ⟨i,left_linked linked⟩
  · right
    rintro ⟨i,started⟩
    exact none ⟨i,left_started started⟩

theorem staConnEnd_synced (following : Following s) (listed : s.roleMap r) (sta : staType (s.roles r).type)
    (hal : Fin n → Bool) (taken : ∀ i, hal i) :
    ∃ source port, (staConnEnd (updated s r .linked) r hal).2 = told (updated s r .linked) source port ∧
      TsfSynced (told (updated s r .linked) source port) := by
  have shared := updated_shared following.shared r .linked
  have ap := counted_ap s r .linked
  have apart : ∀ i, StartedAp (updated s r .linked) i → i ≠ r := by
    rintro i ⟨_,kind,_⟩
    rw [updated_type] at kind
    exact (type_apart sta kind).symm
  have linked : LinkedSta (updated s r .linked) r := ⟨listed,by rw [updated_type]; exact sta,by rw [updated_self]⟩
  have synced := following.synced
  rw [staConnEnd,if_pos (shared.pointer r listed)]
  split
  · rename_i fresh
    obtain ⟨source,same,all⟩ := enableAll_spec (updated s r .linked) hal taken r
    refine ⟨source,_,same,?_⟩
    have started : ∃ i, StartedAp (updated s r .linked) i := by
      by_contra none
      have zero := ap.mpr none
      omega
    apply told_on shared source linked rfl started
    intro i other
    exact all i ((shared.context i).trans other.1) (apart i other) other.2.1
  · rename_i kept
    refine ⟨_,_,rfl,?_⟩
    by_cases off : s.tsfSyncPort = hwPortMax
    · have zero : (updated s r .linked).curInfo.apNum = 0 := by
        by_contra some
        exact kept ⟨by omega,off⟩
      exact kept_off off (.inr (ap.mp zero))
    · obtain ⟨q,before,here⟩ := synced.source off
      have still : LinkedSta (updated s r .linked) q := by
        by_cases same : q = r
        · rw [same]
          exact linked
        · exact (updated_linked s .linked same).mpr before
      have started : ∃ i, StartedAp s i := by
        by_contra none
        exact off (synced.idle.mpr (.inr none))
      obtain ⟨a,running⟩ := started
      have other : a ≠ r := (type_apart sta running.2.1).symm
      apply told_on shared _ still ((updated_port s r .linked q).trans here) ⟨a,(updated_started s .linked other).mpr running⟩
      intro i active
      rw [updated_port]
      exact synced.follows off i ((updated_started s .linked (apart i active)).mp active)

theorem updated_found (found : Found s r) (mstate : MlmeState) : Found (updated s r mstate) r := by
  obtain ⟨q,linked,apart,place⟩ := found
  have same : ∀ j, candidate (updated s r mstate) r j ↔ candidate s r j := by
    intro j
    unfold candidate
    rw [updated_type]
    exact Iff.rfl
  refine ⟨q,(updated_linked s mstate apart).mpr linked,apart,?_⟩
  simp only [same]
  exact place

theorem staDisConn_synced (following : Following s) (listed : s.roleMap r) (sta : staType (s.roles r).type)
    (fits : (s.roles r).hwPort = s.tsfSyncPort → (∃ q, LinkedSta s q ∧ q ≠ r) → Found s r)
    (hal : Fin n → Bool) (taken : ∀ i, hal i) :
    ∃ source port, (staDisConn (updated s r .noLink) r hal).2 = told (updated s r .noLink) source port ∧
      TsfSynced (told (updated s r .noLink) source port) := by
  have shared := updated_shared following.shared r .noLink
  have ap := counted_ap s r .noLink
  have ld := counted_sta following (.inl sta) .noLink
  have synced := following.synced
  have apart : ∀ i, StartedAp s i → i ≠ r := fun i started => (type_apart sta started.2.1).symm
  rw [staDisConn,if_pos (shared.pointer r listed)]
  by_cases off : s.tsfSyncPort = hwPortMax
  · rw [if_pos (show (updated s r .noLink).tsfSyncPort = hwPortMax from off)]
    exact ⟨_,_,rfl,left_off synced off⟩
  · rw [if_neg (show ¬(updated s r .noLink).tsfSyncPort = hwPortMax from off)]
    obtain ⟨q,before,here⟩ := synced.source off
    have running : ∃ i, StartedAp (updated s r .noLink) i := by
      by_contra none
      apply off
      apply synced.idle.mpr
      right
      rintro ⟨i,started⟩
      exact none ⟨i,(updated_started s .noLink (apart i started)).mpr started⟩
    have some : 1 ≤ (updated s r .noLink).curInfo.apNum := by
      by_contra zero
      exact ap.mp (by omega) running
    by_cases mine : (s.roles r).hwPort = s.tsfSyncPort
    · have port : ((updated s r .noLink).roles r).hwPort = (updated s r .noLink).tsfSyncPort := (updated_port s r .noLink r).trans mine
      by_cases last : (updated s r .noLink).curInfo.ldStaNum = 0
      · simp only [last,lt_irrefl,and_false,if_false,port,and_self,if_true]
        obtain ⟨source,same⟩ := disableAll_spec (updated s r .noLink) hal taken
        exact ⟨source,_,same,told_off _ _ (.inl (ld.mp last))⟩
      · have others : ∃ p, LinkedSta s p ∧ p ≠ r := by
          by_contra none
          apply last
          apply ld.mpr
          rintro ⟨i,linked⟩
          exact none ⟨i,left_linked linked,left_apart linked.2.2⟩
        obtain ⟨p,found,linked,_⟩ := search_found (updated s r .noLink) r shared listed (updated_found (fits mine others) .noLink)
        have more : 0 < (updated s r .noLink).curInfo.ldStaNum := by omega
        simp only [last,and_false,if_false,port,some,more,and_self,if_true,resync,found]
        obtain ⟨source,same,all⟩ := enableAll_spec (updated s r .noLink) hal taken p
        refine ⟨source,_,same,?_⟩
        apply told_on shared source linked rfl running
        intro i started
        have other : i ≠ p := (type_apart linked.2.1 started.2.1).symm
        exact all i ((shared.context i).trans started.1) other started.2.1
    · have port : ¬((updated s r .noLink).roles r).hwPort = (updated s r .noLink).tsfSyncPort := by
        rw [updated_port]
        exact mine
      simp only [port,false_and,if_false]
      have still : q ≠ r := fun same => mine (same ▸ here)
      refine ⟨_,_,rfl,?_⟩
      apply told_on shared _ ((updated_linked s .noLink still).mpr before) ((updated_port s r .noLink q).trans here) running
      intro i started
      rw [updated_port]
      exact synced.follows off i (left_started started)

theorem apStart_synced (following : Following s) (listed : s.roleMap r) (kind : apType (s.roles r).type)
    (fits : s.tsfSyncPort = hwPortMax → (∃ q, LinkedSta s q) → Found s r)
    (hal : Fin n → Bool) (taken : ∀ i, hal i) :
    ∃ source port, (apStart (updated s r .linked) r hal).2 = told (updated s r .linked) source port ∧
      TsfSynced (told (updated s r .linked) source port) := by
  have shared := updated_shared following.shared r .linked
  have ld := counted_sta following (.inr kind) .linked
  have synced := following.synced
  have apart : ∀ i, staType (s.roles i).type → i ≠ r := fun i sta => type_apart sta kind
  have linked : ∀ i, LinkedSta (updated s r .linked) i ↔ LinkedSta s i := by
    intro i
    by_cases same : i = r
    · constructor
      · rintro ⟨_,sta,_⟩
        rw [updated_type] at sta
        exact absurd same (apart i sta)
      · rintro ⟨_,sta,_⟩
        exact absurd same (apart i sta)
    · exact updated_linked s .linked same
  have running : ∃ i, StartedAp (updated s r .linked) i := ⟨r,listed,by rw [updated_type]; exact kind,by rw [updated_self]⟩
  rw [apStart,if_pos (shared.pointer r listed)]
  by_cases alone : (updated s r .linked).curInfo.ldStaNum = 0
  · rw [if_pos alone]
    refine ⟨_,_,rfl,?_⟩
    have none := ld.mp alone
    have off : s.tsfSyncPort = hwPortMax := by
      apply synced.idle.mpr
      left
      rintro ⟨i,before⟩
      exact none ⟨i,(linked i).mpr before⟩
    exact kept_off off (.inl none)
  · rw [if_neg alone]
    have some : ∃ i, LinkedSta s i := by
      by_contra none
      apply alone
      apply ld.mpr
      rintro ⟨i,after⟩
      exact none ⟨i,(linked i).mp after⟩
    by_cases off : s.tsfSyncPort = hwPortMax
    · rw [if_pos (show (updated s r .linked).tsfSyncPort = hwPortMax from off)]
      obtain ⟨q,found,source,_⟩ := search_found (updated s r .linked) r shared listed (updated_found (fits off some) .linked)
      simp only [found,taken r,if_true,halTsfSync]
      refine ⟨_,_,rfl,?_⟩
      apply told_on shared _ source rfl running
      intro i started
      by_cases same : i = r
      · rw [same]
        exact Function.update_self ..
      · have before := (updated_started s .linked same).mp started
        exact ((synced.idle.mp off).elim (fun none => none some) fun none => none ⟨i,before⟩).elim
    · rw [if_neg (show ¬(updated s r .linked).tsfSyncPort = hwPortMax from off)]
      obtain ⟨q,before,here⟩ := synced.source off
      simp only [taken r,if_true,halTsfSync]
      refine ⟨_,_,rfl,?_⟩
      apply told_on shared _ ((linked q).mpr before) ((updated_port s r .linked q).trans here) running
      intro i started
      by_cases same : i = r
      · rw [same]
        exact Function.update_self ..
      · have apartPort : ((updated s r .linked).roles i).hwPort ≠ ((updated s r .linked).roles r).hwPort := fun equal =>
          same (shared.distinct i r started.1 listed equal)
        rw [Function.update_of_ne apartPort,updated_port]
        exact synced.follows off i ((updated_started s .linked same).mp started)

theorem apStop_synced (following : Following s) (listed : s.roleMap r) (kind : apType (s.roles r).type)
    (hal : Fin n → Bool) (taken : ∀ i, hal i) :
    ∃ source port, (apStop (updated s r .noLink) r hal).2 = told (updated s r .noLink) source port ∧
      TsfSynced (told (updated s r .noLink) source port) := by
  have shared := updated_shared following.shared r .noLink
  have ap := counted_ap s r .noLink
  have synced := following.synced
  have apart : ∀ i, staType (s.roles i).type → i ≠ r := fun i sta => type_apart sta kind
  rw [apStop]
  by_cases off : s.tsfSyncPort = hwPortMax
  · rw [if_pos (show (updated s r .noLink).tsfSyncPort = hwPortMax from off)]
    exact ⟨_,_,rfl,left_off synced off⟩
  · rw [if_neg (show ¬(updated s r .noLink).tsfSyncPort = hwPortMax from off)]
    obtain ⟨q,before,here⟩ := synced.source off
    simp only [taken r,if_true,halTsfSync]
    by_cases last : (updated s r .noLink).curInfo.apNum = 0
    · rw [if_pos last]
      exact ⟨_,_,rfl,told_off _ _ (.inr (ap.mp last))⟩
    · rw [if_neg last]
      have running : ∃ i, StartedAp (updated s r .noLink) i := by
        by_contra none
        exact last (ap.mpr none)
      refine ⟨_,_,rfl,?_⟩
      have still := apart q before.2.1
      apply told_on shared _ ((updated_linked s .noLink still).mpr before) ((updated_port s r .noLink q).trans here) running
      intro i started
      have same := left_apart started.2.2
      have apartPort : ((updated s r .noLink).roles i).hwPort ≠ ((updated s r .noLink).roles r).hwPort := fun equal =>
        same (shared.distinct i r started.1 listed equal)
      rw [Function.update_of_ne apartPort,updated_port]
      exact synced.follows off i (left_started started)

theorem Proper.kinds (proper : Proper s event) :
    staType (s.roles event.wrole).type ∨ apType (s.roles event.wrole).type := by
  obtain ⟨r,state,hal⟩ := event
  have kind := proper.kind
  cases state with
  | staConnEnd => exact .inl kind
  | staDisConn => exact .inl kind
  | apStart => exact .inr kind
  | apStop => exact .inr kind

theorem step_following (following : Following s) (event : Event n) (proper : Proper s event) (fits : SearchFits s event) :
    Following (step s event) := by
  have kinds := proper.kinds
  obtain ⟨r,state,hal⟩ := event
  obtain ⟨listed,kind,taken⟩ := proper
  have single : ¬1 < (infoUpt (setMstate s r state.mstate)).chanctxNum := by
    have one : (infoUpt (setMstate s r state.mstate)).chanctxNum = 1 := following.shared.one
    omega
  unfold step tsfSync
  rw [if_neg single]
  cases state with
  | staConnEnd =>
      obtain ⟨source,port,same,synced⟩ := staConnEnd_synced following listed kind hal taken
      exact same ▸ told_following following kinds .linked synced
  | staDisConn =>
      obtain ⟨source,port,same,synced⟩ := staDisConn_synced following listed kind fits hal taken
      exact same ▸ told_following following kinds .noLink synced
  | apStart =>
      obtain ⟨source,port,same,synced⟩ := apStart_synced following listed kind fits hal taken
      exact same ▸ told_following following kinds .linked synced
  | apStop =>
      obtain ⟨source,port,same,synced⟩ := apStop_synced following listed kind hal taken
      exact same ▸ told_following following kinds .noLink synced

theorem origin_following (shared : Shared origin) (unsynced : Unsynced origin) : Following origin where
  shared := shared
  kinds := fun i listed linked => absurd linked (unsynced.apart i listed)
  synced := by
    have none : ¬∃ i, LinkedSta origin i := fun ⟨i,listed,_,linked⟩ => unsynced.apart i listed linked
    exact ⟨⟨fun _ => .inl none,fun _ => unsynced.port⟩,fun on => absurd unsynced.port on,fun on => absurd unsynced.port on⟩

theorem tsf_sync_follows (shared : Shared origin) (unsynced : Unsynced origin)
    (path : Machine.Reached step (fun s event => Proper s event ∧ SearchFits s event) origin s) : TsfSynced s := by
  have following := path.invariant Following (origin_following shared unsynced)
    fun s event before allowed => step_following before event allowed.1 allowed.2
  exact following.synced

def idleRole (type : RoleType) (hwPort : Nat) : WifiRole := ⟨type,.noLink,hwPort,0,true⟩

def trio (type : RoleType) : Band 3 where
  roles := fun i => idleRole (if i = 2 then .ap else type) i.val
  roleMap := fun _ => true
  ctxRoleMap := fun _ => true
  chanctxNum := 1
  mccSup := true
  curInfo := noInfo
  opMode := .scc
  opType := .none
  tsfSyncPort := hwPortMax
  syncSource := fun _ => none

theorem trio_shared (type : RoleType) : Shared (trio type) where
  one := rfl
  context := fun _ => rfl
  pointer := fun _ _ => rfl
  port := fun i _ => lt_trans i.isLt (by decide)
  distinct := fun _ _ _ _ same => Fin.ext same

theorem trio_unsynced (type : RoleType) : Unsynced (trio type) := ⟨rfl,fun _ _ linked => (nomatch linked)⟩
def allTaken : Fin 3 → Bool := fun _ => true

def sourceLeaves : List (Event 3) :=
  [⟨2,.apStart,allTaken⟩,⟨0,.staConnEnd,allTaken⟩,⟨1,.staConnEnd,allTaken⟩,⟨0,.staDisConn,allTaken⟩]

theorem tsf_sync_follows_stations : TsfSynced (Machine.run step (trio .station) sourceLeaves) ∧
    (Machine.run step (trio .station) sourceLeaves).tsfSyncPort = 1 := by
  refine ⟨tsf_sync_follows (trio_shared .station) (trio_unsynced .station) (Machine.Reached.start.run ?_),by decide⟩
  refine ⟨⟨⟨rfl,rfl,fun _ => rfl⟩,?_⟩,⟨⟨rfl,rfl,fun _ => rfl⟩,trivial⟩,⟨⟨rfl,rfl,fun _ => rfl⟩,trivial⟩,
    ⟨⟨rfl,rfl,fun _ => rfl⟩,?_⟩,trivial⟩
  · rintro _ ⟨q,_,_,linked⟩
    cases linked
  · intro _ _
    refine ⟨1,⟨rfl,rfl,rfl⟩,by decide,.inl ⟨⟨rfl,by decide,.inl rfl⟩,?_⟩⟩
    rintro j ⟨_,apart,_⟩
    change j ≠ 0 at apart
    omega

-- The search does not look at P2P clients: the port of the AP itself becomes the source.
theorem tsf_sync_lost_clients : ∃ s, Machine.Reached step Proper (trio .p2pGc) s ∧ Shared (trio .p2pGc) ∧
    Unsynced (trio .p2pGc) ∧ ¬TsfSynced s := by
  refine ⟨run step (trio .p2pGc) sourceLeaves,Machine.Reached.start.run ?_,trio_shared _,trio_unsynced _,?_⟩
  · exact ⟨⟨rfl,rfl,fun _ => rfl⟩,⟨rfl,rfl,fun _ => rfl⟩,⟨rfl,rfl,fun _ => rfl⟩,⟨rfl,rfl,fun _ => rfl⟩,trivial⟩
  · intro synced
    have port : (run step (trio .p2pGc) sourceLeaves).tsfSyncPort = 2 := by decide
    obtain ⟨i,⟨_,sta,_⟩,here⟩ := synced.source (by rw [port]; decide)
    rw [port] at here
    have ap : ∀ i, ((run step (trio .p2pGc) sourceLeaves).roles i).hwPort = 2 →
        staType ((run step (trio .p2pGc) sourceLeaves).roles i).type = false := by decide
    cases (ap i here).symm.trans sta
end Rtl8852au.MrTsf
