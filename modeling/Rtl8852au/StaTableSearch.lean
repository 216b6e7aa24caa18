import Rtl8852au.StaTablePlaced

namespace Rtl8852au.Sta
open Function Nat List Option Bool
open Machine (Reached Admitted run)
open Role (MacAddr)
variable {threads : Nat} {id other : Nat} {addr : MacAddr} {p p' : Phl}

def building (call : Option Call) (sta : StaIdx) : Bool :=
  match call with
  | some (.alloc other _) => other == sta
  | _ => false

def listing (call : Option Call) (sta : StaIdx) : Bool :=
  match call with
  | some (.release other .listed _) => other == sta
  | _ => false

def sparing : Option Call → Option (StaIdx × Nat)
  | some (.found kept) => kept
  | some (.counted kept) => kept
  | _ => none

def swept : Option Call → Option Sweep
  | some (.release _ _ rest) => rest
  | some (.sweep left) => some left
  | _ => none

def phlServes (type : RoleType) (p : Phl) (addr : MacAddr) (answer : PhlAnswer) : Bool :=
  match phlExisting type p addr with
  | some id => (p.sta id).active || answer.hal
  | none =>
    match p.freeStaQueue with
    | [] => false
    | id :: _ => (phlUnusedMacid p).isSome && ((p.sta id).active || answer.hal)

def CarefulCall (s : StaPriv threads) (answer : PhlAnswer) : Call → Prop
  | .alloc _ addr =>
    phlServes s.roleType s.phl addr answer ∧
    (∀ sta, ∀ id ∈ s.phlSta sta, (s.phl.sta id).macAddr ≠ addr) ∧
    (s.roleType = .station → ∀ sta, (s.phlSta sta).isSome → s.phlSta sta ≠ phlGetStainfoSelf s.phl)
  | .found kept => s.asocStaCount = 1 → (∃ index, ∃ sta ∈ s.staHash index, spared kept sta) ∨ ∀ index, s.staHash index = []
  | .counted _ => ∀ t sta, building (s.calls t) sta = false
  | .release _ _ _ => True
  | .sweep _ => True

def Careful (s : StaPriv threads) : Event threads → Prop
  | .alloc _ addr =>
    isMcast addr = false ∧ ∀ sta ∈ s.freeStaQueue.head?,
      ∀ t, listing (s.calls t) sta = false ∧ spared (sparing (s.calls t)) sta = false
  | .free _ sta => (∃ index, sta ∈ s.staHash index) ∧ ∀ t, building (s.calls t) sta = false
  | .freeAll _ => True
  | .resume t answer => ∀ call ∈ s.calls t, CarefulCall s answer call
  | .changeType type => ∀ index, ∀ sta ∈ s.staHash index, staIndex type s.macAddr (s.hwaddr sta) = index

instance (s : StaPriv threads) (answer : PhlAnswer) : (call : Call) → Decidable (CarefulCall s answer call)
  | .alloc _ _ => inferInstanceAs (Decidable (_ ∧ _ ∧ _))
  | .found _ => inferInstanceAs (Decidable (_ → _ ∨ _))
  | .counted _ => inferInstanceAs (Decidable (∀ t sta, building (s.calls t) sta = false))
  | .release _ _ _ => isTrue trivial
  | .sweep _ => isTrue trivial

instance (s : StaPriv threads) : (event : Event threads) → Decidable (Careful s event)
  | .alloc _ _ => inferInstanceAs (Decidable (_ ∧ _))
  | .free _ _ => inferInstanceAs (Decidable (_ ∧ _))
  | .freeAll _ => isTrue trivial
  | .resume t answer => inferInstanceAs (Decidable (∀ call ∈ s.calls t, CarefulCall s answer call))
  | .changeType type => inferInstanceAs (Decidable (∀ index, ∀ sta ∈ s.staHash index, staIndex type s.macAddr (s.hwaddr sta) = index))

def Phl.Sound (p : Phl) : Prop := (p.assocStaQueue ++ p.freeStaQueue).Nodup

structure Given (type : RoleType) (p : Phl) (addr : MacAddr) (p' : Phl) (id : Nat) : Prop where
  mac : (p'.sta id).macAddr = addr
  others : ∀ other, other ≠ id → (p'.sta other).macAddr = (p.sta other).macAddr
  queues : (id ∈ p.assocStaQueue ∧ p'.assocStaQueue = p.assocStaQueue ∧ p'.freeStaQueue = p.freeStaQueue ∧
      (type = .station ∧ phlGetStainfoSelf p = some id ∨ (p.sta id).macAddr = addr)) ∨
    (p.freeStaQueue = id :: p'.freeStaQueue ∧ p'.assocStaQueue = p.assocStaQueue ++ [id])

@[simp] theorem setMac_same (p : Phl) (id : Nat) (addr : MacAddr) : ((p.setMac id addr).sta id).macAddr = addr := by
  simp [Phl.setMac,Phl.onSta]

@[simp] theorem setMac_other (p : Phl) (addr : MacAddr) (apart : other ≠ id) : (p.setMac id addr).sta other = p.sta other := by
  simp [Phl.setMac,Phl.onSta,apart]

theorem onSta_kept (field : PhlSta → β) (p : Phl) (id : Nat) (change : PhlSta → PhlSta)
    (same : ∀ sta, field (change sta) = field sta) (other : Nat) :
    field ((p.onSta id change).sta other) = field (p.sta other) := by
  unfold Phl.onSta
  dsimp only
  by_cases here : other = id
  · subst here; rw [update_self]; exact same _
  · rw [update_of_ne here]

theorem phlAllocMacid_gives (id : Nat) (room : (phlUnusedMacid p).isSome) :
    ∃ p', phlAllocMacid p id = (p',true) ∧ p'.freeStaQueue = p.freeStaQueue ∧ p'.assocStaQueue = p.assocStaQueue ∧
      (∀ other, (p'.sta other).macAddr = (p.sta other).macAddr) ∧ ∀ other, (p'.sta other).active = (p.sta other).active := by
  obtain ⟨mid,found⟩ := isSome_iff_exists.mp room
  unfold phlAllocMacid
  rw [found]
  refine ⟨_,rfl,rfl,rfl,?_,?_⟩
  · exact onSta_kept PhlSta.macAddr p id (fun sta => {sta with macid:=mid}) (fun _ => rfl)
  · exact onSta_kept PhlSta.active p id (fun sta => {sta with macid:=mid}) (fun _ => rfl)

theorem phlReleaseMacid_keeps (p : Phl) (id : Nat) :
    (phlReleaseMacid p id).assocStaQueue = p.assocStaQueue ∧ (phlReleaseMacid p id).freeStaQueue = p.freeStaQueue ∧
      (∀ other, ((phlReleaseMacid p id).sta other).macAddr = (p.sta other).macAddr) ∧
      ∀ other, ((phlReleaseMacid p id).sta other).active = (p.sta other).active := by
  unfold phlReleaseMacid
  dsimp only
  split
  · exact ⟨rfl,rfl,onSta_kept PhlSta.macAddr _ _ _ (fun _ => rfl),onSta_kept PhlSta.active _ _ _ (fun _ => rfl)⟩
  · exact ⟨rfl,rfl,onSta_kept PhlSta.macAddr _ _ _ (fun _ => rfl),onSta_kept PhlSta.active _ _ _ (fun _ => rfl)⟩

theorem phlExisting_member (unicast : addr ≠ bcAddr) (found : phlExisting type p addr = some id) :
    id ∈ p.assocStaQueue ∧
      (type = .station ∧ phlGetStainfoSelf p = some id ∨ (p.sta id).macAddr = addr ∧ ¬(type = .station ∧ (phlGetStainfoSelf p).isSome)) := by
  have byAddr : phlGetStainfoByAddr p addr = some id → id ∈ p.assocStaQueue ∧ (p.sta id).macAddr = addr := by
    intro got
    unfold phlGetStainfoByAddr at got
    rw [if_neg unicast] at got
    exact ⟨mem_of_find?_eq_some got,by simpa using find?_some got⟩
  unfold phlExisting at found
  split at found
  · rename_i client
    cases self : phlGetStainfoSelf p with
    | some first =>
      rw [self] at found
      obtain rfl := some.inj found
      exact ⟨mem_of_mem_head? self,Or.inl ⟨client.1,rfl⟩⟩
    | none =>
      rw [self] at found
      obtain ⟨member,mac⟩ := byAddr found
      exact ⟨member,Or.inr ⟨mac,by simp⟩⟩
  · rename_i other
    obtain ⟨member,mac⟩ := byAddr found
    exact ⟨member,Or.inr ⟨mac,fun client => other ⟨client.1,unicast⟩⟩⟩

theorem phlAlloc_gives (self : MacAddr) (unicast : addr ≠ bcAddr) (serves : phlServes type p addr answer) :
    ∃ p' id, phlAllocStainfo type self p addr answer = (p',some id) ∧ Given type p addr p' id := by
  -- the hardware half only sets the station active
  have finish : ∀ q id, phlAllocStainfoSw type p addr answer = (q,some id) → ((q.sta id).active || answer.hal) →
      Given type p addr q id → ∃ p' id, phlAllocStainfo type self p addr answer = (p',some id) ∧ Given type p addr p' id := by
    intro q id soft hal given
    unfold phlAllocStainfo
    rw [soft]
    dsimp only
    cases active : (q.sta id).active with
    | true => exact ⟨q,id,rfl,given⟩
    | false =>
      rw [active,Bool.false_or] at hal
      rw [hal]
      have macs := onSta_kept PhlSta.macAddr q id (fun sta => {sta with active:=true}) (fun _ => rfl)
      exact ⟨_,id,rfl,(macs id).trans given.mac,fun other apart => (macs other).trans (given.others other apart),given.queues⟩
  unfold phlServes at serves
  cases existing : phlExisting type p addr with
  | some id =>
    rw [existing] at serves
    obtain ⟨member,client⟩ := phlExisting_member unicast existing
    by_cases mode : type = .station ∧ (phlGetStainfoSelf p).isSome
    · have first : type = .station ∧ phlGetStainfoSelf p = some id := by
        rcases client with first | other
        · exact first
        · exact absurd mode other.2
      refine finish (p.setMac id addr) id ?_ (by simpa [Phl.setMac,Phl.onSta] using serves) ⟨?_,?_,?_⟩
      · unfold phlAllocStainfoSw
        rw [existing]
        exact if_pos ⟨mode.1,unicast,mode.2⟩
      · exact setMac_same p id addr
      · intro other apart; rw [setMac_other p addr apart]
      · exact Or.inl ⟨member,rfl,rfl,Or.inl first⟩
    · have known : (p.sta id).macAddr = addr := by
        rcases client with first | other
        · exact absurd ⟨first.1,by rw [first.2]; rfl⟩ mode
        · exact other.1
      refine finish p id ?_ serves ⟨known,fun _ _ => rfl,Or.inl ⟨member,rfl,rfl,Or.inr known⟩⟩
      unfold phlAllocStainfoSw
      rw [existing]
      exact if_neg (fun all => mode ⟨all.1,all.2.2⟩)
  | none =>
    rw [existing] at serves
    cases free : p.freeStaQueue with
    | nil => simp [free] at serves
    | cons id rest =>
      simp only [free,and_eq_true] at serves
      obtain ⟨room,hal⟩ := serves
      obtain ⟨taken,numbered,takenFree,takenAssoc,takenMacs,takenActives⟩ :=
        phlAllocMacid_gives id (p := {p with freeStaQueue:=rest}.setMac id addr) room
      obtain ⟨q,ready,sameFree,sameAssoc,macs,actives⟩ : ∃ q, (if answer.ring then taken else phlReleaseMacid taken id) = q ∧
          q.freeStaQueue = rest ∧ q.assocStaQueue = p.assocStaQueue ∧
          (∀ other, (q.sta other).macAddr = (({p with freeStaQueue:=rest}.setMac id addr).sta other).macAddr) ∧
          ∀ other, (q.sta other).active = (({p with freeStaQueue:=rest}.setMac id addr).sta other).active := by
        refine ⟨_,rfl,?_⟩
        split
        · exact ⟨takenFree,takenAssoc,takenMacs,takenActives⟩
        · obtain ⟨backAssoc,backFree,backMacs,backActives⟩ := phlReleaseMacid_keeps taken id
          exact ⟨backFree.trans takenFree,backAssoc.trans takenAssoc,fun other => (backMacs other).trans (takenMacs other),
            fun other => (backActives other).trans (takenActives other)⟩
      refine finish {q with assocStaQueue:=q.assocStaQueue ++ [id]} id ?_ ?_ ⟨?_,?_,?_⟩
      · unfold phlAllocStainfoSw
        rw [existing]
        rw [free]
        dsimp only
        rw [numbered]
        dsimp only
        rw [ready]
      · have same := actives id
        rw [same]
        simpa [Phl.setMac,Phl.onSta] using hal
      · exact (macs id).trans (setMac_same _ _ _)
      · intro other apart
        exact (macs other).trans (by rw [setMac_other _ _ apart])
      · right
        rw [sameFree,sameAssoc]
        exact ⟨free,rfl⟩

theorem Given.sound (given : Given type p addr p' id) (sound : p.Sound) : p'.Sound := by
  unfold Phl.Sound at *
  rcases given.queues with ⟨_,assoc,free,_⟩ | ⟨free,assoc⟩
  · rwa [assoc,free]
  · rw [free] at sound
    rw [assoc,append_assoc]
    exact sound

structure Returned (p p' : Phl) (id : Nat) : Prop where
  others : ∀ other, other ≠ id → (p'.sta other).macAddr = (p.sta other).macAddr
  queues : (p'.assocStaQueue = p.assocStaQueue ∧ p'.freeStaQueue = p.freeStaQueue) ∨
    (p'.assocStaQueue = p.assocStaQueue.erase id ∧ p'.freeStaQueue = p.freeStaQueue ++ [id])

section
variable (type : RoleType) (self : MacAddr) (p : Phl) (id : Nat)

theorem phlSelfChecked_keeps :
    (phlSelfChecked type self p id).1.assocStaQueue = p.assocStaQueue ∧
    (phlSelfChecked type self p id).1.freeStaQueue = p.freeStaQueue ∧
      ∀ other, other ≠ id → ((phlSelfChecked type self p id).1.sta other).macAddr = (p.sta other).macAddr := by
  unfold phlSelfChecked phlSelfStainfoChk
  split
  · exact ⟨rfl,rfl,fun _ _ => rfl⟩
  · cases type <;> first
      | exact ⟨rfl,rfl,fun _ _ => rfl⟩
      | exact ⟨rfl,rfl,fun other apart => by rw [setMac_other p self apart]⟩

theorem phlFree_returns :
    Returned p (phlFreeStainfo type self p id) id := by
  have hard : (phlFreeStainfoHw type self p id).assocStaQueue = p.assocStaQueue ∧ (phlFreeStainfoHw type self p id).freeStaQueue = p.freeStaQueue ∧
      ∀ other, other ≠ id → ((phlFreeStainfoHw type self p id).sta other).macAddr = (p.sta other).macAddr := by
    have checked := phlSelfChecked_keeps type self p id
    unfold phlFreeStainfoHw
    split <;> rename_i got <;> rw [got] at checked
    · exact checked
    · exact ⟨checked.1,checked.2.1,fun other apart =>
        (onSta_kept PhlSta.macAddr _ id (fun sta => {sta with active:=false}) (fun _ => rfl) other).trans (checked.2.2 other apart)⟩
  unfold phlFreeStainfo
  generalize phlFreeStainfoHw type self p id = q at hard
  obtain ⟨assoc,free,macs⟩ := hard
  have checked := phlSelfChecked_keeps type self q id
  unfold phlFreeStainfoSw
  split <;> rename_i got <;> rw [got] at checked
  · exact ⟨fun other apart => (checked.2.2 other apart).trans (macs other apart),Or.inl ⟨checked.1.trans assoc,checked.2.1.trans free⟩⟩
  · rename_i kept
    obtain ⟨assoc',free',macs',_⟩ := phlReleaseMacid_keeps {kept with assocStaQueue:=kept.assocStaQueue.erase id} id
    constructor
    · intro other apart
      exact (macs' other).trans ((checked.2.2 other apart).trans (macs other apart))
    · right
      dsimp only at assoc' free' ⊢
      rw [assoc',free',checked.1,checked.2.1,assoc,free]
      exact ⟨rfl,rfl⟩
end

theorem Returned.sound (back : Returned p p' id) (sound : p.Sound) (member : id ∈ p.assocStaQueue) : p'.Sound := by
  unfold Phl.Sound at *
  rcases back.queues with ⟨assoc,free⟩ | ⟨assoc,free⟩
  · rwa [assoc,free]
  · rw [assoc,free]
    have front : (p.assocStaQueue.erase id ++ p.freeStaQueue ++ [id]).Perm (id :: (p.assocStaQueue.erase id ++ p.freeStaQueue)) :=
      perm_append_singleton id _
    have moved := front.trans ((perm_cons_erase member).symm.append_right p.freeStaQueue)
    rw [← append_assoc]
    exact moved.nodup_iff.mpr sound

structure Linked (s : StaPriv threads) : Prop where
  sound : s.phl.Sound
  inAssoc : ∀ sta id, s.phlSta sta = some id → id ∈ s.phl.assocStaQueue
  apart : ∀ one two id, s.phlSta one = some id → s.phlSta two = some id → one = two
  address : ∀ sta id, s.phlSta sta = some id → (s.phl.sta id).macAddr = s.hwaddr sta
  single : ∀ one two, (s.phlSta one).isSome → (s.phlSta two).isSome → s.hwaddr one = s.hwaddr two → one = two

structure Chained (s : StaPriv threads) : Prop where
  unicast : ∀ index, ∀ sta ∈ s.staHash index, isMcast (s.hwaddr sta) = false
  indexed : ∀ index, ∀ sta ∈ s.staHash index, staIndex s.roleType s.macAddr (s.hwaddr sta) = index
  linked : ∀ index, ∀ sta ∈ s.staHash index, (s.phlSta sta).isSome ∨ ∃ t, building (s.calls t) sta

def SweptOk (s : StaPriv threads) (left : Sweep) : Prop :=
  left.since ≤ s.uses ∧ ∀ index, ∀ sta ∈ s.staHash index, left.kept = some (sta,s.born sta) ∨ left.since ≤ s.born sta

def CallOk (s : StaPriv threads) : Call → Prop
  | .alloc sta addr => (∃ index, sta ∈ s.staHash index) ∧ s.hwaddr sta = addr ∧ s.phlSta sta = none
  | .release _ .unhashed rest => ∀ left, rest = some left → SweptOk s left
  | .release sta .listed rest => sta ∈ s.freeStaQueue ∧ ∀ left, rest = some left → SweptOk s left
  | .found kept => ∀ sta use, kept = some (sta,use) → s.born sta = use
  | .counted kept => ∀ sta use, kept = some (sta,use) → s.born sta = use
  | .sweep left => SweptOk s left

structure Calling (s : StaPriv threads) : Prop where
  calls : ∀ t call, s.calls t = some call → CallOk s call
  builder : ∀ t t' sta, building (s.calls t) sta → building (s.calls t') sta → t = t'
  freed : ∀ sta ∈ s.freeStaQueue, s.phlSta sta = none ∨ ∃ t, listing (s.calls t) sta

structure Kept (s : StaPriv threads) : Prop extends Placed s, Linked s, Chained s, Calling s

theorem Placed.free_not_hashed (placed : Placed s) (free : sta ∈ s.freeStaQueue) : sta ∉ s.staHash index := by
  intro there
  have once := placed.once sta
  have one : 0 < s.freeStaQueue.count sta := count_pos_iff.mpr free
  have two : 0 < hashed s.staHash sta := hashed_pos.mpr ⟨index,there⟩
  omega

theorem mark_update (held : Option Call → Bool) {calls : Fin threads → Option Call} (still : held (calls t) → held call)
    (some : ∃ t', held (calls t')) : ∃ t', held (update calls t call t') := by
  obtain ⟨t',holds⟩ := some
  by_cases same : t' = t
  · subst same
    exact ⟨t',by rw [update_self]; exact still holds⟩
  · exact ⟨t',by rw [update_of_ne same]; exact holds⟩

theorem Kept.linked_update (kept : Kept s) (there : sta ∈ s.staHash index) (still : building (s.calls t) sta → building call sta) :
    (s.phlSta sta).isSome ∨ ∃ t', building (update s.calls t call t') sta :=
  (kept.linked index sta there).imp_right (mark_update (building · sta) still)

theorem Kept.freed_update (kept : Kept s) (free : sta ∈ s.freeStaQueue) (still : listing (s.calls t) sta → listing call sta) :
    s.phlSta sta = none ∨ ∃ t', listing (update s.calls t call t') sta :=
  (kept.freed sta free).imp_right (mark_update (listing · sta) still)

theorem alloc_builds {s : StaPriv threads} (call : s.calls t = some (.alloc sta addr)) : building (s.calls t) sta := by
  rw [call]
  simp [building]

theorem builder_update {calls : Fin threads → Option Call}
    (one : ∀ t t' sta, building (calls t) sta → building (calls t') sta → t = t')
    (fresh : ∀ sta, building call sta → ∀ t', building (calls t') sta = false) :
    ∀ t1 t2 sta, building (update calls t call t1) sta → building (update calls t call t2) sta →
    t1 = t2 := by
  intro t1 t2 sta first second
  by_cases one1 : t1 = t <;> by_cases one2 : t2 = t
  · rw [one1,one2]
  · rw [one1,update_self] at first
    rw [update_of_ne one2,fresh sta first t2] at second
    cases second
  · rw [one2,update_self] at second
    rw [update_of_ne one1,fresh sta second t1] at first
    cases first
  · rw [update_of_ne one1] at first
    rw [update_of_ne one2] at second
    exact one t1 t2 sta first second

theorem calls_update {s s' : StaPriv threads} {call : Option Call} (here : ∀ c, call = some c → CallOk s' c)
    (others : ∀ t' c, t' ≠ t → s.calls t' = some c → CallOk s' c) :
    ∀ t' c, update s.calls t call t' = some c → CallOk s' c := by
  intro t' c got
  by_cases same : t' = t
  · rw [same,update_self] at got; exact here c got
  · rw [update_of_ne same] at got; exact others t' c same got

theorem Kept.setCall (kept : Kept s) (ok : ∀ c, call = some c → CallOk s c)
    (hand : handOf call = handOf (s.calls t)) (owe : owedOf call = owedOf (s.calls t))
    (build : ∀ sta, building call sta = building (s.calls t) sta) (list : ∀ sta, listing call sta = listing (s.calls t) sta) :
    Kept (s.setCall t call) where
  toPlaced := kept.toPlaced.setCall t call hand owe
  toLinked := {kept with}
  toChained := by
    refine ⟨kept.unicast,kept.indexed,?_⟩
    intro index sta there
    exact kept.linked_update there (fun now => (build sta).trans now)
  toCalling := by
    refine ⟨calls_update ok fun t' c _ got => kept.calls t' c got,?_,?_⟩
    · intro t1 t2 sta first second
      have still : ∀ t', building (update s.calls t call t') sta = building (s.calls t') sta := by
        intro t'
        by_cases same : t' = t
        · rw [same,update_self,build]
        · rw [update_of_ne same]
      exact kept.builder t1 t2 sta ((still t1).symm.trans first) ((still t2).symm.trans second)
    · intro sta free
      exact kept.freed_update free (fun now => (list sta).trans now)

theorem callOk_shrink {s s' : StaPriv threads} (ok : CallOk s c) (chains : ∀ index, ∀ sta ∈ s'.staHash index, sta ∈ s.staHash index)
    (build : ∀ sta addr, c = .alloc sta addr → ∃ index, sta ∈ s'.staHash index)
    (free : ∀ sta ∈ s.freeStaQueue, sta ∈ s'.freeStaQueue) (none : ∀ sta, s.phlSta sta = none → s'.phlSta sta = none)
    (addr : s'.hwaddr = s.hwaddr) (born : s'.born = s.born) (uses : s'.uses = s.uses) : CallOk s' c := by
  have swept : ∀ left, SweptOk s left → SweptOk s' left := by
    rintro left ⟨since,cleared⟩
    refine ⟨uses ▸ since,?_⟩
    intro index sta there
    rw [born]
    exact cleared index sta (chains index sta there)
  cases c with
  | alloc sta mac => exact ⟨build sta mac rfl,by rw [addr]; exact ok.2.1,none sta ok.2.2⟩
  | release sta stage rest =>
    cases stage with
    | unhashed => exact fun left is => swept left (ok left is)
    | listed => exact ⟨free sta ok.1,fun left is => swept left (ok.2 left is)⟩
  | found kept => exact fun sta use is => by rw [born]; exact ok sta use is
  | counted kept => exact fun sta use is => by rw [born]; exact ok sta use is
  | sweep left => exact swept left ok

theorem erase_keeps {chains : StaIdx → List StaIdx} (apart : one ≠ sta) (there : ∃ index, one ∈ chains index) :
    ∃ index, one ∈ (chains index).erase sta := by
  obtain ⟨index,member⟩ := there
  exact ⟨index,(mem_erase_of_ne apart).mpr member⟩

theorem Kept.unhash (kept : Kept s) (idle : ∀ sta, building (s.calls t) sta = false ∧ listing (s.calls t) sta = false)
    (quiet : ∀ t', building (s.calls t') sta = false) (rest : Option Sweep) (ok : ∀ left, rest = some left → SweptOk s left)
    (placed : Placed (rtwFreeStainfo s t sta rest)) : Kept (rtwFreeStainfo s t sta rest) where
  toPlaced := placed
  toLinked := {kept with}
  toChained := by
    refine ⟨?_,?_,?_⟩
    · intro index one there; exact kept.unicast index one (mem_of_mem_erase there)
    · intro index one there; exact kept.indexed index one (mem_of_mem_erase there)
    · intro index one there
      exact kept.linked_update (mem_of_mem_erase there) (fun now => absurd ((idle one).1.symm.trans now) false_ne_true)
  toCalling := by
    have chains : ∀ index, ∀ one ∈ (s.staHash index).erase sta, one ∈ s.staHash index := fun _ _ there => mem_of_mem_erase there
    refine ⟨calls_update ?_ ?_,builder_update kept.builder (by simp [building]),?_⟩
    · intro c is
      obtain rfl := some.inj is
      intro left swept
      obtain ⟨since,cleared⟩ := ok left swept
      exact ⟨since,fun index one there => cleared index one (chains index one there)⟩
    · intro t' c _ got
      refine callOk_shrink (kept.calls t' c got) chains ?_ (fun _ free => free) (fun _ none => none) rfl rfl rfl
      rintro one addr rfl
      apply erase_keeps _ (kept.calls t' _ got).1
      rintro rfl
      exact absurd ((quiet t').symm.trans (alloc_builds got)) false_ne_true
    · intro one free
      exact kept.freed_update free (fun now => absurd ((idle one).2.symm.trans now) false_ne_true)

theorem Kept.relist (kept : Kept s) (call : s.calls t = some (.release sta .unhashed rest)) :
    Kept (rtwRelistStainfo s t sta rest) where
  toPlaced := kept.toPlaced.relist call
  toLinked := {kept with}
  toChained := by
    refine ⟨kept.unicast,kept.indexed,?_⟩
    intro index one there
    exact kept.linked_update there (by simp [call,building])
  toCalling := by
    refine ⟨calls_update ?_ ?_,builder_update kept.builder (by simp [building]),?_⟩
    · rintro c is
      obtain rfl := some.inj is
      exact ⟨mem_append_right _ mem_cons_self,fun left is => kept.calls t _ call left is⟩
    · intro t' c _ got
      refine callOk_shrink (kept.calls t' c got) (fun _ _ there => there) ?_ (fun _ free => mem_append_left _ free) (fun _ none => none) rfl rfl rfl
      rintro one addr rfl
      exact (kept.calls t' _ got).1
    · intro one free
      rcases mem_append.mp free with before | now
      · exact kept.freed_update before (by simp [call,listing])
      · obtain rfl := mem_singleton.mp now
        exact Or.inr ⟨t,by simp [rtwRelistStainfo,listing]⟩

theorem spared_use (is : spared kept sta) : ∃ use, kept = some (sta,use) := by
  unfold spared at is
  cases kept with
  | none => simp at is
  | some use =>
    obtain ⟨one,born⟩ := use
    exact ⟨born,by simpa using is⟩

theorem Kept.scan (kept : Kept s) (call : s.calls t = some (.counted spare)) (quiet : ∀ t sta, building (s.calls t) sta = false) :
    Kept (rtwScanStainfo s t spare) where
  toPlaced := kept.toPlaced.scan call
  toLinked := {kept with}
  toChained := by
    refine ⟨?_,?_,?_⟩
    · intro index sta there; exact kept.unicast index sta (mem_filter.mp there).1
    · intro index sta there; exact kept.indexed index sta (mem_filter.mp there).1
    · intro index sta there
      rcases kept.linked index sta (mem_filter.mp there).1 with linked | ⟨t',builds⟩
      · exact Or.inl linked
      · exact absurd ((quiet t' sta).symm.trans builds) false_ne_true
  toCalling := by
    have chains : ∀ index, ∀ sta ∈ (s.staHash index).filter (spared spare), sta ∈ s.staHash index :=
      fun _ _ there => (mem_filter.mp there).1
    refine ⟨calls_update ?_ ?_,builder_update kept.builder (by simp [building]),?_⟩
    · intro c is
      obtain rfl := some.inj is
      refine ⟨le_refl _,?_⟩
      intro index sta there
      obtain ⟨use,is⟩ := spared_use (mem_filter.mp there).2
      have same := kept.calls t _ call sta use is
      left
      dsimp only [rtwScanStainfo]
      rw [is,same]
    · intro t' c _ got
      refine callOk_shrink (kept.calls t' c got) chains ?_ (fun _ free => free) (fun _ none => none) rfl rfl rfl
      rintro sta addr rfl
      exact absurd ((quiet t' sta).symm.trans (alloc_builds got)) false_ne_true
    · intro sta free
      exact kept.freed_update free (by simp [call,listing])

theorem Kept.count (kept : Kept s) (call : s.calls t = some (.found spare))
    (careful : CarefulCall s answer (.found spare)) : Kept (rtwCountStainfo s t spare) := by
  have found := kept.calls t _ call
  unfold rtwCountStainfo
  split
  · rename_i single
    refine kept.setCall ?_ (by rw [call]; rfl) (by rw [call]; rfl) (by simp [call,building]) (by simp [call,listing])
    intro c is
    obtain rfl := some.inj is
    refine ⟨le_refl _,?_⟩
    intro index sta there
    left
    rcases careful single with ⟨index',one,member,is⟩ | empty
    · -- the count is one and counts `one`
      obtain ⟨use,is⟩ := spared_use is
      have same : sta = one := by
        by_contra apart
        have total := kept.total
        have some : 0 < hashed s.staHash sta := hashed_pos.mpr ⟨index,there⟩
        have more : 0 < hashed s.staHash one := hashed_pos.mpr ⟨index',member⟩
        have two : hashed s.staHash sta + hashed s.staHash one ≤ ∑ other, (hashed s.staHash other + owed s.calls other) := by
          calc
            hashed s.staHash sta + hashed s.staHash one = ∑ other ∈ ({sta,one} : Finset StaIdx), hashed s.staHash other :=
              (Finset.sum_pair apart).symm
            _ ≤ ∑ other, hashed s.staHash other := Finset.sum_le_sum_of_subset (Finset.subset_univ _)
            _ ≤ ∑ other, (hashed s.staHash other + owed s.calls other) := Finset.sum_le_sum fun _ _ => le_add_right _ _
        rw [single,← cast_sum] at total
        omega
      have born := found one use is
      rw [same,is,born]
    · rw [empty] at there; cases there
  · refine kept.setCall ?_ (by rw [call]; rfl) (by rw [call]; rfl) (by simp [call,building]) (by simp [call,listing])
    intro c is
    obtain rfl := some.inj is
    exact found

theorem Kept.find (kept : Kept s) (idle : s.calls t = none) : Kept (rtwFindBcmc s t) := by
  refine kept.setCall ?_ (by rw [idle]; rfl) (by rw [idle]; rfl) (by simp [idle,building]) (by simp [idle,listing])
  intro c is
  obtain rfl := some.inj is
  intro sta use is
  cases got : rtwGetBcmcStainfo s with
  | none => simp [got] at is
  | some one =>
    simp only [got,map_some,some.injEq,Prod.mk.injEq] at is
    obtain ⟨rfl,rfl⟩ := is
    rfl

theorem Kept.freePhl (kept : Kept s) (call : s.calls t = some (.release sta .listed rest)) :
    Kept (rtwFreePhlStainfo s t sta rest) := by
  unfold rtwFreePhlStainfo
  split
  · exact kept
  rename_i id linked
  have member := kept.inAssoc sta id linked
  have back := phlFree_returns s.roleType s.macAddr s.phl id
  have phl := back.sound kept.sound member
  generalize phlFreeStainfo s.roleType s.macAddr s.phl id = p' at back phl
  have apart : ∀ one other, update s.phlSta sta none one = some other → one ≠ sta ∧ s.phlSta one = some other ∧ other ≠ id := by
    intro one other got
    by_cases same : one = sta
    · rw [same,update_self] at got; cases got
    · rw [update_of_ne same] at got
      refine ⟨same,got,?_⟩
      rintro rfl
      exact same (kept.apart one sta other got linked)
  have some' : ∀ one, (update s.phlSta sta none one).isSome → (s.phlSta one).isSome := by
    intro one is
    obtain ⟨other,got⟩ := isSome_iff_exists.mp is
    rw [(apart one other got).2.1]
    rfl
  refine ⟨?_,?_,?_,?_⟩
  · have placed := kept.toPlaced.setCall t (rest.map .sweep) (by rw [call]; cases rest <;> rfl) (by rw [call]; cases rest <;> rfl)
    exact ⟨placed.once,placed.total⟩
  · refine ⟨phl,?_,?_,?_,?_⟩
    · intro one other got
      obtain ⟨_,before,distinct⟩ := apart one other got
      have old := kept.inAssoc one other before
      rcases back.queues with ⟨assoc,_⟩ | ⟨assoc,_⟩ <;> dsimp only <;> rw [assoc]
      · exact old
      · exact (mem_erase_of_ne distinct).mpr old
    · intro one two other first second
      exact kept.apart one two other (apart one other first).2.1 (apart two other second).2.1
    · intro one other got
      obtain ⟨_,before,distinct⟩ := apart one other got
      exact (back.others other distinct).trans (kept.address one other before)
    · intro one two first second same
      exact kept.single one two (some' one first) (some' two second) same
  · refine ⟨kept.unicast,kept.indexed,?_⟩
    intro index one there
    have free : sta ∈ s.freeStaQueue := (kept.calls t _ call).1
    have distinct : one ≠ sta := by
      rintro rfl
      exact kept.toPlaced.free_not_hashed free there
    dsimp only
    rw [update_of_ne distinct]
    exact kept.linked_update there (by simp [call,building])
  · have none' : ∀ one, s.phlSta one = none → update s.phlSta sta none one = none := by
      intro one none
      by_cases same : one = sta
      · rw [same,update_self]
      · rwa [update_of_ne same]
    refine ⟨calls_update ?_ ?_,builder_update kept.builder (by cases rest <;> simp [building]),?_⟩
    · intro c is
      cases rest with
      | none => cases is
      | some left =>
        obtain rfl := some.inj is
        exact (kept.calls t _ call).2 left rfl
    · intro t' c _ got
      refine callOk_shrink (kept.calls t' c got) (fun _ _ there => there) ?_ (fun _ free => free) none' rfl rfl rfl
      rintro one addr rfl
      exact (kept.calls t' _ got).1
    · intro one free
      by_cases same : one = sta
      · left; rw [same]; exact update_self _ _ _
      · refine (kept.freed_update free ?_).imp_left (none' one)
        rw [call]
        intro now
        simp only [listing,beq_iff_eq] at now
        exact absurd now.symm same

theorem unicast_ne (unicast : isMcast addr = false) : addr ≠ bcAddr := by
  rintro rfl
  revert unicast
  decide

theorem Kept.allocPhl (kept : Kept s) (call : s.calls t = some (.alloc sta addr))
    (careful : CarefulCall s answer (.alloc sta addr)) :
    Kept (rtwAllocPhlStainfo s t sta addr answer) := by
  obtain ⟨serves,fresh,client⟩ := careful
  obtain ⟨⟨index,there⟩,named,bare⟩ := kept.calls t _ call
  have unicast : addr ≠ bcAddr := unicast_ne (named ▸ kept.unicast index sta there)
  obtain ⟨p',id,served,given⟩ := phlAlloc_gives s.macAddr unicast serves
  have sound := given.sound kept.sound
  -- no other entry has the station PHL gives
  have new : ∀ one, s.phlSta one ≠ some id := by
    intro one linked
    rcases given.queues with ⟨_,_,_,same⟩ | ⟨free,_⟩
    · rcases same with ⟨mode,self⟩ | mac
      · exact client mode one (by rw [linked]; rfl) (linked.trans self.symm)
      · exact fresh one id linked mac
    · have member := kept.inAssoc one id linked
      have disjoint := kept.sound
      unfold Phl.Sound at disjoint
      rw [free] at disjoint
      exact (nodup_append.mp disjoint).2.2 id member id mem_cons_self rfl
  have cases' : ∀ one other, update s.phlSta sta (some id) one = some other →
      one = sta ∧ other = id ∨ one ≠ sta ∧ s.phlSta one = some other ∧ other ≠ id := by
    intro one other got
    by_cases same : one = sta
    · rw [same,update_self] at got
      exact Or.inl ⟨same,(some.inj got).symm⟩
    · rw [update_of_ne same] at got
      refine Or.inr ⟨same,got,?_⟩
      rintro rfl
      exact new one got
  unfold rtwAllocPhlStainfo
  rw [served]
  refine ⟨?_,?_,?_,?_⟩
  · have placed := kept.toPlaced.setCall t none (by rw [call]; rfl) (by rw [call]; rfl)
    exact ⟨placed.once,placed.total⟩
  · have assoc : ∀ other, other ∈ s.phl.assocStaQueue ∨ other = id → other ∈ p'.assocStaQueue := by
      intro other member
      rcases given.queues with ⟨here,same,_⟩ | ⟨_,more⟩
      · rw [same]
        rcases member with old | rfl
        · exact old
        · exact here
      · rw [more]
        rcases member with old | rfl
        · exact mem_append_left _ old
        · exact mem_append_right _ mem_cons_self
    refine ⟨sound,?_,?_,?_,?_⟩
    · intro one other got
      rcases cases' one other got with ⟨_,rfl⟩ | ⟨_,old,_⟩
      · exact assoc other (Or.inr rfl)
      · exact assoc other (Or.inl (kept.inAssoc one other old))
    · intro one two other first second
      rcases cases' one other first with ⟨rfl,rfl⟩ | ⟨_,old,apart⟩ <;> rcases cases' two other second with ⟨rfl,is⟩ | ⟨_,old',apart'⟩
      · rfl
      · exact absurd rfl apart'
      · exact absurd is apart
      · exact kept.apart one two other old old'
    · intro one other got
      rcases cases' one other got with ⟨rfl,rfl⟩ | ⟨_,old,apart⟩
      · exact given.mac.trans named.symm
      · exact (given.others other apart).trans (kept.address one other old)
    · intro one two first second same
      obtain ⟨other,got⟩ := isSome_iff_exists.mp first
      obtain ⟨other',got'⟩ := isSome_iff_exists.mp second
      rcases cases' one other got with ⟨rfl,_⟩ | ⟨_,old,_⟩ <;> rcases cases' two other' got' with ⟨rfl,_⟩ | ⟨_,old',_⟩
      · rfl
      · exact absurd ((kept.address two other' old').trans (same.symm.trans named)) (fresh two other' old')
      · exact absurd ((kept.address one other old).trans (same.trans named)) (fresh one other old)
      · exact kept.single one two (by rw [old]; rfl) (by rw [old']; rfl) same
  · refine ⟨kept.unicast,kept.indexed,?_⟩
    intro index one there
    by_cases same : one = sta
    · left; dsimp only; rw [same,update_self]; rfl
    · dsimp only
      rw [update_of_ne same]
      apply kept.linked_update there
      rw [call]
      intro now
      simp only [building,beq_iff_eq] at now
      exact absurd now.symm same
  · refine ⟨calls_update (by intro c is; cases is) ?_,builder_update kept.builder (by simp [building]),?_⟩
    · intro t' c other got
      have distinct : ∀ one addr', c = .alloc one addr' → one ≠ sta := by
        rintro one addr' rfl rfl
        exact other (kept.builder t' t one (alloc_builds got) (alloc_builds call))
      have ok := kept.calls t' c got
      cases c with
      | alloc one addr' =>
        refine ⟨ok.1,ok.2.1,?_⟩
        dsimp only
        rw [update_of_ne (distinct one addr' rfl)]
        exact ok.2.2
      | release one stage rest => cases stage <;> exact ok
      | found spare => exact ok
      | counted spare => exact ok
      | sweep left => exact ok
    · intro one free
      have same : one ≠ sta := by
        rintro rfl
        exact kept.toPlaced.free_not_hashed free there
      dsimp only
      rw [update_of_ne same]
      exact kept.freed_update free (by simp [call,listing])

theorem Kept.alloc (kept : Kept s) (idle : s.calls t = none) (careful : Careful s (.alloc t addr)) :
    Kept (rtwAllocCoreStainfo s t addr) := by
  have placed := kept.toPlaced.alloc addr idle
  unfold rtwAllocCoreStainfo at placed ⊢
  split
  · exact kept
  rename_i sta rest free
  rw [free] at placed
  obtain ⟨unicast,loose⟩ := careful
  have guarded := loose sta (by rw [free]; rfl)
  have inFree : sta ∈ s.freeStaQueue := by rw [free]; exact mem_cons_self
  have unlinked : s.phlSta sta = none := by
    rcases kept.freed sta inFree with none | ⟨t',lists⟩
    · exact none
    · exact absurd ((guarded t').1.symm.trans lists) false_ne_true
  have sameSta : update s.phlSta sta none = s.phlSta := by rw [← unlinked,update_eq_self]
  have notHashed : ∀ index, sta ∉ s.staHash index := fun index there => kept.toPlaced.free_not_hashed inFree there
  rw [sameSta]
  have linkedApart : ∀ one, (s.phlSta one).isSome → one ≠ sta := by
    rintro one linked rfl
    rw [unlinked] at linked
    cases linked
  generalize isIndex : staIndex s.roleType s.macAddr addr = here at placed
  have chains : ∀ index one, one ∈ update s.staHash here (s.staHash here ++ [sta]) index →
      one ≠ sta ∧ one ∈ s.staHash index ∨ one = sta ∧ index = here := by
    intro index one member
    by_cases at' : index = here
    · subst at'
      rw [update_self,mem_append] at member
      rcases member with old | now
      · exact Or.inl ⟨fun is => notHashed index (is ▸ old),old⟩
      · exact Or.inr ⟨mem_singleton.mp now,rfl⟩
    · rw [update_of_ne at'] at member
      exact Or.inl ⟨fun is => notHashed index (is ▸ member),member⟩
  have grown : ∀ one, (∃ index, one ∈ s.staHash index) → ∃ index, one ∈ update s.staHash here (s.staHash here ++ [sta]) index := by
    rintro one ⟨index,member⟩
    refine ⟨index,?_⟩
    by_cases at' : index = here
    · subst at'; rw [update_self]; exact mem_append_left _ member
    · rwa [update_of_ne at']
  refine ⟨⟨placed.once,placed.total⟩,?_,?_,?_⟩
  · refine ⟨kept.sound,kept.inAssoc,kept.apart,?_,?_⟩
    · intro one id linked
      dsimp only
      rw [update_of_ne (linkedApart one (by rw [linked]; rfl))]
      exact kept.address one id linked
    · intro one two first second same
      dsimp only at same
      rw [update_of_ne (linkedApart one first),update_of_ne (linkedApart two second)] at same
      exact kept.single one two first second same
  · refine ⟨?_,?_,?_⟩
    · intro index one member
      dsimp only
      rcases chains index one member with ⟨apart,old⟩ | ⟨rfl,_⟩
      · rw [update_of_ne apart]; exact kept.unicast index one old
      · rw [update_self]; exact unicast
    · intro index one member
      dsimp only
      rcases chains index one member with ⟨apart,old⟩ | ⟨rfl,rfl⟩
      · rw [update_of_ne apart]; exact kept.indexed index one old
      · rw [update_self]; exact isIndex
    · intro index one member
      rcases chains index one member with ⟨apart,old⟩ | ⟨rfl,_⟩
      · exact kept.linked_update old (by simp [idle,building])
      · right
        refine ⟨t,?_⟩
        dsimp only
        rw [update_self]
        simp [building]
  · have swept : ∀ left, SweptOk s left → left.since ≤ s.uses+1 ∧ ∀ index one,
        one ∈ update s.staHash here (s.staHash here ++ [sta]) index →
        left.kept = some (one,update s.born sta s.uses one) ∨ left.since ≤ update s.born sta s.uses one := by
      rintro left ⟨since,cleared⟩
      refine ⟨by omega,?_⟩
      intro index one member
      rcases chains index one member with ⟨apart,old⟩ | ⟨rfl,_⟩
      · rw [update_of_ne apart]; exact cleared index one old
      · rw [update_self]; exact Or.inr since
    refine ⟨calls_update ?_ ?_,builder_update kept.builder ?_,?_⟩
    · intro c is
      obtain rfl := some.inj is
      refine ⟨⟨here,?_⟩,update_self _ _ _,unlinked⟩
      dsimp only
      rw [update_self]
      exact mem_append_right _ mem_cons_self
    · intro t' c _ got
      have ok := kept.calls t' c got
      have uses : ∀ kept', sparing (s.calls t') = kept' → (∀ one use, kept' = some (one,use) → s.born one = use) →
          ∀ one use, kept' = some (one,use) → update s.born sta s.uses one = use := by
        intro kept' is before one use same
        have apart : one ≠ sta := by
          rintro rfl
          have spare := (guarded t').2
          rw [is,same] at spare
          simp [spared] at spare
        rw [update_of_ne apart]
        exact before one use same
      cases c with
      | alloc one addr' =>
        obtain ⟨index,member⟩ := ok.1
        have apart : one ≠ sta := fun is => notHashed index (is ▸ member)
        refine ⟨grown one ⟨index,member⟩,?_,ok.2.2⟩
        dsimp only
        rw [update_of_ne apart]
        exact ok.2.1
      | release one stage rest' =>
        cases stage with
        | unhashed => exact fun left is => swept left (ok left is)
        | listed =>
          refine ⟨?_,fun left is => swept left (ok.2 left is)⟩
          have member := ok.1
          rw [free] at member
          rcases mem_cons.mp member with rfl | later
          · have lists := (guarded t').1
            rw [got] at lists
            simp [listing] at lists
          · exact later
      | found spare => exact uses spare (by rw [got]; rfl) ok
      | counted spare => exact uses spare (by rw [got]; rfl) ok
      | sweep left => exact swept left ok
    · intro one builds t'
      simp only [building,beq_iff_eq] at builds
      subst builds
      cases got : s.calls t' with
      | none => rfl
      | some c =>
        cases c with
        | alloc one addr' =>
          obtain ⟨index,member⟩ := (kept.calls t' _ got).1
          simp only [building,beq_eq_false_iff_ne]
          rintro rfl
          exact notHashed index member
        | release one stage rest' => rfl
        | found spare => rfl
        | counted spare => rfl
        | sweep left => rfl
    · intro one free'
      exact kept.freed_update (by rw [free]; exact mem_cons_of_mem _ free') (by simp [idle,listing])

theorem Kept.resume (kept : Kept s) (call : s.calls t = some c) (careful : CarefulCall s answer c) :
    Kept (resumeCall s t answer c) := by
  cases c with
  | alloc sta addr => exact kept.allocPhl call careful
  | release sta stage rest =>
    cases stage with
    | unhashed => exact kept.relist call
    | listed => exact kept.freePhl call
  | found spare => exact kept.count call careful
  | counted spare => exact kept.scan call careful
  | sweep left =>
    obtain ⟨spare,since,todo⟩ := left
    have ok := kept.calls t _ call
    cases todo with
    | nil => exact kept.setCall (by intro c is; cases is) (by rw [call]; rfl) (by rw [call]; rfl) (by simp [call,building]) (by simp [call,listing])
    | cons sta rest =>
      -- an entry of the list is in this call's hands, so nobody builds it
      have held : 0 < held s.calls sta := held_pos.mpr ⟨t,by rw [call]; exact mem_cons_self⟩
      refine kept.unhash (by simp [call,building,listing]) ?_ _ ?_ (kept.toPlaced.next call)
      · intro t'
        cases got : s.calls t' with
        | none => rfl
        | some c =>
          cases c with
          | alloc one addr =>
            have once := kept.once one
            have some : 0 < hashed s.staHash one := hashed_pos.mpr (kept.calls t' _ got).1
            simp only [building,beq_eq_false_iff_ne]
            rintro rfl
            omega
          | release one stage rest' => rfl
          | found spare => rfl
          | counted spare => rfl
          | sweep left => rfl
      · rintro left is
        obtain rfl := some.inj is
        exact ok

theorem Kept.step (kept : Kept s) (careful : Careful s event) : Kept (step s event) := by
  cases event with
  | alloc t addr =>
    dsimp only [Sta.step]
    split
    · rename_i idle; exact kept.alloc (isNone_iff_eq_none.mp idle) careful
    · exact kept
  | free t sta =>
    dsimp only [Sta.step]
    split
    · rename_i idle
      have idle := isNone_iff_eq_none.mp idle
      obtain ⟨⟨index,there⟩,quiet⟩ := careful
      exact kept.unhash (by simp [idle,building,listing]) quiet none (by simp) (kept.toPlaced.free idle there)
    · exact kept
  | freeAll t =>
    dsimp only [Sta.step]
    split
    · rename_i idle; exact kept.find (isNone_iff_eq_none.mp idle)
    · exact kept
  | resume t answer =>
    dsimp only [Sta.step]
    split
    · rename_i call got; exact kept.resume got (careful call got)
    · exact kept
  | changeType type =>
    refine ⟨⟨kept.once,kept.total⟩,{kept with},⟨kept.unicast,careful,kept.linked⟩,?_,kept.builder,kept.freed⟩
    intro t call got
    have ok := kept.calls t call got
    cases call with
    | release sta stage rest => cases stage <;> exact ok
    | alloc sta addr => exact ok
    | found spare => exact ok
    | counted spare => exact ok
    | sweep left => exact ok

theorem kept_start (phl : Phl) (sound : phl.Sound) : Kept (initStaPriv type self phl : StaPriv threads) where
  once sta := by
    have one : (finRange numSta).count sta = 1 := count_eq_one_of_mem (nodup_finRange _) (mem_finRange sta)
    simp [initStaPriv,hashed,held,handOf,one]
  total := by simp [initStaPriv,hashed,owed,owedOf]
  sound := sound
  inAssoc := by simp [initStaPriv]
  apart := by simp [initStaPriv]
  address := by simp [initStaPriv]
  single := by simp [initStaPriv]
  unicast := by simp [initStaPriv]
  indexed := by simp [initStaPriv]
  linked := by simp [initStaPriv]
  calls := by simp [initStaPriv]
  builder := by simp [initStaPriv,building]
  freed := by simp [initStaPriv]

theorem phlStart_sound : (phlStart num maxNum bmc sta macidSta).Sound := by
  unfold phlStart Phl.Sound
  simp [nodup_cons,nodup_map_iff (succ_injective),nodup_range]

structure TableSound (s : StaPriv threads) : Prop where
  placed : ∀ sta, s.freeStaQueue.count sta + hashed s.staHash sta + held s.calls sta = 1
  counted : (∀ t, s.calls t = none) → s.asocStaCount = ∑ index, ((s.staHash index).length : Int)
  searched : ∀ index, ∀ sta ∈ s.staHash index, (∀ t, building (s.calls t) sta = false) → rtwGetStainfo s (s.hwaddr sta) = some sta
  known : ∀ addr sta, isMcast addr = false → rtwGetStainfo s addr = some sta → (∃ index, sta ∈ s.staHash index) ∧ s.hwaddr sta = addr
  cleared : ∀ t left, swept (s.calls t) = some left → ∀ index, ∀ sta ∈ s.staHash index,
    left.kept = some (sta,s.born sta) ∨ left.since ≤ s.born sta

def HandsFresh (s : StaPriv threads) : Event threads → Prop
  | .alloc _ _ => ∀ sta ∈ s.freeStaQueue.head?, s.phlSta sta = none
  | _ => True

theorem staMatches_unicast (kept : Kept s) (unicast : isMcast addr = false) (matched : staMatches s self addr sta) :
    (s.phlSta sta).isSome ∧ s.hwaddr sta = addr := by
  unfold staMatches at matched
  cases linked : s.phlSta sta with
  | none => rw [linked] at matched; cases matched
  | some id =>
    rw [linked,unicast] at matched
    simp only [Bool.false_and,Bool.false_or,beq_iff_eq] at matched
    exact ⟨rfl,(kept.address sta id linked).symm.trans matched⟩

theorem length_eq_counts (chain : List StaIdx) : chain.length = ∑ sta, chain.count sta := by
  induction chain with
  | nil => simp
  | cons one rest ih =>
    simp only [length_cons,count_cons,Finset.sum_add_distrib,← ih,beq_iff_eq]
    simp

theorem hashed_total (chains : StaIdx → List StaIdx) :
    ∑ sta, ((hashed chains sta : Nat) : Int) = ∑ index, ((chains index).length : Int) := by
  have swap : ∑ sta, hashed chains sta = ∑ index, (chains index).length := by
    unfold hashed
    rw [Finset.sum_comm]
    apply Finset.sum_congr rfl
    intro index _
    exact (length_eq_counts _).symm
  exact_mod_cast swap

theorem Kept.table (kept : Kept s) : TableSound s where
  placed := kept.once
  counted := by
    intro idle
    have none : ∀ sta, owed s.calls sta = 0 := by
      intro sta
      unfold owed
      simp [idle,owedOf]
    rw [kept.total]
    simp only [none,add_zero]
    exact hashed_total s.staHash
  searched := by
    intro index sta there quiet
    have unicast := kept.unicast index sta there
    have linked : (s.phlSta sta).isSome := by
      rcases kept.linked index sta there with linked | ⟨t,builds⟩
      · exact linked
      · exact absurd ((quiet t).symm.trans builds) false_ne_true
    obtain ⟨id,got⟩ := isSome_iff_exists.mp linked
    unfold rtwGetStainfo
    rw [unicast]
    simp only [false_eq_true,if_false]
    rw [kept.indexed index sta there]
    have matched : staMatches s (phlGetStainfoSelf s.phl) (s.hwaddr sta) sta := by
      unfold staMatches
      rw [got]
      simp [kept.address sta id got]
    cases found : (s.staHash index).find? (staMatches s (phlGetStainfoSelf s.phl) (s.hwaddr sta)) with
    | none => exact absurd matched (find?_eq_none.mp found sta there)
    | some one =>
      obtain ⟨linked',same⟩ := staMatches_unicast kept unicast (find?_some found)
      rw [kept.single one sta linked' linked same]
  known := by
    intro addr sta unicast found
    unfold rtwGetStainfo at found
    rw [unicast] at found
    simp only [false_eq_true,if_false] at found
    exact ⟨⟨_,mem_of_find?_eq_some found⟩,(staMatches_unicast kept unicast (find?_some found)).2⟩
  cleared := by
    intro t left is
    cases got : s.calls t with
    | none => rw [got] at is; cases is
    | some call =>
      have ok := kept.calls t call got
      rw [got] at is
      cases call with
      | alloc one addr => cases is
      | found spare => cases is
      | counted spare => cases is
      | sweep left' => obtain rfl := some.inj is; exact ok.2
      | release one stage rest =>
        cases stage with
        | unhashed => exact (ok left is).2
        | listed => exact (ok.2 left is).2

theorem Kept.fresh (kept : Kept s) (careful : Careful s event) : HandsFresh s event := by
  cases event with
  | alloc t addr =>
    intro sta first
    rcases kept.freed sta (mem_of_mem_head? first) with none | ⟨t',lists⟩
    · exact none
    · exact absurd (((careful.2 sta first) t').1.symm.trans lists) false_ne_true
  | free t sta => trivial
  | freeAll t => trivial
  | resume t answer => trivial
  | changeType type => trivial

theorem station_table_sound
    (path : Reached step Careful (initStaPriv type self (phlStart num maxNum bmc sta macidSta) : StaPriv threads) s) :
    TableSound s ∧ ∀ event, Careful s event → HandsFresh s event := by
  have kept : Kept s := by
    induction path with
    | start => exact kept_start _ phlStart_sound
    | step _ careful ih => exact ih.step careful
  exact ⟨kept.table,fun _ careful => kept.fresh careful⟩

def peerMac (n : Nat) : MacAddr := fun i => if i = 0 then 2 else if i = 5 then UInt8.ofNat n else 0

def apStart : StaPriv 2 :=
  initStaPriv .ap (peerMac 1) (phlStart 31 32 32 (fun _ => ⟨peerMac 1,false,0⟩) (fun mid => if mid = 0 then some 0 else none))

def bulkEvents : List (Event 2) :=
  [.alloc 0 (peerMac 1),.resume 0 ⟨true,true⟩,.alloc 0 (peerMac 2),.resume 0 ⟨true,true⟩,.freeAll 1,.resume 1 ⟨true,true⟩,
    .resume 1 ⟨true,true⟩,.alloc 0 (peerMac 3),.resume 1 ⟨true,true⟩,.resume 1 ⟨true,true⟩,.resume 0 ⟨true,true⟩,
    .resume 1 ⟨true,true⟩,.resume 1 ⟨true,true⟩]

theorem station_table_sound_bulk :
    TableSound (run step apStart bulkEvents) ∧
    ((run step apStart bulkEvents).asocStaCount = 2 ∧ rtwGetStainfo (run step apStart bulkEvents) (peerMac 3) = some 2 ∧
      rtwGetStainfo (run step apStart bulkEvents) (peerMac 2) = none) ∧
    ∀ event, Careful (run step apStart bulkEvents) event → HandsFresh (run step apStart bulkEvents) event := by
  have path : Reached step Careful apStart (run step apStart bulkEvents) := Reached.start.run (by decide +kernel)
  obtain ⟨table,fresh⟩ := station_table_sound path
  exact ⟨table,by decide +kernel,fresh⟩

-- The peer is lost by a change of role type, or when PHL has no station for it;
-- and with every entry in use, the one being freed is handed out again while
-- it still has its PHL station.
def retypeEvents : List (Event 2) :=
  [.alloc 0 (peerMac 1),.resume 0 ⟨true,true⟩,.alloc 0 (peerMac 2),.resume 0 ⟨true,true⟩,.changeType .station]

def refuseEvents : List (Event 2) := [.alloc 0 (peerMac 1),.resume 0 ⟨true,true⟩,.alloc 0 (peerMac 2),.resume 0 ⟨true,false⟩]

def fillEvents : List (Event 2) :=
  (List.range 32).flatMap (fun n => [.alloc 0 (peerMac (n+1)),.resume 0 ⟨true,true⟩]) ++ [.free 0 5,.resume 0 ⟨true,true⟩]

theorem station_table_lost :
    ¬TableSound (run step apStart retypeEvents) ∧ ¬TableSound (run step apStart refuseEvents) ∧
    ¬HandsFresh (run step apStart fillEvents) (.alloc 1 (peerMac 40)) := by
  refine ⟨?_,?_,?_⟩
  · intro table
    have found := table.searched 10 1 (by decide +kernel) (by decide +kernel)
    revert found
    decide +kernel
  · intro table
    have found := table.searched 10 1 (by decide +kernel) (by decide +kernel)
    revert found
    decide +kernel
  · intro fresh
    have none := fresh 5 (by decide +kernel)
    revert none
    decide +kernel

end Rtl8852au.Sta
