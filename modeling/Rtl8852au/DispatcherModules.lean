import Mathlib.Data.List.Nodup
import Rtl8852au.DispatcherResume

namespace Rtl8852au.Dispr
open Machine List Option Bool

structure MdlNode where
  module : BkModule
  freed : Bool := false
  deriving DecidableEq

structure Maps where
  bitmap : Bitmap
  basemap : Bitmap
  deriving DecidableEq

structure Registry where
  init : Bool
  started : Bool
  moduleQ : Priority → List MdlNode
  maps : Maps

section
variable (module : BkModule) (ret : MdlRet)

def bkModuleInit : BkModule × Bool :=
  if module.init then (module,false)
  else if ret = .success then ({module with init:=true},true)
  else (module,false)

def bkModuleDeinit (module : BkModule) : BkModule := {module with init:=false}

def bkModuleStart : BkModule × Bool :=
  if !module.init || module.started then (module,false)
  else if ret = .success then ({module with started:=true},true)
  else (module,false)

def bkModuleStop : BkModule × Bool := if !module.started then (module,false) else ({module with started:=false},ret = .success)
end

def Maps.add (maps : Maps) (priority : Priority) (id : Nat) : Maps where
  bitmap := maps.bitmap.add [id]
  basemap := if priority = .optional then maps.basemap else maps.basemap.add [id]

def Maps.clr (maps : Maps) (id : Nat) : Maps := ⟨maps.bitmap.clr id,maps.basemap.clr id⟩

section
variable (r : Registry)

def Registry.setQ (priority : Priority) (queue : List MdlNode) : Registry :=
  {r with moduleQ:=Function.update r.moduleQ priority queue}

-- The checks of `dispr_register_module` before it allocates the module.
def mayRegister (id : Nat) (opsOk : Bool) : Bool := r.init && opsOk && !r.maps.bitmap.chk id

-- `initRet` and `startRet` are what the callbacks of the module return. The
-- module is linked before they are called, and a failure does not unlink it.
def disprRegisterModule (id : Nat) (opsOk alloc : Bool) (initRet startRet : MdlRet) : Registry × PhlStatus :=
  match getMdlPriority id with
  | none => (r,.failure)
  | some priority =>
    if !mayRegister r id opsOk then (r,.failure)
    else if !alloc then (r,.failure)
    else
      let link (module : BkModule) (freed : Bool) := r.setQ priority (r.moduleQ priority ++ [⟨module,freed⟩])
      match bkModuleInit ⟨id,false,false⟩ initRet with
      | (module,false) => (link (bkModuleDeinit module) true,.failure)
      | (module,true) =>
        if r.started then
          match bkModuleStart module startRet with
          | (module,false) => (link (bkModuleDeinit module) true,.failure)
          | (module,true) => ({link module false with maps:=r.maps.add priority id},.success)
        else (link module false,.success)

def disprDeregisterModule (id : Nat) : Registry × PhlStatus :=
  match getMdlPriority id with
  | none => (r,.failure)
  | some priority =>
    if !r.init then (r,.failure)
    else if (r.moduleQ priority).any fun node => node.module.id == id then
      ({r.setQ priority ((r.moduleQ priority).eraseP fun node => node.module.id == id) with maps:=r.maps.clr id},.success)
    else (r,.failure)

-- The inner loop of `dispr_module_init`, `_start` and `_stop`.
def walkQ (visit : Maps → BkModule → Maps × BkModule) : Maps → List MdlNode → Maps × List MdlNode
  | maps,[] => (maps,[])
  | maps,node :: rest =>
    let (maps,module) := visit maps node.module
    let (maps,rest) := walkQ visit maps rest
    (maps,{node with module} :: rest)

abbrev MdlVisit := Priority → Maps → BkModule → Maps × BkModule

def walkOne (visit : MdlVisit) (r : Registry) (priority : Priority) : Registry :=
  let (maps,queue) := walkQ (visit priority) r.maps (r.moduleQ priority)
  {r.setQ priority queue with maps}

def walk (visit : MdlVisit) (r : Registry) : Registry := [Priority.role,.optional,.mandatory].foldl (walkOne visit) r

section
variable (ret : Nat → MdlRet)

def initVisit : MdlVisit := fun _ maps module => (maps,(bkModuleInit module (ret module.id)).1)

def startVisit : MdlVisit := fun priority maps module =>
  match bkModuleStart module (ret module.id) with
  | (module,true) => (maps.add priority module.id,module)
  | (module,false) => (maps,module)

def stopVisit : MdlVisit := fun _ maps module => (maps.clr module.id,(bkModuleStop module (ret module.id)).1)

def disprModuleInit : Registry × PhlStatus := if !r.init then (r,.failure) else (walk (initVisit ret) r,.success)

def disprModuleStart : Registry × PhlStatus := if !r.started then (r,.unexpectedError) else (walk (startVisit ret) r,.success)

def disprModuleStop : Registry × PhlStatus := if !r.started then (r,.unexpectedError) else (walk (stopVisit ret) r,.success)
end

-- `started` is `dispr_start` and `dispr_stop`, as far as they matter here.
-- `ret` says what the callback of each module returns.
inductive MdlEvent where
  | started (on : Bool)
  | register (id : Nat) (opsOk alloc : Bool) (initRet startRet : MdlRet)
  | deregister (id : Nat)
  | moduleInit (ret : Nat → MdlRet)
  | moduleStart (ret : Nat → MdlRet)
  | moduleStop (ret : Nat → MdlRet)

def mdlStep : MdlEvent → Registry
  | .started on => {r with started:=on}
  | .register id opsOk alloc initRet startRet => (disprRegisterModule r id opsOk alloc initRet startRet).1
  | .deregister id => (disprDeregisterModule r id).1
  | .moduleInit ret => (disprModuleInit r ret).1
  | .moduleStart ret => (disprModuleStart r ret).1
  | .moduleStop ret => (disprModuleStop r ret).1

def registryInit : Registry := ⟨true,false,fun _ => [],⟨0,0⟩⟩
def ids (queue : List MdlNode) : List Nat := queue.map fun node => node.module.id

structure Registry.Consistent (r : Registry) : Prop where
  placed : ∀ p, ∀ node ∈ r.moduleQ p, getMdlPriority node.module.id = some p
  unique : ∀ p, (ids (r.moduleQ p)).Nodup
  live : ∀ p, ∀ node ∈ r.moduleQ p, node.freed = false
  bit : ∀ id, r.maps.bitmap.chk id ↔ ∃ p, ∃ node ∈ r.moduleQ p, node.module.id = id ∧ node.module.started
  base : ∀ id, r.maps.basemap.chk id = (r.maps.bitmap.chk id && getMdlPriority id != some .optional)

def linksModule (id : Nat) (opsOk alloc : Bool) : Bool := (getMdlPriority id).isSome && mayRegister r id opsOk && alloc

def freshAndSound : MdlEvent → Prop
  | .register id opsOk alloc initRet startRet => linksModule r id opsOk alloc →
      (∀ p, id ∉ ids (r.moduleQ p)) ∧ initRet = .success ∧ (r.started → startRet = .success)
  | _ => True

def failsCleanly : MdlEvent → Prop
  | .register id opsOk alloc initRet startRet =>
    (disprRegisterModule r id opsOk alloc initRet startRet).2 ≠ .success →
      (disprRegisterModule r id opsOk alloc initRet startRet).1 = r
  | _ => True
end

theorem priority_small (known : getMdlPriority mdl = some p) : mdl < 128 := by
  unfold getMdlPriority at known
  split at known
  · exact nomatch known
  split at known
  · omega
  split at known
  · omega
  split at known
  · omega
  · exact nomatch known

theorem chk_add (small : mdl < 128) (map : Bitmap) (other : Nat) : (map.add [mdl]).chk other = (map.chk other || mdl == other) := by
  unfold Bitmap.add Bitmap.chk
  simp only [foldl_cons,foldl_nil,BitVec.getLsbD_or,BitVec.getLsbD_twoPow]
  by_cases same : mdl = other
  · subst same
    simp [small]
  · simp [same]

def Fits (maps : Maps) (mdl : Nat) (on : Bool) : Prop :=
  maps.bitmap.chk mdl = on ∧ maps.basemap.chk mdl = (on && getMdlPriority mdl != some .optional)

def SameBits (maps maps' : Maps) (mdl : Nat) : Prop :=
  maps'.bitmap.chk mdl = maps.bitmap.chk mdl ∧ maps'.basemap.chk mdl = maps.basemap.chk mdl

theorem Fits.same (fits : Fits maps mdl on) (same : SameBits maps maps' mdl) : Fits maps' mdl on :=
  ⟨same.1.trans fits.1,same.2.trans fits.2⟩

theorem add_fits (known : getMdlPriority mdl = some p) (fits : Fits maps mdl on) : Fits (maps.add p mdl) mdl true := by
  have small := priority_small known
  unfold Fits Maps.add
  dsimp only
  refine ⟨by rw [chk_add small]; simp,?_⟩
  rw [known]
  split
  · rename_i optional
    rw [fits.2,known,optional]
    simp
  · rename_i other
    rw [chk_add small]
    simp [other]

theorem add_same (known : getMdlPriority mdl = some p) (maps : Maps) (other : mdl ≠ k) : SameBits maps (maps.add p mdl) k := by
  have small := priority_small known
  unfold SameBits Maps.add
  dsimp only
  refine ⟨by rw [chk_add small]; simp [other],?_⟩
  split
  · rfl
  · rw [chk_add small]
    simp [other]

theorem clr_fits (maps : Maps) (mdl : Nat) : Fits (maps.clr mdl) mdl false := by
  unfold Fits Maps.clr
  simp [chk_clr]

theorem clr_same (maps : Maps) (other : mdl ≠ k) : SameBits maps (maps.clr mdl) k := by
  unfold SameBits Maps.clr
  simp [chk_clr,Ne.symm other]

structure VisitSound (visit : MdlVisit) : Prop where
  id : ∀ p maps module, (visit p maps module).2.id = module.id
  fits : ∀ p maps module, getMdlPriority module.id = some p → Fits maps module.id module.started →
    Fits (visit p maps module).1 module.id (visit p maps module).2.started
  same : ∀ p maps module k, getMdlPriority module.id = some p → module.id ≠ k → SameBits maps (visit p maps module).1 k

section
variable (module : BkModule) (ret : MdlRet)

theorem bkModuleInit_id :
    (bkModuleInit module ret).1.id = module.id ∧ (bkModuleInit module ret).1.started = module.started := by
  unfold bkModuleInit
  split
  · exact ⟨rfl,rfl⟩
  split <;> exact ⟨rfl,rfl⟩

theorem bkModuleStart_cases :
    bkModuleStart module ret = (module,false) ∨ bkModuleStart module ret = ({module with started:=true},true) := by
  unfold bkModuleStart
  split
  · exact .inl rfl
  split
  · exact .inr rfl
  · exact .inl rfl

theorem bkModuleStop_off :
    (bkModuleStop module ret).1.id = module.id ∧ (bkModuleStop module ret).1.started = false := by
  unfold bkModuleStop
  split
  · rename_i off
    exact ⟨rfl,by simpa using off⟩
  · exact ⟨rfl,rfl⟩
end

theorem initVisit_sound (ret : Nat → MdlRet) : VisitSound (initVisit ret) where
  id _ _ module := (bkModuleInit_id module _).1
  fits p maps module _ fits := by
    unfold initVisit
    rw [(bkModuleInit_id module _).2]
    exact fits
  same _ _ _ _ _ _ := ⟨rfl,rfl⟩

theorem startVisit_sound (ret : Nat → MdlRet) : VisitSound (startVisit ret) where
  id p maps module := by
    unfold startVisit
    rcases bkModuleStart_cases module (ret module.id) with off | on
    · rw [off]
    · rw [on]
  fits p maps module known fits := by
    unfold startVisit
    rcases bkModuleStart_cases module (ret module.id) with off | on
    · rw [off]
      exact fits
    · rw [on]
      exact add_fits known fits
  same p maps module k known other := by
    unfold startVisit
    rcases bkModuleStart_cases module (ret module.id) with off | on
    · rw [off]
      exact ⟨rfl,rfl⟩
    · rw [on]
      exact add_same known maps other

theorem stopVisit_sound (ret : Nat → MdlRet) : VisitSound (stopVisit ret) where
  id _ _ module := (bkModuleStop_off module _).1
  fits p maps module _ _ := by
    unfold stopVisit
    rw [(bkModuleStop_off module _).2]
    exact clr_fits maps module.id
  same _ maps module _ _ other := clr_same maps other

structure QueueFits (maps : Maps) (p : Priority) (queue : List MdlNode) : Prop where
  placed : ∀ node ∈ queue, getMdlPriority node.module.id = some p
  unique : (ids queue).Nodup
  live : ∀ node ∈ queue, node.freed = false
  fits : ∀ node ∈ queue, Fits maps node.module.id node.module.started

theorem mem_ids (member : node ∈ queue) : node.module.id ∈ ids queue := mem_map.mpr ⟨node,member,rfl⟩

theorem walkQ_keeps {visit : MdlVisit} (sound : VisitSound visit) (p : Priority) (maps : Maps) (queue : List MdlNode)
    (fits : QueueFits maps p queue) :
    QueueFits (walkQ (visit p) maps queue).1 p (walkQ (visit p) maps queue).2 ∧ ids (walkQ (visit p) maps queue).2 = ids queue ∧
      ∀ k, k ∉ ids queue → SameBits maps (walkQ (visit p) maps queue).1 k := by
  induction queue generalizing maps with
  | nil => exact ⟨fits,rfl,fun _ _ => ⟨rfl,rfl⟩⟩
  | cons node rest ih =>
    have known := fits.placed node mem_cons_self
    have nodup : node.module.id ∉ ids rest ∧ (ids rest).Nodup := nodup_cons.mp fits.unique
    have isId := sound.id p maps node.module
    have first := sound.fits p maps node.module known (fits.fits node mem_cons_self)
    have away (k : Nat) (other : node.module.id ≠ k) := sound.same p maps node.module k known other
    have later : QueueFits (visit p maps node.module).1 p rest := by
      refine ⟨fun n member => fits.placed n (mem_cons_of_mem _ member),nodup.2,
        fun n member => fits.live n (mem_cons_of_mem _ member),fun n member => ?_⟩
      refine (fits.fits n (mem_cons_of_mem _ member)).same (away _ ?_)
      intro same
      exact nodup.1 (same ▸ mem_ids member)
    obtain ⟨kept,sameIds,same⟩ := ih (visit p maps node.module).1 later
    have isWalk : walkQ (visit p) maps (node :: rest) = ((walkQ (visit p) (visit p maps node.module).1 rest).1,
      {node with module:=(visit p maps node.module).2} :: (walkQ (visit p) (visit p maps node.module).1 rest).2) := rfl
    rw [isWalk]
    refine ⟨⟨?_,?_,?_,?_⟩,?_,?_⟩
    · intro n member
      rcases mem_cons.mp member with rfl | member
      · rw [isId]
        exact known
      · exact kept.placed n member
    · refine nodup_cons.mpr ⟨?_,kept.unique⟩
      dsimp only
      rw [isId]
      exact fun member => nodup.1 (sameIds ▸ member)
    · intro n member
      rcases mem_cons.mp member with rfl | member
      · exact fits.live node mem_cons_self
      · exact kept.live n member
    · intro n member
      rcases mem_cons.mp member with rfl | member
      · dsimp only
        rw [isId]
        exact first.same (same _ nodup.1)
      · exact kept.fits n member
    · unfold ids at sameIds ⊢
      rw [map_cons,map_cons,sameIds,isId]
    · intro k out
      have other : node.module.id ≠ k := fun isK => out (isK ▸ mem_ids mem_cons_self)
      have rest' : k ∉ ids rest := fun member => out (mem_cons_of_mem _ member)
      exact ⟨(same k rest').1.trans (away k other).1,(same k rest').2.trans (away k other).2⟩

structure Registry.Kept (r : Registry) : Prop where
  queue : ∀ p, QueueFits r.maps p (r.moduleQ p)
  none : ∀ mdl, (∀ p, mdl ∉ ids (r.moduleQ p)) → Fits r.maps mdl false

theorem mem_ids_iff : mdl ∈ ids queue ↔ ∃ node ∈ queue, node.module.id = mdl := mem_map

theorem Registry.Kept.consistent {r : Registry} (kept : r.Kept) : r.Consistent where
  placed p := (kept.queue p).placed
  unique p := (kept.queue p).unique
  live p := (kept.queue p).live
  bit mdl := by
    constructor
    · intro on
      by_cases linked : ∃ p, mdl ∈ ids (r.moduleQ p)
      · obtain ⟨p,member⟩ := linked
        obtain ⟨node,linked,rfl⟩ := mem_ids_iff.mp member
        exact ⟨p,node,linked,rfl,((kept.queue p).fits node linked).1.symm.trans on⟩
      · have off := (kept.none mdl fun p member => linked ⟨p,member⟩).1
        rw [off] at on
        exact nomatch on
    · rintro ⟨p,node,member,rfl,started⟩
      exact ((kept.queue p).fits node member).1.trans started
  base mdl := by
    by_cases linked : ∃ p, mdl ∈ ids (r.moduleQ p)
    · obtain ⟨p,member⟩ := linked
      obtain ⟨node,linked,rfl⟩ := mem_ids_iff.mp member
      obtain ⟨bit,base⟩ := (kept.queue p).fits node linked
      rw [base,bit]
    · obtain ⟨bit,base⟩ := kept.none mdl fun p member => linked ⟨p,member⟩
      rw [base,bit]

theorem Registry.Consistent.kept {r : Registry} (sound : r.Consistent) : r.Kept where
  queue p := by
    refine ⟨sound.placed p,sound.unique p,sound.live p,fun node member => ?_⟩
    have bit : r.maps.bitmap.chk node.module.id = node.module.started := by
      cases started : node.module.started with
      | true => exact (sound.bit _).mpr ⟨p,node,member,rfl,started⟩
      | false =>
        rw [← not_eq_true]
        intro on
        obtain ⟨q,other,member',same,started'⟩ := (sound.bit _).mp on
        have samePriority : some q = some p := by rw [← sound.placed q other member',same,sound.placed p node member]
        obtain rfl := some.inj samePriority
        have one : other = node := inj_on_of_nodup_map (sound.unique q) member' member same
        rw [one,started] at started'
        exact nomatch started'
    exact ⟨bit,by rw [sound.base,bit]⟩
  none mdl unlinked := by
    have bit : r.maps.bitmap.chk mdl = false := by
      rw [← not_eq_true]
      intro on
      obtain ⟨p,node,member,rfl,_⟩ := (sound.bit _).mp on
      exact unlinked p (mem_ids member)
    exact ⟨bit,by rw [sound.base,bit]⟩

theorem Registry.Kept.set {r : Registry} (kept : r.Kept) (p : Priority) (maps : Maps) (queue : List MdlNode)
    (fits : QueueFits maps p queue) (same : ∀ mdl, mdl ∉ ids (r.moduleQ p) → mdl ∉ ids queue → SameBits r.maps maps mdl)
    (off : ∀ mdl ∈ ids (r.moduleQ p), mdl ∉ ids queue → Fits maps mdl false) : ({r.setQ p queue with maps} : Registry).Kept := by
  have apart (q : Priority) (other : q ≠ p) (node : MdlNode) (member : node ∈ r.moduleQ q) (queue : List MdlNode)
      (placed : ∀ n ∈ queue, getMdlPriority n.module.id = some p) : node.module.id ∉ ids queue := by
    intro inside
    obtain ⟨n,member',sameId⟩ := mem_ids_iff.mp inside
    have here := placed n member'
    rw [sameId,(kept.queue q).placed node member] at here
    exact other (some.inj here)
  constructor
  · intro q
    unfold Registry.setQ
    dsimp only
    by_cases here : q = p
    · subst here
      rw [Function.update_self]
      exact fits
    · rw [Function.update_of_ne here]
      obtain ⟨placed,unique,live,fitsQ⟩ := kept.queue q
      refine ⟨placed,unique,live,fun node member => (fitsQ node member).same (same _ ?_ ?_)⟩
      · exact apart q here node member _ (kept.queue p).placed
      · exact apart q here node member _ fits.placed
  · intro mdl unlinked
    have notHere : mdl ∉ ids queue := by
      have at_p := unlinked p
      unfold Registry.setQ at at_p
      dsimp only at at_p
      rwa [Function.update_self] at at_p
    by_cases before : mdl ∈ ids (r.moduleQ p)
    · exact off mdl before notHere
    · refine (kept.none mdl fun q => ?_).same (same mdl before notHere)
      by_cases here : q = p
      · subst here
        exact before
      · have at_q := unlinked q
        unfold Registry.setQ at at_q
        dsimp only at at_q
        rwa [Function.update_of_ne here] at at_q

theorem Registry.Kept.walkOne {r : Registry} (kept : r.Kept) {visit : MdlVisit} (sound : VisitSound visit) (p : Priority) :
    (walkOne visit r p).Kept := by
  obtain ⟨fits,sameIds,same⟩ := walkQ_keeps sound p r.maps (r.moduleQ p) (kept.queue p)
  refine kept.set p _ _ fits (fun mdl out _ => same mdl out) ?_
  intro mdl inside outside
  exact absurd (sameIds ▸ inside) outside

theorem Registry.Kept.walk (kept : r.Kept) {visit : MdlVisit} (sound : VisitSound visit) : (walk visit r).Kept :=
  ((kept.walkOne sound .role).walkOne sound .optional).walkOne sound .mandatory

theorem ids_eraseP (queue : List MdlNode) (mdl : Nat) :
    ids (queue.eraseP fun node => node.module.id == mdl) = (ids queue).erase mdl := by
  induction queue with
  | nil => rfl
  | cons node rest ih =>
    have isCons : ids (node :: rest) = node.module.id :: ids rest := rfl
    rw [isCons]
    by_cases here : node.module.id = mdl
    · rw [eraseP_cons_of_pos (by simpa using here),here,erase_cons_head]
    · rw [eraseP_cons_of_neg (by simpa using here),erase_cons_tail (by simpa using here),← ih]
      rfl

theorem Registry.Kept.deregister {r : Registry} (kept : r.Kept) (mdl : Nat) : (disprDeregisterModule r mdl).1.Kept := by
  unfold disprDeregisterModule
  split
  · exact kept
  · rename_i p known
    split
    · exact kept
    split
    · rename_i found
      obtain ⟨node,member,isMdl⟩ := any_eq_true.mp found
      have linked : mdl ∈ ids (r.moduleQ p) := mem_ids_iff.mpr ⟨node,member,by simpa using isMdl⟩
      obtain ⟨placed,unique,live,fits⟩ := kept.queue p
      have sub := eraseP_sublist (l := r.moduleQ p) (p := fun node => node.module.id == mdl)
      have gone (k : Nat) : k ∈ ids ((r.moduleQ p).eraseP fun node => node.module.id == mdl) ↔ k ≠ mdl ∧ k ∈ ids (r.moduleQ p) := by
        rw [ids_eraseP]
        exact unique.mem_erase_iff
      refine kept.set p _ _ ⟨fun n member => placed n (sub.subset member),unique.sublist (sub.map _),
        fun n member => live n (sub.subset member),fun n member => ?_⟩ ?_ ?_
      · exact (fits n (sub.subset member)).same (clr_same r.maps (Ne.symm ((gone _).mp (mem_ids member)).1))
      · intro k out _
        exact clr_same r.maps fun same => out (same ▸ linked)
      · intro k inside out
        have same : k = mdl := by
          by_contra other
          exact out ((gone k).mpr ⟨other,inside⟩)
        rw [same]
        exact clr_fits r.maps mdl
    · exact kept

theorem QueueFits.push (fits : QueueFits maps p queue) (known : getMdlPriority mdl = some p)
    (fresh : mdl ∉ ids queue) (same : ∀ k, k ≠ mdl → SameBits maps maps' k) (module : BkModule) (isMdl : module.id = mdl)
    (fitsModule : Fits maps' mdl module.started) : QueueFits maps' p (queue ++ [⟨module,false⟩]) := by
  refine ⟨?_,?_,?_,?_⟩
  · intro n member
    rcases mem_append.mp member with before | now
    · exact fits.placed n before
    · rw [mem_singleton.mp now]
      exact isMdl ▸ known
  · unfold ids
    rw [map_append]
    refine nodup_append.mpr ⟨fits.unique,nodup_singleton _,fun k before j now => ?_⟩
    rintro rfl
    have here : k = mdl := (mem_singleton.mp now).trans isMdl
    exact fresh (here ▸ before)
  · intro n member
    rcases mem_append.mp member with before | now
    · exact fits.live n before
    · rw [mem_singleton.mp now]
  · intro n member
    rcases mem_append.mp member with before | now
    · refine (fits.fits n before).same (same _ ?_)
      rintro isNew
      exact fresh (isNew ▸ mem_ids before)
    · rw [mem_singleton.mp now]
      exact isMdl.symm ▸ fitsModule

theorem Registry.Kept.link {r : Registry} {m : Maps} (kept : r.Kept) (known : getMdlPriority mdl = some p)
    (fresh : mdl ∉ ids (r.moduleQ p)) (same : ∀ k, k ≠ mdl → SameBits r.maps m k) (module : BkModule) (isMdl : module.id = mdl)
    (fitsModule : Fits m mdl module.started) :
    ({r.setQ p (r.moduleQ p ++ [⟨module,false⟩]) with maps:=m} : Registry).Kept := by
  refine kept.set p _ _ ((kept.queue p).push known fresh same module isMdl fitsModule) ?_ ?_
  · intro k _ out
    refine same k ?_
    rintro rfl
    exact out (mem_ids_iff.mpr ⟨⟨module,false⟩,mem_append_right _ mem_cons_self,isMdl⟩)
  · intro k inside out
    obtain ⟨node,member,sameId⟩ := mem_ids_iff.mp inside
    exact absurd (mem_ids_iff.mpr ⟨node,mem_append_left _ member,sameId⟩) out

theorem Registry.Kept.fresh {r : Registry} (kept : r.Kept) (known : getMdlPriority mdl = some p) (fresh : mdl ∉ ids (r.moduleQ p))
    (q : Priority) : mdl ∉ ids (r.moduleQ q) := by
  intro inside
  obtain ⟨node,member,rfl⟩ := mem_ids_iff.mp inside
  have same := (kept.queue q).placed node member
  rw [known] at same
  obtain rfl := some.inj same
  exact fresh inside

theorem register_refused (refused : linksModule r mdl opsOk alloc = false) (initRet startRet : MdlRet) :
    disprRegisterModule r mdl opsOk alloc initRet startRet = (r,.failure) := by
  unfold disprRegisterModule
  unfold linksModule at refused
  cases known : getMdlPriority mdl with
  | none => rfl
  | some p =>
    rw [known] at refused
    dsimp only
    cases may : mayRegister r mdl opsOk with
    | false => rfl
    | true =>
      rw [may] at refused
      have noMemory : alloc = false := by simpa using refused
      rw [noMemory]
      rfl

def Registry.linked (r : Registry) (p : Priority) (module : BkModule) (freed : Bool) : Registry :=
  r.setQ p (r.moduleQ p ++ [⟨module,freed⟩])

theorem register_linked (links : linksModule r mdl opsOk alloc) (known : getMdlPriority mdl = some p)
    (initRet startRet : MdlRet) : disprRegisterModule r mdl opsOk alloc initRet startRet = if initRet = .success then
        if r.started then
          if startRet = .success then ({r.linked p ⟨mdl,true,true⟩ false with maps:=r.maps.add p mdl},.success)
          else (r.linked p ⟨mdl,false,false⟩ true,.failure) else (r.linked p ⟨mdl,true,false⟩ false,.success)
      else (r.linked p ⟨mdl,false,false⟩ true,.failure) := by
  unfold linksModule at links
  simp only [and_eq_true] at links
  obtain ⟨⟨_,may⟩,memory⟩ := links
  unfold disprRegisterModule bkModuleInit bkModuleStart
  rw [known,may,memory]
  by_cases isInit : initRet = .success
  · cases r.started with
    | false =>
      simp only [isInit,if_true]
      rfl
    | true =>
      by_cases isStart : startRet = .success
      · simp only [isInit,isStart,if_true]
        rfl
      · simp only [isInit,isStart,if_true,if_false]
        rfl
  · simp only [isInit,if_false]
    rfl

theorem linked_ne (r : Registry) (p : Priority) (module : BkModule) (freed : Bool) : r.linked p module freed ≠ r := by
  intro same
  have queue := congrArg (fun s => (s.moduleQ p).length) same
  unfold Registry.linked Registry.setQ at queue
  dsimp only at queue
  rw [Function.update_self] at queue
  simp at queue

theorem Registry.Consistent.notTwice {r : Registry} {m : Maps} {module : BkModule}
    (sound : ({r.linked p module freed with maps:=m} : Registry).Consistent) : module.id ∉ ids (r.moduleQ p) := by
  have unique := sound.unique p
  unfold Registry.linked Registry.setQ at unique
  dsimp only at unique
  rw [Function.update_self] at unique
  unfold ids at unique ⊢
  rw [map_append] at unique
  intro inside
  exact (nodup_append.mp unique).2.2 _ inside _ mem_cons_self rfl

theorem Registry.Kept.register {r : Registry} (kept : r.Kept) (mdl : Nat) (opsOk alloc : Bool) (initRet startRet : MdlRet) :
    (mdlStep r (.register mdl opsOk alloc initRet startRet)).Consistent ∧
        failsCleanly r (.register mdl opsOk alloc initRet startRet) ↔
      freshAndSound r (.register mdl opsOk alloc initRet startRet) := by
  unfold mdlStep failsCleanly freshAndSound
  dsimp only
  cases links : linksModule r mdl opsOk alloc with
  | false =>
    rw [register_refused links]
    exact iff_of_true ⟨kept.consistent,fun _ => rfl⟩ fun other => nomatch other
  | true =>
    obtain ⟨p,known⟩ : ∃ p, getMdlPriority mdl = some p := by
      unfold linksModule at links
      simp only [and_eq_true] at links
      exact isSome_iff_exists.mp links.1.1
    rw [register_linked links known]
    -- A failure leaves the freed module in its queue.
    have dirty (module : BkModule) (freed : Bool) (fine : Prop) (bad : ¬fine) :
        (r.linked p module freed).Consistent ∧ (PhlStatus.failure ≠ .success → r.linked p module freed = r) ↔ (true → fine) :=
      iff_of_false (fun both => linked_ne r p module freed (both.2 (by decide))) fun fine => bad (fine rfl)
    by_cases isInit : initRet = .success
    · by_cases started : r.started
      · by_cases isStart : startRet = .success
        · rw [if_pos isInit,if_pos started,if_pos isStart]
          constructor
          · rintro ⟨sound,_⟩ _
            exact ⟨kept.fresh known sound.notTwice,isInit,fun _ => isStart⟩
          · intro fine
            have fresh := (fine rfl).1
            refine ⟨Kept.consistent ?_,fun failed => absurd rfl failed⟩
            exact kept.link known (fresh p) (fun k other => add_same known r.maps (Ne.symm other)) ⟨mdl,true,true⟩ rfl
              (add_fits known (kept.none mdl fresh))
        · rw [if_pos isInit,if_pos started,if_neg isStart]
          exact dirty _ _ _ fun fine => isStart (fine.2.2 started)
      · rw [if_pos isInit,if_neg started]
        constructor
        · rintro ⟨sound,_⟩ _
          exact ⟨kept.fresh known (Consistent.notTwice (m := r.maps) sound),isInit,fun on => absurd on started⟩
        · intro fine
          have fresh := (fine rfl).1
          refine ⟨Kept.consistent ?_,fun failed => absurd rfl failed⟩
          exact kept.link (m := r.maps) known (fresh p) (fun _ _ => ⟨rfl,rfl⟩) ⟨mdl,true,false⟩ rfl (kept.none mdl fresh)
    · rw [if_neg isInit]
      exact dirty _ _ _ fun fine => isInit fine.2.1

theorem Registry.Consistent.step {r : Registry} (sound : r.Consistent) (event : MdlEvent) :
    (mdlStep r event).Consistent ∧ failsCleanly r event ↔ freshAndSound r event := by
  have kept := sound.kept
  cases event with
  | register mdl opsOk alloc initRet startRet => exact kept.register mdl opsOk alloc initRet startRet
  | started on => exact iff_of_true ⟨{sound with},trivial⟩ trivial
  | deregister mdl => exact iff_of_true ⟨(kept.deregister mdl).consistent,trivial⟩ trivial
  | moduleInit ret =>
    refine iff_of_true ⟨?_,trivial⟩ trivial
    unfold mdlStep disprModuleInit
    dsimp only
    split
    · exact sound
    · exact (kept.walk (initVisit_sound ret)).consistent
  | moduleStart ret =>
    refine iff_of_true ⟨?_,trivial⟩ trivial
    unfold mdlStep disprModuleStart
    dsimp only
    split
    · exact sound
    · exact (kept.walk (startVisit_sound ret)).consistent
  | moduleStop ret =>
    refine iff_of_true ⟨?_,trivial⟩ trivial
    unfold mdlStep disprModuleStop
    dsimp only
    split
    · exact sound
    · exact (kept.walk (stopVisit_sound ret)).consistent

-- In every run that links only new modules which start well the books are
-- right; and the first call that links another one spoils them.
theorem registration_consistent (path : Reached mdlStep freshAndSound registryInit r) :
    r.Consistent ∧ ∀ event, (mdlStep r event).Consistent ∧ failsCleanly r event ↔ freshAndSound r event := by
  have sound := path.invariant Registry.Consistent ?_ fun r event sound allowed => ((sound.step event).mpr allowed).1
  · exact ⟨sound,sound.step⟩
  · refine ⟨(fun _ _ none_ => nomatch none_),fun _ => nodup_nil,(fun _ _ none_ => nomatch none_),fun mdl => ?_,fun mdl => ?_⟩
    · simp [registryInit,Bitmap.chk]
    · simp [registryInit,Bitmap.chk]

def powerMgntStarted : List MdlEvent :=
  [.register phlMdlPowerMgnt true true .success .success,.started true,.moduleStart fun _ => .success]

theorem registration_consistent_started :
    let r := run mdlStep registryInit powerMgntStarted
    r.maps.bitmap.chk phlMdlPowerMgnt ∧ r.Consistent := by
  have admitted : Admitted mdlStep freshAndSound registryInit powerMgntStarted := by
    refine ⟨fun _ => ⟨?_,rfl,fun _ => rfl⟩,trivial,trivial,trivial⟩
    exact fun _ inside => nomatch inside
  exact ⟨by decide +kernel,(registration_consistent (Reached.start.run admitted)).1⟩

-- A module whose `init` fails stays linked though it is freed, and one that is
-- registered again before the modules are started is linked twice.
theorem registration_spoiled :
    (disprRegisterModule registryInit phlMdlPowerMgnt true true .fail .success).2 = .failure ∧
      (disprRegisterModule registryInit phlMdlPowerMgnt true true .fail .success).1.moduleQ .mandatory =
        [⟨⟨phlMdlPowerMgnt,false,false⟩,true⟩] ∧
      ¬failsCleanly registryInit (.register phlMdlPowerMgnt true true .fail .success) ∧
      ids ((run mdlStep registryInit (List.replicate 2 (.register phlMdlPowerMgnt true true .success .success))).moduleQ .mandatory) =
        [phlMdlPowerMgnt,phlMdlPowerMgnt] := by
  have failed : (disprRegisterModule registryInit phlMdlPowerMgnt true true .fail .success).2 = .failure := by decide
  have linked : (disprRegisterModule registryInit phlMdlPowerMgnt true true .fail .success).1.moduleQ .mandatory =
      [⟨⟨phlMdlPowerMgnt,false,false⟩,true⟩] := by decide
  refine ⟨failed,linked,fun clean => ?_,by decide⟩
  have same := clean (by rw [failed]; decide)
  rw [same] at linked
  exact nomatch linked

end Rtl8852au.Dispr
