import Rtl8852au.PhlPktOfld

namespace Rtl8852au.PktOfld
open Machine Function List Finset UInt32

theorem mem_updInfo : entry ∈ updInfo entryQ macid type change ↔
    ∃ old ∈ entryQ, (if old.macid = macid then old.upd type change else old) = entry := mem_map

theorem updInfo_macids : (updInfo entryQ macid type change).map Entry.macid = entryQ.map Entry.macid := by
  simp only [updInfo,List.map_map]
  apply map_congr_left
  intro entry _
  simp only [comp]
  split <;> rfl

theorem upd_upd (entry : Entry) (type : PktType) (one two : PktInfo → PktInfo) :
    (entry.upd type one).upd type two = entry.upd type (fun info => two (one info)) := by
  simp only [Entry.upd,update_self,update_idem]

theorem updInfo_updInfo (entryQ : List Entry) (macid : Nat) (type : PktType) (one two : PktInfo → PktInfo) :
    updInfo (updInfo entryQ macid type one) macid type two = updInfo entryQ macid type (fun info => two (one info)) := by
  simp only [updInfo,List.map_map]
  apply map_congr_left
  intro entry _
  simp only [comp]
  by_cases here : entry.macid = macid
  · rw [if_pos here,if_pos here,if_pos (show (entry.upd type one).macid = macid from here)]
    exact upd_upd entry type one two
  · rw [if_neg here,if_neg here,if_neg here]

theorem updInfo_same (same : ∀ entry ∈ entryQ, entry.macid = macid → change (entry.pktInfo type) = entry.pktInfo type) :
    updInfo entryQ macid type change = entryQ := by
  unfold updInfo
  rw [map_congr_left (g := fun entry => entry),map_id']
  intro entry member
  split
  · rename_i here
    unfold Entry.upd
    rw [same entry member here,update_eq_self]
  · rfl

theorem getEntry_mem (found : getEntry s macid = some entry) : entry ∈ s.entryQ ∧ entry.macid = macid :=
  ⟨mem_of_find?_eq_some found,by simpa using find?_some found⟩

theorem Sound.same (sound : Sound s) (found : getEntry s macid = some entry) (member : other ∈ s.entryQ)
    (named : other.macid = macid) : other = entry := by
  obtain ⟨there,here⟩ := getEntry_mem found
  exact inj_on_of_nodup_map sound.apart member there (named.trans here.symm)

theorem Sound.unchanged (sound : Sound s) (found : getEntry s macid = some entry)
    (same : change (entry.pktInfo type) = entry.pktInfo type) : updInfo s.entryQ macid type change = s.entryQ := by
  apply updInfo_same
  intro other member named
  rw [sound.same found member named]
  exact same

theorem Sound.still_apart (sound : Sound s) : ((updInfo s.entryQ macid type change).map Entry.macid).Nodup := by
  rw [updInfo_macids]
  exact sound.apart

section
variable (sound : Sound s) (found : getEntry s macid = some entry)
include sound found

theorem updInfo_right :
    (∀ other ∈ updInfo s.entryQ macid type change, ∀ type, Right (other.pktInfo type)) ↔
    Right (change (entry.pktInfo type)) := by
  obtain ⟨there,here⟩ := getEntry_mem found
  constructor
  · intro right
    have own := right (entry.upd type change) (mem_updInfo.mpr ⟨entry,there,if_pos here⟩) type
    simpa only [Entry.upd,update_self] using own
  · intro right other member at'
    obtain ⟨old,stood,rfl⟩ := mem_updInfo.mp member
    split
    · rename_i named
      cases sound.same found stood named
      by_cases own : at' = type
      · subst own
        simpa only [Entry.upd,update_self] using right
      · simpa only [Entry.upd,update_of_ne own] using sound.right _ stood at'
    · exact sound.right old stood at'

theorem updInfo_recorded :
    Recorded (updInfo s.entryQ macid type change) slot ↔
    slot ≠ notUsed ∧ ((change (entry.pktInfo type)).id = slot ∨ Elsewhere s macid type slot) := by
  obtain ⟨there,here⟩ := getEntry_mem found
  refine and_congr_right (fun _ => ?_)
  constructor
  · rintro ⟨other,member,at',same⟩
    obtain ⟨old,stood,rfl⟩ := mem_updInfo.mp member
    by_cases named : old.macid = macid
    · rw [if_pos named] at same
      by_cases own : at' = type
      · subst own
        cases sound.same found stood named
        simp only [Entry.upd,update_self] at same
        exact .inl same
      · simp only [Entry.upd,update_of_ne own] at same
        exact .inr ⟨old,stood,at',.inr own,same⟩
    · rw [if_neg named] at same
      exact .inr ⟨old,stood,at',.inl named,same⟩
  · rintro (same | ⟨other,member,at',apart,same⟩)
    · refine ⟨entry.upd type change,mem_updInfo.mpr ⟨entry,there,if_pos here⟩,type,?_⟩
      simpa only [Entry.upd,update_self] using same
    · by_cases named : other.macid = macid
      · have own : at' ≠ type := apart.resolve_left (fun away => away named)
        refine ⟨other.upd type change,mem_updInfo.mpr ⟨other,member,if_pos named⟩,at',?_⟩
        simpa only [Entry.upd,update_of_ne own] using same
      · exact ⟨other,mem_updInfo.mpr ⟨other,member,if_neg named⟩,at',same⟩

theorem Sound.place (type : PktType) (used : slot ∈ s.slots) :
    slot ≠ notUsed ∧ ((entry.pktInfo type).id = slot ∨ Elsewhere s macid type slot) := by
  have recorded := sound.recorded slot used
  have same : updInfo s.entryQ macid type (fun info => info) = s.entryQ := sound.unchanged found rfl
  rw [← same] at recorded
  exact (updInfo_recorded sound found).mp recorded

theorem Sound.info (type : PktType) : Right (entry.pktInfo type) := sound.right entry (getEntry_mem found).1 type
end

theorem Sound.seq (sound : Sound s) (seq : UInt32) : Sound {s with curSeq:=seq} := ⟨sound.apart,sound.right,sound.recorded⟩

section
variable (right : Right info)
include right

theorem Right.unused (free : isPktOfld info = false) :
    info.reqQ = [] ∧ info.reqCnt = 0 ∧ info.id = notUsed := by
  have id : info.id = notUsed := by simpa [isPktOfld] using free
  have none : ¬ 0 < info.reqCnt := fun some => right.offloaded.mpr some id
  have zero : info.reqCnt = 0 := by
    rw [lt_iff_toNat_lt] at none
    exact UInt32.toNat_inj.mp (by simpa using none)
  have counted := right.counted
  rw [zero] at counted
  exact ⟨length_eq_zero_iff.mp counted.symm,zero,id⟩

theorem Right.add (used : isPktOfld info) (token : UInt32) :
    Right (addReq token info) ↔ info.reqQ.length+1 < 2 ^ 32 := by
  have counted := right.counted
  have bounded := info.reqCnt.toNat_lt
  have next : (info.reqCnt+1).toNat = (info.reqCnt.toNat+1) % 2 ^ 32 := UInt32.toNat_add ..
  constructor
  · intro right'
    have counted' : (info.reqCnt+1).toNat = info.reqQ.length + 1 := right'.counted
    omega
  · intro room
    have id : info.id ≠ notUsed := by simpa [isPktOfld] using used
    refine ⟨?_,fun _ => ?_,fun _ => id⟩
    · change (info.reqCnt+1).toNat = info.reqQ.length+1
      omega
    · change 0 < info.reqCnt+1
      rw [lt_iff_toNat_lt,next]
      change 0 < _
      omega

theorem Right.del (held : token ∈ info.reqQ) (more : info.reqCnt - 1 ≠ 0) :
    Right (delReq token info) := by
  have counted := right.counted
  have some := length_pos_of_mem held
  have one : 1 ≤ info.reqCnt := by
    rw [le_iff_toNat_le]
    change 1 ≤ info.reqCnt.toNat
    omega
  have less : (info.reqCnt-1).toNat = info.reqCnt.toNat - 1 := UInt32.toNat_sub_of_le _ _ one
  refine ⟨?_,fun _ => ?_,fun _ => ?_⟩
  · change (info.reqCnt-1).toNat = (info.reqQ.erase token).length
    rw [less,length_erase_of_mem held,counted]
  · exact UInt32.pos_iff_ne_zero.mpr more
  · refine right.offloaded.mpr ?_
    rw [lt_iff_toNat_lt]
    change 0 < info.reqCnt.toNat
    omega

theorem Right.single : info.reqCnt - 1 = 0 ↔ info.reqQ.length = 1 := by
  have counted := right.counted
  rw [UInt32.sub_eq_iff_eq_add,UInt32.zero_add,← UInt32.toNat_inj,counted]
  rfl

theorem Right.held (held : token ∈ info.reqQ) : isPktOfld info := by
  have some := length_pos_of_mem held
  have counted := right.counted
  have id : info.id ≠ notUsed := by
    refine right.offloaded.mpr ?_
    rw [lt_iff_toNat_lt]
    change 0 < info.reqCnt.toNat
    omega
  simpa [isPktOfld] using id
end

theorem asks_unchanged (sound : Sound s) (after : (ofldStep s event).2 = s) : Kept s event := by
  refine ⟨?_,fun _ _ => ?_⟩
  · rw [after]
    exact sound
  · rw [after]
    exact ⟨rfl,rfl⟩

theorem addEntry_kept (sound : Sound s) (macid : Nat) (alloc : Bool) : Kept s (.addEntry macid alloc) := by
  refine ⟨?_,fun asks => asks.elim⟩
  simp only [ofldStep,phlPktOfldAddEntry]
  by_cases exist : isEntryExist s macid
  · rw [if_pos exist]
    exact sound
  rw [if_neg exist]
  split
  · exact sound
  have absent : macid ∉ s.entryQ.map Entry.macid := by
    intro member
    obtain ⟨entry,there,same⟩ := mem_map.mp member
    exact exist (any_eq_true.mpr ⟨entry,there,by simpa using same⟩)
  constructor
  · exact nodup_cons.mpr ⟨absent,sound.apart⟩
  · intro entry member type
    rcases mem_cons.mp member with rfl | there
    · exact ⟨rfl,fun used => absurd rfl used,fun some => absurd some (show ¬ (0 : UInt32) < 0 by decide)⟩
    · exact sound.right entry there type
  · intro slot used
    obtain ⟨real,entry,there,type,same⟩ := sound.recorded slot used
    exact ⟨real,entry,mem_cons_of_mem _ there,type,same⟩

theorem delEntry_kept (sound : Sound s) (macid : Nat) (dels : PktType → HalDel) :
    Kept s (.delEntry macid dels) ↔ DelEntryGuard s macid dels := by
  unfold DelEntryGuard
  cases found : getEntry s macid with
  | none =>
    refine ⟨fun _ => trivial,fun _ => asks_unchanged sound ?_⟩
    simp only [ofldStep,phlPktOfldDelEntry,found]
  | some entry =>
    obtain ⟨there,here⟩ := getEntry_mem found
    have after : (ofldStep s (.delEntry macid dels)).2 = {s with
        entryQ := s.entryQ.filter (fun other => other.macid ≠ macid),entryCnt := s.entryCnt - 1
        slots := delOfldType s.slots entry dels} := by simp only [ofldStep,phlPktOfldDelEntry,found]
    have gone (slot : UInt8) : slot ∈ delOfldType s.slots entry dels ↔ slot ∈ s.slots ∧
        ¬ ∃ type, isPktOfld (entry.pktInfo type) ∧ (entry.pktInfo type).id = slot ∧ (dels type).freed :=
      mem_filter
    constructor
    · rintro ⟨kept,_⟩ type used
      rw [after] at kept
      by_cases freed : ∃ other, (entry.pktInfo other).id = (entry.pktInfo type).id ∧ (dels other).freed
      · exact .inl freed
      · right
        have left : (entry.pktInfo type).id ∈ delOfldType s.slots entry dels :=
          (gone _).mpr ⟨used,fun hit => freed (hit.imp fun _ hit => hit.2)⟩
        obtain ⟨_,other,member,at',same⟩ := kept.recorded _ left
        obtain ⟨stood,apart⟩ := mem_filter.mp member
        exact ⟨other,stood,by simpa using apart,at',same⟩
    · intro guarded
      refine ⟨?_,fun asks => asks.elim⟩
      rw [after]
      refine ⟨sound.apart.sublist (filter_sublist.map _),?_,?_⟩
      · intro other member type
        exact sound.right other (mem_of_mem_filter member) type
      · intro slot left
        obtain ⟨used,unfreed⟩ := (gone slot).mp left
        obtain ⟨real,other,stood,type,same⟩ := sound.recorded slot used
        refine ⟨real,?_⟩
        by_cases named : other.macid = macid
        · cases sound.same found stood named
          subst same
          rcases guarded type used with ⟨at',same,freed⟩ | ⟨other,stood,apart,at',same⟩
          · refine absurd ⟨at',?_,same,freed⟩ unfreed
            simpa [isPktOfld,same] using real
          · exact ⟨other,mem_filter.mpr ⟨stood,by simpa using apart⟩,at',same⟩
        · exact ⟨other,mem_filter.mpr ⟨stood,by simpa using named⟩,type,same⟩

def enqueued (s : OfldObj) (macid : Nat) (type : PktType) : OfldObj :=
  ({s with curSeq:=s.curSeq + 1} : OfldObj).onInfo macid type (addReq s.curSeq)

theorem request_eq (found : getEntry s macid = some entry) (req : env.req) (name : env.name) :
    ofldStep s (.request macid type env) =
      (if (reqType (enqueued s macid type) entry type env).1 = .success then
        (.success,(reqType (enqueued s macid type) entry type env).2)
      else (.failure,(reqType (enqueued s macid type) entry type env).2.onInfo macid type (delReq s.curSeq))) := by
  simp only [ofldStep,phlPktOfldRequest,found,req,name,enqueued]
  simp only [Bool.not_true,Bool.false_eq_true,reduceIte]
  split
  · rename_i done
    exact (if_pos done).symm
  · rename_i failed
    exact (if_neg failed).symm

theorem undone (token : UInt32) (info : PktInfo) : delReq token (addReq token info) = info := by
  cases info with
  | mk reqQ reqCnt id => simp [delReq,addReq]

theorem further_kept (sound : Sound s) (found : getEntry s macid = some entry) (req : env.req) (name : env.name)
    (used : isPktOfld (entry.pktInfo type)) :
    Kept s (.request macid type env) ↔ (entry.pktInfo type).reqQ.length + 1 < 2 ^ 32 := by
  have after : ofldStep s (.request macid type env) = (.success,enqueued s macid type) := by
    have typed : reqType (enqueued s macid type) entry type env = (.success,enqueued s macid type) := by
      unfold reqType
      rw [if_pos used]
    rw [request_eq found req name,typed]
    rfl
  have right : (∀ other ∈ updInfo s.entryQ macid type (addReq s.curSeq), ∀ type, Right (other.pktInfo type)) ↔
      Right (addReq s.curSeq (entry.pktInfo type)) := updInfo_right sound found
  constructor
  · rintro ⟨kept,_⟩
    rw [after] at kept
    exact ((sound.info found type).add used _).mp (right.mp kept.right)
  · intro room
    refine ⟨?_,fun _ failed => absurd (by rw [after]) failed⟩
    rw [after]
    refine ⟨?_,right.mpr (((sound.info found type).add used _).mpr room),?_⟩
    · exact sound.still_apart
    · intro slot held
      exact (updInfo_recorded sound found).mpr (sound.place found type held)

theorem fails_kept (sound : Sound s) (after : ofldStep s (.request macid type env) = (.failure,t))
    (entryQ : t.entryQ = s.entryQ) :
    Kept s (.request macid type env) ↔ t.slots = s.slots := by
  constructor
  · rintro ⟨_,failing⟩
    rw [after] at failing
    exact (failing trivial nofun).2
  · intro slots
    rw [← Prod.eta (ofldStep s (.request macid type env))] at after
    obtain ⟨_,state⟩ := Prod.mk.inj after
    refine ⟨?_,fun _ _ => ?_⟩
    · rw [state]
      refine ⟨by rw [entryQ]; exact sound.apart,by rw [entryQ]; exact sound.right,?_⟩
      rw [entryQ,slots]
      exact sound.recorded
    · rw [state]
      exact ⟨entryQ,slots⟩

theorem unbuilt_kept (sound : Sound s) (found : getEntry s macid = some entry) (req : env.req)
    (name : env.name) (free : isPktOfld (entry.pktInfo type) = false)
    (unbuilt : (constructible type && env.constructed) = false) : Kept s (.request macid type env) := by
  have typed : reqType (enqueued s macid type) entry type env = (.failure,enqueued s macid type) := by
    unfold reqType
    rw [if_neg (by simp [free]),if_pos (by simp [unbuilt])]
  have after : ofldStep s (.request macid type env) =
      (.failure,(enqueued s macid type).onInfo macid type (delReq s.curSeq)) := by
    rw [request_eq found req name,typed]
    rfl
  refine (fails_kept sound after ?_).mpr rfl
  simp only [enqueued,OfldObj.onInfo,updInfo_updInfo,undone]
  exact sound.unchanged found rfl

def offloading (s : OfldObj) (macid : Nat) (type : PktType) (add : HalAdd) : OfldObj :=
  {(enqueued s macid type).onInfo macid type (setId add.id) with slots:=halAdd s.slots add}

theorem added_eq (found : getEntry s macid = some entry) (req : env.req) (name : env.name)
    (free : isPktOfld (entry.pktInfo type) = false) (built : (constructible type && env.constructed)) :
    ofldStep s (.request macid type env) = if env.add.success && env.updated then (.success,offloading s macid type env.add)
      else (.failure,((offloading s macid type env.add).onInfo macid type (setId notUsed)).onInfo macid type
        (delReq s.curSeq)) := by
  have here := (getEntry_mem found).2
  have typed : reqType (enqueued s macid type) entry type env =
      if env.add.success && env.updated then (.success,offloading s macid type env.add)
      else (.failure,(offloading s macid type env.add).onInfo macid type (setId notUsed)) := by
    unfold reqType
    rw [if_neg (by simp [free]),if_neg (by simp [built]),here]
    cases env.add.success <;> cases env.updated <;> rfl
  rw [request_eq found req name,typed]
  cases env.add.success && env.updated <;> rfl

theorem first_kept (sound : Sound s) (found : getEntry s macid = some entry) (req : env.req)
    (name : env.name) (free : isPktOfld (entry.pktInfo type) = false)
    (built : (constructible type && env.constructed)) :
    Kept s (.request macid type env) ↔
      if env.add.success && env.updated then env.add.id ≠ notUsed else env.add.stored → env.add.id ∈ s.slots := by
  obtain ⟨empty,zero,unused⟩ := (sound.info found type).unused free
  have after := added_eq (s := s) found req name free built
  cases outcome : env.add.success && env.updated with
  | false =>
    rw [outcome,if_neg Bool.false_ne_true] at after
    rw [if_neg Bool.false_ne_true]
    have restored : (((offloading s macid type env.add).onInfo macid type (setId notUsed)).onInfo macid type
        (delReq s.curSeq)).entryQ = s.entryQ := by
      simp only [offloading,enqueued,OfldObj.onInfo,updInfo_updInfo]
      apply sound.unchanged found
      have same := undone s.curSeq (entry.pktInfo type)
      cases info : entry.pktInfo type with
      | mk reqQ reqCnt id =>
        rw [info] at same unused
        simpa [setId,delReq,addReq] using unused.symm
    rw [fails_kept sound after restored]
    change halAdd s.slots env.add = s.slots ↔ _
    unfold halAdd
    split
    · rename_i stored
      rw [insert_eq_self]
      exact ⟨fun held _ => held,fun held => held stored⟩
    · rename_i lost
      exact ⟨fun _ stored => absurd stored lost,fun _ => rfl⟩
  | true =>
    rw [outcome,if_pos rfl] at after
    rw [if_pos rfl]
    have entryQ : (offloading s macid type env.add).entryQ =
        updInfo s.entryQ macid type (fun info => setId env.add.id (addReq s.curSeq info)) := updInfo_updInfo ..
    have right : (∀ other ∈ updInfo s.entryQ macid type (fun info => setId env.add.id (addReq s.curSeq info)),
        ∀ type, Right (other.pktInfo type)) ↔ Right (setId env.add.id (addReq s.curSeq (entry.pktInfo type))) :=
      updInfo_right sound found
    have own : Right (setId env.add.id (addReq s.curSeq (entry.pktInfo type))) ↔ env.add.id ≠ notUsed := by
      constructor
      · intro right'
        refine right'.offloaded.mpr ?_
        simp only [setId,addReq,zero]
        decide
      · intro real
        refine ⟨?_,fun _ => ?_,fun _ => real⟩
        · simp only [setId,addReq,zero,empty]
          rfl
        · simp only [setId,addReq,zero]
          decide
    constructor
    · rintro ⟨kept,_⟩
      rw [after] at kept
      have all := kept.right
      rw [entryQ] at all
      exact own.mp (right.mp all)
    · intro real
      refine ⟨?_,fun _ failed => absurd (by rw [after]) failed⟩
      rw [after]
      refine ⟨?_,?_,?_⟩
      · rw [entryQ,updInfo_macids]
        exact sound.apart
      · rw [entryQ]
        exact right.mpr (own.mpr real)
      · intro slot used
        rw [entryQ,updInfo_recorded sound found]
        change slot ∈ halAdd s.slots env.add at used
        have cases : slot = env.add.id ∨ slot ∈ s.slots := by
          unfold halAdd at used
          split at used
          · exact mem_insert.mp used
          · exact .inr used
        rcases cases with rfl | held
        · exact ⟨real,.inl rfl⟩
        · obtain ⟨real',place⟩ := sound.place found type held
          refine ⟨real',.inr (place.resolve_left ?_)⟩
          rw [unused]
          exact real'.symm

theorem request_kept (sound : Sound s) (macid : Nat) (type : PktType) (env : ReqEnv) :
    Kept s (.request macid type env) ↔ RequestGuard s macid type env := by
  unfold RequestGuard
  cases found : getEntry s macid with
  | none =>
    refine ⟨fun _ => trivial,fun _ => asks_unchanged sound ?_⟩
    simp only [ofldStep,phlPktOfldRequest,found]
  | some entry =>
    dsimp only
    by_cases req : env.req
    swap
    · refine ⟨fun _ req' => absurd req' req,fun _ => asks_unchanged sound ?_⟩
      simp [ofldStep,phlPktOfldRequest,found,req]
    by_cases name : env.name
    swap
    · have after : ofldStep s (.request macid type env) = (.resource,{s with curSeq:=s.curSeq + 1}) := by
        simp [ofldStep,phlPktOfldRequest,found,req,name]
      refine ⟨fun _ _ name' => absurd name' name,fun _ => ⟨?_,fun _ _ => ?_⟩⟩
      · rw [after]
        exact sound.seq _
      · rw [after]
        exact ⟨rfl,rfl⟩
    cases used : isPktOfld (entry.pktInfo type) with
    | true =>
      rw [further_kept sound found req name used]
      simp [req,name]
    | false =>
      cases built : constructible type && env.constructed with
      | true =>
        rw [first_kept sound found req name used built]
        simp only [Bool.and_eq_true] at built
        simp [req,name,built]
      | false =>
        refine ⟨fun _ _ _ => ?_,fun _ => unbuilt_kept sound found req name used built⟩
        rw [if_neg Bool.false_ne_true]
        intro one two
        rw [one,two] at built
        cases built

theorem last_eq (found : getEntry s macid = some entry) (held : token ∈ (entry.pktInfo type).reqQ)
    (used : isPktOfld (entry.pktInfo type)) (last : (entry.pktInfo type).reqCnt - 1 = 0) :
    ofldStep s (.cancel macid type token del) =
      if del.success then (.success,{s with
        entryQ := updInfo s.entryQ macid type (fun info => delReq token (setId notUsed info))
        slots := halDel s.slots (entry.pktInfo type).id del})
      else (.failure,{s with slots:=halDel s.slots (entry.pktInfo type).id del}) := by
  have here := (getEntry_mem found).2
  simp only [ofldStep,phlPktOfldCancel,found,cancelType,used,last,here]
  rw [if_neg (by simpa using held)]
  cases del.success
  · rfl
  · simp [OfldObj.onInfo,updInfo_updInfo]

section
variable (sound : Sound s) (found : getEntry s macid = some entry) (held : token ∈ (entry.pktInfo type).reqQ)
include sound found held

theorem counted_kept
    (more : (entry.pktInfo type).reqCnt - 1 ≠ 0) : Kept s (.cancel macid type token del) := by
  have used := (sound.info found type).held held
  have after : ofldStep s (.cancel macid type token del) = (.success,s.onInfo macid type (delReq token)) := by
    simp only [ofldStep,phlPktOfldCancel,found,cancelType,used]
    rw [if_neg (by simpa using held)]
    simp [more]
  refine ⟨?_,fun _ failed => absurd (by rw [after]) failed⟩
  rw [after]
  refine ⟨?_,(updInfo_right sound found).mpr ((sound.info found type).del held more),?_⟩
  · exact sound.still_apart
  · intro slot still
    exact (updInfo_recorded sound found).mpr (sound.place found type still)

theorem last_kept
    (last : (entry.pktInfo type).reqCnt - 1 = 0) :
    Kept s (.cancel macid type token del) ↔ ((entry.pktInfo type).id ∈ s.slots →
      if del.success then del.freed ∨ Elsewhere s macid type (entry.pktInfo type).id else del.freed = false) := by
  have right := sound.info found type
  have used := right.held held
  have real : (entry.pktInfo type).id ≠ notUsed := by simpa [isPktOfld] using used
  have after : ofldStep s (.cancel macid type token del) = _ := last_eq found held used last
  cases done : del.success with
  | false =>
    rw [done,if_neg Bool.false_ne_true] at after
    simp only [Bool.false_eq_true,reduceIte]
    constructor
    · rintro ⟨_,failing⟩ stored
      rw [after] at failing
      have same : halDel s.slots (entry.pktInfo type).id del = s.slots := (failing trivial nofun).2
      unfold halDel at same
      split at same
      · rw [erase_eq_self] at same
        exact absurd stored same
      · rename_i unfreed
        simpa using unfreed
    · intro guarded
      have same : halDel s.slots (entry.pktInfo type).id del = s.slots := by
        unfold halDel
        split
        · rename_i freed
          rw [erase_eq_self]
          intro stored
          rw [guarded stored] at freed
          cases freed
        · rfl
      rw [same] at after
      exact asks_unchanged sound (by rw [after])
  | true =>
    rw [done,if_pos rfl] at after
    rw [if_pos rfl]
    have single : (entry.pktInfo type).reqQ.length = 1 := right.single.mp last
    have mem (slot : UInt8) : slot ∈ halDel s.slots (entry.pktInfo type).id del ↔
        slot ∈ s.slots ∧ (slot = (entry.pktInfo type).id → del.freed = false) := by
      unfold halDel
      split
      · rename_i freed
        rw [mem_erase,freed]
        simp [and_comm]
      · rename_i unfreed
        simp only [Bool.not_eq_true] at unfreed
        simp [unfreed]
    constructor
    · rintro ⟨kept,_⟩ stored
      rw [after] at kept
      cases freed : del.freed with
      | true => exact .inl rfl
      | false =>
        have recorded := kept.recorded _ ((mem _).mpr ⟨stored,fun _ => freed⟩)
        rw [updInfo_recorded sound found] at recorded
        refine .inr (recorded.2.resolve_left ?_)
        exact fun same => real same.symm
    · intro guarded
      refine ⟨?_,fun _ failed => absurd (by rw [after]) failed⟩
      rw [after]
      refine ⟨?_,(updInfo_right sound found).mpr ?_,?_⟩
      · exact sound.still_apart
      · refine ⟨?_,fun used => absurd rfl used,fun some => ?_⟩
        · change ((entry.pktInfo type).reqCnt - 1).toNat = ((entry.pktInfo type).reqQ.erase token).length
          rw [last,length_erase_of_mem held,single]
          rfl
        · change 0 < (entry.pktInfo type).reqCnt - 1 at some
          rw [last] at some
          exact absurd some (by decide)
      · intro slot left
        obtain ⟨stored,unfreed⟩ := (mem slot).mp left
        rw [updInfo_recorded sound found]
        obtain ⟨real',place⟩ := sound.place found type stored
        refine ⟨real',.inr ?_⟩
        by_cases own : slot = (entry.pktInfo type).id
        · subst own
          refine (guarded stored).resolve_left ?_
          rw [unfreed rfl]
          exact Bool.false_ne_true
        · exact place.resolve_left (fun same => own same.symm)
end

theorem cancel_kept (sound : Sound s) (macid : Nat) (type : PktType) (token : UInt32) (del : HalDel) :
    Kept s (.cancel macid type token del) ↔ CancelGuard s macid type token del := by
  unfold CancelGuard
  cases found : getEntry s macid with
  | none =>
    refine ⟨fun _ => trivial,fun _ => asks_unchanged sound ?_⟩
    simp only [ofldStep,phlPktOfldCancel,found]
  | some entry =>
    dsimp only
    by_cases held : token ∈ (entry.pktInfo type).reqQ
    swap
    · refine ⟨fun _ held' => absurd held' held,fun _ => asks_unchanged sound ?_⟩
      simp [ofldStep,phlPktOfldCancel,found,held]
    by_cases last : (entry.pktInfo type).reqCnt - 1 = 0
    · rw [last_kept sound found held last]
      have single := (sound.info found type).single.mp last
      exact ⟨fun guarded _ _ => guarded,fun guarded => guarded held single⟩
    · refine ⟨fun _ _ single => ?_,fun _ => counted_kept sound found held last⟩
      exact absurd ((sound.info found type).single.mpr single) last

theorem ofldStep_kept (sound : Sound s) (event : OfldEvent) : Kept s event ↔ OfldGuard s event := by
  cases event with
  | addEntry macid alloc => exact ⟨fun _ => trivial,fun _ => addEntry_kept sound macid alloc⟩
  | delEntry macid dels => exact delEntry_kept sound macid dels
  | request macid type env => exact request_kept sound macid type env
  | cancel macid type token del => exact cancel_kept sound macid type token del

def ofldRun (s : OfldObj) (event : OfldEvent) : OfldObj := (ofldStep s event).2
theorem init_sound : Sound .init := ⟨nodup_nil,nofun,fun slot used => absurd used (notMem_empty slot)⟩

theorem pkt_ofld_kept (path : Reached ofldRun OfldGuard .init s) : Sound s ∧ ∀ event, Kept s event ↔ OfldGuard s event := by
  have sound : Sound s := path.invariant Sound init_sound (fun _ event kept allowed => ((ofldStep_kept kept event).mpr allowed).sound)
  exact ⟨sound,ofldStep_kept sound⟩

def refuses : HalAdd := ⟨false,3,false⟩

def wowlan : List OfldEvent :=
  [.addEntry 4 true,.addEntry 4 true,.request 4 .nullData {add:=refuses},.request 4 .nullData {add:=⟨true,0,true⟩},
    .request 4 .nullData {add:=refuses},.request 4 .psPoll {add:=⟨true,1,true⟩},.request 4 .ndp {add:=⟨false,0,true⟩},
    .cancel 4 .nullData 1 ⟨false,false⟩,.cancel 4 .nullData 2 ⟨false,false⟩,.addEntry 9 false,.addEntry 9 true,
    .request 9 .arpRsp {add:=⟨true,7,true⟩,name:=false},.request 9 .arpRsp {add:=⟨true,7,true⟩},
    .delEntry 9 (fun _ => ⟨false,true⟩)]

theorem pkt_ofld_kept_wowlan :
    let s := run ofldRun .init wowlan
    Admitted ofldRun OfldGuard .init wowlan ∧ s.entryQ.map Entry.macid = [4] ∧ s.slots = {0} ∧
    Sound s ∧ ∀ event, Kept s event ↔ OfldGuard s event := by
  have admitted : Admitted ofldRun OfldGuard .init wowlan := by decide +kernel
  exact ⟨admitted,by decide +kernel,by decide +kernel,pkt_ofld_kept (Reached.start.run admitted)⟩

-- The update of the general ids fails after the firmware stored the packet; and
-- the delete of a removed entry's packet does not reach the firmware.
theorem pkt_ofld_leaked :
    ¬ Kept (run ofldRun .init [.addEntry 4 true]) (.request 4 .nullData {add := ⟨true,0,true⟩,updated := false}) ∧
    ¬ Sound (run ofldRun .init [.addEntry 4 true,.request 4 .nullData {add := ⟨true,0,true⟩},
      .delEntry 4 (fun _ => ⟨true,false⟩)]) := by
  constructor
  · rintro ⟨_,failing⟩
    have changed : (ofldStep (run ofldRun .init [.addEntry 4 true])
      (.request 4 .nullData {add := ⟨true,0,true⟩,updated := false})).2.slots ≠ (run ofldRun .init [.addEntry 4 true]).slots := by
      decide +kernel
    exact changed (failing trivial (by decide +kernel)).2
  · rintro ⟨_,_,recorded⟩
    obtain ⟨_,entry,member,_⟩ := recorded 0 (by decide +kernel)
    have none : (run ofldRun .init [.addEntry 4 true,.request 4 .nullData {add := ⟨true,0,true⟩},
      .delEntry 4 (fun _ => ⟨true,false⟩)]).entryQ.length = 0 := by decide +kernel
    rw [length_eq_zero_iff.mp none] at member
    cases member
end Rtl8852au.PktOfld
