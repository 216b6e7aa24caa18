import Mathlib.Data.Finset.Card
import Mathlib.Data.Finset.Range
import Rtl8852au.OfldAck

namespace Rtl8852au.OfldAck
open CmdOfld Machine Finset Function

-- The loop over id_bitmap; it ends with the last id when every other bit is set.
def allocId (idBitmap : Nat → Bool) : Nat :=
  ((List.range (pktOfldMaxCount-1)).find? (fun id => !idBitmap id)).getD (pktOfldMaxCount-1)

structure Ids where
  pkt : Pkt
  current : Nat
  awaiting : List Nat

inductive IdEvent where
  | call (op : PktOp) (name : Fin 256) (ready : Bool)
  | go (tx : Tx)
  | rsp (op : PktOp) (id : Fin 256) (len : Nat)
  | ack (ret : Bool)
  | macPktOfldPacket (malloc : Bool)
  | macResetFwofldState

def IdEvent.pkt : IdEvent → Option PktEvent
  | .call op name ready => some (.call op name.val ready)
  | .go tx => some (.go tx)
  | .rsp op id len => some (.rsp op id.val len)
  | .ack ret => some (.ack ret)
  | .macPktOfldPacket malloc => some (.macPktOfldPacket malloc)
  | .macResetFwofldState => none

def Ids.chosen (s : Ids) : IdEvent → Nat
  | .call .. => match s.pkt.pc with
    | .away => allocId s.pkt.idBitmap
    | _ => s.current
  | _ => s.current

def Ids.pending (s : Ids) : IdEvent → List Nat
  | .go .ok => if s.pkt.pc = .begun .add then s.current :: s.awaiting else s.awaiting
  | .rsp .add id _ => s.awaiting.erase id.val
  | _ => s.awaiting

def idStep (s : Ids) (event : IdEvent) : Ids :=
  ⟨match event.pkt with
    | some event => s.pkt.step event
    | none => {s.pkt with state:=.idle},s.chosen event,s.pending event⟩

def Ids.init : Ids := ⟨.init,0,[]⟩
def bitsSet (idBitmap : Nat → Bool) : Finset Nat := (Finset.range pktOfldMaxCount).filter (fun id => idBitmap id)

structure Counted (pkt : Pkt) : Prop where
  total : pkt.freeIdCount + pkt.usedIdCount = pktOfldMaxCount - 1
  used : pkt.usedIdCount = (bitsSet pkt.idBitmap).card

-- The call of mac_add_pkt_ofld that takes the state machine, and so chooses an id.
def Ids.Allocates (s : Ids) : IdEvent → Prop
  | .call .add name ready => s.pkt.pc = .away ∧ admitted s.pkt .add name.val ready
  | _ => False

structure IdSound (s : Ids) (event : IdEvent) : Prop where
  counted : Counted (idStep s event).pkt
  handed : s.Allocates event → (idStep s event).current < pktOfldMaxCount - 1 ∧
    s.pkt.idBitmap (idStep s event).current = false ∧ (idStep s event).current ∉ s.awaiting

-- A response counts a change of the bit it names, and no add starts while the
-- first clear id is one whose response is still to come.
def IdGuard (s : Ids) : IdEvent → Prop
  | .rsp .add id len => len ≠ 0 → s.pkt.idBitmap id.val = false ∧ s.pkt.freeIdCount ≠ 0
  | .rsp .del id len => len ≠ 0 → s.pkt.idBitmap id.val
  | .call .add name ready => s.pkt.pc = .away → admitted s.pkt .add name.val ready →
    ∀ id ∈ s.awaiting, id < pktOfldMaxCount - 1 → s.pkt.idBitmap id ∨ ∃ lower < id, s.pkt.idBitmap lower = false
  | _ => True

instance (s : Ids) (event : IdEvent) : Decidable (IdGuard s event) := by
  unfold IdGuard
  split <;> infer_instance

theorem bitsSet_set {id : Nat} (clear : idBitmap id = false) (inside : id < pktOfldMaxCount) :
    bitsSet (update idBitmap id true) = insert id (bitsSet idBitmap) ∧ id ∉ bitsSet idBitmap := by
  constructor
  · ext other
    by_cases same : other = id
    · subst same
      simp [bitsSet,inside]
    · simp [bitsSet,same]
  · simp [bitsSet,clear]

theorem bitsSet_same {id : Nat} (same : idBitmap id = bit) : update idBitmap id bit = idBitmap := by
  rw [← same]
  exact update_eq_self id idBitmap

theorem bitsSet_unset {id : Nat} (set : idBitmap id) (inside : id < pktOfldMaxCount) :
    bitsSet (update idBitmap id false) = (bitsSet idBitmap).erase id ∧ id ∈ bitsSet idBitmap := by
  constructor
  · ext other
    by_cases same : other = id
    · subst same
      simp [bitsSet]
    · simp [bitsSet,same]
  · simp [bitsSet,set,inside]

theorem allocId_clear (room : (bitsSet idBitmap).card < pktOfldMaxCount - 1) :
    allocId idBitmap < pktOfldMaxCount - 1 ∧ idBitmap (allocId idBitmap) = false ∧
    ∀ lower < allocId idBitmap, idBitmap lower := by
  unfold allocId
  cases found : (List.range (pktOfldMaxCount-1)).find? (fun id => !idBitmap id) with
  | none =>
    have all : ∀ id < pktOfldMaxCount - 1, idBitmap id := by
      intro id inside
      simpa using List.find?_eq_none.mp found id (List.mem_range.mpr inside)
    have covered : range (pktOfldMaxCount-1) ⊆ bitsSet idBitmap := by
      intro id member
      have inside := mem_range.mp member
      exact mem_filter.mpr ⟨mem_range.mpr (Nat.lt_of_lt_of_le inside (by decide)),all id inside⟩
    have many := card_le_card covered
    rw [card_range] at many
    omega
  | some id =>
    obtain ⟨clear,i,inside,here,before⟩ := List.find?_eq_some_iff_getElem.mp found
    rw [List.getElem_range] at here
    subst here
    rw [List.length_range] at inside
    refine ⟨inside,by simpa using clear,?_⟩
    intro lower below
    have taken := before lower below
    rw [List.getElem_range] at taken
    simpa using taken

structure SameIds (a b : Pkt) : Prop where
  idBitmap : b.idBitmap = a.idBitmap
  freeIdCount : b.freeIdCount = a.freeIdCount
  usedIdCount : b.usedIdCount = a.usedIdCount

theorem SameIds.counted (same : SameIds a b) : Counted b ↔ Counted a := by
  constructor
  · rintro ⟨total,used⟩
    rw [same.freeIdCount,same.usedIdCount] at total
    rw [same.usedIdCount,same.idBitmap] at used
    exact ⟨total,used⟩
  · rintro ⟨total,used⟩
    constructor
    · rw [same.freeIdCount,same.usedIdCount]
      exact total
    · rw [same.usedIdCount,same.idBitmap]
      exact used

theorem call_same (s : Pkt) (op : PktOp) (name : Nat) (ready : Bool) : SameIds s (s.step (.call op name ready)) := by
  simp only [Pkt.step]
  split
  · split <;> exact ⟨rfl,rfl,rfl⟩
  · exact ⟨rfl,rfl,rfl⟩

theorem go_same (s : Pkt) (tx : Tx) : SameIds s (s.step (.go tx)) := by
  simp only [Pkt.step,Pkt.go]
  split
  · exact ⟨rfl,rfl,rfl⟩
  · cases tx <;> exact ⟨rfl,rfl,rfl⟩
  · exact ⟨rfl,rfl,rfl⟩

theorem ack_same (s : Pkt) (ret : Bool) : SameIds s (s.step (.ack ret)) := by
  simp only [Pkt.step,c2hFwofldRcvAckHdl,c2hFwofldDoneAckHdl]
  split
  · exact ⟨rfl,rfl,rfl⟩
  · split <;> exact ⟨rfl,rfl,rfl⟩
  · split <;> exact ⟨rfl,rfl,rfl⟩

theorem packet_same (s : Pkt) (malloc : Bool) : SameIds s (s.step (.macPktOfldPacket malloc)) := by
  simp only [Pkt.step]
  split <;> exact ⟨rfl,rfl,rfl⟩

theorem rsp_add_counted (counted : Counted pkt) (id : Fin 256) (len : Nat) :
    Counted (c2hPktOfldRspHdl pkt .add id.val len) ↔ (len ≠ 0 → pkt.idBitmap id.val = false ∧ pkt.freeIdCount ≠ 0) := by
  obtain ⟨total,used⟩ := counted
  change pkt.freeIdCount + pkt.usedIdCount = 255 at total
  by_cases empty : len = 0
  · simp only [c2hPktOfldRspHdl,empty,reduceIte]
    exact ⟨fun _ none => absurd rfl none,fun _ => ⟨total,used⟩⟩
  simp only [c2hPktOfldRspHdl,empty,reduceIte]
  constructor
  · rintro ⟨total',used'⟩ _
    change _ = 255 at total'
    simp only [u16Sub,u16Add] at total' used'
    cases bit : pkt.idBitmap id.val with
    | true =>
      rw [bitsSet_same bit] at used'
      omega
    | false =>
      obtain ⟨grown,new⟩ := bitsSet_set bit id.isLt
      rw [grown,card_insert_of_notMem new] at used'
      exact ⟨rfl,by omega⟩
  · intro counts
    obtain ⟨bit,free⟩ := counts empty
    obtain ⟨grown,new⟩ := bitsSet_set bit id.isLt
    constructor
    · change u16Sub pkt.freeIdCount 1 + u16Add pkt.usedIdCount 1 = 255
      simp only [u16Sub,u16Add]
      omega
    · simp only [u16Add,grown,card_insert_of_notMem new]
      omega

theorem rsp_del_counted (counted : Counted pkt) (id : Fin 256) (len : Nat) :
    Counted (c2hPktOfldRspHdl pkt .del id.val len) ↔ (len ≠ 0 → pkt.idBitmap id.val) := by
  obtain ⟨total,used⟩ := counted
  change pkt.freeIdCount + pkt.usedIdCount = 255 at total
  by_cases empty : len = 0
  · simp only [c2hPktOfldRspHdl,empty,reduceIte]
    exact ⟨fun _ none => absurd rfl none,fun _ => ⟨total,used⟩⟩
  simp only [c2hPktOfldRspHdl,empty,reduceIte]
  constructor
  · rintro ⟨total',used'⟩ _
    change _ = 255 at total'
    simp only [u16Sub,u16Add] at total' used'
    cases bit : pkt.idBitmap id.val with
    | true => rfl
    | false =>
      rw [bitsSet_same bit] at used'
      omega
  · intro counts
    obtain ⟨shrunk,held⟩ := bitsSet_unset (counts empty) id.isLt
    have some : 0 < (bitsSet pkt.idBitmap).card := card_pos.mpr ⟨_,held⟩
    constructor
    · change u16Add pkt.freeIdCount 1 + u16Sub pkt.usedIdCount 1 = 255
      simp only [u16Sub,u16Add]
      omega
    · simp only [u16Sub,shrunk,card_erase_of_mem held]
      omega

theorem init_counted : Counted Ids.init.pkt := by
  constructor
  · rfl
  · simp [Ids.init,Pkt.init,bitsSet]

theorem alloc_handed {s : Ids} (counted : Counted s.pkt) (ready : admitted s.pkt .add name ready) :
    (∀ id ∈ s.awaiting, id < pktOfldMaxCount - 1 → s.pkt.idBitmap id ∨ ∃ lower < id, s.pkt.idBitmap lower = false) ↔
    allocId s.pkt.idBitmap < pktOfldMaxCount - 1 ∧ s.pkt.idBitmap (allocId s.pkt.idBitmap) = false ∧
      allocId s.pkt.idBitmap ∉ s.awaiting := by
  have free : s.pkt.freeIdCount ≠ 0 := by
    simp only [admitted,Bool.and_eq_true,bne_iff_ne,ne_eq] at ready
    exact ready.1.2
  have total := counted.total
  have room : (bitsSet s.pkt.idBitmap).card < pktOfldMaxCount - 1 := by
    rw [← counted.used]
    omega
  obtain ⟨inside,clear,before⟩ := allocId_clear room
  constructor
  · intro passed
    refine ⟨inside,clear,?_⟩
    intro waits
    rcases passed _ waits inside with set | ⟨lower,below,unset⟩
    · rw [clear] at set
      cases set
    · rw [before lower below] at unset
      cases unset
  · rintro ⟨_,_,idle⟩ id waits inside'
    rcases Nat.lt_trichotomy id (allocId s.pkt.idBitmap) with below | same | above
    · exact .inl (before id below)
    · subst same
      exact absurd waits idle
    · exact .inr ⟨_,above,clear⟩

theorem idSound_iff {s : Ids} (counted : Counted s.pkt) (event : IdEvent) : IdSound s event ↔ IdGuard s event := by
  cases event with
  | call op name ready =>
    have same : Counted (idStep s (.call op name ready)).pkt := (call_same s.pkt op name.val ready).counted.mpr counted
    cases op with
    | add =>
      constructor
      · rintro ⟨_,handed⟩ away ready'
        have chosen : (idStep s (.call .add name ready)).current = allocId s.pkt.idBitmap := by
          simp only [idStep,Ids.chosen,away]
        have good := handed ⟨away,ready'⟩
        rw [chosen] at good
        exact (alloc_handed counted ready').mpr good
      · intro guarded
        refine ⟨same,?_⟩
        rintro ⟨away,ready'⟩
        have chosen : (idStep s (.call .add name ready)).current = allocId s.pkt.idBitmap := by
          simp only [idStep,Ids.chosen,away]
        rw [chosen]
        exact (alloc_handed counted ready').mp (guarded away ready')
    | del => exact ⟨fun _ => trivial,fun _ => ⟨same,nofun⟩⟩
    | read => exact ⟨fun _ => trivial,fun _ => ⟨same,nofun⟩⟩
  | go tx => exact ⟨fun _ => trivial,fun _ => ⟨(go_same s.pkt tx).counted.mpr counted,nofun⟩⟩
  | rsp op id len =>
    cases op with
    | add => exact ⟨fun sound => (rsp_add_counted counted id len).mp sound.counted,
        fun guarded => ⟨(rsp_add_counted counted id len).mpr guarded,nofun⟩⟩
    | del => exact ⟨fun sound => (rsp_del_counted counted id len).mp sound.counted,
        fun guarded => ⟨(rsp_del_counted counted id len).mpr guarded,nofun⟩⟩
    | read =>
      have same : Counted (c2hPktOfldRspHdl s.pkt .read id.val len) := by
        unfold c2hPktOfldRspHdl
        split <;> exact counted
      exact ⟨fun _ => trivial,fun _ => ⟨same,nofun⟩⟩
  | ack ret => exact ⟨fun _ => trivial,fun _ => ⟨(ack_same s.pkt ret).counted.mpr counted,nofun⟩⟩
  | macPktOfldPacket malloc => exact ⟨fun _ => trivial,fun _ => ⟨(packet_same s.pkt malloc).counted.mpr counted,nofun⟩⟩
  | macResetFwofldState => exact ⟨fun _ => trivial,fun _ => ⟨⟨counted.total,counted.used⟩,nofun⟩⟩

theorem pkt_ofld_ids_counted (path : Reached idStep IdGuard .init s) :
    Counted s.pkt ∧ ∀ event, IdSound s event ↔ IdGuard s event := by
  have counted : Counted s.pkt := by
    apply path.invariant (fun s => Counted s.pkt) init_counted
    intro s event counted allowed
    exact ((idSound_iff counted event).mpr allowed).counted
  exact ⟨counted,idSound_iff counted⟩

def offloads : List IdEvent :=
  [.call .add 0 true,.go .ok,.go .ok,.ack true,.rsp .add 0 20,.ack true,.call .add 0 true,.go .ok,.go .ok,
    .ack true,.ack true,.call .read 0 true,.go .refused,.rsp .add 1 9,.call .del 0 true,.go .ok,.go .ok,
    .rsp .del 0 0,.ack true,.ack true,.rsp .del 0 20,.call .add 0 true,.go .noPacket,.macResetFwofldState,.call .add 0 true]

theorem pkt_ofld_ids_counted_offloads :
    let s := run idStep .init offloads
    Admitted idStep IdGuard .init offloads ∧ s.pkt.usedIdCount = 1 ∧ s.current = 0 ∧
    Counted s.pkt ∧ ∀ event, IdSound s event ↔ IdGuard s event := by
  have admitted : Admitted idStep IdGuard .init offloads := by decide +kernel
  exact ⟨admitted,by decide +kernel,by decide +kernel,pkt_ofld_ids_counted (Reached.start.run admitted)⟩

def added : List IdEvent := [.call .add 0 true,.go .ok,.go .ok,.ack true,.ack true]

theorem pkt_ofld_ids_miscounted :
    ¬ Counted (run idStep .init (added ++ [.rsp .add 0 20,.rsp .add 0 20])).pkt ∧
    ¬ IdSound (run idStep .init added) (.call .add 0 true) := by
  constructor
  · rintro ⟨_,used⟩
    have wrong : (run idStep .init (added ++ [.rsp .add 0 20,.rsp .add 0 20])).pkt.usedIdCount ≠
      (bitsSet (run idStep .init (added ++ [.rsp .add 0 20,.rsp .add 0 20])).pkt.idBitmap).card := by decide +kernel
    exact wrong used
  · rintro ⟨_,handed⟩
    have takes : (run idStep .init added).Allocates (.call .add 0 true) := ⟨by decide +kernel,by decide +kernel⟩
    have again : (idStep (run idStep .init added) (.call .add 0 true)).current ∈ (run idStep .init added).awaiting := by
      decide +kernel
    exact (handed takes).2.2 again
end Rtl8852au.OfldAck
