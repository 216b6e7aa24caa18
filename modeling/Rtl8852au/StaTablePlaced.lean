import Rtl8852au.Slots
import Rtl8852au.StaTable

namespace Rtl8852au.Sta
open Finset Function
variable {threads : Nat}
open Role (MacAddr)

def todoOf : Option Sweep → List StaIdx
  | none => []
  | some left => left.todo

def handOf : Option Call → List StaIdx
  | some (.release sta .unhashed rest) => sta :: todoOf rest
  | some (.release _ .listed rest) => todoOf rest
  | some (.sweep left) => left.todo
  | _ => []

def owedOf : Option Call → List StaIdx
  | some (.release _ _ rest) => todoOf rest
  | some (.sweep left) => left.todo
  | _ => []

def hashed (chains : StaIdx → List StaIdx) (sta : StaIdx) : Nat := ∑ index, (chains index).count sta
section
variable (calls : Fin threads → Option Call)

def held (sta : StaIdx) : Nat := ∑ t, (handOf (calls t)).count sta
def owed (sta : StaIdx) : Nat := ∑ t, (owedOf (calls t)).count sta

theorem hashed_pos : 0 < hashed chains sta ↔ ∃ index, sta ∈ chains (index : StaIdx) := by
  unfold hashed
  rw [Nat.pos_iff_ne_zero,Ne,sum_eq_zero_iff]
  simp [List.count_eq_zero]

theorem held_pos {calls : Fin threads → Option Call} : 0 < held calls sta ↔ ∃ t, sta ∈ handOf (calls t) := by
  unfold held
  rw [Nat.pos_iff_ne_zero,Ne,sum_eq_zero_iff]
  simp [List.count_eq_zero]

theorem held_update (t : Fin threads) (call : Option Call) (sta : StaIdx) :
    held (update calls t call) sta + (handOf (calls t)).count sta = held calls sta + (handOf call).count sta :=
  Slots.sum_update calls (fun call => (handOf call).count sta) t call

theorem owed_update (t : Fin threads) (call : Option Call) (sta : StaIdx) :
    owed (update calls t call) sta + (owedOf (calls t)).count sta = owed calls sta + (owedOf call).count sta :=
  Slots.sum_update calls (fun call => (owedOf call).count sta) t call
end

section
variable (chains : StaIdx → List StaIdx)

theorem hashed_append (index sta other : StaIdx) :
    hashed (update chains index (chains index ++ [sta])) other = hashed chains other + if other = sta then 1 else 0 := by
  have change : hashed (update chains index (chains index ++ [sta])) other + (chains index).count other =
      hashed chains other + (chains index ++ [sta]).count other :=
    Slots.sum_update chains (fun chain => chain.count other) index (chains index ++ [sta])
  have single : [sta].count other = if other = sta then 1 else 0 := by
    rw [List.count_singleton]
    simp only [beq_iff_eq]
    exact if_congr eq_comm rfl rfl
  rw [List.count_append,single] at change
  omega

theorem hashed_erase (sta other : StaIdx) (once : hashed chains sta ≤ 1) :
    hashed (fun index => (chains index).erase sta) other = if other = sta then 0 else hashed chains other := by
  unfold hashed
  split
  · rename_i same
    subst same
    apply sum_eq_zero
    intro index _
    have one : (chains index).count other ≤ hashed chains other :=
      single_le_sum (f := fun index => (chains index).count other) (fun _ _ => Nat.zero_le _) (mem_univ index)
    rw [List.count_erase_self]
    omega
  · rename_i different
    apply sum_congr rfl
    intro index _
    exact List.count_erase_of_ne different

theorem hashed_split (keep : StaIdx → Bool) (sta : StaIdx) :
    hashed (fun index => (chains index).filter keep) sta = (if keep sta then hashed chains sta else 0) ∧
    ((List.finRange numSta).flatMap (fun index => (chains index).filter (fun sta => !keep sta))).count sta =
      if keep sta then 0 else hashed chains sta := by
  constructor
  · unfold hashed
    split
    · rename_i kept
      apply sum_congr rfl
      intro index _
      exact List.count_filter kept
    · rename_i out
      apply sum_eq_zero
      intro index _
      rw [List.count_eq_zero,List.mem_filter]
      exact fun member => out member.2
  · rw [List.count_flatMap]
    split
    · rename_i kept
      rw [List.sum_eq_zero]
      intro n member
      obtain ⟨index,_,rfl⟩ := List.mem_map.mp member
      simp [List.count_eq_zero,kept]
    · rename_i out
      unfold hashed
      rw [Fin.sum_univ_def]
      congr 1
      apply List.map_congr_left
      intro index _
      exact List.count_filter (by simpa using out)
end

structure Placed (s : StaPriv threads) : Prop where
  once : ∀ sta, s.freeStaQueue.count sta + hashed s.staHash sta + held s.calls sta = 1
  total : s.asocStaCount = ∑ sta, ((hashed s.staHash sta + owed s.calls sta : Nat) : Int)

theorem total_more (f g : StaIdx → Nat) (sta : StaIdx) (more : ∀ other, f other = g other + if other = sta then 1 else 0) :
    ∑ other, ((f other : Nat) : Int) = ∑ other, ((g other : Nat) : Int) + 1 := by
  calc
    ∑ other, ((f other : Nat) : Int) = ∑ other, (((g other : Nat) : Int) + if other = sta then 1 else 0) := by
      apply sum_congr rfl
      intro other _
      rw [more other]
      split <;> simp
    _ = ∑ other, ((g other : Nat) : Int) + 1 := by
      rw [sum_add_distrib,sum_ite_eq' univ sta (fun _ => (1 : Int)),if_pos (mem_univ sta)]

theorem total_same (f g : StaIdx → Nat) (same : ∀ other, f other = g other) :
    ∑ other, ((f other : Nat) : Int) = ∑ other, ((g other : Nat) : Int) := by
  rw [funext same]

theorem Placed.setCall (placed : Placed s) (t : Fin threads) (call : Option Call) (hand : handOf call = handOf (s.calls t))
    (owe : owedOf call = owedOf (s.calls t)) :
    Placed (s.setCall t call) := by
  constructor
  · intro sta
    have change := held_update s.calls t call sta
    have before := placed.once sta
    rw [hand] at change
    unfold StaPriv.setCall
    dsimp only
    omega
  · unfold StaPriv.setCall
    dsimp only
    rw [placed.total]
    apply total_same
    intro sta
    have change := owed_update s.calls t call sta
    rw [owe] at change
    omega

theorem Placed.alloc (placed : Placed s) (addr : MacAddr) (idle : s.calls t = none) : Placed (rtwAllocCoreStainfo s t addr) := by
  unfold rtwAllocCoreStainfo
  split
  · exact placed
  · rename_i sta rest free
    dsimp only
    constructor
    · intro other
      have before := placed.once other
      have chain := hashed_append s.staHash (staIndex s.roleType s.macAddr addr) sta other
      have hand := held_update s.calls t (some (.alloc sta addr)) other
      rw [free,List.count_cons] at before
      rw [idle] at hand
      dsimp only [handOf] at hand ⊢
      split at chain <;> rename_i same <;> simp [same,Ne.symm] at before chain hand ⊢ <;> omega
    · dsimp only
      rw [placed.total]
      symm
      apply total_more _ _ sta
      intro other
      have chain := hashed_append s.staHash (staIndex s.roleType s.macAddr addr) sta other
      have owe := owed_update s.calls t (some (.alloc sta addr)) other
      rw [idle] at owe
      dsimp only [owedOf] at owe
      omega

theorem Placed.free (placed : Placed s) (idle : s.calls t = none) (there : sta ∈ s.staHash index) :
    Placed (rtwFreeStainfo s t sta none) := by
  have one : hashed s.staHash sta = 1 := by
    have before := placed.once sta
    have some : 0 < hashed s.staHash sta := hashed_pos.mpr ⟨index,there⟩
    omega
  unfold rtwFreeStainfo unhash StaPriv.setCall
  constructor
  · intro other
    have before := placed.once other
    have chain := hashed_erase s.staHash sta other (by omega)
    have hand := held_update s.calls t (some (.release sta .unhashed none)) other
    rw [idle] at hand
    dsimp only [handOf,todoOf] at hand ⊢
    rw [List.count_singleton] at hand
    split at chain <;> rename_i same <;> simp [same,Ne.symm] at before chain hand ⊢ <;> omega
  · dsimp only
    rw [placed.total,sub_eq_iff_eq_add]
    apply total_more _ _ sta
    intro other
    have chain := hashed_erase s.staHash sta other (by omega)
    have owe := owed_update s.calls t (some (.release sta .unhashed none)) other
    rw [idle] at owe
    dsimp only [owedOf,todoOf] at owe
    split at chain <;> rename_i same <;> simp [same] at one chain owe ⊢ <;> omega

theorem Placed.next (placed : Placed s) (call : s.calls t = some (.sweep ⟨kept,since,sta :: todo⟩)) :
    Placed (rtwFreeStainfo s t sta (some ⟨kept,since,todo⟩)) := by
  have none : hashed s.staHash sta = 0 := by
    have before := placed.once sta
    have some : 0 < held s.calls sta := held_pos.mpr ⟨t,by rw [call]; exact List.mem_cons_self⟩
    omega
  unfold rtwFreeStainfo unhash StaPriv.setCall
  constructor
  · intro other
    have before := placed.once other
    have chain := hashed_erase s.staHash sta other (by omega)
    have hand := held_update s.calls t (some (.release sta .unhashed (some ⟨kept,since,todo⟩))) other
    rw [call] at hand
    dsimp only [handOf,todoOf] at hand ⊢
    split at chain <;> rename_i same <;> simp [same] at before chain hand none ⊢ <;> omega
  · dsimp only
    rw [placed.total,sub_eq_iff_eq_add]
    apply total_more _ _ sta
    intro other
    have chain := hashed_erase s.staHash sta other (by omega)
    have owe := owed_update s.calls t (some (.release sta .unhashed (some ⟨kept,since,todo⟩))) other
    rw [call] at owe
    dsimp only [owedOf,todoOf] at owe
    rw [List.count_cons] at owe
    split at chain <;> rename_i same <;> simp [same,Ne.symm] at none chain owe ⊢ <;> omega

theorem Placed.relist (placed : Placed s) (call : s.calls t = some (.release sta .unhashed rest)) :
    Placed (rtwRelistStainfo s t sta rest) := by
  unfold rtwRelistStainfo
  constructor
  · intro other
    have before := placed.once other
    have hand := held_update s.calls t (some (.release sta .listed rest)) other
    rw [call] at hand
    dsimp only [handOf] at hand ⊢
    rw [List.count_cons] at hand
    rw [List.count_append,List.count_singleton]
    omega
  · dsimp only
    rw [placed.total]
    apply total_same
    intro other
    have owe := owed_update s.calls t (some (.release sta .listed rest)) other
    rw [call] at owe
    dsimp only [owedOf] at owe
    omega

theorem Placed.scan (placed : Placed s) (call : s.calls t = some (.counted kept)) : Placed (rtwScanStainfo s t kept) := by
  unfold rtwScanStainfo
  generalize isTodo : (List.finRange numSta).flatMap (fun index => (s.staHash index).filter (fun sta => !spared kept sta)) = todo
  have parts : ∀ sta, hashed (fun index => (s.staHash index).filter (spared kept)) sta + todo.count sta = hashed s.staHash sta := by
    intro sta
    obtain ⟨stays,goes⟩ := hashed_split s.staHash (spared kept) sta
    rw [isTodo] at goes
    split at stays <;> rename_i keeps <;> simp [keeps] at goes <;> omega
  constructor
  · intro sta
    have before := placed.once sta
    have both := parts sta
    have hand := held_update s.calls t (some (.sweep ⟨kept,s.uses,todo⟩)) sta
    rw [call] at hand
    dsimp only [handOf,List.count_nil] at hand ⊢
    omega
  · dsimp only
    rw [placed.total]
    apply total_same
    intro sta
    have both := parts sta
    have owe := owed_update s.calls t (some (.sweep ⟨kept,s.uses,todo⟩)) sta
    rw [call] at owe
    dsimp only [owedOf,List.count_nil] at owe
    omega

end Rtl8852au.Sta
