
namespace Rtl8852au.IdleBusy
open List
variable {α : Type u}

structure Pool (α : Type u) where
  idle : List α
  busy : List α
  num : Nat

namespace Pool

def pop (p : Pool α) : Option (α × Pool α) :=
  match p.idle with
  | [] => none
  | a :: rest => some (a,{p with idle:=rest,num:=p.num - 1})

def push (p : Pool α) (a : α) : Pool α := {p with idle:=a :: p.idle,num:=p.num + 1}
def append (p : Pool α) (a : α) : Pool α := {p with busy:=p.busy ++ [a]}

structure Whole (all : List α) (p : Pool α) : Prop where
  split : (p.idle ++ p.busy).Perm all
  once : all.Nodup
  count : p.num = p.idle.length

variable {all : List α} {p q : Pool α} {a : α}

theorem Whole.nodup (whole : Whole all p) : (p.idle ++ p.busy).Nodup := whole.split.nodup_iff.mpr whole.once

theorem Whole.apart (whole : Whole all p) (idle : a ∈ p.idle) : a ∉ p.busy := by
  intro busy
  exact (nodup_append.mp whole.nodup).2.2 a idle a busy rfl

theorem Whole.busy_once (whole : Whole all p) : p.busy.Nodup := (nodup_append.mp whole.nodup).2.1

theorem pop_cons (popped : p.pop = some (a,q)) :
    ∃ rest, p.idle = a :: rest ∧ q = {p with idle:=rest,num:=p.num - 1} := by
  unfold pop at popped
  cases idle : p.idle with
  | nil => rw [idle] at popped; cases popped
  | cons b rest =>
      rw [idle] at popped
      cases popped
      exact ⟨rest,rfl,rfl⟩

theorem Whole.taken (whole : Whole all p) (popped : p.pop = some (a,q)) : Whole all (q.append a) := by
  obtain ⟨rest,idle,rfl⟩ := pop_cons popped
  have split := whole.split
  have count := whole.count
  rw [idle] at split count
  constructor
  · refine List.Perm.trans ?_ split
    rw [append,← append_assoc]
    exact perm_append_singleton a (rest ++ p.busy)
  · exact whole.once
  · simp only [append]
    rw [count,length_cons]
    omega

theorem Whole.fresh (whole : Whole all p) (popped : p.pop = some (a,q)) : a ∉ p.busy := by
  obtain ⟨rest,idle,_⟩ := pop_cons popped
  exact whole.apart (idle ▸ mem_cons_self ..)

theorem taken_busy (popped : p.pop = some (a,q)) : (q.append a).busy = p.busy ++ [a] := by
  obtain ⟨rest,_,rfl⟩ := pop_cons popped
  rfl

variable [DecidableEq α]

def unlink (p : Pool α) (a : α) : Option (Pool α) :=
  if a ∈ p.idle then some {p with idle:=p.idle.erase a}
  else if a ∈ p.busy then some {p with busy:=p.busy.erase a}
  else none

theorem Whole.unlink_busy (whole : Whole all p) (busy : a ∈ p.busy) :
    p.unlink a = some {p with busy:=p.busy.erase a} := by
  have out : a ∉ p.idle := fun idle => whole.apart idle busy
  rw [unlink,if_neg out,if_pos busy]

theorem Whole.given (whole : Whole all p) (busy : a ∈ p.busy) :
    Whole all (push {p with busy:=p.busy.erase a} a) := by
  constructor
  · refine List.Perm.trans ?_ whole.split
    have back := perm_cons_erase busy
    calc (a :: p.idle ++ p.busy.erase a).Perm (p.idle ++ a :: p.busy.erase a) := perm_middle.symm
      _ |>.Perm (p.idle ++ p.busy) := back.symm.append_left p.idle
  · exact whole.once
  · simp only [push,whole.count,length_cons]

theorem Whole.given_busy (whole : Whole all p) (a b : α) :
    b ∈ (push {p with busy:=p.busy.erase a} a).busy ↔ b ∈ p.busy ∧ b ≠ a := by
  have erased := whole.busy_once.mem_erase_iff (a := b) (b := a)
  simp only [push]
  rw [erased]
  exact And.comm

theorem Whole.back (whole : Whole all p) (popped : p.pop = some (a,q)) :
    (q.append a).unlink a = some {q.append a with busy:=(q.append a).busy.erase a} ∧
      push {q.append a with busy:=(q.append a).busy.erase a} a = p := by
  have taken := whole.taken popped
  have fresh := whole.fresh popped
  have listed : a ∈ (q.append a).busy := by
    rw [taken_busy popped]
    exact mem_append_right _ (mem_singleton_self a)
  refine ⟨taken.unlink_busy listed,?_⟩
  obtain ⟨rest,idle,rfl⟩ := pop_cons popped
  have count := whole.count
  rw [idle,length_cons] at count
  have busy : (p.busy ++ [a]).erase a = p.busy := by
    rw [erase_append_right _ fresh]
    simp
  have num : p.num - 1 + 1 = p.num := by omega
  simp only [push,append,busy,num,← idle]
end Pool
end Rtl8852au.IdleBusy
